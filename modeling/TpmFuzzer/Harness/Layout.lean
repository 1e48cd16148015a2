import TpmFuzzer.Proto.Postprocessors
import TpmFuzzer.Session.Turns

/-!
# The layout of a marshalled command

What the marshaller writes, in the words of the session layer.  Ten kinds of commands have a list of
sessions, always behind one handle:

    marshalCommand mu c = some out  →  c.sessionPart = some p  →
      out = header | handle | authorizationSize, sessions | params       (marshalCommand_layout)

A session is an auth entry whose nonce and HMAC are cut to what their 16-bit sizes count
(`authEntry`).
-/

namespace Proto

open Bytes Tpm Writer Session

/-! ## The kinds with sessions -/

/-- The fields of a command with sessions; `params` are those declared after them. -/
structure SessionPart where
  header : TPMHeader
  handle : UInt32
  sessions : List TPMSession
  params : List Field

def TPMCommand.sessionPart (c : TPMCommand) : Option SessionPart :=
  match c.fields with
  | some (⟨_, .message (.tpmHeader header)⟩ :: ⟨_, .uint32 handle⟩ ::
      ⟨_, .repeated (.sessions sessions)⟩ :: params) => some ⟨header, handle, sessions, params⟩
  | some (⟨_, .message (.tpmHeader header)⟩ :: ⟨_, .enum _ handle⟩ ::
      ⟨_, .repeated (.sessions sessions)⟩ :: params) => some ⟨header, handle, sessions, params⟩
  | _ => none

/-- The command code of each kind. -/
def TPMCommand.commandCode : TPMCommand → UInt32
  | .notSet => 0
  | .getrandom _ => TPM_CC_GET_RANDOM
  | .create _ => TPM_CC_CREATE
  | .createprimary _ => TPM_CC_CREATE_PRIMARY
  | .startauthsession _ => TPM_CC_START_AUTH_SESSION
  | .rsadecrypt _ => TPM_CC_RSA_DECRYPT
  | .clear _ => TPM_CC_CLEAR
  | .rsaencrypt _ => TPM_CC_RSA_ENCRYPT
  | .pcrevent _ => TPM_CC_PCR_EVENT
  | .pcrallocate _ => TPM_CC_PCR_ALLOCATE
  | .nvdefinespace _ => TPM_CC_NV_DEFINE_SPACE
  | .setprimarypolicy _ => TPM_CC_SET_PRIMARY_POLICY
  | .load _ => TPM_CC_LOAD
  | .makecredential _ => TPM_CC_MAKE_CREDENTIAL
  | .pcrsetauthpolicy _ => TPM_CC_PCR_SET_AUTH_POLICY
  | .pcrread _ => TPM_CC_PCR_READ

/-- A command without this part writes no authorization area anywhere. -/
theorem sessionPart_eq_none_iff (c : TPMCommand) :
    c.sessionPart = none ↔ ∀ f ∈ c.fields.getD [], ∀ l, f.value ≠ .repeated (.sessions l) := by
  cases c <;>
    simp [TPMCommand.sessionPart, TPMCommand.fields, Field.header, Field.sessions, Field.word,
      Field.rh, Field.alg, Field.data, Field.digest, Field.publicKeyRsa, Field.rsaDecrypt,
      Field.pcrs, Field.inSensitive, Field.inPublic]

/-- The post-processor of a kind with sessions sets its tag and its code. -/
theorem postProcess_header {c : TPMCommand} {p : SessionPart}
    (h : (postProcess c).sessionPart = some p) :
    p.header.tag = TPM_ST_SESSIONS ∧ p.header.commandCode = c.commandCode := by
  cases c <;> cases h <;> exact ⟨rfl, rfl⟩

theorem commandCode_postProcess (c : TPMCommand) : (postProcess c).commandCode = c.commandCode := by
  cases c <;> rfl

/-! ## The bytes -/

theorem withSize_header (h : TPMHeader) (rest : Bytes) :
    withSize (h.encode ++ rest) = message h.tag.toUInt16 h.commandCode rest := by
  have hlen : (h.encode ++ rest).length = 10 + rest.length := by
    rw [List.length_append, length_header]
  unfold withSize
  rw [hlen, TPMHeader.encode, List.append_assoc, List.append_assoc, message]
  exact poke_append rfl rfl

/-- Every command is its header, with its own length in it, and the other fields. -/
theorem marshalCommand_message {mu : Tss2Mu} {c : TPMCommand} {header : Option TPMHeader}
    {fs : List Field} {out : Bytes} (hf : c.fields = some (.header header :: fs))
    (h : marshalCommand mu c = some out) :
    ∃ body, joinAll (Field.encode mu.privateSize) fs = some body ∧
      out = message (header.getD {}).tag.toUInt16 (header.getD {}).commandCode body ∧
      out.length ≤ kMaxBuffer := by
  rw [marshalCommand_eq, TPMCommand.encode, hf, Option.bind_some] at h
  obtain ⟨x, hx, h⟩ := Option.bind_eq_some_iff.mp h
  obtain ⟨body, hbody, rfl⟩ := Option.map_eq_some_iff.mp
    (show (joinAll (Field.encode mu.privateSize) fs).map ((header.getD {}).encode ++ ·) =
      some x from hx)
  refine ⟨body, hbody, ?_⟩
  split at h
  · next hfit =>
    cases h
    rw [withSize_header]
    refine ⟨rfl, ?_⟩
    rw [List.length_append, length_header] at hfit
    rw [length_message]
    exact hfit
  · cases h

/-- The handle is a 32-bit field of one type or the other. -/
theorem fields_sessionPart {c : TPMCommand} {p : SessionPart} (n : Nat)
    (h : c.sessionPart = some p) :
    ∃ header handle, c.fields = some (.header header :: handle ::
      .sessions p.sessions :: p.params) ∧
      header.getD {} = p.header ∧ handle.encode n = some (write32 p.handle) := by
  cases c <;> cases h <;> exact ⟨_, _, rfl, rfl, rfl⟩

/-- Header, handle, authorization area, parameters. -/
theorem marshalCommand_layout {mu : Tss2Mu} {c : TPMCommand} {p : SessionPart} {out : Bytes}
    (hp : c.sessionPart = some p) (h : marshalCommand mu c = some out) :
    ∃ params, joinAll (Field.encode mu.privateSize) p.params = some params ∧
      out = message p.header.tag.toUInt16 p.header.commandCode
        (write32 p.handle ++ (authArea p.sessions ++ params)) ∧ out.length ≤ kMaxBuffer := by
  obtain ⟨header, handle, hfields, hheader, hhandle⟩ := fields_sessionPart mu.privateSize hp
  obtain ⟨body, hbody, hout, hle⟩ := marshalCommand_message hfields h
  rw [hheader] at hout
  rw [joinAll, joinAll, hhandle, encode_sessions] at hbody
  cases hparams : joinAll (Field.encode mu.privateSize) p.params with
  | none =>
    rw [hparams] at hbody
    cases hbody
  | some params =>
    rw [hparams, join_some, join_some] at hbody
    cases hbody
    exact ⟨params, rfl, hout, hle⟩

/-- The size of the authorization area. -/
def areaSize (l : List TPMSession) : Nat := (l.flatMap TPMSession.encode).length

theorem authArea_append (l : List TPMSession) (rest : Bytes) :
    authArea l ++ rest =
      write32 (UInt32.ofNat (areaSize l)) ++ (l.flatMap TPMSession.encode ++ rest) := by
  unfold authArea areaSize
  rw [List.append_assoc]

theorem length_authArea (l : List TPMSession) : (authArea l).length = 4 + areaSize l := by
  unfold authArea areaSize
  rw [List.length_append, length_write32]

section

variable (tag : UInt16) (code handle : UInt32) (l : List TPMSession) (params slack : Bytes)

theorem drop_area : (message tag code (write32 handle ++ (authArea l ++ params)) ++ slack).drop 14 =
    authArea l ++ (params ++ slack) := by
  have h := drop_message tag code (write32 handle ++ (authArea l ++ params)) slack
  rw [List.append_assoc, List.append_assoc] at h
  exact drop_of_drop h rfl

theorem drop_entries :
    (message tag code (write32 handle ++ (authArea l ++ params)) ++ slack).drop 18 =
      l.flatMap TPMSession.encode ++ (params ++ slack) := by
  have h := drop_area tag code handle l params slack
  rw [authArea_append l (params ++ slack)] at h
  exact drop_of_drop h (by rw [length_write32])

theorem drop_cpBuffer : (message tag code (write32 handle ++ (authArea l ++ params)) ++ slack).drop
    (18 + areaSize l) = params ++ slack :=
  drop_of_drop (drop_entries tag code handle l params slack) rfl

theorem read32_handle :
    read32 (message tag code (write32 handle ++ (authArea l ++ params)) ++ slack) 10 = handle := by
  have h := drop_message tag code (write32 handle ++ (authArea l ++ params)) slack
  rw [List.append_assoc] at h
  exact read32_of_drop h

theorem read32_areaSize (h : areaSize l < 2 ^ 32) :
    (read32 (message tag code (write32 handle ++ (authArea l ++ params)) ++ slack) 14).toNat =
      areaSize l := by
  have hd := drop_area tag code handle l params slack
  rw [authArea_append l (params ++ slack)] at hd
  rw [read32_of_drop hd, UInt32.toNat_ofNat_of_lt' h]

theorem length_layout :
    (message tag code (write32 handle ++ (authArea l ++ params))).length =
      18 + areaSize l + params.length := by
  rw [length_message, List.length_append, List.length_append, length_write32, length_authArea]
  omega

end

/-- The patcher takes a marshalled command for consistent. -/
theorem goodHeader_marshalled {tag : UInt16} {code : UInt32} {body out : Bytes} (slack : Bytes)
    {cap : Nat} (hout : out = message tag code body) (hlt : out.length < 2 ^ 32)
    (hcap : out.length ≤ cap) :
    GoodHeader (out ++ slack) out.length cap := by
  subst hout
  have hgood := goodHeader_message slack hlt
  exact ⟨hgood.ten_le, hcap, hgood.header⟩

/-! ## Sessions as auth entries -/

theorem length_take_uint16 (b : Bytes) :
    (b.take (UInt16.ofNat b.length).toNat).length = (UInt16.ofNat b.length).toNat := by
  have hle : (UInt16.ofNat b.length).toNat ≤ b.length := by
    rw [UInt16.toNat_ofNat']
    exact Nat.mod_le _ _
  rw [List.length_take, Nat.min_eq_left hle]

/-- The bytes that a 16-bit size counts. -/
def cut (b : Bytes) : TPM2B where
  bytes := b.take (UInt16.ofNat b.length).toNat
  length_lt := by
    rw [length_take_uint16]
    exact UInt16.toNat_lt _

theorem size_cut (b : Bytes) : (cut b).size = (UInt16.ofNat b.length).toNat := length_take_uint16 b

theorem encode_cut (b : Bytes) :
    (cut b).encode = write16 (UInt16.ofNat b.length) ++ b.take (UInt16.ofNat b.length).toNat := by
  rw [TPM2B.encode, tpm2b, ← TPM2B.size, size_cut, UInt16.ofNat_toNat]
  rfl

def TPMSession.authEntry (s : TPMSession) : AuthEntry where
  handle := s.sessionHandle
  nonce := cut s.nonce
  attrs := s.sessionAttributes.toUInt8
  hmac := cut s.hmac

theorem encode_authEntry (s : TPMSession) : s.authEntry.encode = s.encode := by
  unfold AuthEntry.encode TPMSession.authEntry TPMSession.encode
  simp only [encode_cut, List.append_assoc, List.singleton_append]

theorem length_session (s : TPMSession) : 9 ≤ s.encode.length := by
  rw [← encode_authEntry, AuthEntry.length_encode]
  omega

theorem areaSize_pos_iff (l : List TPMSession) : 9 ≤ areaSize l ↔ l ≠ [] := by
  cases l with
  | nil => simp [areaSize]
  | cons s l =>
    have h := length_session s
    refine iff_of_true ?_ nofun
    rw [areaSize, List.flatMap_cons, List.length_append]
    omega

end Proto
