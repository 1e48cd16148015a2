import TpmFuzzer.Harness.Layout
import TpmFuzzer.Session.Rewrite

/-!
# Marshalled commands under the patcher

The marshaller goes by the declaration order of the fields, the patcher by the handle counts of
`kTable`. For the kinds that are in the table they agree on every position (`patcher_finds`), and a
command whose only session names the armed handle is sent with the authorization of that session.  A
kind that is not in the table is sent as it is:

    Authorized mu C st c p s out slack  ↔  c.InTable ∨ AlreadyAuthorized C st c p s params
                                                                                (authorized_iff)
-/

namespace Proto

open Bytes Tpm Writer Traced Session

/-! ## Positions -/

theorem handleCount_eq_one {c : TPMCommand} {p : SessionPart} {attr : CommandAttrEntry}
    (hp : c.sessionPart = some p) (hattr : lookupCommandAttr c.commandCode = some attr) :
    attr.handleCount = 1 := by
  cases c <;> cases hp <;> cases hattr <;> rfl

/-- What the patcher reads in the buffer is what the message says. -/
structure PatcherFinds (privateSize : Nat) (p : SessionPart) (attr : CommandAttrEntry) (buf : Bytes)
    (size : Nat) : Prop where
  tag : read16 buf 0 = TPM2_ST_SESSIONS
  area : (findAuthArea buf size attr).val = some ⟨14, 18, areaSize p.sessions⟩
  area_eq : slice buf 14 (4 + areaSize p.sessions) = authArea p.sessions
  handle : read32 buf 10 = p.handle
  entry : ∀ s more, p.sessions = s :: more →
    read32 buf 18 = s.sessionHandle ∧ (read16 buf 22).toNat = s.nonce.length ∧
      byteAt buf (24 + s.nonce.length) = s.sessionAttributes.toUInt8 ∧
      (read16 buf (25 + s.nonce.length)).toNat = s.hmac.length
  cpBuffer : joinAll (Field.encode privateSize) p.params =
    some (slice buf (18 + areaSize p.sessions) (size - (18 + areaSize p.sessions)))

theorem size_cut_eq {b : Bytes} (h : b.length < 65536) : (cut b).size = b.length := by
  rw [size_cut, UInt16.toNat_ofNat_of_lt' (by omega)]

/-- The first entry is read field by field. -/
theorem reads_entry {buf rest : Bytes} {s : TPMSession} (hd : buf.drop 18 = s.encode ++ rest)
    (hnonce : s.nonce.length < 65536) (hhmac : s.hmac.length < 65536) :
    read32 buf 18 = s.sessionHandle ∧ (read16 buf 22).toNat = s.nonce.length ∧
      byteAt buf (24 + s.nonce.length) = s.sessionAttributes.toUInt8 ∧
      (read16 buf (25 + s.nonce.length)).toNat = s.hmac.length := by
  have hn := size_cut_eq hnonce
  have hh := size_cut_eq hhmac
  rw [← encode_authEntry] at hd
  have h18 : buf.drop 18 = write32 s.sessionHandle ++ ((cut s.nonce).encode ++
      (s.sessionAttributes.toUInt8 :: ((cut s.hmac).encode ++ rest))) := by
    rw [hd]
    simp [AuthEntry.encode, TPMSession.authEntry]
  have h22 := drop_of_drop (j := 22) h18 rfl
  have hattrs := drop_of_drop (j := 24 + s.nonce.length) h22 (by rw [TPM2B.length_encode]; omega)
  have hmac := drop_of_drop (x := [s.sessionAttributes.toUInt8]) (j := 25 + s.nonce.length) hattrs
    (by simp; omega)
  refine ⟨read32_of_drop h18, ?_, byteAt_of_drop hattrs, ?_⟩
  · rw [TPM2B.read16_of_drop h22, hn]
  · rw [TPM2B.read16_of_drop hmac, hh]

theorem startAuthSession_ne {c : TPMCommand} {p : SessionPart} (hp : c.sessionPart = some p) :
    c.commandCode ≠ TPM2_CC_StartAuthSession := by
  cases c <;> cases hp <;> exact of_decide_eq_true rfl

/-- Marshaller and patcher agree on where things are. -/
theorem patcher_finds (mu : Tss2Mu) (C : Crypto) (st : SessionState) {c : TPMCommand}
    {p : SessionPart} {attr : CommandAttrEntry} {out : Bytes} (slack : Bytes) {cap : Nat}
    (hp : c.sessionPart = some p) (hattr : lookupCommandAttr c.commandCode = some attr)
    (htag : p.header.tag = TPM_ST_SESSIONS) (hcode : p.header.commandCode = c.commandCode)
    (hsizes : ∀ s ∈ p.sessions, s.nonce.length < 65536 ∧ s.hmac.length < 65536)
    (hm : marshalCommand mu c = some out) (hcap : out.length ≤ cap) :
    (sessionAuthPatchCommand C st (some (out ++ slack)) out.length cap).val.state.lastCommandCode =
        c.commandCode ∧
      PatcherFinds mu.privateSize p attr (out ++ slack) out.length := by
  obtain ⟨params, hparams, hout, hle⟩ := marshalCommand_layout hp hm
  have hk : kMaxBuffer = 1048576 := rfl
  have hsize : out.length = 18 + areaSize p.sessions + params.length := by
    rw [hout, length_layout]
  rw [hcode] at hout
  have hgood := goodHeader_marshalled slack hout (by omega) hcap
  constructor
  · rw [sessionAuthPatchCommand_good C st hgood, hout, read32_message_code]
    simp only
    rw [if_neg (startAuthSession_ne hp)]
    split
    · rfl
    · split <;> rfl
  · refine ⟨?_, ?_, ?_, ?_, ?_, ?_⟩
    · rw [hout, read16_message, htag]
      rfl
    · have hone := handleCount_eq_one hp hattr
      have hread : (read32 (out ++ slack) 14).toNat = areaSize p.sessions := by
        rw [hout]
        exact read32_areaSize _ _ _ _ _ _ (by omega)
      simp only [findAuthArea, hone, val_bind, val_ite, val_pure, Mem.val_sum,
        Mem.val_read32, hread]
      rw [if_neg (by omega), if_neg (by omega)]
    · have hd : (out ++ slack).drop 14 = authArea p.sessions ++ (params ++ slack) := by
        rw [hout]
        exact drop_area _ _ _ _ _ _
      exact slice_of_drop hd (length_authArea p.sessions)
    · rw [hout]
      exact read32_handle _ _ _ _ _ _
    · intro s more hs
      obtain ⟨hnonce, hhmac⟩ := hsizes s (by rw [hs]; exact List.mem_cons_self)
      have hd : (out ++ slack).drop 18 = s.encode ++
          (more.flatMap TPMSession.encode ++ (params ++ slack)) := by
        rw [hout, drop_entries, hs, List.flatMap_cons, List.append_assoc]
      exact reads_entry hd hnonce hhmac
    · have hd : (out ++ slack).drop (18 + areaSize p.sessions) = params ++ slack := by
        rw [hout]
        exact drop_cpBuffer _ _ _ _ _ _
      rw [hparams, slice_of_drop hd (by omega)]

/-- A decryption under two sessions that have nonces and HMACs already. -/
def twoSessionDecrypt : TPMRSADecrypt where
  header := some { tag := TPM_ST_SESSIONS, commandCode := TPM_CC_RSA_DECRYPT }
  keyHandle := 0x80000000
  sessions :=
    [{ sessionHandle := 0x02000000, nonce := [1, 2, 3]
       sessionAttributes := 0x101, hmac := [4, 5] },
     { sessionHandle := 0x02000001, nonce := [6], hmac := [7, 8] }]
  cipherText := some { buffer := [0xC1, 0xC2, 0xC3, 0xC4] }
  inScheme := some { scheme := TPM_ALG_RSAES }
  label := some { buffer := [0x6C, 0x00] }

/-- The area with both entries lies at 14, behind it the cipher text, the scheme and the label. -/
theorem rsaDecrypt_found :
    ∃ out, marshalCommand Tss2Mu.standard (.rsadecrypt twoSessionDecrypt) = some out ∧
      (sessionAuthPatchCommand clearDigests armedState
        (some (out ++ List.replicate 64 0)) out.length
        (out.length + 64)).val.state.lastCommandCode = TPM_CC_RSA_DECRYPT ∧
      (findAuthArea (out ++ List.replicate 64 0) out.length ⟨TPM2_CC_RSA_Decrypt, 1, 1, 0⟩).val =
        some ⟨14, 18, 26⟩ ∧
      (read16 (out ++ List.replicate 64 0) 22).toNat = 3 ∧
      byteAt (out ++ List.replicate 64 0) 27 = 1 ∧
      (read16 (out ++ List.replicate 64 0) 28).toNat = 2 ∧
      slice (out ++ List.replicate 64 0) 44 (out.length - 44) =
        [0, 4, 0xC1, 0xC2, 0xC3, 0xC4, 0x00, 0x15, 0, 2, 0x6C, 0x00] := by
  obtain ⟨out, h⟩ := Option.isSome_iff_exists.mp
    (show (marshalCommand Tss2Mu.standard (.rsadecrypt twoSessionDecrypt)).isSome by decide +kernel)
  have hsizes : ∀ s ∈ twoSessionDecrypt.sessions, s.nonce.length < 65536 ∧
      s.hmac.length < 65536 := by
    intro s hs
    obtain rfl | rfl := List.mem_pair.mp hs <;> exact ⟨by decide, by decide⟩
  obtain ⟨hcode, hfound⟩ := patcher_finds Tss2Mu.standard clearDigests armedState
    (List.replicate 64 0) rfl rfl rfl rfl hsizes h (Nat.le_add_right out.length 64)
  obtain ⟨-, hnonce, hattrs, hhmac⟩ := hfound.entry _ _ rfl
  refine ⟨out, h, hcode, hfound.area, hnonce, hattrs, hhmac, ?_⟩
  exact (Option.some.inj hfound.cpBuffer).symm

/-! ## The authorization of a command with one session -/

/-- The kinds that `kTable` has. -/
def TPMCommand.InTable : TPMCommand → Prop
  | .clear _ | .createprimary _ | .create _ | .load _ | .rsadecrypt _ | .nvdefinespace _ => True
  | _ => False

theorem inTable_cases {c : TPMCommand} {p : SessionPart}
    (hp : (postProcess c).sessionPart = some p) :
    (c.InTable ∧ ∃ attr, lookupCommandAttr c.commandCode = some attr) ∨
      (¬ c.InTable ∧ lookupCommandAttr c.commandCode = none) := by
  cases c <;> cases hp <;> first | exact Or.inl ⟨trivial, _, rfl⟩ | exact Or.inr ⟨id, rfl⟩

/-- A handle that is its own Name: that of a hierarchy or another permanent entity, or of a PCR. -/
def NamesItself (h : UInt32) : Prop := (h >>> 24).toUInt8 = 0x40 ∨ (h >>> 24).toUInt8 = 0x00

instance (h : UInt32) : Decidable (NamesItself h) := inferInstanceAs (Decidable (_ ∨ _))

theorem val_handleName_self {h : UInt32} (hh : NamesItself h) (names : NameTable) :
    (handleName names h kMaxNameSize).val = write32 h := by
  have hcap : ¬ kMaxNameSize < 4 := by decide
  simp only [handleName]
  rcases hh with hh | hh <;> rw [hh] <;> rfl

/-- The auth entry of the armed session: a 16-byte nonce, and the HMAC over the command code, the
handle and the parameters, the nonces and the attributes. -/
def layerEntry (C : Crypto) (st : SessionState) (code handle : UInt32) (attrs : UInt8)
    (params : Bytes) : AuthEntry where
  handle := st.handle
  nonce := ⟨List.replicate 16 0xAA, by decide⟩
  attrs := attrs
  hmac := ⟨C.hmacSha256 st.key (C.sha256 (write32 code ++ (write32 handle ++ params)) ++
      (List.replicate 16 0xAA ++ (st.nonce ++ [attrs]))), by
    rw [C.length_hmacSha256]
    decide⟩

theorem length_layerEntry (C : Crypto) (st : SessionState) (code handle : UInt32) (attrs : UInt8)
    (params : Bytes) : (layerEntry C st code handle attrs params).encode.length = 57 := by
  rw [AuthEntry.length_encode]
  show 9 + 16 + (C.hmacSha256 _ _).length = 57
  rw [C.length_hmacSha256]

/-- The command with this entry for its authorization area. -/
def authorizedCommand (C : Crypto) (st : SessionState) (code handle : UInt32) (attrs : UInt8)
    (params : Bytes) : Bytes :=
  message TPM2_ST_SESSIONS code
    (write32 handle ++
      (write32 57 ++ ((layerEntry C st code handle attrs params).encode ++ params)))

/-- `SessionAuthPatchCommand` leaves that command in the buffer. -/
def Authorized (C : Crypto) (st : SessionState) (code handle : UInt32) (attrs : UInt8)
    (params out slack : Bytes) (cap : Nat) : Prop :=
  let r := (sessionAuthPatchCommand C st (some (out ++ slack)) out.length cap).val
  ∃ buf, r.buf = some buf ∧ buf.take r.size = authorizedCommand C st code handle attrs params

/-- A message with one session is a command with one auth entry. -/
def oneSessionCommand {attr : CommandAttrEntry} (hattr : attr ∈ kTable)
    (hone : attr.handleCount = 1) (handle : UInt32) (s : TPMSession) (params : Bytes) :
    TaggedCommand where
  attr := attr
  attr_mem := hattr
  handles := [handle]
  handles_length := hone.symm
  entry := s.authEntry
  moreEntries := []
  params := params

section

variable {attr : CommandAttrEntry} (hattr : attr ∈ kTable) (hone : attr.handleCount = 1)
  (handle : UInt32) (s : TPMSession) (params : Bytes)

theorem encode_oneSessionCommand : (oneSessionCommand hattr hone handle s params).encode =
    message TPM2_ST_SESSIONS attr.commandCode (write32 handle ++ (authArea [s] ++ params)) := by
  have hsize : (oneSessionCommand hattr hone handle s params).authSize = areaSize [s] := by
    simp [TaggedCommand.authSize, oneSessionCommand, areaSize, encode_authEntry]
  unfold TaggedCommand.encode TaggedCommand.body
  rw [hsize, authArea_append]
  simp [oneSessionCommand, handleBytes, encode_authEntry]

/-- Authorizing it puts the entry of the armed session in the place of its own. -/
theorem encode_authorise (C : Crypto) {st : SessionState} (hH : s.sessionHandle = st.handle)
    (hhandle : NamesItself handle) :
    ((oneSessionCommand hattr hone handle s params).authorise C st).encode =
      authorizedCommand C st attr.commandCode handle s.sessionAttributes.toUInt8 params := by
  have hnames : namesOf st [handle] = write32 handle := by
    rw [namesOf, List.flatMap_cons, List.flatMap_nil, List.append_nil, val_handleName_self hhandle]
  have hentry : ((oneSessionCommand hattr hone handle s params).authorise C st).entry =
      layerEntry C st attr.commandCode handle s.sessionAttributes.toUInt8 params := by
    rw [layerEntry, ← hH]
    simp only [← hnames]
    rfl
  have hsize : ((oneSessionCommand hattr hone handle s params).authorise C st).authSize = 57 :=
    TaggedCommand.authSize_authorise C st _
  unfold TaggedCommand.encode TaggedCommand.body
  rw [hsize, hentry]
  simp [TaggedCommand.authorise, TaggedCommand.withAuth, oneSessionCommand,
    handleBytes, authorizedCommand]

end

theorem authorized_of_mem (C : Crypto) {st : SessionState} {attr : CommandAttrEntry}
    {handle : UInt32} {s : TPMSession} {params out : Bytes} (slack : Bytes) {cap : Nat}
    (hinit : st.initialized = true) (hdigest : st.digestSize ≠ 0)
    (hattr : attr ∈ kTable) (hone : attr.handleCount = 1)
    (hcc : attr.commandCode ≠ TPM2_CC_StartAuthSession) (hH : s.sessionHandle = st.handle)
    (hhandle : NamesItself handle)
    (hout : out = message TPM2_ST_SESSIONS attr.commandCode
      (write32 handle ++ (authArea [s] ++ params)))
    (hlt : out.length < 2 ^ 32) (hcap : out.length + 64 ≤ cap)
    (hbuf : cap ≤ (out ++ slack).length) :
    Authorized C st attr.commandCode handle s.sessionAttributes.toUInt8 params out slack cap := by
  have henc := encode_oneSessionCommand hattr hone handle s params
  have hauth := encode_authorise hattr hone handle s params C hH hhandle
  rw [← henc] at hout
  generalize hc : oneSessionCommand hattr hone handle s params = c at hout hauth
  have hm : c.moreEntries = [] := by
    rw [← hc]
    rfl
  have hnames : ∀ h ∈ c.handles, (handleName st.names h kMaxNameSize).val ≠ [] := by
    intro h hmem
    rw [← hc] at hmem
    rw [List.mem_singleton.mp (show h ∈ [handle] from hmem), val_handleName_self hhandle]
    exact nofun
  have hgrow := TaggedCommand.size_authorise C st c
  subst hout
  rw [TaggedCommand.length_encode] at hlt hcap
  have hattrc : c.attr = attr := by
    rw [← hc]
    rfl
  have hHc : c.entry.handle = st.handle := by
    rw [← hc]
    exact hH
  obtain ⟨rest, hr⟩ := sessionAuthPatchCommand_authorise C slack hinit hdigest
    (by rw [hattrc]; exact hcc)
    hm hHc hnames hlt (by omega) (by omega) hbuf
  refine ⟨(c.authorise C st).encode ++ rest, ?_, ?_⟩
  · rw [TaggedCommand.length_encode, hr]
  · rw [TaggedCommand.length_encode, hr, ← TaggedCommand.length_encode, List.take_left]
    exact hauth

/-- A command that is not in the table is sent as it is. -/
theorem patch_of_not_mem (C : Crypto) (st : SessionState) {tag : UInt16} {code : UInt32}
    {body out : Bytes} (slack : Bytes) {cap : Nat} (hnone : lookupCommandAttr code = none)
    (hout : out = message tag code body) (hlt : out.length < 2 ^ 32) (hcap : out.length ≤ cap) :
    (sessionAuthPatchCommand C st (some (out ++ slack)) out.length cap).val =
      ⟨{ st with lastCommandCode := code }, some (out ++ slack), out.length⟩ := by
  have hcc : code ≠ TPM2_CC_StartAuthSession := by
    intro h
    rw [h] at hnone
    cases hnone
  have hcode : read32 (out ++ slack) 6 = code := by
    rw [hout]
    exact read32_message_code _ _ _ _
  rw [sessionAuthPatchCommand_good C st (goodHeader_marshalled slack hout hlt hcap)]
  simp only [hcode]
  rw [if_neg hcc, patchSessionCommand, hnone]
  split
  · rfl
  · split <;> rfl

/-- Then it carries the right authorization only if it came with it. -/
theorem authorized_iff_of_not_mem (C : Crypto) (st : SessionState) {code handle : UInt32}
    {s : TPMSession} {params out : Bytes} (slack : Bytes) {cap : Nat}
    (hnone : lookupCommandAttr code = none)
    (hout : out = message TPM2_ST_SESSIONS code (write32 handle ++ (authArea [s] ++ params)))
    (hlt : out.length < 2 ^ 32) (hcap : out.length ≤ cap) :
    Authorized C st code handle s.sessionAttributes.toUInt8 params out slack cap ↔
      s.authEntry = layerEntry C st code handle s.sessionAttributes.toUInt8 params := by
  unfold Authorized
  rw [patch_of_not_mem C st slack hnone hout hlt hcap]
  have harea : authArea [s] = write32 (UInt32.ofNat s.encode.length) ++ s.encode := by
    simp [authArea]
  constructor
  · rintro ⟨buf, hbuf, htake⟩
    cases hbuf
    rw [List.take_left, hout, authorizedCommand] at htake
    have hbody := List.append_cancel_left (message_inj _ _ htake)
    rw [← List.append_assoc] at hbody
    have hentry := List.append_cancel_right hbody
    rw [harea] at hentry
    refine AuthEntry.encode_inj ?_
    rw [encode_authEntry]
    exact (List.append_inj hentry rfl).2
  · intro hentry
    refine ⟨_, rfl, ?_⟩
    have henc :
        s.encode = (layerEntry C st code handle s.sessionAttributes.toUInt8 params).encode := by
      rw [← hentry, encode_authEntry]
    rw [List.take_left, hout, authorizedCommand, harea, henc, length_layerEntry, List.append_assoc]
    rfl

/-- The only session of a post-processed command names the armed handle, and its handle names
itself: it is sent with the authorization of that session exactly when the table has its kind, or
when the session of the message is that authorization already. -/
theorem authorized_iff (mu : Tss2Mu) (C : Crypto) {st : SessionState} {c : TPMCommand}
    {p : SessionPart} {s : TPMSession} {params out slack : Bytes} {cap : Nat}
    (hinit : st.initialized = true) (hdigest : st.digestSize ≠ 0)
    (hp : (postProcess c).sessionPart = some p) (hs : p.sessions = [s])
    (hH : s.sessionHandle = st.handle) (hhandle : NamesItself p.handle)
    (hm : marshalCommand mu (postProcess c) = some out)
    (hparams : joinAll (Field.encode mu.privateSize) p.params = some params)
    (hcap : out.length + 64 ≤ cap) (hbuf : cap ≤ (out ++ slack).length) :
    Authorized C st c.commandCode p.handle s.sessionAttributes.toUInt8 params out slack cap ↔
      c.InTable ∨ s.authEntry =
        layerEntry C st c.commandCode p.handle s.sessionAttributes.toUInt8 params := by
  obtain ⟨htag, hcode⟩ := postProcess_header hp
  obtain ⟨params', hparams', hout, hle⟩ := marshalCommand_layout hp hm
  rw [hparams] at hparams'
  cases hparams'
  rw [htag, hcode, hs] at hout
  have hk : kMaxBuffer = 1048576 := rfl
  rcases inTable_cases hp with ⟨hin, attr, hattr⟩ | ⟨hnot, hnone⟩
  · have hmem : attr ∈ kTable := List.mem_of_find?_eq_some hattr
    have hattrCode : attr.commandCode = c.commandCode := lookupCommandAttr_code hattr
    have hne : attr.commandCode ≠ TPM2_CC_StartAuthSession := by
      rw [hattrCode, ← commandCode_postProcess]
      exact startAuthSession_ne hp
    have hone : attr.handleCount = 1 := by
      rw [← commandCode_postProcess] at hattr
      exact handleCount_eq_one hp hattr
    rw [← hattrCode] at hout ⊢
    refine iff_of_true ?_ (Or.inl hin)
    exact authorized_of_mem C slack hinit hdigest hmem hone hne hH hhandle hout (by omega) hcap hbuf
  · have hiff := authorized_iff_of_not_mem C st slack hnone hout (by omega)
      (show out.length ≤ cap by omega)
    rw [hiff]
    constructor
    · exact Or.inr
    · rintro (hin | hentry)
      · exact absurd hin hnot
      · exact hentry

/-- TPM2_Clear in the first HMAC session. -/
def hmacClear : TPMCommand := .clear { sessions := [{ sessionHandle := 0x02000000 }] }

theorem hmacClear_authorized :
    ∃ out, marshalCommand Tss2Mu.standard (postProcess hmacClear) = some out ∧
      Authorized clearDigests armedState TPM_CC_CLEAR TPM_RH_LOCKOUT 0 [] out (List.replicate 64 0)
        (out.length + 64) := by
  obtain ⟨out, h⟩ := Option.isSome_iff_exists.mp
    (show (marshalCommand Tss2Mu.standard (postProcess hmacClear)).isSome by decide +kernel)
  refine ⟨out, h, (authorized_iff Tss2Mu.standard clearDigests (c := hmacClear)
    (by decide) (by decide) rfl
    rfl rfl (by decide) h rfl (by omega) ?_).mpr (Or.inl trivial)⟩
  rw [List.length_append, List.length_replicate]

/-- A policy for PCR 1 in the first HMAC session. -/
def hmacSetAuthPolicy : TPMCommand := .pcrsetauthpolicy
  { authHandle := 0x4000000C, sessions := [{ sessionHandle := 0x02000000 }]
    authPolicy := some { size := 32, buffer := List.replicate 32 0x33 }, hashAlg := TPM_ALG_SHA256
    pcrNum := 1 }

/-- It goes out without a nonce and without an HMAC. -/
theorem hmacSetAuthPolicy_unauthorized :
    armedState.initialized = true ∧ armedState.hashAlg = TPM2_ALG_SHA256 ∧
    armedState.handle = 0x02000000 ∧
    ∃ out params, marshalCommand Tss2Mu.standard (postProcess hmacSetAuthPolicy) = some out ∧
      joinAll (Field.encode Tss2Mu.standard.privateSize)
        [.digest "authPolicy" (some { size := 32, buffer := List.replicate 32 0x33 }),
          .alg "hashAlg" TPM_ALG_SHA256, .word "pcrNum" 1] = some params ∧
      ¬ Authorized clearDigests armedState TPM_CC_PCR_SET_AUTH_POLICY 0x4000000C 0 params out
        (List.replicate 64 0) (out.length + 64) := by
  refine ⟨by decide, by decide, by decide, ?_⟩
  obtain ⟨out, h⟩ := Option.isSome_iff_exists.mp
    (show (marshalCommand Tss2Mu.standard (postProcess hmacSetAuthPolicy)).isSome by decide +kernel)
  obtain ⟨params, hparams, hout, hle⟩ := marshalCommand_layout rfl h
  refine ⟨out, params, h, hparams, fun hauth => ?_⟩
  have hk : kMaxBuffer = 1048576 := rfl
  have hentry := (authorized_iff_of_not_mem clearDigests armedState
    (s := { sessionHandle := 0x02000000 }) (List.replicate 64 0) rfl hout
      (by omega) (by omega)).mp hauth
  have hnonce := congrArg (fun e => e.nonce.size) hentry
  cases hnonce

end Proto
