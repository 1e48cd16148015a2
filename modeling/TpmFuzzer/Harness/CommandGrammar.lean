import TpmFuzzer.Harness.CommandTable
import TpmFuzzer.Proto.ReadBack

/-!
# Marshalled commands under the layout

A post-processed command of any kind that is marshalled has the layout of its code, and in it stands
what the message says (`CommandSays`).  There is one exception: behind a decryption scheme that is
none of OAEP, RSAES and NULL the layout does not say what follows, and such a command goes out as it
is (`marshalCommand_reads`).

What the message says is cut where the marshaller cuts it: numbers to the width of their field, and
the buffers that go through a C structure to its capacity.  A digest of its own (`TPM2BDigest`) goes
through none and is sent whole.
-/

namespace Proto

open Bytes Tpm Writer Session Reading

/-! ## What a message says -/

/-- What a symmetric definition says about the one that is read. -/
structure SymDefSays (m : TPMTSymDef) (s : TPMT_SYM_DEF) : Prop where
  algorithm : s.algorithm = if m.algorithm.toUInt16 = TPM2_ALG_AES then
    TPM2_ALG_AES else TPM2_ALG_NULL
  aes : m.algorithm.toUInt16 = TPM2_ALG_AES → s.keyBits = m.keyBits.toUInt16 ∧
    s.mode = m.mode.toUInt16

/-- Sub-messages that are not set are empty; what does not fit is cut. -/
structure SensitiveSays (m : TPMSSensitiveCreate) (s : TPMS_SENSITIVE_CREATE) : Prop where
  userAuth : s.userAuth.bytes = (m.userAuth.getD {}).buffer.take 64
  data : s.data.bytes = (m.data.getD {}).buffer.take 256

/-- What an NV public area says about the one that is read. -/
structure NvSays (m : TPMNvPublic) (p : TPMS_NV_PUBLIC) : Prop where
  nvIndex : p.nvIndex = m.nvIndex
  nameAlg : p.nameAlg = m.nameAlg.toUInt16
  attributes : p.attributes = m.attributes
  authPolicy : p.authPolicy.bytes = m.authPolicy.take 64
  dataSize : p.dataSize = m.dataSize.toUInt16

/-- `privateSize` is the capacity of a TPM2B_PRIVATE. -/
def Message.Says (privateSize : Nat) : Message → Param → Prop
  | .tpm2bData m, .sized b => b = m.buffer.take 66
  | .tpm2bDigest m, .sized b => b = m.buffer
  | .tpm2bPrivate m, .sized b => b = m.buffer.take privateSize
  | .tpm2bPublicKeyRsa m, .sized b => b = m.buffer.take 512
  | .tpm2bEvent m, .sized b => b = m.buffer.take 1024
  | .tpmtSymDef m, .symDef s => SymDefSays m s
  | .tpm2bSensitiveCreate m, .sensitive s => SensitiveSays (m.sensitive.getD {}) s
  | .tpm2bPublic m, .publicArea area => PublicSays (m.publicArea.getD {}) area
  | .tpmlPcrSelection m, .pcrs l => l = (m.pcrSelections.take TPM2_NUM_PCR_BANKS).map wireSelection
  | .tpmtRsaDecrypt m, .rsaDecrypt scheme hashAlg => scheme = m.scheme.toUInt16 ∧
    hashAlg = if scheme = TPM2_ALG_OAEP then some m.hashAlg.toUInt16 else none
  | .tpmNvPublic m, .nvPublic p => NvSays m p
  | _, _ => False

/-- What a field says about the parameter that is read in its place. -/
def Field.Says (privateSize : Nat) (f : Field) (w : Param) : Prop :=
  match f.value, w with
  | .message m, w => m.Says privateSize w
  | .enum .tpmse number, .byte v => v = number.toUInt8
  | .enum .tpmalg number, .word16 v => v = number.toUInt16
  | .uint32 value, .word32 v => v = value
  | .uint32 value, .word16 v => v.toNat = value.toNat
  | _, _ => False

/-- The type that a field is sent as. -/
def Field.shape (f : Field) : Option Shape :=
  match f.value with
  | .message (.tpm2bData _) | .message (.tpm2bDigest _) | .message (.tpm2bPrivate _)
  | .message (.tpm2bPublicKeyRsa _) | .message (.tpm2bEvent _) => some .sized
  | .message (.tpmtSymDef _) => some .symDef
  | .message (.tpm2bSensitiveCreate _) => some .sensitive
  | .message (.tpm2bPublic _) => some .publicArea
  | .message (.tpmlPcrSelection _) => some .pcrs
  | .message (.tpmtRsaDecrypt _) => some .rsaDecrypt
  | .message (.tpmNvPublic _) => some .nvPublic
  | .enum .tpmse _ => some .byte
  | .enum .tpmalg _ => some .word16
  | .uint32 _ => if f.name = "bytes_requested" then some .word16 else some .word32
  | _ => none

/-- A decryption scheme is one whose details have a layout. -/
def Field.Known (f : Field) : Prop :=
  match f.value with
  | .message (.tpmtRsaDecrypt m) =>
    m.scheme.toUInt16 ∈ [TPM2_ALG_OAEP, TPM2_ALG_RSAES, TPM2_ALG_NULL]
  | _ => True

/-- A message in the order of the wire. -/
structure CommandParts where
  header : TPMHeader
  handles : List UInt32
  sessions : Option (List TPMSession)
  params : List Field

/-- Header, handles, sessions and parameters of a command, by its fields. -/
def TPMCommand.parts (c : TPMCommand) : Option CommandParts :=
  match c.sessionPart with
  | some p => some ⟨p.header, [p.handle], some p.sessions, p.params⟩
  | none =>
    match c with
    | .getrandom m => some ⟨m.header.getD {}, [], none, [.word "bytes_requested" m.bytesRequested]⟩
    | .startauthsession m =>
      some ⟨m.header.getD {}, [m.tpmKey, m.bind], none, [.data "nonce" m.nonce,
        .data "encrypted_salt" m.encryptedSalt, ⟨"session_type", .enum .tpmse m.sessionType⟩,
        ⟨"symmetric", .message (.tpmtSymDef (m.symmetric.getD {}))⟩, .alg "auth_hash" m.authHash]⟩
    | .rsaencrypt m =>
      some ⟨m.header.getD {}, [m.keyHandle], none, [.publicKeyRsa "message" m.message,
        .rsaDecrypt "in_scheme" m.inScheme, .data "label" m.label]⟩
    | .makecredential m =>
      some ⟨m.header.getD {}, [m.handle], none, [.data "credential" m.credential,
        .data "object_name" m.objectName]⟩
    | .pcrread m => some ⟨m.header.getD {}, [], none, [.pcrs "pcrSelection" m.pcrSelection]⟩
    | _ => none

/-- What a command says about the one that is read. -/
structure CommandSays (privateSize : Nat) (p : CommandParts) (length : Nat) (w : WireCommand) :
    Prop where
  tag : w.tag = p.header.tag.toUInt16
  commandSize : w.commandSize.toNat = length
  commandCode : w.commandCode = p.header.commandCode
  handles : w.handles = p.handles
  sessions : w.sessions = p.sessions.map (List.map TPMSession.authEntry)
  params : List.Forall₂ (Field.Says privateSize) p.params w.params

/-! ## Parameters are read as they were meant -/

theorem symDefSays (m : TPMTSymDef) : SymDefSays m (symDefOf m).selected := by
  have halg : (symDefOf m).algorithm =
      orNull [TPM2_ALG_AES, TPM2_ALG_NULL] m.algorithm.toUInt16 := by
    unfold symDefOf
    dsimp only
    split <;> rfl
  have hselected : (symDefOf m).selected.algorithm = (symDefOf m).algorithm := by
    unfold TPMT_SYM_DEF.selected
    split <;> rfl
  constructor
  · rw [hselected, halg, orNull_pair]
  · intro haes
    have hne : orNull [TPM2_ALG_AES, TPM2_ALG_NULL] m.algorithm.toUInt16 ≠ TPM2_ALG_NULL := by
      rw [orNull_pair, if_pos haes]
      decide
    have hsym : symDefOf m = ⟨orNull [TPM2_ALG_AES, TPM2_ALG_NULL] m.algorithm.toUInt16,
      m.keyBits.toUInt16,
        m.mode.toUInt16⟩ := if_pos hne
    unfold TPMT_SYM_DEF.selected
    rw [hsym, if_neg hne]
    exact ⟨rfl, rfl⟩

theorem sensitiveSays (m : TPM2BSensitiveCreate) :
    SensitiveSays (m.sensitive.getD {}) (sensitiveOf m).sensitive := by
  obtain ⟨size, sensitive⟩ := m
  cases sensitive with
  | none => exact ⟨rfl, rfl⟩
  | some s =>
    obtain ⟨userAuth, data⟩ := s
    constructor
    · cases userAuth <;> rfl
    · cases data <;> rfl

theorem reads_fillTpm2b {cap : Nat} (hcap : cap < 2 ^ 16) (b : Bytes) :
    Reads readSized (fillTpm2b cap b).encode (b.take cap) := by
  have hlen : (b.take cap).length ≤ cap := List.length_take_le cap b
  exact reads_sized (show (b.take cap).length < 2 ^ 16 by omega)

theorem reads_rsaDecrypt {m : TPMTRSADecrypt}
    (hknown : m.scheme.toUInt16 ∈ [TPM2_ALG_OAEP, TPM2_ALG_RSAES, TPM2_ALG_NULL]) :
    Reads readRsaDecrypt m.encode (m.scheme.toUInt16,
      if m.scheme.toUInt16 = TPM2_ALG_OAEP then some m.hashAlg.toUInt16 else none) := by
  refine (reads_word16 _).bind ?_
  by_cases hoaep : m.scheme.toUInt16 = TPM2_ALG_OAEP
  · rw [if_pos hoaep, if_pos hoaep, if_pos hoaep]
    exact (reads_word16 _).bind_nil (Reads.pure _)
  · have hrest : m.scheme.toUInt16 = TPM2_ALG_RSAES ∨ m.scheme.toUInt16 = TPM2_ALG_NULL := by
      simpa [hoaep] using hknown
    rw [if_neg hoaep, if_neg hoaep, if_neg hoaep, if_pos hrest]
    exact Reads.pure _

/-- Behind any other scheme nothing is read, whatever follows. -/
theorem run_rsaDecrypt_unknown {m : TPMTRSADecrypt}
    (h : m.scheme.toUInt16 ∉ [TPM2_ALG_OAEP, TPM2_ALG_RSAES, TPM2_ALG_NULL]) (rest : Bytes) :
    readRsaDecrypt.run (m.encode ++ rest) = none := by
  have hoaep : m.scheme.toUInt16 ≠ TPM2_ALG_OAEP := fun heq => h (by rw [heq]; decide)
  have hrsaes : m.scheme.toUInt16 ≠ TPM2_ALG_RSAES := fun heq => h (by rw [heq]; decide)
  have hnull : m.scheme.toUInt16 ≠ TPM2_ALG_NULL := fun heq => h (by rw [heq]; decide)
  have hword := reads_word16 m.scheme.toUInt16
    ((if m.scheme.toUInt16 = TPM2_ALG_OAEP then write16 m.hashAlg.toUInt16 else []) ++ rest)
  unfold readRsaDecrypt TPMTRSADecrypt.encode
  rw [List.append_assoc, run_bind_of_some hword, if_neg hoaep, if_neg (not_or.mpr ⟨hrsaes, hnull⟩)]
  rfl

variable {n : Nat} (hn : n < 2 ^ 16)

include hn

/-- A sub-message under its type. -/
theorem message_reads {m : Message} {name : String} {s : Shape} {x : Bytes}
    (hs : Field.shape ⟨name, .message m⟩ = some s) (hx : m.encode n = some x)
    (hknown : Field.Known ⟨name, .message m⟩) : ∃ w, Reads s.read x w ∧ m.Says n w := by
  cases m with
  | tpmHeader m => cases hs
  | tpmSession m => cases hs
  | tpmiDhObject m => cases hs
  | tpm2bData m =>
    cases hs
    cases hx
    exact ⟨_, (reads_fillTpm2b (by decide) _).bind_nil (Reads.pure _), rfl⟩
  | tpm2bDigest m =>
    cases hs
    have hdigest : (if m.buffer.length > 65535 then none else some (tpm2b m.buffer)) = some x := hx
    split at hdigest
    · cases hdigest
    · next hlen =>
      cases hdigest
      exact ⟨_, (reads_sized (by omega)).bind_nil (Reads.pure _), rfl⟩
  | tpm2bPrivate m =>
    cases hs
    cases hx
    exact ⟨_, (reads_fillTpm2b hn _).bind_nil (Reads.pure _), rfl⟩
  | tpm2bPublicKeyRsa m =>
    cases hs
    cases hx
    exact ⟨_, (reads_fillTpm2b (by decide) _).bind_nil (Reads.pure _), rfl⟩
  | tpm2bEvent m =>
    cases hs
    cases hx
    exact ⟨_, (reads_fillTpm2b (by decide) _).bind_nil (Reads.pure _), rfl⟩
  | tpmtSymDef m =>
    cases hs
    cases hx
    exact ⟨_, (TPMT_SYM_DEF.reads (symDefOf_supported m)).bind_nil (Reads.pure _), symDefSays m⟩
  | tpm2bSensitiveCreate m =>
    cases hs
    cases hx
    exact ⟨_, (reads_outer (TPMS_SENSITIVE_CREATE.reads _)
      (sensitiveOf m).sensitive.length_encode_lt).bind_nil
      (Reads.pure _), sensitiveSays m⟩
  | tpm2bPublic m =>
    cases hs
    cases hx
    exact ⟨_, (TPM2B_PUBLIC.reads (publicOf_supported m).2).bind_nil (Reads.pure _), publicSays m⟩
  | tpmlPcrSelection m =>
    cases hs
    cases hx
    refine ⟨_, (TPML_PCR_SELECTION.reads (pcrSelectionsOf_supported m)).bind_nil (Reads.pure _), ?_⟩
    show ((m.pcrSelections.take TPM2_NUM_PCR_BANKS).map pcrSelectionOf).map
      TPMS_PCR_SELECTION.wire = _
    rw [List.map_map]
    exact List.map_congr_left fun sel _ => wire_pcrSelectionOf sel
  | tpmtRsaDecrypt m =>
    cases hs
    cases hx
    exact ⟨_, (reads_rsaDecrypt hknown).bind_nil (Reads.pure _), rfl, rfl⟩
  | tpmNvPublic m =>
    cases hs
    cases hx
    exact ⟨_, (reads_outer (TPMS_NV_PUBLIC.reads _) (nvPublicOf m).length_encode_lt).bind_nil
      (Reads.pure _), ⟨rfl, rfl, rfl, rfl, rfl⟩⟩

theorem field_reads {f : Field} {s : Shape} {x : Bytes} (hs : f.shape = some s)
    (hx : f.encode n = some x) (hknown : f.Known) : ∃ w, Reads s.read x w ∧ f.Says n w := by
  obtain ⟨name, value⟩ := f
  cases value with
  | repeated elements => cases hs
  | bytes data => cases hs
  | message m => exact message_reads hn hs hx hknown
  | enum type number =>
    cases type with
    | tpmst => cases hs
    | tpmcc => cases hs
    | tpmrh => cases hs
    | tpmse =>
      cases hs
      cases hx
      exact ⟨_, (reads_byte _).bind_nil (Reads.pure _), rfl⟩
    | tpmalg =>
      cases hs
      cases hx
      exact ⟨_, (reads_word16 _).bind_nil (Reads.pure _), rfl⟩
  | uint32 value =>
    unfold Field.shape at hs
    unfold Field.encode at hx
    dsimp only at hs hx
    by_cases hname : name = "bytes_requested"
    · rw [if_pos hname] at hs hx
      cases hs
      split at hx
      · cases hx
      · next hle =>
        cases hx
        refine ⟨_, (reads_word16 _).bind_nil (Reads.pure _), ?_⟩
        show value.toUInt16.toNat = value.toNat
        rw [UInt32.toNat_toUInt16]
        exact Nat.mod_eq_of_lt (by omega)
    · rw [if_neg hname] at hs hx
      cases hs
      cases hx
      exact ⟨_, (reads_word32 _).bind_nil (Reads.pure _), rfl⟩

omit hn in
/-- Only the details of an unknown scheme have no layout. -/
theorem field_unknown {f : Field} {s : Shape} {x : Bytes} (hs : f.shape = some s)
    (hx : f.encode n = some x) (hknown : ¬ f.Known) (rest : Bytes) :
    s.read.run (x ++ rest) = none := by
  unfold Field.Known at hknown
  split at hknown
  · next m hm =>
    obtain ⟨name, value⟩ := f
    cases hm
    cases hs
    cases hx
    exact run_bind_of_none (run_rsaDecrypt_unknown hknown rest)
  · exact absurd trivial hknown

theorem params_read {fs : List Field} {shapes : List Shape} {body : Bytes}
    (hs : fs.map Field.shape = shapes.map some) (hbody : joinAll (Field.encode n) fs = some body) :
    ((∀ f ∈ fs, f.Known) → ∃ ws, Reads (readParams shapes) body ws ∧
      List.Forall₂ (Field.Says n) fs ws) ∧
      (¬ (∀ f ∈ fs, f.Known) → ∀ rest, (readParams shapes).run (body ++ rest) = none) := by
  induction fs generalizing shapes body with
  | nil =>
    obtain rfl : shapes = [] := by simpa using hs.symm
    cases hbody
    exact ⟨fun _ => ⟨[], Reads.pure [], .nil⟩, fun h => absurd (by simp) h⟩
  | cons f fs ih =>
    obtain _ | ⟨s, shapes⟩ := shapes
    · cases hs
    obtain ⟨hshape, hs⟩ := List.cons.inj hs
    obtain ⟨x, hx, hrest⟩ := Option.bind_eq_some_iff.mp hbody
    obtain ⟨y, hy, rfl⟩ := Option.map_eq_some_iff.mp hrest
    obtain ⟨ihread, ihfail⟩ := ih hs hy
    rw [List.forall_mem_cons]
    constructor
    · rintro ⟨hf, hfs⟩
      obtain ⟨w, hw, hsays⟩ := field_reads hn hshape hx hf
      obtain ⟨ws, hws, hall⟩ := ihread hfs
      exact ⟨w :: ws, hw.bind (hws.bind_nil (Reads.pure _)), .cons hsays hall⟩
    · intro hunknown rest
      by_cases hf : f.Known
      · obtain ⟨w, hw, -⟩ := field_reads hn hshape hx hf
        rw [readParams, List.append_assoc, run_bind_of_some (hw (y ++ rest)),
          run_bind_of_none (ihfail (fun hfs => hunknown ⟨hf, hfs⟩) rest)]
      · rw [readParams, List.append_assoc, run_bind_of_none
          (field_unknown hshape hx hf (y ++ rest))]

omit hn

/-! ## Commands -/

/-- The authorization area, if there is one. -/
def areaBytes (sessions : Option (List TPMSession)) : Bytes := (sessions.map authArea).getD []

/-- A marshalled command in the order of the wire. -/
theorem marshalCommand_parts {mu : Tss2Mu} {c : TPMCommand} {p : CommandParts} {out : Bytes}
    (hp : c.parts = some p) (h : marshalCommand mu c = some out) :
    ∃ params, joinAll (Field.encode mu.privateSize) p.params = some params ∧
      out = message p.header.tag.toUInt16 p.header.commandCode
        (handleBytes p.handles ++ (areaBytes p.sessions ++ params)) ∧ out.length ≤ kMaxBuffer := by
  unfold TPMCommand.parts at hp
  cases hsession : c.sessionPart with
  | some part =>
    rw [hsession] at hp
    cases hp
    obtain ⟨params, hparams, hout, hlen⟩ := marshalCommand_layout hsession h
    refine ⟨params, hparams, ?_, hlen⟩
    rw [hout]
    simp [handleBytes, areaBytes]
  | none =>
    rw [hsession] at hp
    -- without sessions: the fields before the parameters are the header and the handles
    have hsplit : ∃ header handles, c.fields = some (.header header :: (handles ++ p.params)) ∧
        header.getD {} = p.header ∧ p.sessions = none ∧
        joinAll (Field.encode mu.privateSize) handles = some (handleBytes p.handles) := by
      cases c with
      | getrandom m =>
        cases hp
        exact ⟨m.header, [], rfl, rfl, rfl, rfl⟩
      | startauthsession m =>
        cases hp
        exact ⟨m.header, [.rh "tpm_key" m.tpmKey, .rh "bind" m.bind], rfl, rfl, rfl, rfl⟩
      | rsaencrypt m =>
        cases hp
        exact ⟨m.header, [.word "key_handle" m.keyHandle], rfl, rfl, rfl, rfl⟩
      | makecredential m =>
        cases hp
        exact ⟨m.header, [.word "handle" m.handle], rfl, rfl, rfl, rfl⟩
      | pcrread m =>
        cases hp
        exact ⟨m.header, [], rfl, rfl, rfl, rfl⟩
      | notSet => cases hp
      | _ => cases hsession
    obtain ⟨header, handles, hfields, hheader, hnone, hhandles⟩ := hsplit
    obtain ⟨body, hbody, hout, hlen⟩ := marshalCommand_message hfields h
    rw [joinAll_append, hhandles] at hbody
    obtain ⟨params, hparams, rfl⟩ := Option.map_eq_some_iff.mp hbody
    refine ⟨params, hparams, ?_, hlen⟩
    rw [hout, hheader, hnone]
    rfl

/-- After its post-processor a command has the tag of its layout, its code, and the handles and
parameters of the table. -/
theorem parts_postProcess {c : TPMCommand} (hc : c ≠ .notSet) :
    ∃ p shapes, (postProcess c).parts = some p ∧
    p.header.tag.toUInt16 = (if p.sessions.isSome then TPM2_ST_SESSIONS else TPM2_ST_NO_SESSIONS) ∧
    commandTable.lookup p.header.commandCode = some (p.handles.length, shapes) ∧
    p.params.map Field.shape = shapes.map some := by
  cases c with
  | notSet => exact absurd rfl hc
  | _ => exact ⟨_, _, rfl, rfl, rfl, rfl⟩

theorem reads_sessions {sessions : Option (List TPMSession)}
    (hlt : (areaBytes sessions).length < 2 ^ 32) :
    Reads (readSessions (if sessions.isSome then TPM2_ST_SESSIONS else TPM2_ST_NO_SESSIONS))
      (areaBytes sessions) (sessions.map (List.map TPMSession.authEntry)) := by
  cases sessions with
  | none => exact Reads.pure none
  | some l =>
    have hlen : areaSize l < 2 ^ 32 := by
      have := length_authArea l
      rw [areaBytes, Option.map_some, Option.getD_some] at hlt
      omega
    exact (reads_authArea hlen).bind_nil (Reads.pure _)

/-- Header, handles and sessions of a marshalled command stand in their places; the rest is up to
the parameters. -/
theorem marshalCommand_whole {mu : Tss2Mu} {c : TPMCommand} {out : Bytes}
    (h : marshalCommand mu (postProcess c) = some out) :
    ∃ p shapes params, (postProcess c).parts = some p ∧
      commandTable.lookup p.header.commandCode = some (p.handles.length, shapes) ∧
      p.params.map Field.shape = shapes.map some ∧
      joinAll (Field.encode mu.privateSize) p.params = some params ∧
      out.length ≤ kMaxBuffer ∧
      whole readCommand out = (whole (readParams shapes) params).map fun ws =>
        ⟨p.header.tag.toUInt16, UInt32.ofNat out.length, p.header.commandCode, p.handles,
          p.sessions.map (List.map TPMSession.authEntry), ws⟩ := by
  have hc : c ≠ .notSet := by
    rintro rfl
    cases h
  obtain ⟨p, shapes, hp, htag, htable, hshapes⟩ := parts_postProcess hc
  obtain ⟨params, hparams, hout, hle⟩ := marshalCommand_parts hp h
  have hk : kMaxBuffer = 1048576 := rfl
  have hlen : out.length = 10 + (handleBytes p.handles ++
      (areaBytes p.sessions ++ params)).length := by
    rw [hout, length_message]
  have harea : (areaBytes p.sessions).length < 2 ^ 32 := by
    simp only [List.length_append] at hlen
    omega
  have hsessions := reads_sessions harea
  rw [← htag] at hsessions
  refine ⟨p, shapes, params, hp, htable, hshapes, hparams, hle, ?_⟩
  rw [hout]
  exact whole_readCommand htable hsessions params

section

variable {mu : Tss2Mu} {c : TPMCommand} {p : CommandParts} {out : Bytes}

/-- Without an unknown scheme every parameter is read as it was meant. -/
theorem marshalCommand_known (h : marshalCommand mu (postProcess c) = some out)
    (hp : (postProcess c).parts = some p) (hknown : ∀ f ∈ p.params, f.Known) :
    ∃ w, whole readCommand out = some w ∧ CommandSays mu.privateSize p out.length w := by
  obtain ⟨q, shapes, params, hq, -, hshapes, hparams, hle, hout⟩ := marshalCommand_whole h
  obtain rfl := Option.some.inj (hq.symm.trans hp)
  obtain ⟨ws, hws, hsays⟩ := (params_read mu.privateSize_lt hshapes hparams).1 hknown
  have hk : kMaxBuffer = 1048576 := rfl
  rw [hout, hws.whole]
  refine ⟨_, rfl, rfl, ?_, rfl, rfl, rfl, hsays⟩
  exact UInt32.toNat_ofNat_of_lt' (show out.length < 2 ^ 32 by omega)

/-- With one the command has no layout. -/
theorem marshalCommand_unknown (h : marshalCommand mu (postProcess c) = some out)
    (hp : (postProcess c).parts = some p) (hunknown : ¬ ∀ f ∈ p.params, f.Known) :
    whole readCommand out = none := by
  obtain ⟨q, shapes, params, hq, -, hshapes, hparams, -, hout⟩ := marshalCommand_whole h
  obtain rfl := Option.some.inj (hq.symm.trans hp)
  have hnone := (params_read mu.privateSize_lt hshapes hparams).2 hunknown []
  rw [List.append_nil] at hnone
  rw [hout]
  unfold whole
  rw [hnone]
  rfl

end

/-- A marshalled command of any kind, after its post-processor, is laid out as the message says, to
its last byte; a command with an unknown decryption scheme, and no other, has no layout. -/
theorem marshalCommand_reads {mu : Tss2Mu} {c : TPMCommand} {out : Bytes}
    (h : marshalCommand mu (postProcess c) = some out) : ∃ p, (postProcess c).parts = some p ∧
      ((∀ f ∈ p.params, f.Known) → ∃ w, whole readCommand out = some w ∧
        CommandSays mu.privateSize p out.length w) ∧
      (¬ (∀ f ∈ p.params, f.Known) → whole readCommand out = none) := by
  obtain ⟨p, -, -, hp, -⟩ := marshalCommand_whole h
  exact ⟨p, hp, marshalCommand_known h hp, marshalCommand_unknown h hp⟩

/-- A decryption with OAEP under one session. -/
def oaepDecrypt : TPMRSADecrypt where
  keyHandle := 0x80000000
  sessions := [{ sessionHandle := 0x02000000, nonce := [1, 2], sessionAttributes := 1 }]
  cipherText := some { buffer := [0xC1, 0xC2, 0xC3] }
  inScheme := some { scheme := TPM_ALG_OAEP, hashAlg := TPM_ALG_SHA256 }

/-- Every field of it in its place, and no label. -/
theorem decrypt_reads : ∃ out w,
    marshalCommand Tss2Mu.standard (postProcess (.rsadecrypt oaepDecrypt)) = some out ∧
    whole readCommand out = some w ∧ w.handles = [0x80000000] ∧
    w.sessions = some [⟨0x02000000, ⟨[1, 2], by decide⟩, 1, .empty⟩] ∧
    w.params = [.sized [0xC1, 0xC2, 0xC3], .rsaDecrypt TPM2_ALG_OAEP (some 0xB), .sized []] := by
  obtain ⟨out, hout⟩ := Option.isSome_iff_exists.mp (show
    (marshalCommand Tss2Mu.standard (postProcess (.rsadecrypt oaepDecrypt))).isSome
      by decide +kernel)
  have hoaep : TPM_ALG_OAEP.toUInt16 ∈ [TPM2_ALG_OAEP, TPM2_ALG_RSAES, TPM2_ALG_NULL] := by decide
  obtain ⟨p, hp, hread, -⟩ := marshalCommand_reads hout
  cases hp
  obtain ⟨w, hw, hsays⟩ := hread (by
    rintro f (_ | ⟨_, _ | ⟨_, _ | ⟨_, hf⟩⟩⟩)
    · trivial
    · exact hoaep
    · trivial
    · cases hf)
  refine ⟨out, w, hout, hw, hsays.handles, hsays.sessions, ?_⟩
  obtain ⟨cipher, two, hcipher, htwo, hparams⟩ := List.forall₂_cons_left_iff.mp hsays.params
  obtain ⟨scheme, one, hscheme, hone, rfl⟩ := List.forall₂_cons_left_iff.mp htwo
  obtain ⟨label, none, hlabel, hnone, rfl⟩ := List.forall₂_cons_left_iff.mp hone
  obtain rfl := List.forall₂_nil_left_iff.mp hnone
  rw [hparams]
  cases cipher <;> cases hcipher
  cases label <;> cases hlabel
  cases scheme with
  | rsaDecrypt alg hash =>
    obtain ⟨rfl, rfl⟩ := hscheme
    rfl
  | _ => exact hscheme.elim

end Proto
