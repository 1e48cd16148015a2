import TpmFuzzer.Proto.Marshal

/-!
# What the marshaller writes

`Field.encode` is the wire form of a field on its own, `none` where the marshaller refuses it.
Every marshaller appends the encoding of its argument or fails for lack of room
(`marshalCommandField_writes`), so the output of `MarshalCommand` is the encoding of the command
with its own length as commandSize:

    marshalCommand mu c =
      (c.encode mu).bind fun x => if x.length ≤ kMaxBuffer then withSize x else none
                                                                             (marshalCommand_eq)
-/

namespace Proto

open Bytes Tpm Writer

/-! ## Encodings -/

def TPMHeader.encode (h : TPMHeader) : Bytes :=
  write16 h.tag.toUInt16 ++ (write32 h.commandSize ++ write32 h.commandCode)

def TPMSession.encode (s : TPMSession) : Bytes :=
  let nonceSize := UInt16.ofNat s.nonce.length
  let hmacSize := UInt16.ofNat s.hmac.length
  write32 s.sessionHandle ++ (write16 nonceSize ++ (s.nonce.take nonceSize.toNat ++
    ([s.sessionAttributes.toUInt8] ++ (write16 hmacSize ++ s.hmac.take hmacSize.toNat))))

def TPMTRSADecrypt.encode (s : TPMTRSADecrypt) : Bytes :=
  write16 s.scheme.toUInt16 ++
    if s.scheme.toUInt16 = TPM2_ALG_OAEP then write16 s.hashAlg.toUInt16 else []

/-- `privateSize` is the capacity of a TPM2B_PRIVATE. -/
def Message.encode (privateSize : Nat) : Message → Option Bytes
  | .tpmHeader m => some m.encode
  | .tpm2bData m => some (fillTpm2b 66 m.buffer).encode
  | .tpm2bDigest m => if m.buffer.length > 65535 then none else some (tpm2b m.buffer)
  | .tpm2bPrivate m => some (fillTpm2b privateSize m.buffer).encode
  | .tpmtSymDef m => some (symDefOf m).encode
  | .tpm2bSensitiveCreate m => some (tpm2b (sensitiveOf m).sensitive.encode)
  | .tpm2bPublic m => some (tpm2b (publicOf m).publicArea.encode)
  | .tpmlPcrSelection m => some (pcrSelectionsOf m).encode
  | .tpm2bPublicKeyRsa m => some (fillTpm2b 512 m.buffer).encode
  | .tpmtRsaDecrypt m => some m.encode
  | .tpm2bEvent m => some (fillTpm2b 1024 m.buffer).encode
  | .tpmNvPublic m => some (tpm2b (nvPublicOf m).encode)
  | .tpmSession _ | .tpmiDhObject _ => none

/-- An authorization area: its size, then each session. -/
def authArea (l : List TPMSession) : Bytes :=
  let area := l.flatMap TPMSession.encode
  write32 (UInt32.ofNat area.length) ++ area

def Elements.encode : Elements → Option Bytes
  | .sessions l => some (authArea l)
  | .messages _ | .scalars _ => none

def encodeEnum (number : UInt32) : EnumType → Bytes
  | .tpmse => [number.toUInt8]
  | .tpmalg => write16 number.toUInt16
  | .tpmst | .tpmcc | .tpmrh => write32 number

def Field.encode (privateSize : Nat) (f : Field) : Option Bytes :=
  match f.value with
  | .repeated elements => elements.encode
  | .message m => m.encode privateSize
  | .enum type number => some (encodeEnum number type)
  | .uint32 value =>
    if f.name = "bytes_requested" then
      if value.toNat > 65535 then none else some (write16 value.toUInt16)
    else some (write32 value)
  | .bytes data => some data

/-- The fields of a command one after the other, with the commandSize the header has. -/
def TPMCommand.encode (privateSize : Nat) (c : TPMCommand) : Option Bytes :=
  c.fields.bind (joinAll (Field.encode privateSize))

/-! ## The encoding of each kind of field -/

section

variable (privateSize : Nat) (name : String)

@[simp] theorem encode_sessions (l : List TPMSession) :
    (Field.sessions l).encode privateSize = some (authArea l) := rfl

theorem encode_word (h : name ≠ "bytes_requested") (v : UInt32) :
    (Field.word name v).encode privateSize = some (write32 v) := by
  unfold Field.encode Field.word
  exact if_neg h

@[simp] theorem encode_rh (v : UInt32) : (Field.rh name v).encode privateSize = some (write32 v) :=
  rfl

@[simp] theorem encode_alg (v : UInt32) :
    (Field.alg name v).encode privateSize = some (write16 v.toUInt16) := rfl

@[simp] theorem encode_data (m : Option TPM2BData) :
    (Field.data name m).encode privateSize = some (fillTpm2b 66 (m.getD {}).buffer).encode := rfl

theorem encode_digest (m : Option TPM2BDigest) (h : (m.getD {}).buffer.length < 2 ^ 16) :
    (Field.digest name m).encode privateSize = some (tpm2b (m.getD {}).buffer) := by
  show (if (m.getD {}).buffer.length > 65535 then none else some (tpm2b (m.getD {}).buffer)) = _
  rw [if_neg (by omega)]

@[simp] theorem encode_publicKeyRsa (m : Option TPM2BPublicKeyRSA) :
    (Field.publicKeyRsa name m).encode privateSize =
      some (fillTpm2b 512 (m.getD {}).buffer).encode := rfl

@[simp] theorem encode_rsaDecrypt (m : Option TPMTRSADecrypt) :
    (Field.rsaDecrypt name m).encode privateSize = some (m.getD {}).encode := rfl

@[simp] theorem encode_pcrs (m : Option TPMLPCRSelection) :
    (Field.pcrs name m).encode privateSize = some (pcrSelectionsOf (m.getD {})).encode := rfl

@[simp] theorem encode_inSensitive (m : Option TPM2BSensitiveCreate) :
    (Field.inSensitive m).encode privateSize =
      some (tpm2b (sensitiveOf (m.getD {})).sensitive.encode) := rfl

@[simp] theorem encode_inPublic (m : Option TPM2BPublic) :
    (Field.inPublic m).encode privateSize =
      some (tpm2b (publicOf (m.getD {})).publicArea.encode) := rfl

theorem encode_fillTpm2b_take {cap : Nat} (b : Bytes) (hcap : cap < 2 ^ 16) :
    (fillTpm2b cap b).encode = be 2 (b.take cap).length ++ b.take cap := by
  have hlen : (b.take cap).length ≤ cap := List.length_take_le cap b
  have hlt : (b.take cap).length < 2 ^ 16 := by omega
  exact tpm2b_eq_be hlt

/-- A buffer within the capacity is not cut. -/
theorem encode_fillTpm2b {cap : Nat} {b : Bytes} (h : b.length ≤ cap) (hcap : cap < 2 ^ 16) :
    (fillTpm2b cap b).encode = be 2 b.length ++ b := by
  rw [encode_fillTpm2b_take b hcap, List.take_of_length_le h]

end

/-! ## The C structures have selectors the library supports -/

/-- What is written is a valid selector. -/
theorem orNull_cases (valid : List UInt16) (alg : UInt16) :
    orNull valid alg ∈ valid ∨ orNull valid alg = TPM2_ALG_NULL := by
  unfold orNull
  split
  · exact Or.inl (by assumption)
  · exact Or.inr rfl

theorem symDefOf_supported (sym : TPMTSymDef) : (symDefOf sym).Supported := by
  have h := orNull_cases [TPM2_ALG_AES, TPM2_ALG_NULL] sym.algorithm.toUInt16
  unfold symDefOf TPMT_SYM_DEF.Supported
  simp only [List.mem_cons, List.not_mem_nil, or_false, or_assoc, or_self] at h
  dsimp only
  split <;> exact h

theorem rsaDetailOf_supported (rsa : TPMSRSAParms) :
    (rsaDetailOf rsa).symmetric.Supported ∧ (rsaDetailOf rsa).scheme.Supported := by
  have hsym := orNull_cases [TPM2_ALG_AES, TPM2_ALG_NULL] rsa.symmetric.toUInt16
  have hscheme := orNull_cases [TPM2_ALG_RSASSA, TPM2_ALG_NULL] rsa.scheme.toUInt16
  simp only [List.mem_cons, List.not_mem_nil, or_false, or_assoc, or_self] at hsym hscheme
  constructor
  · unfold rsaDetailOf TPMT_SYM_DEF.Supported
    dsimp only
    split <;> exact hsym
  · exact hscheme

theorem keyedHashDetailOf_supported (kh : TPMSKeyedHashParms) :
    (keyedHashDetailOf kh).Supported := by
  have h := orNull_cases [TPM2_ALG_HMAC, TPM2_ALG_XOR, TPM2_ALG_NULL] kh.scheme.toUInt16
  simp only [List.mem_cons, List.not_mem_nil, or_false, or_assoc, or_self] at h
  exact h

theorem supported_null (area : TPMT_PUBLIC) (h : area.type = TPM2_ALG_NULL) : area.Supported := by
  refine ⟨Or.inr (Or.inr h), ?_, ?_⟩ <;>
  · intro h'
    rw [h] at h'
    exact absurd h' (by decide)

theorem setParameters_supported (area : TPMT_PUBLIC) (parms : Option TPMUPublicParms) :
    (setParameters area parms).Supported := by
  unfold setParameters
  split
  · next rsa =>
    refine ⟨Or.inl rfl, fun _ => rsaDetailOf_supported rsa, fun h => ?_⟩
    exact absurd h (by decide : TPM2_ALG_RSA ≠ TPM2_ALG_KEYEDHASH)
  · next kh =>
    refine ⟨Or.inr (Or.inl rfl), fun h => ?_, fun _ => keyedHashDetailOf_supported kh⟩
    exact absurd h (by decide : TPM2_ALG_KEYEDHASH ≠ TPM2_ALG_RSA)
  · exact supported_null _ rfl

theorem setUnique_supported {area : TPMT_PUBLIC} (h : area.Supported)
    (unique : Option TPMUPublicId) :
    (setUnique area unique).Supported := by
  unfold setUnique
  split
  · split
    · exact ⟨h.type, h.rsa, h.keyedHash⟩
    · exact h
  · split
    · exact ⟨h.type, h.rsa, h.keyedHash⟩
    · exact h
  · exact h

/-- Whatever the message is, the structure is one that tpm2-tss encodes by the specification. -/
theorem publicOf_supported (pub : TPM2BPublic) :
    (publicOf pub).size = 0 ∧ (publicOf pub).publicArea.Supported := by
  unfold publicOf
  split
  · exact ⟨rfl, supported_null _ rfl⟩
  · exact ⟨rfl, setUnique_supported (setParameters_supported _ _) _⟩

theorem sensitiveOf_size (sens : TPM2BSensitiveCreate) : (sensitiveOf sens).size = 0 := by
  unfold sensitiveOf
  split <;> rfl

theorem pcrSelectionsOf_supported (pcr : TPMLPCRSelection) : (pcrSelectionsOf pcr).Supported := by
  have hlen : (pcr.pcrSelections.take TPM2_NUM_PCR_BANKS).length ≤ 16 := List.length_take_le _ _
  constructor
  · show (UInt32.ofNat (pcr.pcrSelections.take TPM2_NUM_PCR_BANKS).length).toNat = _
    rw [UInt32.toNat_ofNat_of_lt' (show _ < 2 ^ 32 by omega), pcrSelectionsOf, List.length_map]
  · show ((pcr.pcrSelections.take TPM2_NUM_PCR_BANKS).map pcrSelectionOf).length ≤ 16
    rw [List.length_map]
    exact hlen
  · intro s hs
    obtain ⟨sel, -, rfl⟩ := List.mem_map.mp hs
    have hmin : min sel.sizeofSelect.toNat TPM2_PCR_SELECT_MAX ≤ 4 := Nat.min_le_right _ _
    show (UInt8.ofNat (min sel.sizeofSelect.toNat TPM2_PCR_SELECT_MAX)).toNat ≤ 4
    rw [UInt8.toNat_ofNat_of_lt' (show _ < 2 ^ 8 by omega)]
    exact hmin

/-! ## Every marshaller writes its encoding -/

variable (mu : Tss2Mu) (size : Nat)

theorem copyIn_writes (data : Bytes) : Writes size (copyIn size data) (some data) := by
  intro out hl
  unfold copyIn
  by_cases h : data = []
  · subst h
    exact (emit_nil hl).symm
  · rw [if_neg (by simpa using h)]
    rfl

theorem marshalCommandHeader_writes (h : TPMHeader) :
    Writes size (marshalCommandHeader mu size h) (some h.encode) := by
  intro out hl
  have hseq := (mu.writes_uint16 size h.tag.toUInt16).seq ((mu.writes_uint32 size h.commandSize).seq
    (mu.writes_uint32 size h.commandCode)) out hl
  simp only [join_some] at hseq
  show ((mu.uint16.put h.tag.toUInt16 size out).bind fun out₁ =>
    (mu.uint32.put h.commandSize size out₁).bind fun out₂ =>
      (mu.uint32.put h.commandCode size out₂).bind fun out₃ =>
        if out₃.length - out.length = 10 then some out₃ else none) = _
  -- the check at the end looks at the length of what the three writers returned
  have hassoc : ((mu.uint16.put h.tag.toUInt16 size out).bind fun out₁ =>
      (mu.uint32.put h.commandSize size out₁).bind (mu.uint32.put h.commandCode size)).bind
        (fun out₃ => if out₃.length - out.length = 10 then some out₃ else none) =
      (some h.encode).bind (emit size · out) := by
    rw [hseq, Option.bind_some, TPMHeader.encode]
    cases ho :
      emit size (write16 h.tag.toUInt16 ++ (write32 h.commandSize ++ write32 h.commandCode))
        out with
    | none => simp [ho]
    | some out' =>
      obtain ⟨rfl, -⟩ := emit_eq_some ho
      rw [Option.bind_some, if_pos (by simp), Option.bind_some, ho]
  rw [← hassoc]
  simp only [Option.bind_assoc]

theorem marshalTPM2BDigest_writes (d : TPM2BDigest) : Writes size (marshalTPM2BDigest mu size d)
    (if d.buffer.length > 65535 then none else some (tpm2b d.buffer)) :=
  Writes.ite (fun _ => Writes.fail)
    (fun _ => (mu.writes_uint16 size (UInt16.ofNat d.buffer.length)).seq
      (copyIn_writes size d.buffer))

theorem marshalTPMSession_writes (s : TPMSession) :
    Writes size (marshalTPMSession mu size s) (some s.encode) :=
  (mu.writes_uint32 size _).seq ((mu.writes_uint16 size _).seq ((copyIn_writes size _).seq
    ((Writes.emit _).seq ((mu.writes_uint16 size _).seq (copyIn_writes size _)))))

theorem marshalTPMTRSADecrypt_writes (s : TPMTRSADecrypt) :
    Writes size (marshalTPMTRSADecrypt mu size s) (some s.encode) := by
  have h := (mu.writes_uint16 size s.scheme.toUInt16).seq
    (Writes.ite (c := s.scheme.toUInt16 = TPM2_ALG_OAEP)
      (fun _ => mu.writes_uint16 size s.hashAlg.toUInt16) (fun _ => Writes.skip))
  intro out hl
  refine (h out hl).trans ?_
  rw [TPMTRSADecrypt.encode]
  split <;> rfl

theorem marshalTPMNvPublic_writes (pub : TPMNvPublic) :
    Writes size (marshalTPMNvPublic mu size pub) (some (tpm2b (nvPublicOf pub).encode)) := by
  refine mu.tpm2bNvPublic_standard.writes ?_ size
  show (UInt16.ofNat (mu.tpmsNvPublicSize (nvPublicOf pub))).toNat = (nvPublicOf pub).encode.length
  rw [mu.tpmsNvPublicSize_eq, UInt16.toNat_ofNat_of_lt' (nvPublicOf pub).length_encode_lt]

/-- One case for each message type. -/
theorem marshalMessageField_writes (m : Message) :
    Writes size (marshalMessageField mu size m) (m.encode mu.privateSize) := by
  cases m with
  | tpmHeader m => exact marshalCommandHeader_writes mu size m
  | tpm2bData m => exact mu.tpm2bData_standard.writes trivial size
  | tpm2bDigest m => exact marshalTPM2BDigest_writes mu size m
  | tpm2bPrivate m => exact mu.tpm2bPrivate_standard.writes trivial size
  | tpmtSymDef m => exact mu.tpmtSymDef_standard.writes (symDefOf_supported m) size
  | tpm2bSensitiveCreate m =>
    exact mu.tpm2bSensitiveCreate_standard.writes (sensitiveOf_size m) size
  | tpm2bPublic m => exact mu.tpm2bPublic_standard.writes (publicOf_supported m) size
  | tpmlPcrSelection m =>
    exact mu.tpmlPcrSelection_standard.writes (pcrSelectionsOf_supported m) size
  | tpm2bPublicKeyRsa m => exact mu.tpm2bPublicKeyRsa_standard.writes trivial size
  | tpmtRsaDecrypt m => exact marshalTPMTRSADecrypt_writes mu size m
  | tpm2bEvent m => exact mu.tpm2bEvent_standard.writes trivial size
  | tpmNvPublic m => exact marshalTPMNvPublic_writes mu size m
  | tpmSession m => exact Writes.fail
  | tpmiDhObject m => exact Writes.fail

/-- The authorization area is written with its size in front, filled in at the end. -/
theorem marshalRepeatedField_writes (elements : Elements) :
    Writes size (marshalRepeatedField mu size elements) elements.encode := by
  cases elements with
  | messages l => exact Writes.fail
  | scalars l => exact Writes.fail
  | sessions l =>
    have hfield : ∀ n, (write32 (UInt32.ofNat n)).length = (write32 0).length := fun _ => rfl
    have hpatch := Writes.backpatch hfield (Writes.each (marshalTPMSession_writes mu size) l)
    rw [joinAll_some] at hpatch
    intro out hl
    refine Eq.trans ?_ (hpatch out hl)
    show (mu.uint32.put 0 size out).bind (fun start =>
      (each (marshalTPMSession mu size) l start).bind
      fun out' => mu.uint32 (UInt32.ofNat (out'.length - start.length)) size out' out.length) = _
    rw [mu.writes_uint32 size 0 out hl, Option.bind_some, backpatch]
    cases hs : emit size (write32 0) out with
    | none => rfl
    | some start =>
      rw [Option.bind_some, Option.bind_some]
      cases ho : each (marshalTPMSession mu size) l start with
      | none => rfl
      | some out' =>
        -- the size field lies before what the sessions wrote
        obtain ⟨rfl, hstart⟩ := emit_eq_some hs
        obtain ⟨x, -, rfl, -⟩ :=
          (Writes.each (marshalTPMSession_writes mu size) l).eq_some hstart ho
        rw [Option.bind_some, Option.bind_some]
        exact mu.uint32_standard _ trivial size _ _ (by simp)

theorem marshalCommandField_writes (f : Field) :
    Writes size (marshalCommandField mu size f) (f.encode mu.privateSize) := by
  obtain ⟨name, value⟩ := f
  cases value with
  | repeated elements => exact marshalRepeatedField_writes mu size elements
  | message m => exact marshalMessageField_writes mu size m
  | enum type number =>
    cases type with
    | tpmse => exact Writes.emit _
    | tpmalg => exact mu.writes_uint16 size _
    | tpmst => exact mu.writes_uint32 size _
    | tpmcc => exact mu.writes_uint32 size _
    | tpmrh => exact mu.writes_uint32 size _
  | uint32 value =>
    exact Writes.ite (fun _ => Writes.ite (fun _ => Writes.fail) fun _ => mu.writes_uint16 size _)
      fun _ => mu.writes_uint32 size _
  | bytes data => exact copyIn_writes size data

/-! ## The command -/

/-- The command with its own length in bytes 2 to 5. -/
def withSize (x : Bytes) : Bytes := poke x 2 (write32 (UInt32.ofNat x.length))

theorem length_withSize {x : Bytes} (h : 6 ≤ x.length) : (withSize x).length = x.length := by
  unfold withSize
  apply length_poke
  rw [length_write32]
  omega

/-- Every command starts with its header. -/
theorem fields_header {c : TPMCommand} {fs : List Field} (h : c.fields = some fs) :
    ∃ header rest, fs = .header header :: rest := by
  cases c <;> cases h <;> exact ⟨_, _, rfl⟩

/-- Every command starts with its header. -/
theorem encode_header {privateSize : Nat} {c : TPMCommand} {x : Bytes}
    (h : c.encode privateSize = some x) :
    ∃ (header : TPMHeader) (rest : Bytes), x = header.encode ++ rest := by
  unfold TPMCommand.encode at h
  cases hf : c.fields with
  | none =>
    rw [hf] at h
    cases h
  | some fs =>
    obtain ⟨header, rest, rfl⟩ := fields_header hf
    rw [hf, Option.bind_some, joinAll, join,
      show Field.encode privateSize (.header header) = some (header.getD {}).encode from rfl,
      Option.bind_some, Option.map_eq_some_iff] at h
    obtain ⟨y, -, rfl⟩ := h
    exact ⟨header.getD {}, y, rfl⟩

theorem length_header (h : TPMHeader) : h.encode.length = 10 := rfl

/-- `MarshalCommand` writes the encoding of the command, with its own length as commandSize. -/
theorem marshalCommand_eq (c : TPMCommand) :
    marshalCommand mu c = (c.encode mu.privateSize).bind fun x =>
      if x.length ≤ kMaxBuffer then some (withSize x) else none := by
  unfold marshalCommand TPMCommand.encode
  cases hf : c.fields with
  | none => rfl
  | some fs =>
    have hw := Writes.each (marshalCommandField_writes mu kMaxBuffer) fs [] (Nat.zero_le _)
    show (each (marshalCommandField mu kMaxBuffer) fs []).bind _ = _
    rw [hw, Option.bind_some]
    cases hx : joinAll (Field.encode mu.privateSize) fs with
    | none => rfl
    | some x =>
      have henc : c.encode mu.privateSize = some x := by
        rw [TPMCommand.encode, hf, Option.bind_some, hx]
      obtain ⟨header, rest, hhead⟩ := encode_header henc
      rw [Option.bind_some, Option.bind_some]
      unfold emit
      rw [List.length_nil, Nat.zero_add, List.nil_append]
      by_cases hfit : x.length ≤ kMaxBuffer
      · rw [if_pos hfit, if_pos hfit, Option.bind_some]
        show some (patchCommandSize mu kMaxBuffer x x.length) = _
        have hten : 10 ≤ x.length := by
          rw [hhead, List.length_append, length_header]
          omega
        rw [patchCommandSize, mu.uint32_standard _ trivial kMaxBuffer x 2 (by omega), store,
          if_pos (by rw [length_write32]; decide), Option.getD_some, withSize]
      · rw [if_neg hfit, if_neg hfit, Option.bind_none]

end Proto
