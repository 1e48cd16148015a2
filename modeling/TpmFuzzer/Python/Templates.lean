import TpmFuzzer.Proto.Normalization
import TpmFuzzer.Python.Agreement

/-!
# Key templates on the way through protobuf

`TPMCreatePrimary.to_proto()` parses the template back out of the command's own bytes, the harness
fills in defaults and marshals.  The parsed message has no place for the key size and the mode of a
symmetric definition, and the parser does not step over the hash of a scheme.

    TPMCreatePrimary.init .. = .ok c  →
      (Survives mu c  ↔  0 < primary_handle < 2^31  ∧  template.Kept)
                                                                    (createPrimary_survives_iff)

`Kept` is what it takes for the result to be the template that went in.
-/

namespace Python

open Py Bytes Tpm Writer
open Proto (marshalCommand Field)

/-! ## Templates -/

/-- The templates that `tpm2_types.py` can encode, within the buffers of tpm2-tss. -/
structure TpmtPublic.Encodable (p : TpmtPublic) : Prop where
  nameAlg : algToInt p.nameAlg = PyEnum.value TPM_ALG.SHA1 ∨
    algToInt p.nameAlg = PyEnum.value TPM_ALG.SHA256 ∨
    algToInt p.nameAlg = PyEnum.value TPM_ALG.SHA384
  objectAttributes : p.objectAttributes.toInt ≠ 0
  authPolicy : p.authPolicy.length ≤ 64
  parameters :
    (algToInt p.type = PyEnum.value TPM_ALG.RSA ∧ p.unique.length ≤ 512 ∧
      ∀ parms, p.rsaParameters = some parms → parms.symmetric.Fits) ∨
    (algToInt p.type = PyEnum.value TPM_ALG.KEYEDHASH ∧ p.unique.length ≤ 64 ∧
      (algToInt (p.keyedhashScheme.getD {}).scheme = PyEnum.value TPM_ALG.NULL ∨
        algToInt (p.keyedhashScheme.getD {}).scheme = PyEnum.value TPM_ALG.HMAC ∧
          (p.keyedhashScheme.getD {}).hashAlg.isSome))

/-- NULL, or the AES-128-CFB that the harness puts in. -/
def SymDefObject.Kept (s : SymDefObject) : Prop :=
  algToInt s.algorithm = PyEnum.value TPM_ALG.NULL ∨
    s.keyBits = 128 ∧ algToInt s.mode = PyEnum.value TPM_ALG.CFB

/-- No scheme; or RSASSA without a real hash, where what is read in place of the key size, the
exponent and the unique field happens to be the same. -/
def RsaParms.Kept (p : RsaParms) (unique : Bytes) : Prop :=
  p.symmetric.Kept ∧
    (algToInt p.scheme = PyEnum.value TPM_ALG.NULL ∧ p.keyBits ≠ 0 ∨
      algToInt p.scheme = PyEnum.value TPM_ALG.RSASSA ∧ p.schemeHash.map algToInt = some 0 ∧
        p.keyBits = 2048 ∧ p.exponent = 0x08000800 ∧ unique = (List.replicate 256 [2, 0]).flatten)

/-- No scheme; or HMAC without a real hash and without a unique field. -/
def KeyedhashParms.Kept (p : KeyedhashParms) (unique : Bytes) : Prop :=
  algToInt p.scheme = PyEnum.value TPM_ALG.NULL ∨ p.hashAlg.map algToInt = some 0 ∧ unique = []

def TpmtPublic.Kept (p : TpmtPublic) : Prop :=
  (algToInt p.type = PyEnum.value TPM_ALG.RSA →
      ∀ parms, p.rsaParameters = some parms → parms.Kept p.unique) ∧
    (algToInt p.type = PyEnum.value TPM_ALG.KEYEDHASH → (p.keyedhashScheme.getD {}).Kept p.unique)

/-! ## Parsing -/

/-- A symmetric definition has 2 bytes or 6, and the parser steps over as many. -/
theorem symmetric_of_drop {s : SymDefObject} {pub sym rest : Bytes} {offset : Nat}
    (hs : s.toBytes = .ok sym) (hd : pub.drop offset = sym ++ rest) :
    ∃ alg : Nat, algToInt s.algorithm = alg ∧ alg < 2 ^ 16 ∧
      fromBytes (Py.slice pub offset (offset + 2)) = alg ∧
      (if alg = PyEnum.value TPM_ALG.NULL then offset + 2 else offset + 6) =
        offset + sym.length := by
  obtain ⟨hnull, rfl⟩ | ⟨alg, bits, mode, hne, halg, hlt, -, -, -, -, rfl⟩ :=
    SymDefObject.toBytes_eq_ok hs
  · refine ⟨0x10, hnull, by decide, fromBytes_of_drop hd rfl (by decide), ?_⟩
    rw [length_be]
    rfl
  · simp only [List.append_assoc] at hd
    refine ⟨alg, halg, hlt, fromBytes_of_drop hd rfl hlt, ?_⟩
    rw [if_neg (show alg ≠ PyEnum.value TPM_ALG.NULL from hne)]
    simp only [List.length_append, length_be]

/-- The parameters are read at their places without a scheme hash, the unique field as far as it
goes. -/
theorem protoRsaParms_of_drop {s : SymDefObject} {pub sym w : Bytes} {offset alg sch kb ex n : Nat}
    (hs : s.toBytes = .ok sym) (halg : algToInt s.algorithm = alg) (hsch : sch < 2 ^ 16)
    (hkb : kb < 2 ^ 16) (hex : ex < 2 ^ 32) (hn : n < 2 ^ 16)
    (hd : pub.drop offset = sym ++ (be 2 sch ++ (be 2 kb ++ (be 4 ex ++ (be 2 n ++ w))))) :
    protoRsaParms pub offset =
      .ok (.rsa { symmetric := UInt32.ofNat alg, scheme := UInt32.ofNat sch
                  keyBits := UInt32.ofNat kb, exponent := UInt32.ofNat ex },
        .rsa (w.take n)) := by
  obtain ⟨alg', halg', halglt, hread, hnext⟩ := symmetric_of_drop hs hd
  have hsame : alg' = alg := Int.ofNat_inj.mp (halg'.symm.trans halg)
  subst hsame
  have h0 := drop_of_drop (j := offset + sym.length) hd rfl
  have h2 := drop_of_drop (j := offset + sym.length + 2) h0 (by rw [length_be])
  have h4 := drop_of_drop (j := offset + sym.length + 2 + 2) h2 (by rw [length_be])
  have h8 := drop_of_drop (j := offset + sym.length + 2 + 2 + 4) h4 (by rw [length_be])
  unfold protoRsaParms
  rw [hread]
  dsimp only
  rw [hnext, fromBytes_of_drop h0 rfl hsch, fromBytes_of_drop h2 rfl hkb,
    fromBytes_of_drop h4 rfl hex, parseTpm2b_eq hn h8, List.drop_left' (length_be 2 _),
    pbEnum_nat (by omega), pbEnum_nat (by omega), pbUint32_nat (by omega), pbUint32_nat hex]
  rfl

theorem protoKeyedhashParms_of_drop {pub w : Bytes} {offset sch n : Nat} (hsch : sch < 2 ^ 16)
    (hn : n < 2 ^ 16) (hd : pub.drop offset = be 2 sch ++ (be 2 n ++ w)) :
    protoKeyedhashParms pub offset =
      .ok (.keyedhash { scheme := UInt32.ofNat sch },
        .keyedhash { size := UInt32.ofNat (w.take n).length, buffer := w.take n }) := by
  have h2 := drop_of_drop (j := offset + 2) hd (by rw [length_be])
  have hlen : (w.take n).length ≤ n := List.length_take_le n w
  unfold protoKeyedhashParms
  rw [fromBytes_of_drop hd rfl hsch]
  dsimp only
  rw [parseTpm2b_eq hn h2, List.drop_left' (length_be 2 _), protoSized_eq_ok (by omega),
    pbEnum_nat (by omega)]
  rfl

/-- What comes before the parameters of a public area. -/
def publicHead (type nameAlg objectAttributes : Nat) (authPolicy : Bytes) : Bytes :=
  be 2 type ++ (be 2 nameAlg ++ (be 4 objectAttributes ++ (be 2 authPolicy.length ++ authPolicy)))

@[simp] theorem length_publicHead (type nameAlg objectAttributes : Nat) (authPolicy : Bytes) :
    (publicHead type nameAlg objectAttributes authPolicy).length = 10 + authPolicy.length := by
  simp only [publicHead, List.length_append, length_be]
  omega

/-- The message of a public area whose parameters and unique field were parsed. -/
def publicMessage (size type nameAlg objectAttributes : Nat) (authPolicy : Bytes)
    (parameters : Proto.TPMUPublicParms) (unique : Proto.TPMUPublicId) : Proto.TPM2BPublic where
  size := UInt32.ofNat size
  publicArea := some
    { type := UInt32.ofNat type, nameAlg := UInt32.ofNat nameAlg
      objectAttributes := UInt32.ofNat objectAttributes
      authPolicy := some { size := UInt32.ofNat authPolicy.length, buffer := authPolicy }
      parameters := some parameters, unique := some unique }

theorem protoPublic_of_head {type nameAlg attrs : Nat} {policy pub rest : Bytes}
    {parameters : Proto.TPMUPublicParms} {unique : Proto.TPMUPublicId} (htype : type < 2 ^ 16)
    (hname : nameAlg < 2 ^ 16) (hattrs : attrs < 2 ^ 32) (hpolicy : policy.length < 2 ^ 16)
    (hlen : pub.length < 2 ^ 16) (hpub : pub = publicHead type nameAlg attrs policy ++ rest)
    (hparms : protoParameters pub type (10 + policy.length) = .ok (parameters, unique)) :
    protoPublic (be 2 pub.length ++ pub) =
      .ok (publicMessage pub.length type nameAlg attrs policy parameters unique) := by
  have h0 : pub.drop 0 = be 2 type ++ (be 2 nameAlg ++ (be 4 attrs ++ (be 2 policy.length ++
      (policy ++ rest)))) := by
    rw [hpub]
    simp [publicHead]
  have h2 := drop_of_drop (j := 2) h0 (by rw [length_be])
  have h4 := drop_of_drop (j := 4) h2 (by rw [length_be])
  have h8 := drop_of_drop (j := 8) h4 (by rw [length_be])
  have h10 := drop_of_drop (j := 10) h8 (by rw [length_be])
  unfold protoPublic
  rw [List.drop_left' (length_be 2 _)]
  dsimp only
  rw [fromBytes_of_drop h0 rfl htype, fromBytes_of_drop h2 rfl hname, fromBytes_of_drop h4 rfl
    hattrs, fromBytes_of_drop h8 rfl hpolicy, Py.slice_of_drop h10 rfl, hparms, ok_bind]
  dsimp only
  rw [pbUint32_nat (by omega), pbEnum_nat (by omega), pbEnum_nat (by omega), pbUint32_nat hattrs,
    pbUint32_nat (by omega)]
  rfl

/-! ## Normalizing and marshalling -/

/-- The public area the harness marshals for a message. -/
def normalizedPublic (m : Proto.TPM2BPublic) : Proto.TPM2BPublic :=
  { m with publicArea := some (Proto.normalizeRsaOrKeyedHashPublic (m.publicArea.getD {})
      Proto.kStorageParentObjectAttributes) }

theorem ofNat_ne_zero {n : Nat} (h : n < 2 ^ 32) (h0 : n ≠ 0) : UInt32.ofNat n ≠ 0 := by
  intro hz
  have := congrArg UInt32.toNat hz
  rw [UInt32.toNat_ofNat_of_lt' h] at this
  exact h0 this

section

variable {size type nameAlg attrs : Nat} {policy : Bytes} (hname : nameAlg < 2 ^ 16)
  (hname0 : nameAlg ≠ 0) (hattrs : attrs < 2 ^ 32) (hattrs0 : attrs ≠ 0)
    (hpolicy : policy.length ≤ 64)

include hname hname0 hattrs hattrs0

/-- A name algorithm and attributes that are not 0 stay. -/
theorem normalizedPublic_area (parameters : Proto.TPMUPublicParms) (unique : Proto.TPMUPublicId) :
    (Proto.publicOf (normalizedPublic
        (publicMessage size type nameAlg attrs policy parameters unique))).publicArea =
      Proto.setUnique (Proto.setParameters
        { type := TPM2_ALG_NULL, nameAlg := (UInt32.ofNat nameAlg).toUInt16
          objectAttributes := UInt32.ofNat attrs, authPolicy := Proto.fillTpm2b 64 policy }
        (some (Proto.normalizeParameters parameters).2)) (some unique) := by
  unfold Proto.publicOf normalizedPublic publicMessage Proto.normalizeRsaOrKeyedHashPublic
  simp only [Option.getD_some, Proto.orDefault_ne_zero
    (ofNat_ne_zero (by omega : nameAlg < 2 ^ 32) hname0),
    Proto.orDefault_ne_zero (ofNat_ne_zero hattrs hattrs0), Option.map_some]

include hpolicy

theorem encode_normalized_rsa (parms : Proto.TPMSRSAParms) (unique : Bytes) :
    (Proto.publicOf (normalizedPublic
        (publicMessage size type nameAlg attrs policy
          (.rsa parms) (.rsa unique)))).publicArea.encode =
      publicHead 1 nameAlg attrs policy ++ ((Proto.rsaDetailOf (Proto.normalizeRsa parms)).encode ++
        (Proto.fillTpm2b 512 unique).encode) := by
  rw [normalizedPublic_area hname hname0 hattrs hattrs0]
  show write16 TPM2_ALG_RSA ++ write16 (UInt32.ofNat nameAlg).toUInt16 ++
    write32 (UInt32.ofNat attrs) ++
    (Proto.fillTpm2b 64 policy).encode ++ (Proto.rsaDetailOf (Proto.normalizeRsa parms)).encode ++
    (Proto.fillTpm2b 512 unique).encode = _
  rw [write16_alg hname, write32_ofNat hattrs, Proto.encode_fillTpm2b hpolicy (by decide),
    show write16 TPM2_ALG_RSA = be 2 1 from rfl]
  simp [publicHead]

theorem encode_normalized_keyedhash (parms : Proto.TPMSKeyedHashParms)
    (unique : Proto.TPM2BDigest) :
    (Proto.publicOf (normalizedPublic (publicMessage size type nameAlg attrs policy
        (.keyedhash parms) (.keyedhash unique)))).publicArea.encode =
      publicHead 8 nameAlg attrs policy ++
        ((Proto.keyedHashDetailOf (Proto.normalizeKeyedHash parms)).encode ++
          (Proto.fillTpm2b 64 unique.buffer).encode) := by
  rw [normalizedPublic_area hname hname0 hattrs hattrs0]
  show write16 TPM2_ALG_KEYEDHASH ++ write16 (UInt32.ofNat nameAlg).toUInt16 ++
    write32 (UInt32.ofNat attrs) ++ (Proto.fillTpm2b 64 policy).encode ++
    (Proto.keyedHashDetailOf (Proto.normalizeKeyedHash parms)).encode ++
    (Proto.fillTpm2b 64 unique.buffer).encode = _
  rw [write16_alg hname, write32_ofNat hattrs, Proto.encode_fillTpm2b hpolicy (by decide),
    show write16 TPM2_ALG_KEYEDHASH = be 2 8 from rfl]
  simp [publicHead]

end

/-! ### RSA parameters -/

/-- The symmetric definition that is marshalled for an algorithm: the key size and the mode are the
harness's own. -/
def wireSym (alg : Nat) : Bytes :=
  if alg = 0x10 then be 2 0x10 else be 2 6 ++ (be 2 128 ++ be 2 0x43)

/-- RSASSA has no hash to go with it, anything else becomes NULL. -/
def wireScheme (scheme : Nat) : Bytes := if scheme = 0x14 then be 2 0x14 ++ be 2 0 else be 2 0x10

def wireKeyBits (keyBits : Nat) : Nat := if keyBits = 0 then 2048 else keyBits

theorem toUInt16_orDefault {n : Nat} (hn : n < 2 ^ 16) (d : Nat) :
    (Proto.orDefault (UInt32.ofNat n) (UInt32.ofNat d)).toUInt16 =
      UInt16.ofNat (if n = 0 then d else n) := by
  by_cases h : n = 0
  · subst h
    rw [if_pos rfl]
    exact toUInt16_ofNat d
  · rw [if_neg h, Proto.orDefault_ne_zero (ofNat_ne_zero (by omega) h), toUInt16_ofNat]

theorem orNull_scheme {scheme : Nat} (h : scheme < 2 ^ 16) :
    Proto.orNull [TPM2_ALG_RSASSA, TPM2_ALG_NULL]
        (Proto.orDefault (UInt32.ofNat scheme) Proto.TPM_ALG_NULL).toUInt16 =
      if scheme = 0x14 then TPM2_ALG_RSASSA else TPM2_ALG_NULL := by
  rw [show Proto.TPM_ALG_NULL = UInt32.ofNat 0x10 from rfl, toUInt16_orDefault h]
  by_cases h14 : scheme = 0x14
  · subst h14
    rfl
  · have hne : UInt16.ofNat (if scheme = 0 then 0x10 else scheme) ≠ TPM2_ALG_RSASSA := by
      intro heq
      have := congrArg UInt16.toNat heq
      have hval : TPM2_ALG_RSASSA.toNat = 0x14 := rfl
      rw [UInt16.toNat_ofNat_of_lt' (show _ < 65536 by split <;> omega), hval] at this
      split at this <;> omega
    rw [if_neg h14, Proto.orNull]
    generalize UInt16.ofNat (if scheme = 0 then 0x10 else scheme) = v at hne ⊢
    split
    · next hmem => simpa [hne] using hmem
    · rfl

theorem encode_rsaDetailOf {alg scheme keyBits exponent : Nat} (halg : alg = 6 ∨ alg = 0x10)
    (hscheme : scheme < 2 ^ 16) (hbits : keyBits < 2 ^ 16) (hexp : exponent < 2 ^ 32) :
    (Proto.rsaDetailOf (Proto.normalizeRsa
      { symmetric := UInt32.ofNat alg, scheme := UInt32.ofNat scheme
        keyBits := UInt32.ofNat keyBits, exponent := UInt32.ofNat exponent })).encode =
      wireSym alg ++ (wireScheme scheme ++ (be 2 (wireKeyBits keyBits) ++ be 4 exponent)) := by
  have hsym : (Proto.rsaDetailOf (Proto.normalizeRsa
      { symmetric := UInt32.ofNat alg, scheme := UInt32.ofNat scheme
        keyBits := UInt32.ofNat keyBits, exponent := UInt32.ofNat exponent })).symmetric.encode =
          wireSym alg := by
    have hne : TPM2_ALG_AES ≠ TPM2_ALG_NULL := by decide
    unfold Proto.rsaDetailOf Proto.normalizeRsa
    dsimp only
    obtain rfl | rfl := halg
    · rw [show Proto.orNull [TPM2_ALG_AES, TPM2_ALG_NULL]
        (Proto.orDefault (UInt32.ofNat 6) Proto.TPM_ALG_AES).toUInt16 = TPM2_ALG_AES by decide,
        if_pos hne]
      rfl
    · rw [show Proto.orNull [TPM2_ALG_AES, TPM2_ALG_NULL]
        (Proto.orDefault (UInt32.ofNat 0x10) Proto.TPM_ALG_AES).toUInt16 = TPM2_ALG_NULL by decide,
        if_neg (by simp)]
      rfl
  have hsch : (Proto.rsaDetailOf (Proto.normalizeRsa
      { symmetric := UInt32.ofNat alg, scheme := UInt32.ofNat scheme
        keyBits := UInt32.ofNat keyBits, exponent := UInt32.ofNat exponent })).scheme.encode =
          wireScheme scheme := by
    unfold Proto.rsaDetailOf Proto.normalizeRsa wireScheme
    dsimp only
    rw [orNull_scheme hscheme]
    split <;> rfl
  have hexpd : Proto.orDefault (UInt32.ofNat exponent) 0 = UInt32.ofNat exponent := by
    unfold Proto.orDefault
    split
    · next h0 => exact h0.symm
    · rfl
  unfold TPMS_RSA_PARMS.encode
  rw [hsym, hsch]
  show wireSym alg ++ wireScheme scheme ++
    write16 (Proto.orDefault (UInt32.ofNat keyBits) (UInt32.ofNat 2048)).toUInt16 ++
    write32 (Proto.orDefault (UInt32.ofNat exponent) 0) = _
  rw [toUInt16_orDefault hbits, hexpd, write16_ofNat (by split <;> omega), write32_ofNat hexp]
  simp [wireKeyBits]

theorem SymDefObject.wireSym_iff {s : SymDefObject} {sym : Bytes} {alg : Nat}
    (hs : s.toBytes = .ok sym) (halg : algToInt s.algorithm = alg) (hfits : s.Fits) :
    (alg = 6 ∨ alg = 0x10) ∧ (wireSym alg).length = sym.length ∧ (wireSym alg = sym ↔ s.Kept) := by
  obtain ⟨hnull, rfl⟩ | ⟨alg', bits, mode, hne, halg', -, hbits, hbitslt, hmode, hmodelt, rfl⟩ :=
    SymDefObject.toBytes_eq_ok hs
  · have h16 : alg = 0x10 := Int.ofNat_inj.mp (halg.symm.trans hnull)
    subst h16
    exact ⟨Or.inr rfl, rfl, iff_of_true rfl (Or.inl hnull)⟩
  · have hsame : alg' = alg := Int.ofNat_inj.mp (halg'.symm.trans halg)
    subst hsame
    have hsix : alg' = 6 := by
      obtain h | h := hfits
      · exact Int.ofNat_inj.mp (halg.symm.trans h)
      · exact absurd (Int.ofNat_inj.mp (halg.symm.trans h)) hne
    subst hsix
    refine ⟨Or.inl rfl, by simp [wireSym], ?_⟩
    rw [wireSym, if_neg hne, List.append_cancel_left_eq,
      List.append_eq_append_iff_of_size_eq_left (by simp), be_inj_iff (by decide) hbitslt,
      be_inj_iff (by decide) hmodelt]
    unfold SymDefObject.Kept
    rw [hbits, hmode, halg]
    constructor
    · rintro ⟨rfl, rfl⟩
      exact Or.inr ⟨rfl, rfl⟩
    · rintro (h | ⟨h1, h2⟩)
      · exact absurd h (by decide)
      · exact ⟨(Int.ofNat_inj.mp h1).symm, (Int.ofNat_inj.mp h2).symm⟩

/-- Without a scheme hash only the NULL scheme survives, and a key size that is not left open. -/
theorem wireScheme_plain_iff {scheme keyBits : Nat} {rest : Bytes} (hscheme : scheme < 2 ^ 16)
    (hbits : keyBits < 2 ^ 16) :
    wireScheme scheme ++ (be 2 (wireKeyBits keyBits) ++ rest) =
      be 2 scheme ++ (be 2 keyBits ++ rest) ↔
      scheme = 0x10 ∧ keyBits ≠ 0 := by
  unfold wireScheme
  by_cases h14 : scheme = 0x14
  · -- two bytes too many
    subst h14
    refine iff_of_false (fun h => ?_) (by omega)
    have := congrArg List.length h
    simp only [if_true, List.length_append, length_be] at this
    omega
  · have hkb : wireKeyBits keyBits < 2 ^ 16 := by
      unfold wireKeyBits
      split <;> omega
    rw [if_neg h14, List.append_eq_append_iff_of_size_eq_left (by simp),
      List.append_eq_append_iff_of_size_eq_left (by simp), be_inj_iff (by decide) hscheme,
      be_inj_iff hkb hbits]
    unfold wireKeyBits
    constructor
    · rintro ⟨rfl, h, -⟩
      refine ⟨rfl, ?_⟩
      rintro rfl
      cases h
    · rintro ⟨rfl, h⟩
      exact ⟨rfl, if_neg h, rfl⟩

/-- With one, everything behind it is read two bytes early. -/
theorem wireScheme_hashed_iff {scheme hash keyBits exponent : Nat} {u v : Bytes}
    (hne : scheme ≠ 0x10) (hscheme : scheme < 2 ^ 16) (hhash : hash < 2 ^ 16)
    (hbits : keyBits < 2 ^ 16) (hexp : exponent < 2 ^ 32) :
    wireScheme scheme ++ (be 2 (wireKeyBits hash) ++ (be 4 (keyBits * 65536 + exponent / 65536) ++
        (be 2 v.length ++ v))) =
      be 2 scheme ++ (be 2 hash ++ (be 2 keyBits ++ (be 4 exponent ++ (be 2 u.length ++ u)))) ↔
    scheme = 0x14 ∧ hash = 0 ∧ keyBits = 2048 ∧ exponent = 0x08000800 ∧ v = u := by
  unfold wireScheme
  by_cases h14 : scheme = 0x14
  · subst h14
    have hkb : wireKeyBits hash < 2 ^ 16 := by
      unfold wireKeyBits
      split <;> omega
    rw [if_pos rfl, List.append_assoc, List.append_cancel_left_eq,
      List.append_eq_append_iff_of_size_eq_left (by simp),
      List.append_eq_append_iff_of_size_eq_left (by simp),
      List.append_eq_append_iff_of_size_eq_left (by simp),
      List.append_eq_append_iff_of_size_eq_left (by simp), be_inj_iff (by decide) hhash,
      be_inj_iff hkb hbits, be_inj_iff (by omega) hexp]
    constructor
    · rintro ⟨rfl, rfl, h, -, hv⟩
      have h2048 : wireKeyBits 0 = 2048 := rfl
      rw [h2048] at h
      exact ⟨rfl, rfl, rfl, by omega, hv⟩
    · rintro ⟨-, rfl, rfl, rfl, rfl⟩
      exact ⟨rfl, rfl, rfl, rfl, rfl⟩
  · rw [if_neg h14, List.append_eq_append_iff_of_size_eq_left (by simp),
      be_inj_iff (by decide) hscheme]
    constructor
    · rintro ⟨h, -⟩
      exact absurd h.symm hne
    · rintro ⟨h, -⟩
      exact absurd h h14

theorem take_unique_iff {u : Bytes} (hu : u.length ≤ 512) :
    ((be 2 u.length ++ u).take 2048).take 512 = u ↔ u = (List.replicate 256 [2, 0]).flatten := by
  rw [List.take_take, show min 512 2048 = 2 * 256 from rfl]
  constructor
  · intro h
    have hlen : u.length = 2 * 256 := by
      have := congrArg List.length h
      rw [List.length_take, List.length_append, length_be] at this
      omega
    rw [hlen] at h
    exact (take_shift_iff hlen).mp h
  · intro h
    have hlen : u.length = 2 * 256 := by
      rw [h, List.length_flatten, List.map_replicate, List.sum_replicate_nat]
      rfl
    rw [hlen]
    exact (take_shift_iff hlen).mpr h

theorem RsaParms.toBytes_eq_ok {p : RsaParms} {x : Bytes} (h : p.toBytes = .ok x) :
    ∃ (sym : Bytes) (scheme keyBits exponent : Nat), p.symmetric.toBytes = .ok sym ∧
      algToInt p.scheme = scheme ∧ scheme < 2 ^ 16 ∧ p.keyBits = keyBits ∧ keyBits < 2 ^ 16 ∧
      p.exponent = exponent ∧ exponent < 2 ^ 32 ∧
      ((scheme = 0x10 ∨ p.schemeHash = none) ∧
          x = sym ++ (be 2 scheme ++ (be 2 keyBits ++ be 4 exponent)) ∨
        scheme ≠ 0x10 ∧ ∃ hash : Nat, p.schemeHash.map algToInt = some ↑hash ∧ hash < 2 ^ 16 ∧
          x = sym ++ (be 2 scheme ++ (be 2 hash ++ (be 2 keyBits ++ be 4 exponent)))) := by
  simp only [RsaParms.toBytes, RsaParms.schemeBytes, bind_eq_ok, Py.toBytes_eq_ok, pure_eq_ok,
    Except.ok.injEq] at h
  obtain ⟨sym, hsym, sb, ⟨_, ⟨scheme, hs, hslt, rfl⟩, hsb⟩, _, ⟨keyBits, hk, hklt, rfl⟩, _,
    ⟨exponent, he, helt, rfl⟩, rfl⟩ := h
  refine ⟨sym, scheme, keyBits, exponent, hsym, hs, hslt, hk, hklt, he, helt, ?_⟩
  have hnull : algToInt p.scheme ≠ PyEnum.value TPM_ALG.NULL ↔ scheme ≠ 0x10 := by
    rw [hs]
    exact not_congr Int.ofNat_inj
  cases hh : p.schemeHash with
  | none =>
    rw [hh] at hsb
    cases hsb
    exact Or.inl ⟨Or.inr rfl, by simp⟩
  | some a =>
    rw [hh] at hsb
    dsimp only at hsb
    split at hsb
    · next hne =>
      simp only [bind_eq_ok, Py.toBytes_eq_ok, Except.ok.injEq] at hsb
      obtain ⟨_, ⟨hash, ha, halt, rfl⟩, rfl⟩ := hsb
      exact Or.inr ⟨hnull.mp hne, hash, by rw [Option.map_some, ha], halt, by simp⟩
    · next he =>
      cases hsb
      exact Or.inl ⟨Or.inl (not_not.mp (mt hnull.mpr he)), by simp⟩

/-- Two bytes and four bytes are four bytes and two bytes. -/
theorem be_shift {keyBits exponent : Nat} (hk : keyBits < 2 ^ 16) (he : exponent < 2 ^ 32) :
    be 2 keyBits ++ be 4 exponent =
      be 4 (keyBits * 65536 + exponent / 65536) ++ be 2 (exponent % 65536) := by
  have hexp : be 4 exponent = be 2 (exponent / 65536) ++ be 2 (exponent % 65536) := by
    rw [be_append (by omega) (by omega)]
    congr 1
    omega
  rw [hexp, ← List.append_assoc, be_append (by omega) (by omega),
    show (256 : Nat) ^ 2 = 65536 from rfl]

/-- RSA parameters and unique field, through parser, normalization and marshaller. -/
theorem rsaParms_survive {p : RsaParms} {x u pub : Bytes} {offset : Nat} (hx : p.toBytes = .ok x)
    (hfits : p.symmetric.Fits) (hu : u.length ≤ 512)
    (hd : pub.drop offset = x ++ (be 2 u.length ++ u)) :
    ∃ parms v, protoRsaParms pub offset = .ok (.rsa parms, .rsa v) ∧
      ((Proto.rsaDetailOf (Proto.normalizeRsa parms)).encode ++ (Proto.fillTpm2b 512 v).encode =
        x ++ (be 2 u.length ++ u) ↔ p.Kept u) := by
  obtain ⟨sym, scheme, keyBits, exponent, hsym, hs, hslt, hk, hklt, he, helt, hform⟩ :=
    RsaParms.toBytes_eq_ok hx
  have halg : ∃ alg : Nat, algToInt p.symmetric.algorithm = alg := by
    obtain h | h := hfits
    · exact ⟨_, h⟩
    · exact ⟨_, h⟩
  obtain ⟨alg, halg⟩ := halg
  obtain ⟨halg', hsymlen, hkept⟩ := SymDefObject.wireSym_iff hsym halg hfits
  unfold RsaParms.Kept
  rw [← hkept, hs, hk, he]
  obtain ⟨hplain, rfl⟩ | ⟨hne, hash, hhash, hhlt, rfl⟩ := hform
  · -- everything is read at its place
    have hd' := hd
    simp only [List.append_assoc] at hd'
    refine ⟨_, _, protoRsaParms_of_drop hsym halg hslt hklt helt (by omega) hd', ?_⟩
    rw [encode_rsaDetailOf halg' hslt hklt helt, List.take_length,
      Proto.encode_fillTpm2b hu (by decide)]
    simp only [List.append_assoc]
    rw [List.append_eq_append_iff_of_size_eq_left hsymlen, wireScheme_plain_iff hslt hklt]
    refine and_congr_right fun _ => ?_
    constructor
    · rintro ⟨rfl, h⟩
      exact Or.inl ⟨rfl, by omega⟩
    · rintro (⟨h, hk0⟩ | ⟨h14, hh, -⟩)
      · exact ⟨Int.ofNat_inj.mp h, by omega⟩
      · have hs14 : scheme = 0x14 := Int.ofNat_inj.mp h14
        obtain h16 | hnone := hplain
        · omega
        · rw [hnone] at hh
          cases hh
  · -- the key size is read from the hash, the exponent from the key size, the unique field from
    -- the exponent
    have hd' := hd
    rw [be_shift hklt helt] at hd'
    simp only [List.append_assoc] at hd'
    refine ⟨_, _, protoRsaParms_of_drop hsym halg hslt hhlt (by omega) (by omega) hd', ?_⟩
    rw [encode_rsaDetailOf halg' hslt hhlt (by omega), Proto.encode_fillTpm2b_take _ (by decide)]
    simp only [List.append_assoc]
    rw [List.append_eq_append_iff_of_size_eq_left hsymlen,
      wireScheme_hashed_iff hne hslt hhlt hklt helt, hhash]
    refine and_congr_right fun _ => ?_
    constructor
    · rintro ⟨rfl, rfl, rfl, rfl, hv⟩
      exact Or.inr ⟨rfl, rfl, rfl, rfl, (take_unique_iff hu).mp hv⟩
    · rintro (⟨h, -⟩ | ⟨h14, hh, hk', he', hv⟩)
      · exact absurd (Int.ofNat_inj.mp h) hne
      · have hs14 : scheme = 0x14 := Int.ofNat_inj.mp h14
        have hh0 : hash = 0 := Int.ofNat_inj.mp (Option.some.inj hh)
        have hk0 : keyBits = 2048 := Int.ofNat_inj.mp hk'
        have he0 : exponent = 0x08000800 := Int.ofNat_inj.mp he'
        subst he0
        exact ⟨hs14, hh0, hk0, rfl, (take_unique_iff hu).mpr hv⟩

/-! ### Keyed-hash parameters -/

theorem encode_keyedHashDetailOf {scheme : Nat} (h : scheme = 5 ∨ scheme = 0x10) :
    (Proto.keyedHashDetailOf (Proto.normalizeKeyedHash { scheme := UInt32.ofNat scheme })).encode =
      if scheme = 5 then be 2 5 ++ be 2 0 else be 2 0x10 := by
  obtain rfl | rfl := h <;> decide

/-- The hash follows when there is one and the scheme is HMAC. -/
theorem KeyedhashParms.toBytes_cases {p : KeyedhashParms} {x : Bytes} (h : p.toBytes = .ok x) :
    ∃ scheme : Nat, algToInt p.scheme = scheme ∧ scheme < 2 ^ 16 ∧
      ((scheme ≠ 5 ∨ p.hashAlg = none) ∧ x = be 2 scheme ∨
        scheme = 5 ∧ ∃ hash : Nat, p.hashAlg.map algToInt = some ↑hash ∧ hash < 2 ^ 16 ∧
          x = be 2 5 ++ be 2 hash) := by
  simp only [KeyedhashParms.toBytes, bind_eq_ok, Py.toBytes_eq_ok] at h
  obtain ⟨_, ⟨scheme, hs, hslt, rfl⟩, h⟩ := h
  refine ⟨scheme, hs, hslt, ?_⟩
  have hhmac : algToInt p.scheme = PyEnum.value TPM_ALG.HMAC ↔ scheme = 5 := by
    rw [hs]
    exact Int.ofNat_inj
  cases hh : p.hashAlg with
  | none =>
    rw [hh] at h
    cases h
    exact Or.inl ⟨Or.inr rfl, rfl⟩
  | some a =>
    rw [hh] at h
    dsimp only at h
    split at h
    · next h5 =>
      have hs5 := hhmac.mp h5
      subst hs5
      simp only [bind_eq_ok, Py.toBytes_eq_ok, pure_eq_ok, Except.ok.injEq] at h
      obtain ⟨_, ⟨hash, hhash, hlt, rfl⟩, rfl⟩ := h
      exact Or.inr ⟨rfl, hash, by rw [Option.map_some, hhash], hlt, rfl⟩
    · next h5 =>
      cases h
      exact Or.inl ⟨Or.inl (mt hhmac.mpr h5), rfl⟩

theorem KeyedhashParms.toBytes_eq_ok {p : KeyedhashParms} {x : Bytes} (h : p.toBytes = .ok x)
    (hp : algToInt p.scheme = PyEnum.value TPM_ALG.NULL ∨
      algToInt p.scheme = PyEnum.value TPM_ALG.HMAC ∧ p.hashAlg.isSome) :
    algToInt p.scheme = PyEnum.value TPM_ALG.NULL ∧ x = be 2 0x10 ∨
      algToInt p.scheme ≠ PyEnum.value TPM_ALG.NULL ∧ ∃ hash : Nat,
        p.hashAlg.map algToInt = some ↑hash ∧
        hash < 2 ^ 16 ∧ x = be 2 5 ++ be 2 hash := by
  obtain ⟨scheme, hs, -, ⟨hplain, rfl⟩ | ⟨rfl, hash⟩⟩ := KeyedhashParms.toBytes_cases h
  · obtain hnull | ⟨hhmac, hsome⟩ := hp
    · have h16 : scheme = 0x10 := Int.ofNat_inj.mp (hs.symm.trans hnull)
      exact Or.inl ⟨hnull, by rw [h16]⟩
    · have h5 : scheme = 5 := Int.ofNat_inj.mp (hs.symm.trans hhmac)
      obtain hne | hnone := hplain
      · exact absurd h5 hne
      · rw [hnone] at hsome
        cases hsome
  · refine Or.inr ⟨?_, hash⟩
    rw [hs]
    decide

theorem keyedhashParms_survive {p : KeyedhashParms} {x u pub : Bytes} {offset : Nat}
    (hx : p.toBytes = .ok x)
    (hp : algToInt p.scheme = PyEnum.value TPM_ALG.NULL ∨
      algToInt p.scheme = PyEnum.value TPM_ALG.HMAC ∧ p.hashAlg.isSome)
    (hu : u.length ≤ 64) (hd : pub.drop offset = x ++ (be 2 u.length ++ u)) :
    ∃ parms v, protoKeyedhashParms pub offset = .ok (.keyedhash parms, .keyedhash v) ∧
      ((Proto.keyedHashDetailOf (Proto.normalizeKeyedHash parms)).encode ++
        (Proto.fillTpm2b 64 v.buffer).encode = x ++ (be 2 u.length ++ u) ↔ p.Kept u) := by
  unfold KeyedhashParms.Kept
  obtain ⟨hnull, rfl⟩ | ⟨hnull, hash, hhash, hlt, rfl⟩ := KeyedhashParms.toBytes_eq_ok hx hp
  · refine ⟨_, _, protoKeyedhashParms_of_drop (by decide) (by omega) hd, ?_⟩
    dsimp only
    rw [encode_keyedHashDetailOf (Or.inr rfl), List.take_length,
      Proto.encode_fillTpm2b hu (by decide)]
    exact iff_of_true rfl (Or.inl hnull)
  · -- the unique field is read from the hash
    rw [List.append_assoc] at hd
    refine ⟨_, _, protoKeyedhashParms_of_drop (by decide) hlt hd, ?_⟩
    dsimp only
    rw [encode_keyedHashDetailOf (Or.inl rfl), if_pos rfl,
      Proto.encode_fillTpm2b_take _ (by decide), List.append_assoc, List.append_assoc,
      List.append_cancel_left_eq, List.append_eq_append_iff_of_size_eq_left (by simp),
      List.append_eq_append_iff_of_size_eq_left (by simp), be_inj_iff (by decide) hlt, hhash]
    constructor
    · rintro ⟨rfl, -, hv⟩
      exact Or.inr ⟨rfl, hv.symm⟩
    · rintro (h | ⟨h0, rfl⟩)
      · exact absurd h hnull
      · have hh0 : hash = 0 := Int.ofNat_inj.mp (Option.some.inj h0)
        subst hh0
        exact ⟨rfl, rfl, rfl⟩

/-! ### Public areas -/

theorem TpmtPublic.toBytes_eq_ok {p : TpmtPublic} {pub : Bytes} (h : p.toBytes = .ok pub) :
    ∃ (type nameAlg attrs : Nat) (x : Bytes), algToInt p.type = type ∧ type < 2 ^ 16 ∧
      algToInt p.nameAlg = nameAlg ∧ nameAlg < 2 ^ 16 ∧
      p.objectAttributes.toInt = attrs ∧ attrs < 2 ^ 32 ∧ p.parametersBytes = .ok x ∧
      pub = publicHead type nameAlg attrs p.authPolicy ++
        (x ++ (be 2 p.unique.length ++ p.unique)) := by
  simp only [TpmtPublic.toBytes, bind_eq_ok, Py.toBytes_eq_ok, sized_eq_ok, pure_eq_ok,
    Except.ok.injEq] at h
  obtain ⟨_, ⟨type, ht, htlt, rfl⟩, _, ⟨name, hn, hnlt, rfl⟩, _, ⟨attrs, ha, halt, rfl⟩, _,
    ⟨-, rfl⟩, x, hx, _, ⟨-, rfl⟩, rfl⟩ := h
  exact ⟨type, name, attrs, x, ht, htlt, hn, hnlt, ha, halt, hx, by simp [publicHead]⟩

/-- A template, through parser, normalization and marshaller. -/
theorem public_survives {p : TpmtPublic} {pub : Bytes} (hp : p.Encodable) (hb : p.toBytes = .ok pub)
    (hlen : pub.length < 2 ^ 16) :
    ∃ m, protoPublic (be 2 pub.length ++ pub) = .ok m ∧
      ((Proto.publicOf (normalizedPublic m)).publicArea.encode = pub ↔ p.Kept) := by
  obtain ⟨type, name, attrs, x, ht, htlt, hn, hnlt, ha, halt, hx, hpub⟩ :=
    TpmtPublic.toBytes_eq_ok hb
  have hname0 : name ≠ 0 := by
    have h := hp.nameAlg
    rw [hn] at h
    rintro rfl
    revert h
    decide
  have hattrs0 : attrs ≠ 0 := by
    have h := hp.objectAttributes
    rw [ha] at h
    omega
  have hpolicy := hp.authPolicy
  have hd : pub.drop (10 + p.authPolicy.length) = x ++ (be 2 p.unique.length ++ p.unique) := by
    rw [hpub, List.drop_left' (length_publicHead ..)]
  unfold TpmtPublic.parametersBytes at hx
  obtain ⟨hrsa, hu, hfits⟩ | ⟨hkh, hu, hscheme⟩ := hp.parameters
  · have h1 : type = 1 := Int.ofNat_inj.mp (ht.symm.trans hrsa)
    subst h1
    rw [if_pos hrsa] at hx
    cases hparms : p.rsaParameters with
    | none =>
      rw [hparms] at hx
      cases hx
    | some parms =>
      rw [hparms] at hx
      obtain ⟨m, v, hparse, hsurvives⟩ := rsaParms_survive hx (hfits parms hparms) hu hd
      refine ⟨_, protoPublic_of_head htlt hnlt halt (by omega) hlen hpub hparse, ?_⟩
      rw [encode_normalized_rsa hnlt hname0 halt hattrs0 hpolicy, hpub, List.append_cancel_left_eq,
        hsurvives]
      unfold TpmtPublic.Kept
      rw [hparms]
      constructor
      · intro h
        refine ⟨fun _ parms' h' => Option.some.inj h' ▸ h, fun hkh => ?_⟩
        rw [hrsa] at hkh
        exact absurd hkh (by decide)
      · exact fun h => h.1 hrsa parms rfl
  · have h8 : type = 8 := Int.ofNat_inj.mp (ht.symm.trans hkh)
    have hne : algToInt p.type ≠ PyEnum.value TPM_ALG.RSA := by
      rw [hkh]
      decide
    subst h8
    rw [if_neg hne, if_pos hkh] at hx
    obtain ⟨m, v, hparse, hsurvives⟩ := keyedhashParms_survive hx hscheme hu hd
    refine ⟨_, protoPublic_of_head htlt hnlt halt (by omega) hlen hpub hparse, ?_⟩
    rw [encode_normalized_keyedhash hnlt hname0 halt hattrs0 hpolicy, hpub,
      List.append_cancel_left_eq, hsurvives]
    unfold TpmtPublic.Kept
    exact ⟨fun h => ⟨fun hrsa => absurd hrsa hne, fun _ => h⟩, fun h => h.2 hkh⟩

/-! ## The command -/

/-- Marshalling the normalized message of `to_proto()` gives `bytes(command)`. -/
def TPMCreatePrimary.Survives (mu : Tss2Mu) (c : TPMCreatePrimary) : Prop :=
  ∃ msg b, c.toProto = .ok (.createprimary msg) ∧ c.bytes = .ok b ∧
    marshalCommand mu (.createprimary (Proto.normalizeCreatePrimary msg)) = some b

/-- A hierarchy that is not 0 stays. -/
theorem write32_orDefault_iff {h : Nat} (hh : h < 2 ^ 32) :
    write32 (Proto.orDefault (UInt32.ofNat h) Proto.TPM_RH_OWNER) = be 4 h ↔ h ≠ 0 := by
  constructor
  · rintro heq rfl
    exact absurd heq (by decide)
  · intro h0
    rw [Proto.orDefault_ne_zero (ofNat_ne_zero hh h0), write32_ofNat hh]

/-- The parameters of the command, piece by piece. -/
structure TPMCreatePrimary.Layout (sessionHandle : Int) (h : Nat)
    (area sens pub pcrs params : Bytes) : Prop where
  hierarchy_lt : h < 2 ^ 32
  area_eq : authAreaOf sessionHandle = .ok area
  sens_eq : Tpm2bSensitiveCreate.toBytes {} = .ok sens
  public_lt : pub.length < 2 ^ 16
  pcrs_eq : PcrSelectionList.toBytes {} = .ok pcrs
  params_eq : params = be 4 h ++ (area ++ (sens ++ ((be 2 pub.length ++ pub) ++
    ((be 2 ([] : Bytes).length ++ []) ++ pcrs))))

namespace TPMCreatePrimary

theorem init_eq_ok {sessionHandle : IntOr TPM_RS} {hashAlg : TPM_ALG} {keyBits : Int}
    {primaryHandle : IntOr TPM_RH} {publicTemplate : Option Tpm2bPublic} {c : TPMCreatePrimary}
    (hc : init sessionHandle hashAlg keyBits primaryHandle publicTemplate = .ok c) :
    ∃ (h : Nat) (area sens pub pcrs params : Bytes), primaryHandle.toInt = h ∧
      (publicTemplate.getD (defaultTemplate hashAlg keyBits)).publicArea.toBytes = .ok pub ∧
      Layout sessionHandle.toInt h area sens pub pcrs params ∧
      c = ⟨⟨TPM_ST_SESSIONS, TPM_CC_CREATE_PRIMARY, params⟩⟩ := by
  simp only [init, Tpm2bPublic.toBytes, Tpm2bData.toBytes, bind_eq_ok, toBytes_eq_ok, sized_eq_ok,
    pure_eq_ok, Except.ok.injEq] at hc
  obtain ⟨_, ⟨h, hh, hlt, rfl⟩, area, harea, sens, hsens, _, ⟨pub, hpub, hlen, rfl⟩, _, ⟨-, rfl⟩,
    pcrs, hpcrs, rfl⟩ := hc
  exact ⟨h, area, sens, pub, pcrs, _, hh, hpub, ⟨hlt, harea, hsens, hlen, hpcrs, by simp⟩, rfl⟩

/-- The message for the parsed template `m`. -/
def message (header : Proto.TPMHeader) (hierarchy : UInt32) (sessionHandle : Int)
    (m : Proto.TPM2BPublic) : Proto.TPMCreatePrimary where
  header := some header
  hierarchy := hierarchy
  sessions := [AuthCommand.session { sessionHandle := sessionHandle }]
  inSensitive := some (Tpm2bSensitiveCreate.message {})
  inPublic := some m
  outsideInfo := some {}
  creationPcr := some (PcrSelectionList.message {})

section

variable {sessionHandle : Int} {h : Nat} {area sens pub pcrs params : Bytes} {m : Proto.TPM2BPublic}
  (hl : Layout sessionHandle h area sens pub pcrs params)

include hl

theorem Layout.length_le : params.length ≤ 1048566 := by
  have harea := length_authAreaOf hl.area_eq
  obtain ⟨-, -, -, hsens⟩ := Tpm2bSensitiveCreate.toBytes_eq_ok hl.sens_eq
  have hpcrs := PcrSelectionList.length_toBytes_le hl.pcrs_eq ⟨by decide, nofun⟩
  have hpub := hl.public_lt
  rw [hl.params_eq, hsens]
  simp only [List.length_append, length_be, List.length_nil]
  omega

/-- What `to_proto()` reads out of the parameters; only the hierarchy can be out of range. -/
theorem Layout.toProto_eq (hm : protoPublic (be 2 pub.length ++ pub) = .ok m) :
    toProto ⟨⟨TPM_ST_SESSIONS, TPM_CC_CREATE_PRIMARY, params⟩⟩ = (do
      let header ← TPMCommand.protoHeader ⟨TPM_ST_SESSIONS, TPM_CC_CREATE_PRIMARY, params⟩
      let hierarchy ← pbEnum h
      return .createprimary (message header hierarchy sessionHandle m)) := by
  have htag : TPM_ST_SESSIONS ≠ TPM_ST_NO_SESSIONS := by decide
  have hsens := hl.sens_eq
  have hsens' := protoSensitiveCreate_toBytes hsens
  have hpcrs' := protoPcrSelection_toBytes [] hl.pcrs_eq
  have hdata : protoSized [] = .ok {} := protoSized_eq_ok (by decide)
  rw [List.append_nil] at hpcrs'
  simp only [Tpm2bSensitiveCreate.toBytes, bind_eq_ok, sized_eq_ok] at hsens
  obtain ⟨inner, -, hinner, rfl⟩ := hsens
  have h0 : params.drop 0 = _ := hl.params_eq
  have h4 := drop_of_drop (j := 4) h0 (by rw [length_be])
  have hs := drop_of_drop (j := 4 + area.length) h4 rfl
  have hp := drop_of_drop (j := 4 + area.length + 2 + inner.length) hs
    (by rw [List.length_append, length_be, Nat.add_assoc (4 + area.length)])
  have hd := drop_of_drop (j := 4 + area.length + 2 + inner.length + 2 + pub.length) hp
    (by rw [List.length_append, length_be, Nat.add_assoc _ 2 pub.length])
  have hc := drop_of_drop (j := 4 + area.length + 2 + inner.length + 2 + pub.length + 2 +
    ([] : Bytes).length) hd rfl
  simp only [toProto]
  rw [fromBytes_of_drop h0 rfl hl.hierarchy_lt, parseSessions_of_drop htag hl.area_eq h4, ok_bind]
  dsimp only
  rw [parseTpm2b_of_drop hinner hs]
  dsimp only
  rw [parseTpm2b_of_drop hl.public_lt hp]
  dsimp only
  rw [parseTpm2b_of_drop (by decide) hd]
  dsimp only
  rw [hc, List.drop_left' (length_be 2 _)]
  simp only [hsens', hm, hdata, hpcrs', ok_bind]
  rfl

/-- Normalized and marshalled, the message is the command if and only if the hierarchy is not 0 and
the template comes out as it went in. -/
theorem Layout.agrees_iff (mu : Tss2Mu) (header : Proto.TPMHeader) :
    Agrees mu ⟨TPM_ST_SESSIONS, TPM_CC_CREATE_PRIMARY, params⟩
        (.createprimary (Proto.normalizeCreatePrimary
          (message header (UInt32.ofNat h) sessionHandle m))) ↔
      h ≠ 0 ∧ (Proto.publicOf (normalizedPublic m)).publicArea.encode = pub := by
  have hareaenc := encode_authAreaOf hl.area_eq
  have harealen := length_authAreaOf hl.area_eq
  obtain ⟨-, -, -, hsens⟩ := Tpm2bSensitiveCreate.toBytes_eq_ok hl.sens_eq
  have hsensenc : tpm2b (Proto.sensitiveOf (Tpm2bSensitiveCreate.message {})).sensitive.encode =
      sens := by
    rw [hsens]
    decide
  have hfits : PcrSelectionList.Fits {} := ⟨by decide, nofun⟩
  have hpcrsenc := PcrSelectionList.encode_message hl.pcrs_eq hfits
  have hpcrslen := PcrSelectionList.length_toBytes_le hl.pcrs_eq hfits
  generalize harea : (Proto.publicOf (normalizedPublic m)).publicArea = publicArea
  have henclt := publicArea.length_encode_lt
  have henc : joinAll (Field.encode mu.privateSize)
      [.rh "hierarchy" (Proto.orDefault (UInt32.ofNat h) Proto.TPM_RH_OWNER),
        .sessions [AuthCommand.session { sessionHandle := sessionHandle }],
        .inSensitive (some (Tpm2bSensitiveCreate.message {})),
        .inPublic (some (normalizedPublic m)),
        .data "outside_info" (some {}), .pcrs "creation_pcr" (some (PcrSelectionList.message {}))] =
      some (write32 (Proto.orDefault (UInt32.ofNat h) Proto.TPM_RH_OWNER) ++ (area ++ (sens ++
        (tpm2b publicArea.encode ++ ((be 2 ([] : Bytes).length ++ []) ++ pcrs))))) := by
    simp [joinAll, hareaenc, hsensenc, hpcrsenc, harea, Proto.encode_fillTpm2b]
  refine (Python.agrees_iff 0x8002 0x131 rfl rfl (by decide) (by decide) rfl rfl rfl henc ?_
    hl.length_le).trans ?_
  · rw [hsens]
    simp only [List.length_append, length_be, length_write32, length_tpm2b, List.length_nil]
    omega
  · show _ = params ↔ _
    rw [hl.params_eq, List.append_eq_append_iff_of_size_eq_left (by simp),
      write32_orDefault_iff hl.hierarchy_lt, List.append_cancel_left_eq, List.append_cancel_left_eq,
      List.append_cancel_right_eq, tpm2b_eq_be henclt]
    refine and_congr_right fun _ => ?_
    constructor
    · intro heq
      exact (List.append_inj heq (by simp)).2
    · rintro rfl
      rfl

end

end TPMCreatePrimary

/-- The harness sends the command that the seed generator wrote if and only if the hierarchy is one
that protobuf can hold and normalization leaves alone, and the template is kept. -/
theorem createPrimary_survives_iff (mu : Tss2Mu) {sessionHandle : IntOr TPM_RS} {hashAlg : TPM_ALG}
    {keyBits : Int} {primaryHandle : IntOr TPM_RH} {publicTemplate : Option Tpm2bPublic}
    {c : TPMCreatePrimary}
    (ht : (publicTemplate.getD
      (TPMCreatePrimary.defaultTemplate hashAlg keyBits)).publicArea.Encodable)
    (hc : TPMCreatePrimary.init sessionHandle hashAlg keyBits primaryHandle publicTemplate =
      .ok c) :
    c.Survives mu ↔ (0 < primaryHandle.toInt ∧ primaryHandle.toInt < 2 ^ 31) ∧
      (publicTemplate.getD (TPMCreatePrimary.defaultTemplate hashAlg keyBits)).publicArea.Kept := by
  obtain ⟨h, area, sens, pub, pcrs, params, hh, hpub, hl, rfl⟩ := TPMCreatePrimary.init_eq_ok hc
  obtain ⟨m, hm, hkept⟩ := public_survives ht hpub hl.public_lt
  have hproto := hl.toProto_eq hm
  have hlen := hl.length_le
  have hsize :
      TPMCommand.commandSize ⟨TPM_ST_SESSIONS, TPM_CC_CREATE_PRIMARY, params⟩ < 2 ^ 32 := by
    show 10 + params.length < 2 ^ 32
    omega
  rw [protoHeader_of_lt 0x8002 0x131 rfl rfl (by decide) (by decide) hsize, ok_bind] at hproto
  rw [hh, ← hkept]
  unfold TPMCreatePrimary.Survives
  rw [hproto]
  by_cases h31 : h < 2 ^ 31
  · rw [pbEnum_nat h31, ok_bind]
    have hagree := hl.agrees_iff (m := m) mu
      { tag := UInt32.ofNat 0x8002
        commandSize := UInt32.ofNat (TPMCommand.commandSize
          ⟨TPM_ST_SESSIONS, TPM_CC_CREATE_PRIMARY, params⟩)
        commandCode := UInt32.ofNat 0x131 }
    constructor
    · rintro ⟨msg, b, hmsg, hb, hmarshal⟩
      cases hmsg
      obtain ⟨h0, henc⟩ := hagree.mp ⟨b, hb, hmarshal⟩
      exact ⟨by omega, henc⟩
    · rintro ⟨hrange, henc⟩
      obtain ⟨b, hb, hmarshal⟩ := hagree.mpr ⟨by omega, henc⟩
      exact ⟨_, b, rfl, hb, hmarshal⟩
  · -- the hierarchy does not fit its field, so there is no message
    refine iff_of_false ?_ (by omega)
    rintro ⟨msg, b, hmsg, -⟩
    simp only [bind_eq_ok] at hmsg
    obtain ⟨_, hv, -⟩ := hmsg
    exact h31 (pbEnum_nat_eq_ok hv).1

/-- A storage key under a policy, with a `unique` of its own. -/
def storageTemplate : Tpm2bPublic where
  publicArea :=
    { type := .enum .RSA, nameAlg := .enum .SHA384, authPolicy := List.replicate 48 0x33
      rsaParameters := some { keyBits := 3072 }, unique := [1, 2, 3] }

theorem storageTemplate_encodable : storageTemplate.publicArea.Encodable where
  nameAlg := Or.inr (Or.inr rfl)
  objectAttributes := by decide
  authPolicy := by decide
  parameters := Or.inl ⟨rfl, by decide, fun _ h => Option.some.inj h ▸ Or.inl rfl⟩

theorem storageTemplate_kept : storageTemplate.publicArea.Kept where
  left _ _ h := Option.some.inj h ▸ ⟨Or.inr ⟨rfl, rfl⟩, Or.inl ⟨rfl, by decide⟩⟩
  right h := absurd h (by decide)

theorem init_storageTemplate :
    ∃ c, TPMCreatePrimary.init (.enum .PW) .SHA256 2048 (.enum .OWNER) (some storageTemplate) =
      .ok c := by
  exact ⟨_, rfl⟩

theorem storageTemplate_survives :
    ∃ c, TPMCreatePrimary.init (.enum .PW) .SHA256 2048 (.enum .OWNER) (some storageTemplate) =
      .ok c ∧ c.Survives Tss2Mu.standard := by
  obtain ⟨c, hc⟩ := init_storageTemplate
  refine ⟨c, hc, ?_⟩
  exact (createPrimary_survives_iff Tss2Mu.standard (by exact storageTemplate_encodable) hc).mpr
    ⟨by decide, storageTemplate_kept⟩

/-- The signing key of the seeds that mismatch the scheme: RSASSA with SHA256. -/
def signingTemplate : Tpm2bPublic where
  publicArea :=
    { type := .enum .RSA, nameAlg := .enum .SHA256
      objectAttributes :=
        .flags [.FIXEDTPM, .FIXEDPARENT, .SENSITIVEDATAORIGIN, .USERWITHAUTH, .NODA, .SIGN_ENCRYPT]
      rsaParameters := some
        { symmetric := { algorithm := .enum .NULL }, scheme := .enum .RSASSA
          schemeHash := some (.enum .SHA256), keyBits := 2048 } }

theorem signingTemplate_encodable : signingTemplate.publicArea.Encodable where
  nameAlg := Or.inr (Or.inl rfl)
  objectAttributes := by decide
  authPolicy := by decide
  parameters := Or.inl ⟨rfl, by decide, fun _ h => Option.some.inj h ▸ Or.inr rfl⟩

/-- The command that creates it. -/
def signingCommand : TPMCreatePrimary where
  tag := TPM_ST_SESSIONS
  cc := TPM_CC_CREATE_PRIMARY
  params :=
    [64, 0, 0, 1, 0, 0, 0, 9, 64, 0, 0, 9, 0, 0, 0, 0, 0, 0, 4, 0, 0, 0, 0, 0, 24, 0, 1, 0, 11, 0,
      4, 4, 114, 0, 0, 0, 16, 0, 20, 0, 11, 8, 0, 0, 0, 0, 0, 0, 0, 0, 0, 0, 0, 0, 0]

theorem init_signingTemplate :
    TPMCreatePrimary.init (.enum .PW) .SHA256 2048 (.enum .OWNER) (some signingTemplate) =
      .ok signingCommand := by
  rfl

/-- What is parsed from it: the hash of the scheme where the key size was. -/
def signingMessage : Proto.TPMCreatePrimary where
  header := some { tag := 0x8002, commandSize := 65, commandCode := 0x131 }
  hierarchy := 0x40000001
  sessions := [{ sessionHandle := 0x40000009 }]
  inSensitive := some { size := 4, sensitive := some { userAuth := some {}, data := some {} } }
  inPublic := some (publicMessage 24 1 0xB 0x40472 []
    (.rsa { symmetric := 0x10, scheme := 0x14, keyBits := 0xB, exponent := 0x08000000 }) (.rsa []))
  outsideInfo := some {}
  creationPcr := some {}

theorem signingMessage_parsed : signingCommand.toProto = .ok (.createprimary signingMessage) := by
  have hsessions : parseSessions signingCommand.toTPMCommand 4 =
      .ok ([{ sessionHandle := 0x40000009 }], 17) :=
    parseSessions_of_drop (x := [0, 0, 0, 9, 64, 0, 0, 9, 0, 0, 0, 0, 0]) (by decide)
      (show AuthArea.toBytes ⟨[{ sessionHandle := 0x40000009 }]⟩ = _ from rfl) rfl
  unfold TPMCreatePrimary.toProto
  rw [hsessions]
  decide +kernel

/-- The command in the seed is not the one that is sent. -/
theorem signingTemplate_differs :
    signingTemplate.publicArea.Encodable ∧
    TPMCreatePrimary.init (.enum .PW) .SHA256 2048 (.enum .OWNER) (some signingTemplate) =
      .ok signingCommand ∧
    signingCommand.toProto = .ok (.createprimary signingMessage) ∧
    signingCommand.bytes = .ok (be 2 0x8002 ++ be 4 65 ++ be 4 0x131 ++ signingCommand.params) ∧
    marshalCommand Tss2Mu.standard (.createprimary (Proto.normalizeCreatePrimary signingMessage)) ≠
      some (be 2 0x8002 ++ be 4 65 ++ be 4 0x131 ++ signingCommand.params) :=
  ⟨signingTemplate_encodable, init_signingTemplate, signingMessage_parsed,
    by decide +kernel, by decide +kernel⟩

end Python
