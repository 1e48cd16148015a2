import TpmFuzzer.Proto.Encoding
import TpmFuzzer.Tpm.Grammar

/-!
# What is read back

The marshalled public areas and PCR selections under the grammar of their structures.  A selector
that a union does not have, a unique field of another type or a selection that is longer than the C
array would shift or fail everything behind it; the marshaller lets none of them through:

    marshalTPM2BPublic mu size pub out = some (out ++ x),  x reads as an area with PublicSays
                                                                   (marshalTPM2BPublic_readBack)

A selector is looked at in its low 16 bits only, so that 0x10005 is sent as HMAC
(`wideScheme_is_hmac`).
-/

namespace Proto

open Bytes Tpm Writer Reading

variable (mu : Tss2Mu)

/-! ## Public areas -/

/-- The type is that of the parameters that are set, whatever the field `type` is. -/
def typeOf : Option TPMUPublicParms → UInt16
  | some (.rsa _) => TPM2_ALG_RSA
  | some (.keyedhash _) => TPM2_ALG_KEYEDHASH
  | _ => TPM2_ALG_NULL

structure RsaSays (rsa : TPMSRSAParms) (parms : TPMS_RSA_PARMS) : Prop where
  symmetric : parms.symmetric.algorithm =
    if rsa.symmetric.toUInt16 = TPM2_ALG_AES then TPM2_ALG_AES else TPM2_ALG_NULL
  scheme : parms.scheme.scheme =
    if rsa.scheme.toUInt16 = TPM2_ALG_RSASSA then TPM2_ALG_RSASSA else TPM2_ALG_NULL
  keyBits : parms.keyBits = rsa.keyBits.toUInt16
  exponent : parms.exponent = rsa.exponent

/-- What a message says about the area that is read. -/
structure PublicSays (pa : TPMTPublic) (area : TPMT_PUBLIC) : Prop where
  type : area.type = typeOf pa.parameters
  nameAlg : area.nameAlg = pa.nameAlg.toUInt16
  objectAttributes : area.objectAttributes = pa.objectAttributes
  authPolicy : area.authPolicy.bytes = (pa.authPolicy.getD {}).buffer.take 64
  rsa : ∀ rsa, pa.parameters = some (.rsa rsa) → RsaSays rsa area.rsaDetail
  keyedHash : ∀ kh, pa.parameters = some (.keyedhash kh) → area.keyedHashDetail.scheme =
    if kh.scheme.toUInt16 = TPM2_ALG_HMAC then TPM2_ALG_HMAC
    else if kh.scheme.toUInt16 = TPM2_ALG_XOR then TPM2_ALG_XOR else TPM2_ALG_NULL
  uniqueRsa : area.uniqueRsa.bytes =
    match pa.parameters, pa.unique with
    | some (.rsa _), some (.rsa b) => b.take 512
    | _, _ => []
  uniqueKeyedHash : area.uniqueKeyedHash.bytes =
    match pa.parameters, pa.unique with
    | some (.keyedhash _), some (.keyedhash d) => d.buffer.take 64
    | _, _ => []

theorem orNull_pair (v alg : UInt16) :
    orNull [v, TPM2_ALG_NULL] alg = if alg = v then v else TPM2_ALG_NULL := by
  unfold orNull
  by_cases hv : alg = v
  · simp [hv]
  · by_cases hnull : alg = TPM2_ALG_NULL
    · simp [hnull]
    · simp [hv, hnull]

theorem orNull_triple (v w alg : UInt16) : orNull [v, w, TPM2_ALG_NULL] alg =
    if alg = v then v else if alg = w then w else TPM2_ALG_NULL := by
  by_cases hv : alg = v
  · simp [orNull, hv]
  · have h := orNull_pair w alg
    unfold orNull at h ⊢
    simp only [List.mem_cons, hv, false_or, if_false] at h ⊢
    exact h

theorem rsaSays (rsa : TPMSRSAParms) : RsaSays rsa (rsaDetailOf rsa).selected := by
  have hsym : (rsaDetailOf rsa).symmetric.algorithm =
      orNull [TPM2_ALG_AES, TPM2_ALG_NULL] rsa.symmetric.toUInt16 := by
    unfold rsaDetailOf
    dsimp only
    split <;> rfl
  have hscheme : (rsaDetailOf rsa).scheme.scheme =
    orNull [TPM2_ALG_RSASSA, TPM2_ALG_NULL] rsa.scheme.toUInt16 := rfl
  refine ⟨?_, ?_, rfl, rfl⟩
  · show (rsaDetailOf rsa).symmetric.selected.algorithm = _
    rw [← orNull_pair, ← hsym]
    unfold TPMT_SYM_DEF.selected
    split <;> rfl
  · show (rsaDetailOf rsa).scheme.selected.scheme = _
    rw [← orNull_pair, ← hscheme]
    unfold TPMT_RSA_SCHEME.selected
    split <;> rfl

theorem keyedHash_selected (kh : TPMSKeyedHashParms) : (keyedHashDetailOf kh).selected.scheme =
    if kh.scheme.toUInt16 = TPM2_ALG_HMAC then TPM2_ALG_HMAC
    else if kh.scheme.toUInt16 = TPM2_ALG_XOR then TPM2_ALG_XOR else TPM2_ALG_NULL := by
  rw [← orNull_triple]
  show _ = (keyedHashDetailOf kh).scheme
  unfold TPMT_KEYEDHASH_SCHEME.selected
  split
  · rfl
  · split <;> rfl

/-- An absent public area is marshalled like an empty one. -/
theorem publicOf_area (pub : TPM2BPublic) :
    (publicOf pub).publicArea =
      (publicOf { publicArea := some (pub.publicArea.getD {}) }).publicArea := by
  obtain ⟨size, publicArea⟩ := pub
  cases publicArea <;> rfl

theorem authPolicy_bytes (policy : Option TPM2BDigest) :
    ((policy.map fun p => fillTpm2b 64 p.buffer).getD default).bytes =
      (policy.getD {}).buffer.take 64 := by
  cases policy <;> rfl

theorem publicSays (pub : TPM2BPublic) :
    PublicSays (pub.publicArea.getD {}) (publicOf pub).publicArea.selected := by
  rw [publicOf_area]
  obtain ⟨type, nameAlg, objectAttributes, authPolicy, parameters, unique⟩ := pub.publicArea.getD {}
  have hpolicy := authPolicy_bytes authPolicy
  match parameters, unique with
  | some (.rsa rsa), some (.rsa b) =>
    exact ⟨rfl, rfl, rfl, hpolicy, fun _ h => by cases h; exact rsaSays rsa, nofun, rfl, rfl⟩
  | some (.rsa rsa), some (.keyedhash _) | some (.rsa rsa), some .notSet | some (.rsa rsa), none =>
    exact ⟨rfl, rfl, rfl, hpolicy, fun _ h => by cases h; exact rsaSays rsa, nofun, rfl, rfl⟩
  | some (.keyedhash kh), some (.keyedhash d) =>
    exact ⟨rfl, rfl, rfl, hpolicy, nofun,
      fun _ h => by cases h; exact keyedHash_selected kh, rfl, rfl⟩
  | some (.keyedhash kh), some (.rsa _) | some (.keyedhash kh), some .notSet |
      some (.keyedhash kh), none =>
    exact ⟨rfl, rfl, rfl, hpolicy, nofun,
      fun _ h => by cases h; exact keyedHash_selected kh, rfl, rfl⟩
  | some .notSet, some (.rsa _) | some .notSet, some (.keyedhash _) | some .notSet, some .notSet
  | some .notSet, none | none, some (.rsa _) | none, some (.keyedhash _) | none,
      some .notSet | none, none =>
    exact ⟨rfl, rfl, rfl, hpolicy, nofun, nofun, rfl, rfl⟩

/-- The public area is written where there is room for it, and reads as the message says. -/
theorem marshalTPM2BPublic_readBack (pub : TPM2BPublic) :
    ∃ x area, x.length ≤ 606 ∧
      (∀ size out, out.length + x.length ≤ size →
        marshalTPM2BPublic mu size pub out = some (out ++ x)) ∧
      whole TPM2B_PUBLIC.read x = some area ∧ PublicSays (pub.publicArea.getD {}) area := by
  have hsupported := publicOf_supported pub
  refine ⟨tpm2b (publicOf pub).publicArea.encode, (publicOf pub).publicArea.selected, ?_,
    ?_, ?_, publicSays pub⟩
  · have hlen := (publicOf pub).publicArea.length_encode_le
    rw [length_tpm2b]
    omega
  · intro size out hroom
    exact (mu.tpm2bPublic_standard.writes hsupported size).of_room hroom
  · exact (TPM2B_PUBLIC.reads hsupported.2).whole

/-- A scheme that is none of HMAC, XOR and NULL. -/
def wideScheme : TPM2BPublic :=
  { publicArea := some { nameAlg := TPM_ALG_SHA256
                         parameters := some (.keyedhash { scheme := 0x10005 }) } }

/-- It is sent as HMAC. -/
theorem wideScheme_is_hmac :
    ∃ x area, marshalTPM2BPublic Tss2Mu.standard kMaxBuffer wideScheme [] = some x ∧
      whole TPM2B_PUBLIC.read x = some area ∧
      (0x10005 : UInt32) ∉ [TPM_ALG_HMAC, TPM2_ALG_XOR.toUInt32, TPM_ALG_NULL] ∧
      area.keyedHashDetail.scheme = TPM2_ALG_HMAC ∧
      area.keyedHashDetail.scheme ≠ TPM2_ALG_NULL := by
  refine ⟨_, (publicOf wideScheme).publicArea.selected, rfl, ?_, by decide, rfl, by decide⟩
  exact (TPM2B_PUBLIC.reads (publicOf_supported wideScheme).2).whole

theorem wideScheme_readBack :
    ∃ x area, marshalTPM2BPublic Tss2Mu.standard 1000 wideScheme (List.replicate 100 0) =
        some (List.replicate 100 0 ++ x) ∧
      whole TPM2B_PUBLIC.read x = some area ∧ area.type = TPM2_ALG_KEYEDHASH := by
  obtain ⟨x, area, hlen, hwrite, hread, hsays⟩ :=
    marshalTPM2BPublic_readBack Tss2Mu.standard wideScheme
  refine ⟨x, area, hwrite 1000 _ ?_, hread, hsays.type⟩
  rw [List.length_replicate]
  omega

/-! ## PCR selections -/

/-- A selection as it is sent: at most 4 bytes, padded with zeros. -/
def wireSelection (sel : TPMSPCRSelection) : WireSelection :=
  let sizeofSelect := min sel.sizeofSelect.toNat TPM2_PCR_SELECT_MAX
  ⟨sel.hash.toUInt16, UInt8.ofNat sizeofSelect,
    (sel.pcrSelect ++ List.replicate TPM2_PCR_SELECT_MAX 0).take sizeofSelect⟩

theorem wire_pcrSelectionOf (sel : TPMSPCRSelection) :
    (pcrSelectionOf sel).wire = wireSelection sel := by
  have hmin : min sel.sizeofSelect.toNat TPM2_PCR_SELECT_MAX ≤ 4 := Nat.min_le_right _ _
  unfold pcrSelectionOf wireSelection TPMS_PCR_SELECTION.wire
  dsimp only
  generalize min sel.sizeofSelect.toNat TPM2_PCR_SELECT_MAX = n at hmin ⊢
  have hn : (UInt8.ofNat n).toNat = n := UInt8.toNat_ofNat_of_lt' (show n < 2 ^ 8 by omega)
  rw [hn]
  congr 1
  -- what is copied, over an array of zeros
  show ((sel.pcrSelect.take n ++ (List.replicate 4 (0 : UInt8)).drop
    (sel.pcrSelect.take n).length).take 4).take n =
      (sel.pcrSelect ++ List.replicate 4 0).take n
  have hlen : (sel.pcrSelect.take n).length = min n sel.pcrSelect.length := List.length_take
  rw [List.take_take, Nat.min_eq_left hmin, List.take_append, List.take_append, List.take_take,
    Nat.min_self, hlen, List.drop_replicate, List.take_replicate, List.take_replicate]
  congr 2
  omega

/-- The list is written where there is room for it, and reads as at most 16 selections. -/
theorem marshalTPMLPCRSelection_readBack (pcr : TPMLPCRSelection) :
    ∃ x, x.length ≤ 116 ∧
      (∀ size out, out.length + x.length ≤ size →
        marshalTPMLPCRSelection mu size pcr out = some (out ++ x)) ∧
      whole TPML_PCR_SELECTION.read x =
        some ((pcr.pcrSelections.take TPM2_NUM_PCR_BANKS).map wireSelection) ∧
      ∀ count size, marshalTPMLPCRSelection mu size { pcr with count := count } =
        marshalTPMLPCRSelection mu size pcr := by
  have hsupported := pcrSelectionsOf_supported pcr
  refine ⟨(pcrSelectionsOf pcr).encode, ?_, ?_, ?_, fun _ _ => rfl⟩
  · exact hsupported.length_encode_le
  · intro size out hroom
    exact (mu.tpmlPcrSelection_standard.writes hsupported size).of_room hroom
  · rw [(TPML_PCR_SELECTION.reads hsupported).whole]
    show some (((pcr.pcrSelections.take TPM2_NUM_PCR_BANKS).map pcrSelectionOf).map
      TPMS_PCR_SELECTION.wire) = _
    rw [List.map_map]
    congr 1
    exact List.map_congr_left fun sel _ => wire_pcrSelectionOf sel

end Proto
