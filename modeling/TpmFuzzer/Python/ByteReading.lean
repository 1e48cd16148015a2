import TpmFuzzer.Python.ByteGrammar

/-!
# The byte seeds are commands

What a constructor of `ByteCommand` builds is laid out as its arguments say, exactly if the command
is well-formed:

    (∃ w, whole readCommand (bytes c) = some w ∧ c.Says w)  ↔  c.WellFormed
                                                                         (byteCommand_reads_iff)

A command that is not could not be taken apart so by any reader of these structures: there is no
union with another number of words than its arm has, and no digest of another length than its
algorithm's.
-/

namespace Python

open Py Bytes Tpm Reading
open Proto (Param readCommand readParams readSessions)

/-! ## What is written is read -/

theorem reads_int16 {x : Int} {b : Bytes} (h : Py.toBytes x 2 = .ok b) :
    ∃ v : UInt16, Reads readWord16 b v ∧ (v.toNat : Int) = x ∧ v = UInt16.ofNat x.toNat := by
  obtain ⟨k, rfl, hk, rfl⟩ := toBytes_eq_ok.mp h
  refine ⟨UInt16.ofNat k, ?_, ?_, rfl⟩
  · rw [← write16_ofNat hk]
    exact reads_word16 _
  · rw [UInt16.toNat_ofNat_of_lt' hk]

theorem reads_int32 {x : Int} {b : Bytes} (h : Py.toBytes x 4 = .ok b) :
    ∃ v : UInt32, Reads readWord32 b v ∧ (v.toNat : Int) = x ∧ v = UInt32.ofNat x.toNat := by
  obtain ⟨k, rfl, hk, rfl⟩ := toBytes_eq_ok.mp h
  refine ⟨UInt32.ofNat k, ?_, ?_, rfl⟩
  · rw [← write32_ofNat hk]
    exact reads_word32 _
  · rw [UInt32.toNat_ofNat_of_lt' hk]

theorem reads_int64 {x : Int} {b : Bytes} (h : Py.toBytes x 8 = .ok b) :
    ∃ v : UInt64, Reads readWord64 b v ∧ (v.toNat : Int) = x := by
  obtain ⟨k, rfl, hk, rfl⟩ := toBytes_eq_ok.mp h
  refine ⟨UInt64.ofNat k, reads_word64 hk, ?_⟩
  rw [UInt64.toNat_ofNat_of_lt' hk]

theorem reads_int8 {x : Int} {b : Bytes} (h : Py.toBytes x 1 = .ok b) :
    ∃ v : UInt8, Reads readByte b v ∧ (v.toNat : Int) = x := by
  obtain ⟨k, rfl, hk, rfl⟩ := toBytes_eq_ok.mp h
  refine ⟨UInt8.ofNat k, ?_, ?_⟩
  · rw [be_one hk]
    exact reads_byte _
  · rw [UInt8.toNat_ofNat_of_lt' hk]

theorem reads_pySized {b x : Bytes} (h : Python.sized b = .ok x) : Reads readSized x b := by
  obtain ⟨hlt, rfl⟩ := sized_eq_ok.mp h
  rw [← write16_ofNat hlt]
  exact reads_sized hlt

theorem reads_pyTpm2b {b x : Bytes} (h : Python.sized b = .ok x) :
    ∃ w : TPM2B, Reads readTPM2B x w ∧ w.bytes = b := by
  obtain ⟨hlt, -⟩ := sized_eq_ok.mp h
  refine ⟨⟨b, hlt⟩, ?_, rfl⟩
  refine (reads_pySized h).bind_nil ?_
  rw [dif_pos hlt]
  exact Reads.pure _

/-- What is joined is read element by element. -/
theorem reads_joinBytes {α β : Type} {f : α → Result Bytes} {p : Reader UInt8 β} {R : α → β → Prop}
    {as : List α} {x : Bytes} (hread : ∀ a ∈ as, ∀ y, f a = .ok y → ∃ b, Reads p y b ∧ R a b)
    (h : joinBytes f as = .ok x) :
    ∃ bs : List β, bs.length = as.length ∧ Reads (times p bs.length) x bs ∧
      List.Forall₂ R as bs := by
  induction as generalizing x with
  | nil =>
    cases h
    exact ⟨[], rfl, Reads.pure [], .nil⟩
  | cons a as ih =>
    obtain ⟨y, rest, hy, hrest, rfl⟩ := joinBytes_cons_eq_ok h
    obtain ⟨b, hb, hab⟩ := hread a List.mem_cons_self y hy
    obtain ⟨bs, hlen, hbs, hall⟩ := ih (fun c hc => hread c (List.mem_cons_of_mem _ hc)) hrest
    exact ⟨b :: bs, by simp [hlen], hb.bind (hbs.bind_nil (Reads.pure _)), .cons hab hall⟩

theorem reads_words {xs : List Int} {x : Bytes} (h : joinBytes (Py.toBytes · 2) xs = .ok x) :
    ∃ vs : List UInt16, Reads (times readWord16 vs.length) x vs ∧ Numbers xs vs := by
  obtain ⟨vs, -, hvs, hall⟩ := reads_joinBytes (fun a _ y hy => by
    obtain ⟨v, hv, hnum, -⟩ := reads_int16 hy
    exact ⟨v, hv, hnum⟩) h
  exact ⟨vs, hvs, hall⟩

/-- A count and the elements. -/
theorem reads_pyCounted {α β : Type} {f : α → Result Bytes} {p : Reader UInt8 β} {R : α → β → Prop}
    {as : List α} {x y : Bytes} (hread : ∀ a ∈ as, ∀ y, f a = .ok y → ∃ b, Reads p y b ∧ R a b)
    (hcount : Py.toBytes as.length 4 = .ok x) (h : joinBytes f as = .ok y) :
    ∃ bs : List β, Reads (readCounted p) (x ++ y) bs ∧ List.Forall₂ R as bs := by
  obtain ⟨count, hx, hnum, -⟩ := reads_int32 hcount
  obtain ⟨bs, hlen, hbs, hall⟩ := reads_joinBytes hread h
  exact ⟨bs, reads_counted hx (by omega) hbs, hall⟩

/-! ### Unions -/

/-- A selector and words behind it. -/
def unionBytes (selector : Int) (words : List Int) : Result Bytes := do
  let s ← Py.toBytes selector 2
  let ws ← joinBytes (Py.toBytes · 2) words
  return s ++ ws

theorem reads_union {arms : UInt16 → Option Nat} {selector : Int} {words : List Int} {x : Bytes}
    (h : unionBytes selector words = .ok x) (harm : armOf arms selector = some words.length) :
    ∃ u, Reads (Selected.read arms) x u ∧ SelectedSays selector words u := by
  simp only [unionBytes, bind_eq_ok, pure_eq_ok, Except.ok.injEq] at h
  obtain ⟨y, hy, z, hz, rfl⟩ := h
  obtain ⟨v, hv, hnum, rfl⟩ := reads_int16 hy
  obtain ⟨vs, hvs, hwords⟩ := reads_words hz
  rw [hwords.length_eq] at harm
  exact ⟨⟨_, vs, harm⟩, Selected.reads hv hvs harm, hnum, hwords⟩

/-- Only an arm with that many words can be on the wire. -/
theorem SelectedSays.arm {arms : UInt16 → Option Nat} {selector : Int} {words : List Int}
    {u : Selected arms} (h : SelectedSays selector words u) :
    armOf arms selector = some words.length := by
  have harm := u.arm
  rw [armOf, ← h.selector, Int.toNat_natCast, UInt16.ofNat_toNat, harm, h.words.length_eq]

theorem SigScheme.toBytes_eq (s : SigScheme) :
    s.toBytes = unionBytes (algToInt s.scheme) s.words := by
  unfold SigScheme.toBytes unionBytes SigScheme.words
  split
  · simp only [joinBytes, pure_bind, List.append_nil]
  · simp only [joinBytes_one]

theorem SymDefObject.toBytes_eq (s : SymDefObject) :
    s.toBytes = unionBytes (algToInt s.algorithm) s.words := by
  unfold SymDefObject.toBytes unionBytes SymDefObject.words
  split
  · simp only [joinBytes, pure_bind, List.append_nil]
  · simp only [joinBytes_two, bind_assoc, pure_bind, List.append_assoc]

theorem RsaParms.schemeBytes_eq (p : RsaParms) :
    p.schemeBytes = unionBytes (algToInt p.scheme) p.schemeWords := by
  unfold RsaParms.schemeBytes unionBytes RsaParms.schemeWords
  cases p.schemeHash with
  | none => simp [joinBytes]
  | some hash =>
    by_cases hnull : algToInt p.scheme = PyEnum.value TPM_ALG.NULL
    · simp [hnull, joinBytes]
    · simp [hnull, joinBytes_one]

/-! ### Structures -/

theorem reads_hashcheck {t : TkHashcheck} {x : Bytes} (h : t.toBytes = .ok x) :
    ∃ w, Reads TPMT_TK_HASHCHECK.read x w ∧ t.Says w := by
  simp only [TkHashcheck.toBytes, bind_eq_ok, pure_eq_ok, Except.ok.injEq] at h
  obtain ⟨a, ha, b, hb, c, hc, rfl⟩ := h
  obtain ⟨tag, htag, -, rfl⟩ := reads_int16 ha
  obtain ⟨hierarchy, hh, hnum, -⟩ := reads_int32 hb
  obtain ⟨digest, hd, hbytes⟩ := reads_pyTpm2b hc
  refine ⟨⟨hierarchy, digest⟩, ?_, hnum, hbytes⟩
  rw [List.append_assoc]
  refine htag.bind (hh.bind (hd.bind_nil ?_))
  rw [if_pos (by rfl)]
  exact Reads.pure _

theorem reads_ha {h : Ha} {x : Bytes} (hx : h.toBytes = .ok x)
    (hlen : armOf digestLength (algToInt h.hashAlg) = some h.digest.length) :
    ∃ w, Reads TPMT_HA.read x w ∧ h.Says w := by
  simp only [Ha.toBytes, bind_eq_ok, pure_eq_ok, Except.ok.injEq] at hx
  obtain ⟨a, ha, rfl⟩ := hx
  obtain ⟨alg, halg, hnum, rfl⟩ := reads_int16 ha
  exact ⟨⟨_, h.digest, hlen⟩, TPMT_HA.reads halg hlen, hnum, rfl⟩

theorem Ha.Says.length {h : Ha} {w : TPMT_HA} (hs : h.Says w) :
    armOf digestLength (algToInt h.hashAlg) = some h.digest.length := by
  have hlen := w.length_eq
  rw [armOf, ← hs.hashAlg, Int.toNat_natCast, UInt16.ofNat_toNat, hlen, hs.digest]

theorem reads_rsaParms {p : RsaParms} {x : Bytes} (h : p.toBytes = .ok x) (hp : p.WellFormed) :
    ∃ d : RsaDetail, Reads (do
        let symmetric ← Selected.read symObjectArms
        let scheme ← Selected.read rsaSchemeArms
        let keyBits ← readWord16
        let exponent ← readWord32
        return ⟨symmetric, scheme, keyBits, exponent⟩) x d ∧ p.Says d := by
  simp only [RsaParms.toBytes, bind_eq_ok, pure_eq_ok, Except.ok.injEq] at h
  obtain ⟨a, ha, b, hb, c, hc, d, hd, rfl⟩ := h
  rw [SymDefObject.toBytes_eq] at ha
  rw [RsaParms.schemeBytes_eq] at hb
  obtain ⟨sym, hsym, hsays⟩ := reads_union ha hp.1
  obtain ⟨scheme, hscheme, hsays'⟩ := reads_union hb hp.2
  obtain ⟨keyBits, hbits, hnum, -⟩ := reads_int16 hc
  obtain ⟨exponent, hexp, hnum', -⟩ := reads_int32 hd
  refine ⟨⟨sym, scheme, keyBits, exponent⟩, ?_, hsays, hsays', hnum, hnum'⟩
  rw [List.append_assoc, List.append_assoc]
  exact hsym.bind (hscheme.bind (hbits.bind (hexp.bind_nil (Reads.pure _))))

theorem reads_publicParms {p : PublicParms} {x : Bytes} (h : p.toBytes = .ok x)
    (hp : ∀ parms, p.rsaParameters = some parms → parms.WellFormed) :
    ∃ d, Reads readPublicParms x d ∧ ∃ parms, p.rsaParameters = some parms ∧ parms.Says d := by
  obtain ⟨algType, rsaParameters⟩ := p
  simp only [PublicParms.toBytes, bind_eq_ok] at h
  obtain ⟨a, ha, h⟩ := h
  obtain ⟨type, htype, -, rfl⟩ := reads_int16 ha
  split at h
  · next hrsa =>
    cases rsaParameters with
    | none => cases h
    | some parms =>
      simp only [bind_eq_ok, pure_eq_ok, Except.ok.injEq] at h
      obtain ⟨b, hb, rfl⟩ := h
      obtain ⟨d, hd, hsays⟩ := reads_rsaParms hb (hp parms rfl)
      refine ⟨d, htype.bind ?_, parms, rfl, hsays⟩
      rw [if_pos (by rw [hrsa]; rfl)]
      exact hd
  · cases h

theorem encode_empty (cap : Nat) : (TPM2BBuffer.empty cap).encode = be 2 0 := by
  rw [TPM2BBuffer.encode, TPM2BBuffer.empty, tpm2b_eq_be (by simp)]
  simp

theorem reads_empty {cap : Nat} (hcap : cap < 2 ^ 16) :
    Reads (TPM2BBuffer.read cap) (be 2 0) (TPM2BBuffer.empty cap) := by
  rw [← encode_empty cap]
  exact TPM2BBuffer.reads hcap _

/-- A sensitive area without authorization and seed. -/
theorem reads_sensitive {key x y : Bytes} {type : UInt16} (ha : Reads readWord16 x type)
    (htype : type = TPM2_ALG_RSA) (hd : Python.sized key = .ok y) :
    ∃ s : TPMT_SENSITIVE, Reads TPMT_SENSITIVE.read (x ++ (be 2 0 ++ (be 2 0 ++ y))) s ∧
      s.sensitiveType = TPM2_ALG_RSA ∧ s.authValue.bytes = [] ∧ s.seedValue.bytes = [] ∧
      s.sensitive.bytes = key := by
  subst htype
  obtain ⟨w, hw, hbytes⟩ := reads_pyTpm2b hd
  have hempty := reads_empty (show 64 < 2 ^ 16 by decide)
  have hmem : TPM2_ALG_RSA ∈ [TPM2_ALG_RSA, TPM2_ALG_ECC, TPM2_ALG_KEYEDHASH, TPM2_ALG_SYMCIPHER] :=
    List.mem_cons_self
  refine ⟨⟨TPM2_ALG_RSA, TPM2BBuffer.empty 64, TPM2BBuffer.empty 64, w, hmem⟩, ?_,
    rfl, rfl, rfl, hbytes⟩
  refine ha.bind (hempty.bind (hempty.bind (hw.bind_nil ?_)))
  rw [dif_pos hmem]
  exact Reads.pure _

/-- The missing sensitive area has size 0, any other is not empty. -/
theorem reads_inPrivate {keyBits : Int} {includePrivate : Bool} {x : Bytes}
    (h : TPMLoadExternal.inPrivate keyBits includePrivate = .ok x) :
    ∃ w, Reads readSensitive x w ∧ PrivateSays keyBits includePrivate w := by
  unfold TPMLoadExternal.inPrivate at h
  cases includePrivate with
  | false =>
    cases h
    exact ⟨none, (reads_word16 0).bind_nil (Reads.pure _), rfl⟩
  | true =>
    rw [if_pos rfl] at h
    simp only [Tpm2bSensitive.toBytes, bind_eq_ok] at h
    obtain ⟨a, ha, b, hb, c, hc, d, hd, h⟩ := h
    obtain ⟨type, htype, -, hval⟩ := reads_int16 ha
    obtain rfl : b = be 2 0 := by simpa using (sized_eq_ok.mp hb).2
    obtain rfl : c = be 2 0 := by simpa using (sized_eq_ok.mp hc).2
    obtain ⟨s, hs, hsays⟩ := reads_sensitive htype hval hd
    obtain ⟨hlt, rfl⟩ := sized_eq_ok.mp h
    rw [List.append_assoc, List.append_assoc] at hlt ⊢
    have hne : UInt16.ofNat (a ++ (be 2 0 ++ (be 2 0 ++ d))).length ≠ 0 := by
      intro hz
      have hz := congrArg UInt16.toNat hz
      rw [UInt16.toNat_ofNat_of_lt' hlt] at hz
      simp at hz
    rw [← write16_ofNat hlt]
    refine ⟨some s, (reads_word16 _).bind ?_, s, rfl, hsays⟩
    rw [if_neg hne, UInt16.toNat_ofNat_of_lt' hlt]
    exact hs.within.bind_nil (Reads.pure _)

theorem length_keyOf {n : Int} (h : n ≤ 512) : (TPMLoadExternal.keyOf n).length ≤ 512 := by
  simp only [TPMLoadExternal.keyOf, List.length_cons, List.length_replicate]
  omega

/-- The public area of a key that fits. -/
def externalArea (hashAlg : TPM_ALG) (keyBits : Int) (h : keyBits / 8 ≤ 512) : TPMT_PUBLIC where
  type := TPM2_ALG_RSA
  nameAlg := UInt16.ofNat (PyEnum.value hashAlg)
  objectAttributes := 0x42
  rsaDetail := { symmetric := { algorithm := TPM2_ALG_NULL }, scheme := { scheme := TPM2_ALG_NULL }
                 keyBits := UInt16.ofNat keyBits.toNat, exponent := 0 }
  uniqueRsa := ⟨TPMLoadExternal.keyOf (keyBits / 8), length_keyOf h⟩

theorem toBytes_natCast_eq_ok {k n : Nat} {b : Bytes} (h : Py.toBytes (k : Int) n = .ok b) :
    k < 256 ^ n ∧ b = be n k := by
  obtain ⟨k', hk', hlt, rfl⟩ := toBytes_eq_ok.mp h
  obtain rfl : k = k' := Int.ofNat_inj.mp hk'
  exact ⟨hlt, rfl⟩

theorem externalParms_eq_ok {hashAlg : TPM_ALG} {keyBits : Int} {x : Bytes}
    (h : (TPMLoadExternal.publicArea hashAlg keyBits).parametersBytes = .ok x) :
    ∃ k : Nat, keyBits = k ∧ k < 2 ^ 16 ∧ x = be 2 0x10 ++ (be 2 0x10 ++ (be 2 k ++ be 4 0)) := by
  have h : RsaParms.toBytes { symmetric := { algorithm := .enum .NULL }, scheme := .enum .NULL
                              keyBits := keyBits, exponent := 0 } = .ok x := h
  simp only [RsaParms.toBytes, bind_eq_ok, pure_eq_ok, Except.ok.injEq] at h
  obtain ⟨sym, hsym, scheme, hscheme, bits, hbits, exp, hexp, rfl⟩ := h
  rw [SymDefObject.toBytes_eq] at hsym
  rw [RsaParms.schemeBytes_eq] at hscheme
  have hunion : unionBytes ((0x10 : Nat) : Int) [] = .ok (be 2 0x10) := by
    rw [unionBytes, toBytes_nat (by decide)]
    simp [joinBytes]
  obtain rfl : be 2 0x10 = sym := Except.ok.inj (hunion.symm.trans hsym)
  obtain rfl : be 2 0x10 = scheme := Except.ok.inj (hunion.symm.trans hscheme)
  obtain ⟨k, hk, hlt, rfl⟩ := toBytes_eq_ok.mp hbits
  obtain ⟨-, rfl⟩ := toBytes_natCast_eq_ok (k := 0) hexp
  exact ⟨k, hk, hlt, by simp⟩

theorem reads_inPublic {hashAlg : TPM_ALG} {keyBits : Int} {x : Bytes}
    (h : Tpm2bPublic.toBytes { publicArea := TPMLoadExternal.publicArea hashAlg keyBits } = .ok x)
    (hfit : keyBits / 8 ≤ 512) :
    ∃ area, Reads TPM2B_PUBLIC.read x area ∧ ExternalSays hashAlg keyBits area := by
  have hsupported : (externalArea hashAlg keyBits hfit).Supported :=
    ⟨Or.inl rfl, fun _ => ⟨Or.inr rfl, Or.inr rfl⟩, fun h =>
      absurd (show TPM2_ALG_RSA = _ from h) (by decide)⟩
  simp only [Tpm2bPublic.toBytes, TpmtPublic.toBytes, bind_eq_ok, pure_eq_ok, Except.ok.injEq] at h
  obtain ⟨pub, ⟨a, ha, b, hb, c, hc, d, hd, e, he, f, hf, hpub⟩, h⟩ := h
  obtain ⟨-, rfl⟩ := toBytes_natCast_eq_ok (show Py.toBytes ((1 : Nat) : Int) 2 = .ok a from ha)
  obtain ⟨hname, rfl⟩ := toBytes_natCast_eq_ok
    (show Py.toBytes ((PyEnum.value hashAlg : Nat) : Int) 2 = .ok b from hb)
  obtain ⟨-, rfl⟩ := toBytes_natCast_eq_ok (show Py.toBytes ((0x42 : Nat) : Int) 4 = .ok c from hc)
  have hpolicy : Python.sized [] = .ok d := hd
  obtain rfl : d = be 2 0 := by simpa using (sized_eq_ok.mp hpolicy).2
  obtain ⟨k, rfl, hk, rfl⟩ := externalParms_eq_ok he
  have hunique : Python.sized (TPMLoadExternal.keyOf (k / 8)) = .ok f := hf
  obtain ⟨hkey, rfl⟩ := sized_eq_ok.mp hunique
  obtain ⟨hlt, rfl⟩ := sized_eq_ok.mp h
  have hdetail : (externalArea hashAlg k hfit).rsaDetail.encode =
      be 2 0x10 ++ (be 2 0x10 ++ (be 2 k ++ be 4 0)) := by
    show write16 TPM2_ALG_NULL ++ [] ++ (write16 TPM2_ALG_NULL ++ []) ++ write16 (UInt16.ofNat k) ++
      write32 0 = _
    rw [write16_ofNat hk, show write16 TPM2_ALG_NULL = be 2 0x10 from rfl,
      show write32 0 = be 4 0 from rfl]
    simp
  have hencode : (externalArea hashAlg k hfit).encode = pub := by
    rw [← hpub]
    show write16 TPM2_ALG_RSA ++ write16 (UInt16.ofNat (PyEnum.value hashAlg)) ++ write32 0x42 ++
      (TPM2BBuffer.empty 64).encode ++ (externalArea hashAlg k hfit).rsaDetail.encode ++
      tpm2b (TPMLoadExternal.keyOf (k / 8)) = _
    rw [hdetail, write16_ofNat hname, encode_empty, tpm2b_eq_be hkey,
      show write16 TPM2_ALG_RSA = be 2 1 from rfl, show write32 0x42 = be 4 0x42 from rfl]
  refine ⟨(externalArea hashAlg k hfit).selected, ?_, rfl, ?_, rfl, rfl, rfl, rfl⟩
  · rw [← tpm2b_eq_be hlt, ← hencode]
    exact TPM2B_PUBLIC.reads hsupported
  · show ((UInt16.ofNat (PyEnum.value hashAlg)).toNat : Int) = PyEnum.value hashAlg
    rw [UInt16.toNat_ofNat_of_lt' hname]

theorem length_of_toBytes {x : Int} {n : Nat} {b : Bytes} (h : Py.toBytes x n = .ok b) :
    b.length = n := by
  obtain ⟨k, -, -, rfl⟩ := toBytes_eq_ok.mp h
  exact length_be n k

/-! ## Commands -/

theorem piece_reads {p : Piece} {x : Bytes} (h : p.toBytes = .ok x) (hp : p.WellFormed) :
    ∃ w, Reads p.shape.read x w ∧ p.Says w := by
  cases p with
  | byte n =>
    obtain ⟨v, hv, hnum⟩ := reads_int8 h
    exact ⟨_, hv.bind_nil (Reads.pure _), hnum⟩
  | word16 n =>
    obtain ⟨v, hv, hnum, -⟩ := reads_int16 h
    exact ⟨_, hv.bind_nil (Reads.pure _), hnum⟩
  | word32 n =>
    obtain ⟨v, hv, hnum, -⟩ := reads_int32 h
    exact ⟨_, hv.bind_nil (Reads.pure _), hnum⟩
  | word64 n =>
    obtain ⟨v, hv, hnum⟩ := reads_int64 h
    exact ⟨_, hv.bind_nil (Reads.pure _), hnum⟩
  | sized b => exact ⟨_, (reads_pySized h).bind_nil (Reads.pure _), rfl⟩
  | algs l =>
    simp only [Piece.toBytes, bind_eq_ok, pure_eq_ok, Except.ok.injEq] at h
    obtain ⟨a, ha, b, hb, rfl⟩ := h
    obtain ⟨vs, hvs, hall⟩ := reads_pyCounted (fun alg _ y hy => by
      obtain ⟨v, hv, hnum, -⟩ := reads_int16 hy
      exact ⟨v, hv, hnum⟩) ha hb
    exact ⟨_, hvs.bind_nil (Reads.pure _), List.forall₂_map_left_iff.mpr hall⟩
  | inPrivate keyBits includePrivate =>
    obtain ⟨w, hw, hsays⟩ := reads_inPrivate h
    exact ⟨_, hw.bind_nil (Reads.pure _), hsays⟩
  | inPublic hashAlg keyBits =>
    obtain ⟨area, harea, hsays⟩ := reads_inPublic h hp
    exact ⟨_, harea.bind_nil (Reads.pure _), hsays⟩
  | sigScheme s =>
    obtain ⟨u, hu, hsays⟩ := reads_union (s.toBytes_eq.symm.trans h) hp
    exact ⟨_, hu.bind_nil (Reads.pure _), hsays⟩
  | hashcheck t =>
    obtain ⟨w, hw, hsays⟩ := reads_hashcheck h
    exact ⟨_, hw.bind_nil (Reads.pure _), hsays⟩
  | digests l =>
    simp only [Piece.toBytes, DigestValues.toBytes, bind_eq_ok, pure_eq_ok, Except.ok.injEq] at h
    obtain ⟨a, ha, b, hb, rfl⟩ := h
    obtain ⟨ws, hws, hall⟩ := reads_pyCounted (fun d hd y hy => reads_ha hy (hp d hd)) ha hb
    exact ⟨_, hws.bind_nil (Reads.pure _), hall⟩
  | publicParms p =>
    obtain ⟨d, hd, hsays⟩ := reads_publicParms h hp
    exact ⟨_, hd.bind_nil (Reads.pure _), hsays⟩

/-- Nothing ill-formed can be on the wire. -/
theorem Piece.Says.wellFormed {p : Piece} {w : Param} (h : p.Says w) : p.WellFormed := by
  cases p with
  | inPublic hashAlg keyBits =>
    cases w with
    | publicArea area =>
      have hle := area.uniqueRsa.length_le
      have hunique : area.uniqueRsa.bytes = TPMLoadExternal.keyOf (keyBits / 8) :=
        ExternalSays.unique h
      rw [hunique] at hle
      simp only [TPMLoadExternal.keyOf, List.length_cons, List.length_replicate] at hle
      show keyBits / 8 ≤ 512
      omega
    | _ => cases h
  | sigScheme s =>
    cases w with
    | sigScheme u => exact SelectedSays.arm h
    | _ => cases h
  | digests l =>
    cases w with
    | digests ws =>
      intro d hd
      obtain ⟨i, hi, rfl⟩ := List.getElem_of_mem hd
      have hall : List.Forall₂ Ha.Says l.digests ws := h
      exact Ha.Says.length (hall.get hi (hall.length_eq ▸ hi))
    | _ => cases h
  | publicParms p =>
    cases w with
    | publicParms d =>
      obtain ⟨parms, hparms, hdetail⟩ := h
      intro parms' hparms'
      obtain rfl : parms = parms' := Option.some.inj (hparms.symm.trans hparms')
      exact ⟨hdetail.symmetric.arm, hdetail.scheme.arm⟩
    | _ => cases h
  | _ => trivial

theorem pieces_read {ps : List Piece} {x : Bytes} (h : joinBytes Piece.toBytes ps = .ok x)
    (hps : ∀ p ∈ ps, p.WellFormed) :
    ∃ ws, Reads (readParams (ps.map Piece.shape)) x ws ∧ List.Forall₂ Piece.Says ps ws := by
  induction ps generalizing x with
  | nil =>
    cases h
    exact ⟨[], Reads.pure [], .nil⟩
  | cons p ps ih =>
    obtain ⟨y, rest, hy, hrest, rfl⟩ := joinBytes_cons_eq_ok h
    obtain ⟨w, hw, hsays⟩ := piece_reads hy (hps p List.mem_cons_self)
    obtain ⟨ws, hws, hall⟩ := ih hrest fun q hq => hps q (List.mem_cons_of_mem _ hq)
    exact ⟨w :: ws, hw.bind (hws.bind_nil (Reads.pure _)), .cons hsays hall⟩

def areaOf : Option Int → Result Bytes
  | some handle => authAreaOf handle
  | none => return []

def tagOf (session : Option Int) : Int :=
  if session.isSome then TPM_ST_SESSIONS else TPM_ST_NO_SESSIONS

/-- A command in the order of the wire. -/
theorem Layout.command_eq_ok {l : Layout} {cmd : TPMCommand}
    (hnone : l.session = none → l.handles = []) (h : l.command = .ok cmd) :
    ∃ handles area rest, handlesBytes l.handles = .ok handles ∧
      areaOf l.session = .ok area ∧ l.rest = .ok rest ∧
      cmd = ⟨tagOf l.session, l.cc, handles ++ (area ++ rest)⟩ := by
  unfold Layout.command at h
  cases hsession : l.session with
  | none =>
    rw [hsession] at h
    simp only [withoutSessions, bind_eq_ok, pure_eq_ok, Except.ok.injEq] at h
    obtain ⟨rest, hrest, rfl⟩ := h
    refine ⟨[], [], rest, ?_, rfl, hrest, rfl⟩
    rw [hnone hsession]
    rfl
  | some handle =>
    rw [hsession] at h
    simp only [withSessions, bind_eq_ok, pure_eq_ok, Except.ok.injEq] at h
    obtain ⟨handles, hhandles, area, harea, rest, hrest, rfl⟩ := h
    refine ⟨handles, area, rest, hhandles, harea, hrest, ?_⟩
    rw [List.append_assoc]
    rfl

theorem session_reads {session : Option Int} {area : Bytes} (h : areaOf session = .ok area) :
    ∃ entries, Reads (readSessions (UInt16.ofNat (tagOf session).toNat)) area entries ∧
      SessionSays session entries := by
  cases session with
  | none =>
    cases h
    exact ⟨none, Reads.pure none, trivial⟩
  | some handle =>
    obtain ⟨k, rfl, hlt, hlen⟩ := authAreaOf_eq_ok h
    have hsize : Proto.areaSize [AuthCommand.session { sessionHandle := k }] < 2 ^ 32 := by
      have hauth := Proto.length_authArea [AuthCommand.session { sessionHandle := k }]
      rw [encode_authAreaOf h] at hauth
      omega
    have hread := Proto.reads_authArea hsize
    rw [encode_authAreaOf h] at hread
    refine ⟨_, hread.bind_nil (Reads.pure _), ?_, rfl, rfl, rfl⟩
    show ((UInt32.ofNat k).toNat : Int) = k
    rw [UInt32.toNat_ofNat_of_lt' hlt]

/-- The bytes of a command come apart into its arguments exactly if it is well-formed. -/
theorem byteCommand_reads_iff {c : ByteCommand} {cmd : TPMCommand} {out : Bytes}
    (hbuild : c.build = .ok cmd) (hout : cmd.bytes = .ok out) :
    (∃ w, whole readCommand out = some w ∧ c.Says out.length w) ↔ c.WellFormed := by
  constructor
  · rintro ⟨w, -, hw⟩ p hp
    obtain ⟨i, hi, rfl⟩ := List.getElem_of_mem hp
    exact (hw.params.get hi (hw.params.length_eq ▸ hi)).wellFormed
  · intro hwf
    rw [c.build_eq] at hbuild
    obtain ⟨handles, area, rest, hhandles, harea, hrest, rfl⟩ :=
      Layout.command_eq_ok c.layout_handles hbuild
    simp only [TPMCommand.bytes, bind_eq_ok, pure_eq_ok, Except.ok.injEq] at hout
    obtain ⟨a, ha, b, hb, d, hd, rfl⟩ := hout
    obtain ⟨tag, htag, -, rfl⟩ := reads_int16 ha
    obtain ⟨size, hsize, hnum, -⟩ := reads_int32 hb
    obtain ⟨cc, hcc, hcode, rfl⟩ := reads_int32 hd
    obtain ⟨hs, hlen, hhs, hall⟩ := reads_joinBytes (fun x _ y hy => by
      obtain ⟨v, hv, hnum, -⟩ := reads_int32 hy
      exact ⟨v, hv, hnum⟩) hhandles
    obtain ⟨entries, hentries, hsession⟩ := session_reads harea
    obtain ⟨ws, hws, hsays⟩ := pieces_read hrest hwf
    rw [hlen] at hhs
    have hread : Reads readCommand (a ++ b ++ d ++ (handles ++ (area ++ rest)))
        ⟨UInt16.ofNat (tagOf c.layout.session).toNat, size, UInt32.ofNat c.layout.cc.toNat,
          hs, entries, ws⟩ := by
      rw [List.append_assoc, List.append_assoc]
      refine htag.bind (hsize.bind (hcc.bind ?_))
      rw [c.layout_table]
      exact hhs.bind (hentries.bind (hws.bind_nil (Reads.pure _)))
    refine ⟨_, hread.whole, ?_, hcode, hall, hsession, hsays⟩
    have hnum :
      (size.toNat : Int) = ((2 + 4 + 4 + (handles ++ (area ++ rest)).length : Nat) : Int) := hnum
    have hlength : a.length = 2 ∧ b.length = 4 ∧ d.length = 4 :=
      ⟨length_of_toBytes ha, length_of_toBytes hb, length_of_toBytes hd⟩
    simp only [List.length_append] at hnum ⊢
    omega

/-- Two banks of PCR 8 are extended. -/
def twoBanks : ByteCommand :=
  .pcrExtend (.int 8) ⟨[⟨.enum .SHA1, List.replicate 20 0xAA⟩,
    ⟨.enum .SHA256, List.replicate 32 0xBB⟩]⟩
    (.enum .PW)

end Python
