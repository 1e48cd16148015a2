import TpmFuzzer.Python.Templates

/-!
# Parsing what was encoded

`_proto_public` goes over the bytes of `TPM2B_PUBLIC.to_bytes` with running offsets.  The hash of a
scheme is the one optional field that it does not know: without it every member comes back and the
parse ends with the payload, with it the unique field is read two bytes early.

    p.toBytes = .ok payload  →  (Undone p payload  ↔  p.publicArea.HashFree)        (undone_iff)

`rsaParseEnd`, `keyedhashParseEnd` and `publicParseEnd` are the last values of the offset.
-/

namespace Python

open Py Bytes

/-! ## Where the parse ends -/

/-- Behind the symmetric definition come the scheme, the key size, the exponent and the unique
field. -/
def rsaParseEnd (pub : Bytes) (offset : Nat) : Nat :=
  let symmetric := fromBytes (Py.slice pub offset (offset + 2))
  let offset := if symmetric = PyEnum.value TPM_ALG.NULL then offset + 2 else offset + 6
  (parseTpm2b pub (offset + 2 + 2 + 4)).2

def keyedhashParseEnd (pub : Bytes) (offset : Nat) : Nat := (parseTpm2b pub (offset + 2)).2

/-- The end of the parse in the payload, which has its size in front. -/
def publicParseEnd (payload : Bytes) : Nat :=
  let pub := payload.drop 2
  let publicType := fromBytes (Py.slice pub 0 2)
  let offset := 10 + fromBytes (Py.slice pub 8 10)
  2 + if publicType = PyEnum.value TPM_ALG.RSA then rsaParseEnd pub offset
  else keyedhashParseEnd pub offset

/-! ## What has to come back -/

/-- The parameters have come back, less what the message has no place for. -/
structure RsaParms.Matches (p : RsaParms) (m : Proto.TPMSRSAParms) : Prop where
  symmetric : (m.symmetric.toNat : Int) = algToInt p.symmetric.algorithm
  scheme : (m.scheme.toNat : Int) = algToInt p.scheme
  keyBits : (m.keyBits.toNat : Int) = p.keyBits
  exponent : (m.exponent.toNat : Int) = p.exponent

def KeyedhashParms.Matches (p : KeyedhashParms) (m : Proto.TPMSKeyedHashParms) : Prop :=
  (m.scheme.toNat : Int) = algToInt p.scheme

/-- Parameters and unique field are those of the type. -/
def TpmtPublic.MatchesParms (p : TpmtPublic) :
    Option Proto.TPMUPublicParms → Option Proto.TPMUPublicId → Prop
  | some (.rsa m), some (.rsa unique) =>
    algToInt p.type = PyEnum.value TPM_ALG.RSA ∧
      (∃ parms, p.rsaParameters = some parms ∧ parms.Matches m) ∧ unique = p.unique
  | some (.keyedhash m), some (.keyedhash unique) =>
    algToInt p.type = PyEnum.value TPM_ALG.KEYEDHASH ∧ (p.keyedhashScheme.getD {}).Matches m ∧
      unique.buffer = p.unique
  | _, _ => False

/-- Every member has come back. -/
structure TpmtPublic.Matches (p : TpmtPublic) (m : Proto.TPMTPublic) : Prop where
  type : (m.type.toNat : Int) = algToInt p.type
  nameAlg : (m.nameAlg.toNat : Int) = algToInt p.nameAlg
  objectAttributes : (m.objectAttributes.toNat : Int) = p.objectAttributes.toInt
  authPolicy : (m.authPolicy.getD {}).buffer = p.authPolicy
  parms : p.MatchesParms m.parameters m.unique

/-- The payload is parsed back into the public area, to its end. -/
def Undone (p : Tpm2bPublic) (payload : Bytes) : Prop :=
  ∃ m area, protoPublic payload = .ok m ∧ m.publicArea = some area ∧ p.publicArea.Matches area ∧
    publicParseEnd payload = payload.length

/-- No hash of a scheme is encoded. -/
def RsaParms.HashFree (p : RsaParms) : Prop :=
  algToInt p.scheme = PyEnum.value TPM_ALG.NULL ∨ p.schemeHash = none

/-- No hash of a scheme was encoded. -/
def KeyedhashParms.HashFree (p : KeyedhashParms) : Prop :=
  algToInt p.scheme ≠ PyEnum.value TPM_ALG.HMAC ∨ p.hashAlg = none

def TpmtPublic.HashFree (p : TpmtPublic) : Prop :=
  (algToInt p.type = PyEnum.value TPM_ALG.RSA → ∀ parms, p.rsaParameters =
    some parms → parms.HashFree) ∧
    (algToInt p.type = PyEnum.value TPM_ALG.KEYEDHASH → (p.keyedhashScheme.getD {}).HashFree)

section types

variable {p : TpmtPublic}

theorem TpmtPublic.matchesParms_rsa (hrsa : algToInt p.type = PyEnum.value TPM_ALG.RSA)
    {parms : RsaParms}
    (hparms : p.rsaParameters = some parms) (m : Proto.TPMSRSAParms) (v : Bytes) :
    p.MatchesParms (some (.rsa m)) (some (.rsa v)) ↔ parms.Matches m ∧ v = p.unique := by
  unfold MatchesParms
  constructor
  · rintro ⟨-, ⟨parms', hparms', hmatch⟩, hv⟩
    cases hparms.symm.trans hparms'
    exact ⟨hmatch, hv⟩
  · rintro ⟨hmatch, hv⟩
    exact ⟨hrsa, ⟨parms, hparms, hmatch⟩, hv⟩

theorem TpmtPublic.matchesParms_keyedhash (hkh : algToInt p.type = PyEnum.value TPM_ALG.KEYEDHASH)
    (m : Proto.TPMSKeyedHashParms) (v : Proto.SizedBuffer) :
    p.MatchesParms (some (.keyedhash m)) (some (.keyedhash v)) ↔
      (p.keyedhashScheme.getD {}).Matches m ∧ v.buffer = p.unique := by
  unfold MatchesParms
  exact and_iff_right hkh

theorem TpmtPublic.hashFree_rsa (hrsa : algToInt p.type = PyEnum.value TPM_ALG.RSA)
    {parms : RsaParms} (hparms : p.rsaParameters = some parms) : p.HashFree ↔ parms.HashFree := by
  unfold TpmtPublic.HashFree
  rw [hrsa, hparms]
  constructor
  · intro hfree
    exact hfree.1 rfl parms rfl
  · intro hfree
    refine ⟨fun _ parms' hp => Option.some.inj hp ▸ hfree, fun hkh => absurd hkh (by decide)⟩

theorem TpmtPublic.hashFree_keyedhash (hkh : algToInt p.type = PyEnum.value TPM_ALG.KEYEDHASH) :
    p.HashFree ↔ (p.keyedhashScheme.getD {}).HashFree := by
  unfold TpmtPublic.HashFree
  rw [hkh]
  constructor
  · intro hfree
    exact hfree.2 rfl
  · intro hfree
    exact ⟨fun hrsa => absurd hrsa (by decide), fun _ => hfree⟩

end types

/-! ## Parameters -/

theorem toNat_ofNat_32 {n : Nat} (h : n < 2 ^ 32) : ((UInt32.ofNat n).toNat : Int) = n := by
  rw [UInt32.toNat_ofNat_of_lt' h]

/-- A unique field read together with its size is longer than it was. -/
theorem take_sized_ne {u : Bytes} {n : Nat} (hn : n = u.length + 2) :
    (be 2 u.length ++ u).take n ≠ u := by
  intro h
  have hlen := congrArg List.length h
  rw [List.length_take, List.length_append, length_be] at hlen
  omega

theorem rsaParseEnd_of_drop {s : SymDefObject} {pub sym w : Bytes} {offset sch kb ex n : Nat}
    (hs : s.toBytes = .ok sym) (hn : n < 2 ^ 16)
    (hd : pub.drop offset = sym ++ (be 2 sch ++ (be 2 kb ++ (be 4 ex ++ (be 2 n ++ w))))) :
    rsaParseEnd pub offset = offset + sym.length + 10 + n := by
  obtain ⟨alg, -, -, hread, hnext⟩ := symmetric_of_drop hs hd
  have h0 := drop_of_drop (j := offset + sym.length) hd rfl
  have h2 := drop_of_drop (j := offset + sym.length + 2) h0 (by rw [length_be])
  have h4 := drop_of_drop (j := offset + sym.length + 2 + 2) h2 (by rw [length_be])
  have h8 := drop_of_drop (j := offset + sym.length + 2 + 2 + 4) h4 (by rw [length_be])
  unfold rsaParseEnd
  rw [hread]
  dsimp only
  rw [hnext, parseTpm2b_eq hn h8]

theorem keyedhashParseEnd_of_drop {pub w : Bytes} {offset sch n : Nat} (hn : n < 2 ^ 16)
    (hd : pub.drop offset = be 2 sch ++ (be 2 n ++ w)) :
    keyedhashParseEnd pub offset = offset + 4 + n := by
  have h2 := drop_of_drop (j := offset + 2) hd (by rw [length_be])
  unfold keyedhashParseEnd
  rw [parseTpm2b_eq hn h2]

section

variable {x u pub : Bytes} {offset : Nat} (hu : u.length < 2 ^ 16)
  (hd : pub.drop offset = x ++ (be 2 u.length ++ u))
    (hlen : pub.length = offset + x.length + 2 + u.length)

include hu hd hlen

/-- RSA parameters and unique field come back exactly when there is no scheme hash before them. -/
theorem rsaParms_undone_iff {p : RsaParms} (hx : p.toBytes = .ok x) :
    ∃ parms v, protoRsaParms pub offset = .ok (.rsa parms, .rsa v) ∧
      (p.Matches parms ∧ v = u ∧ rsaParseEnd pub offset = pub.length ↔ p.HashFree) := by
  obtain ⟨sym, scheme, keyBits, exponent, hsym, hs, hslt, hk, hklt, he, helt, hform⟩ :=
    RsaParms.toBytes_eq_ok hx
  unfold RsaParms.HashFree
  obtain ⟨hplain, rfl⟩ | ⟨hne, hash, hhash, hhlt, rfl⟩ := hform
  · simp only [List.append_assoc] at hd
    obtain ⟨alg, halg, halglt, -⟩ := symmetric_of_drop hsym hd
    refine ⟨_, _, protoRsaParms_of_drop hsym halg hslt hklt helt hu hd, iff_of_true ⟨?_, ?_, ?_⟩ ?_⟩
    · refine ⟨?_, ?_, ?_, ?_⟩
      · rw [halg, toNat_ofNat_32 (by omega)]
      · rw [hs, toNat_ofNat_32 (by omega)]
      · rw [hk, toNat_ofNat_32 (by omega)]
      · rw [he, toNat_ofNat_32 helt]
    · exact List.take_length
    · rw [rsaParseEnd_of_drop hsym hu hd, hlen]
      simp only [List.length_append, length_be]
      omega
    · obtain h16 | hnone := hplain
      · exact Or.inl (hs.trans (congrArg Nat.cast h16))
      · exact Or.inr hnone
  · -- the size of the unique field is read from the exponent
    rw [show sym ++ (be 2 scheme ++ (be 2 hash ++ (be 2 keyBits ++ be 4 exponent))) ++
      (be 2 u.length ++ u) =
      sym ++ (be 2 scheme ++ (be 2 hash ++ (be 4 (keyBits * 65536 + exponent / 65536) ++
        (be 2 (exponent % 65536) ++ (be 2 u.length ++ u))))) by
          rw [be_shift hklt helt]
          simp only [List.append_assoc]] at hd
    obtain ⟨alg, halg, -⟩ := symmetric_of_drop hsym hd
    refine ⟨_, _, protoRsaParms_of_drop hsym halg hslt hhlt (by omega) (by omega) hd,
      iff_of_false ?_ ?_⟩
    · rintro ⟨-, hv, hend⟩
      rw [rsaParseEnd_of_drop hsym (by omega) hd, hlen] at hend
      simp only [List.length_append, length_be] at hend
      exact take_sized_ne (by omega) hv
    · rintro (hnull | hnone)
      · exact hne (Int.ofNat_inj.mp (hs.symm.trans hnull))
      · rw [hnone] at hhash
        cases hhash

theorem keyedhashParms_undone_iff {p : KeyedhashParms} (hx : p.toBytes = .ok x) :
    ∃ parms v, protoKeyedhashParms pub offset = .ok (.keyedhash parms, .keyedhash v) ∧
      (p.Matches parms ∧ v.buffer = u ∧ keyedhashParseEnd pub offset = pub.length ↔
        p.HashFree) := by
  unfold KeyedhashParms.HashFree
  obtain ⟨scheme, hs, hslt, ⟨hplain, rfl⟩ | ⟨rfl, hash, hhash, hhlt, rfl⟩⟩ :=
    KeyedhashParms.toBytes_cases hx
  · refine ⟨_, _, protoKeyedhashParms_of_drop hslt hu hd, iff_of_true ⟨?_, ?_, ?_⟩ ?_⟩
    · unfold KeyedhashParms.Matches
      rw [hs, toNat_ofNat_32 (by omega)]
    · exact List.take_length
    · rw [keyedhashParseEnd_of_drop hu hd, hlen, length_be]
    · obtain hne | hnone := hplain
      · exact Or.inl fun hhmac => hne (Int.ofNat_inj.mp (hs.symm.trans hhmac))
      · exact Or.inr hnone
  · -- the size of the unique field is read from the hash
    rw [List.append_assoc] at hd
    refine ⟨_, _, protoKeyedhashParms_of_drop (by decide) hhlt hd, iff_of_false ?_ ?_⟩
    · rintro ⟨-, hv, hend⟩
      rw [keyedhashParseEnd_of_drop hhlt hd, hlen] at hend
      simp only [List.length_append, length_be] at hend
      exact take_sized_ne (by omega) hv
    · rintro (hhmac | hnone)
      · exact hhmac (by rw [hs]; rfl)
      · rw [hnone] at hhash
        cases hhash

end

/-! ## Public areas -/

theorem publicParseEnd_of_head {type nameAlg attrs : Nat} {policy pub rest : Bytes}
    (htype : type < 2 ^ 16) (hpolicy : policy.length < 2 ^ 16)
    (hpub : pub = publicHead type nameAlg attrs policy ++ rest) :
    publicParseEnd (be 2 pub.length ++ pub) =
      2 + if type = PyEnum.value TPM_ALG.RSA then rsaParseEnd pub (10 + policy.length)
        else keyedhashParseEnd pub (10 + policy.length) := by
  have h0 : pub.drop 0 = be 2 type ++ (be 2 nameAlg ++ (be 4 attrs ++ (be 2 policy.length ++
      (policy ++ rest)))) := by
    rw [hpub]
    simp [publicHead]
  have h2 := drop_of_drop (j := 2) h0 (by rw [length_be])
  have h4 := drop_of_drop (j := 4) h2 (by rw [length_be])
  have h8 := drop_of_drop (j := 8) h4 (by rw [length_be])
  unfold publicParseEnd
  rw [List.drop_left' (length_be 2 _)]
  dsimp only
  rw [fromBytes_of_drop h0 rfl htype, fromBytes_of_drop h8 rfl hpolicy]

/-- The members in front of the parameters always come back. -/
theorem undone_iff_parms {p : TpmtPublic} {payload : Bytes} {size type nameAlg attrs : Nat}
    {parameters : Proto.TPMUPublicParms} {unique : Proto.TPMUPublicId} (ht : algToInt p.type = type)
    (htlt : type < 2 ^ 16) (hn : algToInt p.nameAlg = nameAlg) (hnlt : nameAlg < 2 ^ 16)
    (ha : p.objectAttributes.toInt = attrs) (halt : attrs < 2 ^ 32)
    (hm : protoPublic payload =
      .ok (publicMessage size type nameAlg attrs p.authPolicy parameters unique)) :
    Undone ⟨p⟩ payload ↔
      p.MatchesParms (some parameters) (some unique) ∧ publicParseEnd payload = payload.length := by
  constructor
  · rintro ⟨m, area, hm', harea, hmatch, hend⟩
    cases hm.symm.trans hm'
    cases harea
    exact ⟨hmatch.parms, hend⟩
  · rintro ⟨hparms, hend⟩
    refine ⟨_, _, hm, rfl, ⟨?_, ?_, ?_, rfl, hparms⟩, hend⟩
    · rw [ht]
      exact toNat_ofNat_32 (by omega)
    · rw [hn]
      exact toNat_ofNat_32 (by omega)
    · rw [ha]
      exact toNat_ofNat_32 halt

/-- A public area comes back from its bytes, and the parse ends where they end, exactly when no hash
of a scheme was encoded. -/
theorem undone_iff {p : Tpm2bPublic} {payload : Bytes} (h : p.toBytes = .ok payload) :
    Undone p payload ↔ p.publicArea.HashFree := by
  obtain ⟨p⟩ := p
  simp only [Tpm2bPublic.toBytes, bind_eq_ok, sized_eq_ok] at h
  obtain ⟨pub, hb, hlt, rfl⟩ := h
  obtain ⟨type, name, attrs, x, ht, htlt, hn, hnlt, ha, halt, hx, hpub⟩ :=
    TpmtPublic.toBytes_eq_ok hb
  have hlen : pub.length = 10 + p.authPolicy.length + x.length + 2 + p.unique.length := by
    rw [hpub]
    simp only [List.length_append, length_publicHead, length_be]
    omega
  have hd : pub.drop (10 + p.authPolicy.length) = x ++ (be 2 p.unique.length ++ p.unique) := by
    rw [hpub, List.drop_left' (length_publicHead ..)]
  have hend : ∀ e, publicParseEnd (be 2 pub.length ++ pub) = 2 + e →
      (publicParseEnd (be 2 pub.length ++ pub) = (be 2 pub.length ++ pub).length ↔
        e = pub.length) := by
    intro e he
    rw [he, List.length_append, length_be]
    omega
  have hparseEnd := publicParseEnd_of_head htlt (by omega) hpub
  unfold TpmtPublic.parametersBytes at hx
  by_cases hrsa : algToInt p.type = PyEnum.value TPM_ALG.RSA
  · have h1 : type = 1 := Int.ofNat_inj.mp (ht.symm.trans hrsa)
    subst h1
    rw [if_pos hrsa] at hx
    cases hparms : p.rsaParameters with
    | none =>
      rw [hparms] at hx
      cases hx
    | some parms =>
      rw [hparms] at hx
      obtain ⟨m, v, hparse, hiff⟩ := rsaParms_undone_iff (by omega) hd hlen hx
      have hparsed := protoPublic_of_head htlt hnlt halt (by omega) hlt hpub hparse
      rw [undone_iff_parms ht htlt hn hnlt ha halt hparsed, hend _ hparseEnd,
        TpmtPublic.matchesParms_rsa hrsa hparms, TpmtPublic.hashFree_rsa hrsa hparms, and_assoc]
      exact hiff
  · rw [if_neg hrsa] at hx
    by_cases hkh : algToInt p.type = PyEnum.value TPM_ALG.KEYEDHASH
    · have h8 : type = 8 := Int.ofNat_inj.mp (ht.symm.trans hkh)
      subst h8
      rw [if_pos hkh] at hx
      obtain ⟨m, v, hparse, hiff⟩ := keyedhashParms_undone_iff (by omega) hd hlen hx
      have hparsed := protoPublic_of_head htlt hnlt halt (by omega) hlt hpub hparse
      rw [undone_iff_parms ht htlt hn hnlt ha halt hparsed, hend _ hparseEnd,
        TpmtPublic.matchesParms_keyedhash hkh, TpmtPublic.hashFree_keyedhash hkh, and_assoc]
      exact hiff
    · rw [if_neg hkh] at hx
      cases hx

/-- The storage key with a policy and a `unique` is read back. -/
theorem storageTemplate_undone :
    ∃ payload, storageTemplate.toBytes = .ok payload ∧ payload.length = 79 ∧
      Undone storageTemplate payload := by
  have h : storageTemplate.toBytes = .ok ([0, 77, 0, 1, 0, 12, 0, 3, 4, 114, 0, 48] ++
      List.replicate 48 0x33 ++ [0, 6, 0, 128, 0, 67, 0, 16, 12, 0, 0, 0, 0,
        0, 0, 3, 1, 2, 3]) := by
    decide +kernel
  refine ⟨_, h, rfl, (undone_iff h).mpr ⟨fun _ parms hparms => ?_,
    fun hkh => absurd hkh (by decide)⟩⟩
  cases hparms
  exact Or.inl rfl

/-- The HMAC key of the Load seeds. -/
def hmacTemplate : Tpm2bPublic where
  publicArea :=
    { type := .enum .KEYEDHASH
      objectAttributes :=
        .flags [.FIXEDTPM, .FIXEDPARENT, .SENSITIVEDATAORIGIN, .USERWITHAUTH, .NODA, .SIGN_ENCRYPT,
          .RESTRICTED]
      keyedhashScheme := some { scheme := .enum .HMAC, hashAlg := some (.enum .SHA256) } }

/-- Its unique field is empty, and comes back as two zero bytes that are its size. -/
theorem hmacTemplate_not_undone :
    ∃ payload, hmacTemplate.toBytes = .ok payload ∧ payload.length = 18 ∧
      publicParseEnd payload = 27 ∧
      protoPublic payload = .ok (publicMessage 16 8 0xB 0x50472 [] (.keyedhash { scheme := 5 })
        (.keyedhash { size := 2, buffer := [0, 0] })) ∧
      ¬ Undone hmacTemplate payload := by
  have h : hmacTemplate.toBytes = .ok [0, 16, 0, 8, 0, 11, 0, 5, 4, 114, 0, 0, 0, 5, 0, 11, 0,
    0] := by decide +kernel
  have hend : publicParseEnd [0, 16, 0, 8, 0, 11, 0, 5, 4, 114, 0, 0, 0, 5, 0, 11, 0, 0] =
    27 := by decide
  refine ⟨_, h, rfl, hend, by decide +kernel, ?_⟩
  rintro ⟨-, -, -, -, -, hlen⟩
  rw [hend] at hlen
  cases hlen

end Python
