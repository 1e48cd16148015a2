import TpmFuzzer.Proto.Postprocessors

/-!
# Normal forms

The mutator runs the post-processors again on their own output.  `TPMCommand.Normal` is what they
aim at: the header of the kind, and no field at 0 that has a default.  They are a projection onto
it:

    (postProcess c).Normal                          (postProcess_normal)
    c.Normal  ↔  postProcess c = c                  (normal_iff)

so that a second run changes nothing, and the two that are registered for `TPMLoad` commute.  What
was set in a message stays (`postProcess_keeps`).
-/

namespace Proto

/-! ## What a normal message looks like -/

/-- Tag and command code of the kind; the size is not looked at. -/
def Headed (tag commandCode : UInt32) (header : Option TPMHeader) : Prop :=
  ∃ commandSize, header = some { tag := tag, commandSize := commandSize
                                 commandCode := commandCode }

structure TPMSRSAParms.Normal (rsa : TPMSRSAParms) : Prop where
  symmetric : rsa.symmetric ≠ 0
  symmetricKeyBits : rsa.symmetricKeyBits ≠ 0
  scheme : rsa.scheme ≠ 0
  keyBits : rsa.keyBits ≠ 0

/-- The type is that of the parameters that are set. -/
def NormalParameters (type : UInt32) : Option TPMUPublicParms → Prop
  | some (.rsa rsa) => type = TPM_ALG_RSA ∧ rsa.Normal
  | some (.keyedhash kh) => type = TPM_ALG_KEYEDHASH ∧ kh.scheme ≠ 0
  | _ => False

structure TPMTPublic.Normal (area : TPMTPublic) : Prop where
  parameters : NormalParameters area.type area.parameters
  nameAlg : area.nameAlg ≠ 0
  objectAttributes : area.objectAttributes ≠ 0

def TPM2BPublic.Normal (inPublic : TPM2BPublic) : Prop :=
  ∃ area, inPublic.publicArea = some area ∧ area.Normal

/-- The digest sizes of the algorithms that a policy may name. -/
def policyLength (hashAlg : UInt32) : Option Nat :=
  if hashAlg = TPM_ALG_SHA1 then some 20
  else if hashAlg = TPM_ALG_SHA256 then some 32
  else if hashAlg = TPM_ALG_SHA384 then some 48
  else if hashAlg = TPM_ALG_NULL then some 0
  else none

def NormalPolicy (hashAlg : UInt32) (policy : TPM2BDigest) : Prop :=
  ∃ n, policyLength hashAlg = some n ∧ policy.size = UInt32.ofNat n ∧ policy.buffer.length = n

def TPMCommand.Normal : TPMCommand → Prop
  | .notSet => True
  | .getrandom m =>
    m.header = some { tag := TPM_ST_NO_SESSIONS, commandCode := TPM_CC_GET_RANDOM
                      commandSize := 12 } ∧
      m.bytesRequested ≠ 0
  | .create m => Headed TPM_ST_SESSIONS TPM_CC_CREATE m.header ∧ m.parentHandle ≠ 0 ∧
      ∃ p, m.inPublic = some p ∧ p.Normal
  | .createprimary m => Headed TPM_ST_SESSIONS TPM_CC_CREATE_PRIMARY m.header ∧ m.hierarchy ≠ 0 ∧
      ∃ p, m.inPublic = some p ∧ p.Normal
  | .startauthsession m =>
    Headed TPM_ST_NO_SESSIONS TPM_CC_START_AUTH_SESSION m.header ∧ m.tpmKey ≠ 0 ∧
      m.bind ≠ 0 ∧ m.authHash ≠ 0 ∧ (m.symmetric.getD {}).algorithm ≠ 0 ∧
      (m.nonce.getD {}).buffer ≠ []
  | .rsadecrypt m => Headed TPM_ST_SESSIONS TPM_CC_RSA_DECRYPT m.header
  | .clear m => Headed TPM_ST_SESSIONS TPM_CC_CLEAR m.header ∧ m.authHandle ≠ 0 ∧ m.sessions ≠ []
  | .rsaencrypt m => Headed TPM_ST_NO_SESSIONS TPM_CC_RSA_ENCRYPT m.header
  | .pcrevent m => Headed TPM_ST_SESSIONS TPM_CC_PCR_EVENT m.header
  | .pcrallocate m => Headed TPM_ST_SESSIONS TPM_CC_PCR_ALLOCATE m.header
  | .nvdefinespace m => Headed TPM_ST_SESSIONS TPM_CC_NV_DEFINE_SPACE m.header
  | .setprimarypolicy m =>
    Headed TPM_ST_SESSIONS TPM_CC_SET_PRIMARY_POLICY m.header ∧ m.authHandle ≠ 0 ∧
      m.sessions ≠ [] ∧ ∃ p, m.authPolicy = some p ∧ NormalPolicy m.hashAlg p
  | .load m => Headed TPM_ST_SESSIONS TPM_CC_LOAD m.header ∧ m.parentHandle ≠ 0 ∧ m.sessions ≠ [] ∧
      ∀ p, m.inPublic = some p → p.Normal
  | .makecredential m => Headed TPM_ST_NO_SESSIONS TPM_CC_MAKE_CREDENTIAL m.header
  | .pcrsetauthpolicy m => Headed TPM_ST_SESSIONS TPM_CC_PCR_SET_AUTH_POLICY m.header
  | .pcrread m => Headed TPM_ST_NO_SESSIONS TPM_CC_PCR_READ m.header

/-! ## Each step reaches its normal form, and only that one is left alone -/

theorem orDefault_ne {d : UInt32} (hd : d ≠ 0) (x : UInt32) : orDefault x d ≠ 0 := by
  unfold orDefault
  split
  · exact hd
  · assumption

theorem orDefault_eq_self_iff {d : UInt32} (hd : d ≠ 0) (x : UInt32) :
    orDefault x d = x ↔ x ≠ 0 := by
  constructor
  · intro h
    rw [← h]
    exact orDefault_ne hd x
  · intro h
    exact orDefault_ne_zero h d

@[simp] theorem orDefault_zero (x : UInt32) : orDefault x 0 = x := by
  unfold orDefault
  split
  · next h => exact h.symm
  · rfl

theorem headed_retag (header : Option TPMHeader) (tag commandCode : UInt32) :
    Headed tag commandCode (retag header tag commandCode) := ⟨_, rfl⟩

theorem retag_eq_self_iff (header : Option TPMHeader) (tag commandCode : UInt32) :
    retag header tag commandCode = header ↔ Headed tag commandCode header := by
  constructor
  · intro h
    rw [← h]
    exact headed_retag header tag commandCode
  · rintro ⟨commandSize, rfl⟩
    rfl

theorem defaultSessions_eq_self_iff (l : List TPMSession) : defaultSessions l = l ↔ l ≠ [] := by
  unfold defaultSessions
  cases l with
  | nil => simp
  | cons s l => simp

theorem normalizeParameters_normal (p : TPMUPublicParms) :
    NormalParameters (normalizeParameters p).1 (some (normalizeParameters p).2) := by
  cases p with
  | notSet => exact ⟨rfl, by decide⟩
  | keyedhash kh =>
    have hnull : TPM_ALG_NULL ≠ 0 := by decide
    exact ⟨rfl, orDefault_ne hnull kh.scheme⟩
  | rsa rsa =>
    refine ⟨rfl, ?_, ?_, ?_, ?_⟩
    · exact orDefault_ne (show TPM_ALG_AES ≠ 0 by decide) rsa.symmetric
    · exact orDefault_ne (show (128 : UInt32) ≠ 0 by decide) rsa.symmetricKeyBits
    · exact orDefault_ne (show TPM_ALG_NULL ≠ 0 by decide) rsa.scheme
    · exact orDefault_ne (show (2048 : UInt32) ≠ 0 by decide) rsa.keyBits

theorem normalizeParameters_of_normal {type : UInt32} {p : TPMUPublicParms}
    (h : NormalParameters type (some p)) : normalizeParameters p = (type, p) := by
  cases p with
  | notSet => exact h.elim
  | keyedhash kh =>
    obtain ⟨rfl, hscheme⟩ := h
    simp only [normalizeParameters, normalizeKeyedHash]
    rw [orDefault_ne_zero hscheme]
  | rsa rsa =>
    obtain ⟨rfl, hrsa⟩ := h
    simp only [normalizeParameters, normalizeRsa]
    rw [orDefault_ne_zero hrsa.symmetric, orDefault_ne_zero hrsa.symmetricKeyBits,
      orDefault_ne_zero hrsa.scheme, orDefault_ne_zero hrsa.keyBits, orDefault_zero]

section publicArea

variable {attrs : UInt32} (hattrs : attrs ≠ 0)

include hattrs

theorem normalizePublic_normal (area : TPMTPublic) :
    (normalizeRsaOrKeyedHashPublic area attrs).Normal :=
  ⟨normalizeParameters_normal _, orDefault_ne (by decide) _, orDefault_ne hattrs _⟩

theorem normalizePublic_eq_self_iff (area : TPMTPublic) :
    normalizeRsaOrKeyedHashPublic area attrs = area ↔ area.Normal := by
  constructor
  · intro h
    rw [← h]
    exact normalizePublic_normal hattrs area
  · intro h
    obtain ⟨type, nameAlg, objectAttributes, authPolicy, parameters, unique⟩ := area
    cases parameters with
    | none => exact h.parameters.elim
    | some p =>
      unfold normalizeRsaOrKeyedHashPublic
      simp only [Option.getD_some]
      rw [normalizeParameters_of_normal h.parameters, orDefault_ne_zero h.nameAlg,
        orDefault_ne_zero h.objectAttributes]

/-- `mutable_in_public()->mutable_public_area()` normalized. -/
theorem inPublic_eq_self_iff (inPublic : Option TPM2BPublic) :
    some { inPublic.getD {} with
        publicArea := some
          (normalizeRsaOrKeyedHashPublic ((inPublic.getD {}).publicArea.getD {}) attrs) } =
        inPublic ↔
      ∃ p, inPublic = some p ∧ p.Normal := by
  constructor
  · intro h
    exact ⟨_, h.symm, _, rfl, normalizePublic_normal hattrs _⟩
  · rintro ⟨⟨size, publicArea⟩, rfl, area, rfl, harea⟩
    simp only [Option.getD_some]
    rw [(normalizePublic_eq_self_iff hattrs area).mpr harea]

/-- `NormalizeInPublic` on a Load, which need not have one. -/
theorem map_inPublic_eq_self_iff (inPublic : Option TPM2BPublic) :
    (inPublic.map fun p => { p with
        publicArea := some (normalizeRsaOrKeyedHashPublic (p.publicArea.getD {}) attrs) }) =
            inPublic ↔
      ∀ p, inPublic = some p → p.Normal := by
  cases inPublic with
  | none => simp
  | some p =>
    have hp := inPublic_eq_self_iff hattrs (some p)
    rw [Option.getD_some] at hp
    rw [Option.map_some, hp]
    constructor
    · rintro ⟨q, hq, hnormal⟩ r hr
      rw [← Option.some.inj hr, Option.some.inj hq]
      exact hnormal
    · intro h
      exact ⟨p, rfl, h p rfl⟩

end publicArea

theorem policyLength_eq_some_iff (hashAlg : UInt32) (n : Nat) :
    policyLength hashAlg = some n ↔ hashAlg = TPM_ALG_SHA1 ∧ n = 20 ∨
    hashAlg = TPM_ALG_SHA256 ∧ n = 32 ∨
      hashAlg = TPM_ALG_SHA384 ∧ n = 48 ∨ hashAlg = TPM_ALG_NULL ∧ n = 0 := by
  unfold policyLength
  constructor
  · intro h
    split at h
    · next h1 => exact Or.inl ⟨h1, (Option.some.inj h).symm⟩
    split at h
    · next h1 => exact Or.inr (Or.inl ⟨h1, (Option.some.inj h).symm⟩)
    split at h
    · next h1 => exact Or.inr (Or.inr (Or.inl ⟨h1, (Option.some.inj h).symm⟩))
    split at h
    · next h1 => exact Or.inr (Or.inr (Or.inr ⟨h1, (Option.some.inj h).symm⟩))
    · cases h
  · rintro (⟨rfl, rfl⟩ | ⟨rfl, rfl⟩ | ⟨rfl, rfl⟩ | ⟨rfl, rfl⟩) <;> rfl

theorem length_policyOfSize (policy : TPM2BDigest) (n : Nat) :
    (policyOfSize policy n).buffer.length = n := by
  unfold policyOfSize
  dsimp only
  split
  · exact List.length_replicate
  · next h => exact not_not.mp h

/-- A listed algorithm is kept, and the policy gets its length; `policyOfSize _ 0` is the empty
policy. -/
theorem normalizePolicy_of_listed {hashAlg : UInt32} {n : Nat} (h : policyLength hashAlg = some n)
    (policy : TPM2BDigest) : normalizePolicy hashAlg policy = (hashAlg, policyOfSize policy n) := by
  obtain ⟨rfl, rfl⟩ | ⟨rfl, rfl⟩ | ⟨rfl, rfl⟩ | ⟨rfl, rfl⟩ :=
    (policyLength_eq_some_iff hashAlg n).mp h
  · rfl
  · rfl
  · rfl
  · have hempty : policyOfSize policy 0 = { size := 0, buffer := [] } := by
      obtain ⟨size, buffer⟩ := policy
      cases buffer <;> rfl
    rw [hempty]
    rfl

theorem normalizePolicy_normal (hashAlg : UInt32) (policy : TPM2BDigest) :
    NormalPolicy (normalizePolicy hashAlg policy).1 (normalizePolicy hashAlg policy).2 := by
  cases h : policyLength hashAlg with
  | some n =>
    rw [normalizePolicy_of_listed h]
    exact ⟨n, h, rfl, length_policyOfSize policy n⟩
  | none =>
    -- any other algorithm becomes SHA256 with a policy of zeros
    have hother : normalizePolicy hashAlg policy =
        (TPM_ALG_SHA256, { size := 32, buffer := List.replicate 32 0 }) := by
      unfold policyLength at h
      unfold normalizePolicy
      split at h
      · cases h
      split at h
      · cases h
      split at h
      · cases h
      split at h
      · cases h
      rw [if_neg (by assumption), if_neg (by assumption), if_neg (by assumption),
        if_neg (by assumption)]
    rw [hother]
    exact ⟨32, rfl, rfl, rfl⟩

theorem normalizePolicy_of_normal {hashAlg : UInt32} {policy : TPM2BDigest}
    (h : NormalPolicy hashAlg policy) :
    normalizePolicy hashAlg policy = (hashAlg, policy) := by
  obtain ⟨n, hn, hsize, hlength⟩ := h
  obtain ⟨size, buffer⟩ := policy
  rw [normalizePolicy_of_listed hn, policyOfSize, if_neg (by rw [not_not]; exact hlength)]
  rw [show size = UInt32.ofNat n from hsize]

theorem policy_eq_self_iff (hashAlg : UInt32) (policy : Option TPM2BDigest) :
    some (normalizePolicy hashAlg (policy.getD {})).2 = policy ∧
        (normalizePolicy hashAlg (policy.getD {})).1 = hashAlg ↔
      ∃ p, policy = some p ∧ NormalPolicy hashAlg p := by
  constructor
  · rintro ⟨hpolicy, hhash⟩
    have hnormal := normalizePolicy_normal hashAlg (policy.getD {})
    rw [hhash] at hnormal
    exact ⟨_, hpolicy.symm, hnormal⟩
  · rintro ⟨p, rfl, hp⟩
    rw [Option.getD_some, normalizePolicy_of_normal hp]
    exact ⟨rfl, rfl⟩

theorem symmetric_normal (symmetric : Option TPMTSymDef) :
    ((if (symmetric.getD {}).algorithm = TPM_ALG_UNSPECIFIED then
      some { symmetric.getD {} with algorithm := TPM_ALG_NULL } else symmetric).getD {}).algorithm ≠
        0 := by
  split
  · rw [Option.getD_some]
    exact (show TPM_ALG_NULL ≠ 0 by decide)
  · assumption

theorem symmetric_eq_self_iff (symmetric : Option TPMTSymDef) :
    (if (symmetric.getD {}).algorithm = TPM_ALG_UNSPECIFIED then
      some { symmetric.getD {} with algorithm := TPM_ALG_NULL } else symmetric) = symmetric ↔
      (symmetric.getD {}).algorithm ≠ 0 := by
  constructor
  · intro h
    rw [← h]
    exact symmetric_normal symmetric
  · intro h
    exact if_neg h

theorem nonce_normal (nonce : Option TPM2BData) :
    ((if (nonce.getD {}).buffer.isEmpty then
      some { nonce.getD {} with buffer := List.replicate 16 0 }
      else nonce).getD {}).buffer ≠ [] := by
  split
  · rw [Option.getD_some]
    exact List.cons_ne_nil _ _
  · next h => simpa using h

theorem nonce_eq_self_iff (nonce : Option TPM2BData) :
    (if (nonce.getD {}).buffer.isEmpty then
      some { nonce.getD {} with buffer := List.replicate 16 0 }
      else nonce) = nonce ↔ (nonce.getD {}).buffer ≠ [] := by
  constructor
  · intro h
    rw [← h]
    exact nonce_normal nonce
  · intro h
    exact if_neg (by simpa using h)

/-! ## Messages -/

/-- Where only the header is set, a message is left as it is when its header is. -/
theorem retagged_iff {M : Type} (get : M → Option TPMHeader) (set : M → Option TPMHeader → M)
    (hget : ∀ m header, get (set m header) = header) (hset : ∀ m, set m (get m) = m) (m : M)
    {tag commandCode : UInt32} :
    set m (retag (get m) tag commandCode) = m ↔ Headed tag commandCode (get m) := by
  rw [← retag_eq_self_iff]
  constructor
  · intro h
    have hheader := hget m (retag (get m) tag commandCode)
    rw [h] at hheader
    exact hheader.symm
  · intro h
    rw [h, hset]

theorem normalizeCreate_eq_self_iff (m : TPMCreate) :
    normalizeCreate m = m ↔ (TPMCommand.create m).Normal := by
  have hobject : kFirstTransientObjectHandle ≠ 0 := by decide
  have hchild : kChildObjectAttributes ≠ 0 := by decide
  rw [normalizeCreate]
  obtain ⟨header, parentHandle, sessions, inSensitive, inPublic, outsideInfo, creationPcr⟩ := m
  rw [TPMCreate.mk.injEq]
  simp only [true_and, and_true]
  rw [retag_eq_self_iff, orDefault_eq_self_iff hobject, inPublic_eq_self_iff hchild]
  exact Iff.rfl

theorem normalizeCreatePrimary_eq_self_iff (m : TPMCreatePrimary) :
    normalizeCreatePrimary m = m ↔ (TPMCommand.createprimary m).Normal := by
  have howner : TPM_RH_OWNER ≠ 0 := by decide
  have hstorage : kStorageParentObjectAttributes ≠ 0 := by decide
  rw [normalizeCreatePrimary]
  obtain ⟨header, hierarchy, sessions, inSensitive, inPublic, outsideInfo, creationPcr⟩ := m
  rw [TPMCreatePrimary.mk.injEq]
  simp only [true_and, and_true]
  rw [inPublic_eq_self_iff hstorage, orDefault_eq_self_iff howner]
  exact and_congr_left' (retag_eq_self_iff header TPM_ST_SESSIONS TPM_CC_CREATE_PRIMARY)

theorem normalizeStartAuthSession_eq_self_iff (m : TPMStartAuthSession) :
    normalizeStartAuthSession m = m ↔ (TPMCommand.startauthsession m).Normal := by
  have hnull : TPM_RH_NULL ≠ 0 := by decide
  have hsha256 : TPM_ALG_SHA256 ≠ 0 := by decide
  rw [normalizeStartAuthSession]
  obtain ⟨header, tpmKey, bind, nonce, encryptedSalt, sessionType, symmetric, authHash⟩ := m
  rw [TPMStartAuthSession.mk.injEq]
  simp only [true_and]
  rw [retag_eq_self_iff, orDefault_eq_self_iff hnull, orDefault_eq_self_iff hnull,
    nonce_eq_self_iff, symmetric_eq_self_iff, orDefault_eq_self_iff hsha256]
  constructor
  · rintro ⟨hheader, hkey, hbind, hnonce, hsym, hhash⟩
    exact ⟨hheader, hkey, hbind, hhash, hsym, hnonce⟩
  · rintro ⟨hheader, hkey, hbind, hhash, hsym, hnonce⟩
    exact ⟨hheader, hkey, hbind, hnonce, hsym, hhash⟩

theorem normalizeClear_eq_self_iff (m : TPMClear) :
    normalizeClear m = m ↔ (TPMCommand.clear m).Normal := by
  have hlockout : TPM_RH_LOCKOUT ≠ 0 := by decide
  rw [normalizeClear]
  obtain ⟨header, authHandle, sessions⟩ := m
  rw [TPMClear.mk.injEq, retag_eq_self_iff, orDefault_eq_self_iff hlockout,
    defaultSessions_eq_self_iff]
  exact Iff.rfl

theorem normalizeSetPrimaryPolicy_eq_self_iff (m : TPMSetPrimaryPolicy) :
    normalizeSetPrimaryPolicy m = m ↔ (TPMCommand.setprimarypolicy m).Normal := by
  have howner : TPM_RH_OWNER ≠ 0 := by decide
  rw [normalizeSetPrimaryPolicy]
  obtain ⟨header, authHandle, sessions, authPolicy, hashAlg⟩ := m
  simp only [TPMSetPrimaryPolicy.mk.injEq]
  rw [retag_eq_self_iff, orDefault_eq_self_iff howner,
    defaultSessions_eq_self_iff, policy_eq_self_iff]
  exact Iff.rfl

theorem normalizeInPublicLoad_eq_self_iff (m : TPMLoad) :
    normalizeInPublic (normalizeLoad m) = m ↔ (TPMCommand.load m).Normal := by
  have hobject : kFirstTransientObjectHandle ≠ 0 := by decide
  have hchild : kChildObjectAttributes ≠ 0 := by decide
  rw [normalizeInPublic, normalizeLoad]
  obtain ⟨header, parentHandle, sessions, inPrivate, inPublic⟩ := m
  rw [TPMLoad.mk.injEq]
  simp only [true_and]
  rw [retag_eq_self_iff, orDefault_eq_self_iff hobject, defaultSessions_eq_self_iff,
    map_inPublic_eq_self_iff hchild]
  exact Iff.rfl

/-- The normal messages are those that the post-processor leaves as they are. -/
theorem normal_iff (c : TPMCommand) : c.Normal ↔ postProcess c = c := by
  cases c with
  | notSet => exact ⟨fun _ => rfl, fun _ => trivial⟩
  | create m =>
    rw [postProcess, TPMCommand.create.injEq, normalizeCreate_eq_self_iff]
  | createprimary m =>
    rw [postProcess, TPMCommand.createprimary.injEq, normalizeCreatePrimary_eq_self_iff]
  | startauthsession m =>
    rw [postProcess, TPMCommand.startauthsession.injEq, normalizeStartAuthSession_eq_self_iff]
  | clear m =>
    rw [postProcess, TPMCommand.clear.injEq, normalizeClear_eq_self_iff]
  | setprimarypolicy m =>
    rw [postProcess, TPMCommand.setprimarypolicy.injEq, normalizeSetPrimaryPolicy_eq_self_iff]
  | load m =>
    rw [postProcess, TPMCommand.load.injEq, normalizeInPublicLoad_eq_self_iff]
  | getrandom m =>
    rw [postProcess, TPMCommand.getrandom.injEq]
    obtain ⟨header, bytesRequested⟩ := m
    rw [TPMGetRandom.mk.injEq, orDefault_eq_self_iff (by decide)]
    exact and_congr_left' eq_comm
  | rsadecrypt m =>
    rw [postProcess, TPMCommand.rsadecrypt.injEq]
    exact (retagged_iff TPMRSADecrypt.header (fun m h => { m with header := h }) (fun _ _ => rfl)
      (fun _ => rfl) m).symm
  | rsaencrypt m =>
    rw [postProcess, TPMCommand.rsaencrypt.injEq]
    exact (retagged_iff TPMRSAEncrypt.header (fun m h => { m with header := h }) (fun _ _ => rfl)
      (fun _ => rfl) m).symm
  | pcrevent m =>
    rw [postProcess, TPMCommand.pcrevent.injEq]
    exact (retagged_iff TPMPCREvent.header (fun m h => { m with header := h }) (fun _ _ => rfl)
      (fun _ => rfl) m).symm
  | pcrallocate m =>
    rw [postProcess, TPMCommand.pcrallocate.injEq]
    exact (retagged_iff TPMPCRAllocate.header (fun m h => { m with header := h }) (fun _ _ => rfl)
      (fun _ => rfl) m).symm
  | nvdefinespace m =>
    rw [postProcess, TPMCommand.nvdefinespace.injEq]
    exact (retagged_iff TPMNvDefineSpace.header (fun m h => { m with header := h }) (fun _ _ => rfl)
      (fun _ => rfl) m).symm
  | makecredential m =>
    rw [postProcess, TPMCommand.makecredential.injEq]
    exact (retagged_iff TPMMakeCredential.header (fun m h => { m with header := h })
      (fun _ _ => rfl) (fun _ => rfl) m).symm
  | pcrsetauthpolicy m =>
    rw [postProcess, TPMCommand.pcrsetauthpolicy.injEq]
    exact (retagged_iff TPMPCRSetAuthPolicy.header (fun m h => { m with header := h })
      (fun _ _ => rfl) (fun _ => rfl) m).symm
  | pcrread m =>
    rw [postProcess, TPMCommand.pcrread.injEq]
    exact (retagged_iff TPMPCRRead.header (fun m h => { m with header := h }) (fun _ _ => rfl)
      (fun _ => rfl) m).symm

theorem postProcess_normal (c : TPMCommand) : (postProcess c).Normal := by
  have hnull : TPM_RH_NULL ≠ 0 := by decide
  have howner : TPM_RH_OWNER ≠ 0 := by decide
  have hobject : kFirstTransientObjectHandle ≠ 0 := by decide
  have hstorage : kStorageParentObjectAttributes ≠ 0 := by decide
  have hchild : kChildObjectAttributes ≠ 0 := by decide
  cases c with
  | notSet => trivial
  | getrandom m => exact ⟨rfl, orDefault_ne (by decide) _⟩
  | create m =>
    exact ⟨headed_retag _ _ _, orDefault_ne hobject _, _, rfl, _, rfl,
      normalizePublic_normal hchild _⟩
  | createprimary m =>
    exact ⟨headed_retag _ _ _, orDefault_ne howner _, _, rfl, _, rfl,
      normalizePublic_normal hstorage _⟩
  | startauthsession m =>
    exact ⟨headed_retag _ _ _, orDefault_ne hnull _, orDefault_ne hnull _,
      orDefault_ne (show TPM_ALG_SHA256 ≠ 0 by decide) _, symmetric_normal _, nonce_normal _⟩
  | clear m =>
    exact ⟨headed_retag _ _ _, orDefault_ne (show TPM_RH_LOCKOUT ≠ 0 by decide) _,
      defaultSessions_ne_nil _⟩
  | setprimarypolicy m =>
    exact ⟨headed_retag _ _ _, orDefault_ne howner _, defaultSessions_ne_nil _, _, rfl,
      normalizePolicy_normal _ _⟩
  | load m =>
    refine ⟨headed_retag _ _ _, orDefault_ne hobject _, defaultSessions_ne_nil _, ?_⟩
    intro p hp
    obtain ⟨q, -, rfl⟩ := Option.map_eq_some_iff.mp hp
    exact ⟨_, rfl, normalizePublic_normal hchild _⟩
  | rsadecrypt m => exact headed_retag _ _ _
  | rsaencrypt m => exact headed_retag _ _ _
  | pcrevent m => exact headed_retag _ _ _
  | pcrallocate m => exact headed_retag _ _ _
  | nvdefinespace m => exact headed_retag _ _ _
  | makecredential m => exact headed_retag _ _ _
  | pcrsetauthpolicy m => exact headed_retag _ _ _
  | pcrread m => exact headed_retag _ _ _

theorem postProcess_idem (c : TPMCommand) : postProcess (postProcess c) = postProcess c :=
  (normal_iff _).mp (postProcess_normal c)

/-- The two post-processors of a Load set different fields. -/
theorem normalizeLoad_normalizeInPublic (msg : TPMLoad) :
    normalizeLoad (normalizeInPublic msg) = normalizeInPublic (normalizeLoad msg) := rfl

/-! ## What is kept of a message -/

/-- A field that was set keeps its value. -/
def Defaulted (x x' : UInt32) : Prop := x ≠ 0 → x' = x

theorem defaulted_orDefault (x d : UInt32) : Defaulted x (orDefault x d) :=
  fun h => orDefault_ne_zero h d

/-- The size is the one of the message. -/
def SizeKept (header header' : Option TPMHeader) : Prop :=
  (header'.getD {}).commandSize = (header.getD {}).commandSize

/-- Sessions that were there stay. -/
def SessionsKept (l l' : List TPMSession) : Prop := l ≠ [] → l' = l

theorem sessionsKept_default (l : List TPMSession) : SessionsKept l (defaultSessions l) :=
  (defaultSessions_eq_self_iff l).mpr

/-- The arm of the parameters is kept with the fields that were set; without parameters it is the
KEYEDHASH arm. -/
def ParametersKept : TPMUPublicParms → Option TPMUPublicParms → Prop
  | .rsa rsa, some (.rsa rsa') =>
    Defaulted rsa.symmetric rsa'.symmetric ∧
      Defaulted rsa.symmetricKeyBits rsa'.symmetricKeyBits ∧ Defaulted rsa.scheme rsa'.scheme ∧
      Defaulted rsa.keyBits rsa'.keyBits ∧ rsa'.exponent = rsa.exponent
  | .keyedhash kh, some (.keyedhash kh') => Defaulted kh.scheme kh'.scheme
  | .notSet, some (.keyedhash _) => True
  | _, _ => False

structure TPMTPublic.Keeps (area area' : TPMTPublic) : Prop where
  others : area' = { area with
    type := area'.type, nameAlg := area'.nameAlg, objectAttributes := area'.objectAttributes
    parameters := area'.parameters }
  nameAlg : Defaulted area.nameAlg area'.nameAlg
  objectAttributes : Defaulted area.objectAttributes area'.objectAttributes
  parameters : ParametersKept (area.parameters.getD .notSet) area'.parameters

/-- The size and the public area of an inPublic. -/
def TPM2BPublic.Keeps (inPublic inPublic' : TPM2BPublic) : Prop :=
  inPublic'.size = inPublic.size ∧
    (inPublic.publicArea.getD {}).Keeps (inPublic'.publicArea.getD {})

/-- The second message is of the kind of the first, and what was set has kept its value.  The
exceptions are the tag and the command code, the size of a GetRandom, the type of a public area
(which goes by its parameters), a policy that has not the length of its algorithm, and an algorithm
that no policy may name. -/
def TPMCommand.Keeps : TPMCommand → TPMCommand → Prop
  | .notSet, .notSet => True
  | .getrandom m, .getrandom m' => Defaulted m.bytesRequested m'.bytesRequested
  | .create m, .create m' =>
    m' = { m with header := m'.header, parentHandle := m'.parentHandle, inPublic := m'.inPublic } ∧
      SizeKept m.header m'.header ∧ Defaulted m.parentHandle m'.parentHandle ∧
      (m.inPublic.getD {}).Keeps (m'.inPublic.getD {})
  | .createprimary m, .createprimary m' =>
    m' = { m with header := m'.header, hierarchy := m'.hierarchy, inPublic := m'.inPublic } ∧
      SizeKept m.header m'.header ∧ Defaulted m.hierarchy m'.hierarchy ∧
      (m.inPublic.getD {}).Keeps (m'.inPublic.getD {})
  | .startauthsession m, .startauthsession m' =>
    m'.encryptedSalt = m.encryptedSalt ∧ m'.sessionType = m.sessionType ∧
      SizeKept m.header m'.header ∧ Defaulted m.tpmKey m'.tpmKey ∧ Defaulted m.bind m'.bind ∧
      Defaulted m.authHash m'.authHash ∧
      ((m.symmetric.getD {}).algorithm ≠ 0 → m'.symmetric = m.symmetric) ∧
      (m'.symmetric.getD {}).keyBits = (m.symmetric.getD {}).keyBits ∧
      (m'.symmetric.getD {}).mode = (m.symmetric.getD {}).mode ∧
      ((m.nonce.getD {}).buffer ≠ [] → m'.nonce = m.nonce) ∧
      (m'.nonce.getD {}).size = (m.nonce.getD {}).size
  | .rsadecrypt m, .rsadecrypt m' =>
    m' = { m with header := m'.header } ∧ SizeKept m.header m'.header
  | .clear m, .clear m' =>
    SizeKept m.header m'.header ∧ Defaulted m.authHandle m'.authHandle ∧
      SessionsKept m.sessions m'.sessions
  | .rsaencrypt m, .rsaencrypt m' =>
    m' = { m with header := m'.header } ∧ SizeKept m.header m'.header
  | .pcrevent m, .pcrevent m' =>
    m' = { m with header := m'.header } ∧ SizeKept m.header m'.header
  | .pcrallocate m, .pcrallocate m' =>
    m' = { m with header := m'.header } ∧ SizeKept m.header m'.header
  | .nvdefinespace m, .nvdefinespace m' =>
    m' = { m with header := m'.header } ∧ SizeKept m.header m'.header
  | .setprimarypolicy m, .setprimarypolicy m' =>
    SizeKept m.header m'.header ∧ Defaulted m.authHandle m'.authHandle ∧
      SessionsKept m.sessions m'.sessions ∧
      ∀ n, policyLength m.hashAlg = some n → m'.hashAlg = m.hashAlg ∧
        ((m.authPolicy.getD {}).buffer.length = n →
          (m'.authPolicy.getD {}).buffer = (m.authPolicy.getD {}).buffer)
  | .load m, .load m' =>
    m'.inPrivate = m.inPrivate ∧ SizeKept m.header m'.header ∧
      Defaulted m.parentHandle m'.parentHandle ∧ SessionsKept m.sessions m'.sessions ∧
      (m'.inPublic.isSome = m.inPublic.isSome) ∧
      ∀ p p', m.inPublic = some p → m'.inPublic = some p' → p.Keeps p'
  | .makecredential m, .makecredential m' =>
    m' = { m with header := m'.header } ∧ SizeKept m.header m'.header
  | .pcrsetauthpolicy m, .pcrsetauthpolicy m' =>
    m' = { m with header := m'.header } ∧ SizeKept m.header m'.header
  | .pcrread m, .pcrread m' =>
    m' = { m with header := m'.header } ∧ SizeKept m.header m'.header
  | _, _ => False

theorem normalizeParameters_keeps (p : TPMUPublicParms) :
    ParametersKept p (some (normalizeParameters p).2) := by
  cases p with
  | notSet => trivial
  | keyedhash kh => exact defaulted_orDefault _ _
  | rsa rsa =>
    exact ⟨defaulted_orDefault _ _, defaulted_orDefault _ _, defaulted_orDefault _ _,
      defaulted_orDefault _ _, orDefault_zero _⟩

theorem normalizePublic_keeps (area : TPMTPublic) (attrs : UInt32) :
    area.Keeps (normalizeRsaOrKeyedHashPublic area attrs) where
  others := rfl
  nameAlg := defaulted_orDefault _ _
  objectAttributes := defaulted_orDefault _ _
  parameters := normalizeParameters_keeps _

/-- A listed algorithm stays, and a policy of its length. -/
theorem normalizePolicy_keeps {hashAlg : UInt32} {n : Nat} (h : policyLength hashAlg = some n)
    (policy : TPM2BDigest) : (normalizePolicy hashAlg policy).1 = hashAlg ∧
      (policy.buffer.length = n → (normalizePolicy hashAlg policy).2.buffer = policy.buffer) := by
  rw [normalizePolicy_of_listed h]
  refine ⟨rfl, fun hlength => ?_⟩
  rw [policyOfSize, if_neg (by rw [not_not]; exact hlength)]

theorem normalizeStartAuthSession_keeps (m : TPMStartAuthSession) :
    (TPMCommand.startauthsession m).Keeps (.startauthsession (normalizeStartAuthSession m)) := by
  refine ⟨rfl, rfl, rfl, defaulted_orDefault _ _, defaulted_orDefault _ _, defaulted_orDefault _ _,
    (symmetric_eq_self_iff m.symmetric).mpr, ?_, ?_, (nonce_eq_self_iff m.nonce).mpr, ?_⟩
  · show ((if _ then _ else _ : Option TPMTSymDef).getD {}).keyBits = _
    split <;> rfl
  · show ((if _ then _ else _ : Option TPMTSymDef).getD {}).mode = _
    split <;> rfl
  · show ((if _ then _ else _ : Option TPM2BData).getD {}).size = _
    split <;> rfl

/-- Post-processing keeps the kind of a message and what was set in it. -/
theorem postProcess_keeps (c : TPMCommand) : c.Keeps (postProcess c) := by
  cases c with
  | notSet => trivial
  | getrandom m => exact defaulted_orDefault _ _
  | create m =>
    exact ⟨rfl, rfl, defaulted_orDefault _ _, rfl, normalizePublic_keeps _ _⟩
  | createprimary m =>
    exact ⟨rfl, rfl, defaulted_orDefault _ _, rfl, normalizePublic_keeps _ _⟩
  | startauthsession m => exact normalizeStartAuthSession_keeps m
  | clear m => exact ⟨rfl, defaulted_orDefault _ _, sessionsKept_default _⟩
  | setprimarypolicy m =>
    exact ⟨rfl, defaulted_orDefault _ _, sessionsKept_default _,
      fun n hn => normalizePolicy_keeps hn (m.authPolicy.getD {})⟩
  | load m =>
    refine ⟨rfl, rfl, defaulted_orDefault _ _, sessionsKept_default _, Option.isSome_map, ?_⟩
    rintro p p' hp hp'
    obtain ⟨q, hq, rfl⟩ := Option.map_eq_some_iff.mp hp'
    rw [show m.inPublic = some q from hq] at hp
    cases hp
    exact ⟨rfl, normalizePublic_keeps _ _⟩
  | rsadecrypt m => exact ⟨rfl, rfl⟩
  | rsaencrypt m => exact ⟨rfl, rfl⟩
  | pcrevent m => exact ⟨rfl, rfl⟩
  | pcrallocate m => exact ⟨rfl, rfl⟩
  | nvdefinespace m => exact ⟨rfl, rfl⟩
  | makecredential m => exact ⟨rfl, rfl⟩
  | pcrsetauthpolicy m => exact ⟨rfl, rfl⟩
  | pcrread m => exact ⟨rfl, rfl⟩

/-- Post-processing is a projection onto the normal messages, which keeps the kind of a message,
what was set in it and every field that has no default. -/
theorem postProcess_projection :
    (∀ c, postProcess (postProcess c) = postProcess c) ∧
    (∀ msg, normalizeLoad (normalizeInPublic msg) = normalizeInPublic (normalizeLoad msg)) ∧
    (∀ c, (postProcess c).Normal) ∧
    (∀ c : TPMCommand, c.Keeps (postProcess c)) ∧
    ∀ msg : TPMSetPrimaryPolicy,
      policyLength msg.hashAlg = some (msg.authPolicy.getD {}).buffer.length →
      ∃ msg', postProcess (.setprimarypolicy msg) = .setprimarypolicy msg' ∧
        msg'.hashAlg = msg.hashAlg ∧
        (msg'.authPolicy.getD {}).buffer = (msg.authPolicy.getD {}).buffer := by
  refine ⟨postProcess_idem, normalizeLoad_normalizeInPublic, postProcess_normal, postProcess_keeps,
    fun msg h => ⟨_, rfl, ?_⟩⟩
  obtain ⟨-, -, -, hpolicy⟩ := postProcess_keeps (.setprimarypolicy msg)
  obtain ⟨hhash, hbuffer⟩ := hpolicy _ h
  exact ⟨hhash, hbuffer rfl⟩

/-- A SHA-1 policy of the right length, in a message without a header, a handle or sessions. -/
def sha1Policy : TPMSetPrimaryPolicy where
  hashAlg := TPM_ALG_SHA1
  authPolicy := some { size := 7, buffer := List.replicate 20 0x33 }

theorem sha1Policy_kept : ∃ msg', postProcess (.setprimarypolicy sha1Policy) =
    .setprimarypolicy msg' ∧
    postProcess (.setprimarypolicy msg') = .setprimarypolicy msg' ∧
    Headed TPM_ST_SESSIONS TPM_CC_SET_PRIMARY_POLICY msg'.header ∧
    msg'.authPolicy = some { size := 20, buffer := List.replicate 20 0x33 } ∧
    msg'.hashAlg = TPM_ALG_SHA1 := by
  obtain ⟨hidem, -, hnormal, -, hkept⟩ := postProcess_projection
  obtain ⟨msg', hmsg', hhash, hbuffer⟩ := hkept sha1Policy (by decide)
  have hidem' := hidem (.setprimarypolicy sha1Policy)
  have hnormal' := hnormal (.setprimarypolicy sha1Policy)
  rw [hmsg'] at hidem' hnormal'
  obtain ⟨hheader, -, -, policy, hpolicy, n, hn, hsize, -⟩ := hnormal'
  rw [hhash] at hn
  obtain rfl : n = 20 := (Option.some.inj hn).symm
  rw [hpolicy, Option.getD_some] at hbuffer
  refine ⟨msg', hmsg', hidem', hheader, ?_, hhash⟩
  rw [hpolicy]
  obtain ⟨size, buffer⟩ := policy
  obtain rfl : size = 20 := hsize
  obtain rfl : buffer = _ := hbuffer
  rfl

end Proto
