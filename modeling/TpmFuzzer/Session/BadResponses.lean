import TpmFuzzer.Session.Pairing
import TpmFuzzer.Session.Safety
import TpmFuzzer.Session.Sessions

/-!
# Bad responses

A response that fails one of the checks leaves the session alone; the pending flags are all it may
clear. The response branch looks up `last_command_code` before it goes on, the pending branch does
not: a start that was never answered is still pending when the response to another command comes,
and a response that looks like that of a start then opens a session, whatever command it belongs to.

    bad responses keep the session all along a run  ↔  none of them is a StaleReply,
      or the session is the one it opens                                        (always_badKept_iff)

Where every start is answered no response is stale (`answered_badKept`).
-/

namespace Session

open Bytes Tpm Traced Runs

/-! ## What is wrong with a response -/

/-- The handle or the nonceTPM of a response to a StartAuthSession does not fit the buffer. -/
def StartOverruns (buf : Bytes) (size : Nat) : Prop :=
  size < 16 ∨ size < 16 + (Tpm.read16 buf 14).toNat

/-- The parameters, the length field that opens the auth area or the nonceTPM does not fit the
buffer. -/
def ReplyOverruns (buf : Bytes) (size : Nat) (attr : CommandAttrEntry) : Prop :=
  let paramsOff := 14 + 4 * attr.outHandleCount
  let authAreaOff := paramsOff + (Tpm.read32 buf (10 + 4 * attr.outHandleCount)).toNat
  size < paramsOff ∨ size < authAreaOff ∨ size < authAreaOff + 2 ∨
    size < authAreaOff + 2 + (Tpm.read16 buf authAreaOff).toNat

/-- The tag of the branch that is taken. -/
def branchTag (st : SessionState) : UInt16 :=
  if st.pendingStartAuthSession = true then TPM2_ST_NO_SESSIONS else TPM2_ST_SESSIONS

/-- A response that must not be used. -/
inductive BadResponse (st : SessionState) (buf : Bytes) (size : Nat) : Prop
  | short (h : size < 10)
  | header (h : (Tpm.read32 buf 2).toNat ≠ size)
  | failed (h : Tpm.read32 buf 6 ≠ TPM2_RC_SUCCESS)
  | tag (h : Tpm.read16 buf 0 ≠ branchTag st)
  | unknown (h : lookupCommandAttr st.lastCommandCode = none)
  | start (hp : st.pendingStartAuthSession = true) (h : StartOverruns buf size)
  | reply (hp : st.pendingStartAuthSession = false) {attr : CommandAttrEntry}
      (hattr : lookupCommandAttr st.lastCommandCode = some attr) (h : ReplyOverruns buf size attr)

/-- The two states differ in the pending start only. -/
def KeepsSession (st st' : SessionState) : Prop :=
  ∃ pending compatible authHash, st' = { st with
    pendingStartAuthSession := pending
    startAuthSessionCompatible := compatible
    startAuthSessionAuthHash := authHash }

/-- A response that opens the session of a start which another command came after, one that is not
in `kTable`. -/
structure StaleReply (st : SessionState) (buf : Bytes) (size : Nat) : Prop where
  pending : st.pendingStartAuthSession = true
  compatible : st.startAuthSessionCompatible = true
  unknown : lookupCommandAttr st.lastCommandCode = none
  good : GoodResponse buf size
  tag : Tpm.read16 buf 0 = TPM2_ST_NO_SESSIONS
  success : Tpm.read32 buf 6 = TPM2_RC_SUCCESS
  fits : ¬ StartOverruns buf size

/-- The session such a response opens. -/
def opened (st : SessionState) (buf : Bytes) : SessionState :=
  let n := min (Tpm.read16 buf 14).toNat SESSION_AUTH_MAX_DIGEST
  { SessionState.zero with
    initialized := true
    handle := Tpm.read32 buf 10
    hashAlg := st.startAuthSessionAuthHash
    digestSize := digestSizeFor st.startAuthSessionAuthHash
    nonceTpm := SessionState.zero.nonceTpm.blit (slice buf 16 n)
    nonceTpmSize := n }

/-! ## One response -/

variable {st : SessionState} {buf : Bytes} {size : Nat}

/-- The pending branch goes through on a start it is compatible with, when the response fits. -/
theorem val_pendingArmArgs (st : SessionState) (buf : Bytes) (size : Nat) (tag : UInt16)
    (rc : UInt32) :
    (tag = TPM2_ST_NO_SESSIONS ∧ rc = TPM2_RC_SUCCESS ∧ st.startAuthSessionCompatible = true ∧
        ¬ StartOverruns buf size ∧ (pendingArmArgs st buf size tag rc).val =
          some ⟨Tpm.read32 buf 10, (Tpm.read16 buf 14).toNat, st.startAuthSessionAuthHash⟩) ∨
      (¬ (tag = TPM2_ST_NO_SESSIONS ∧ rc = TPM2_RC_SUCCESS ∧ st.startAuthSessionCompatible = true ∧
        ¬ StartOverruns buf size) ∧ (pendingArmArgs st buf size tag rc).val = none) := by
  unfold StartOverruns
  simp only [pendingArmArgs, val_bind, val_ite, val_pure, Mem.val_sum,
    Mem.val_read32, Mem.val_read16]
  by_cases h1 : tag ≠ TPM2_ST_NO_SESSIONS ∨ rc ≠ TPM2_RC_SUCCESS
  · rw [if_pos h1]
    exact Or.inr ⟨by tauto, rfl⟩
  · by_cases h2 : st.startAuthSessionCompatible = false ∨ size < 16
    · rw [if_neg h1, if_pos h2]
      refine Or.inr ⟨?_, rfl⟩
      rintro ⟨-, -, hcompat, hfits⟩
      rcases h2 with h2 | h2
      · rw [hcompat] at h2
        cases h2
      · exact hfits (Or.inl h2)
    · rw [not_or, not_not, not_not] at h1
      rw [not_or, Bool.not_eq_false] at h2
      by_cases h3 : 16 + (Tpm.read16 buf 14).toNat > size
      · rw [if_neg (by tauto), if_neg (by rw [h2.1]; tauto), if_pos h3]
        exact Or.inr ⟨fun h => h.2.2.2 (Or.inr h3), rfl⟩
      · rw [if_neg (by tauto), if_neg (by rw [h2.1]; tauto), if_neg h3]
        exact Or.inl ⟨h1.1, h1.2, h2.1, by omega, rfl⟩

theorem val_sessionAuthInit_opened (st : SessionState) (buf : Bytes) :
    (sessionAuthInit (Tpm.read32 buf 10) .response (some buf) 16 (Tpm.read16 buf 14).toNat none 0
      st.startAuthSessionAuthHash).val = opened st buf := by
  have hmin : (if (Tpm.read16 buf 14).toNat > SESSION_AUTH_MAX_DIGEST then SESSION_AUTH_MAX_DIGEST
      else (Tpm.read16 buf 14).toNat) = min (Tpm.read16 buf 14).toNat SESSION_AUTH_MAX_DIGEST := by
    split <;> omega
  unfold opened
  generalize (Tpm.read16 buf 14).toNat = n at *
  simp only [sessionAuthInit, val_bind, val_pure, hmin, copyIn]
  by_cases h0 : min n SESSION_AUTH_MAX_DIGEST = 0
  · rw [h0]
    rfl
  · simp only [ne_eq, h0, not_false_eq_true, if_true, val_bind, Mem.val_bytes, val_pure]
    rfl

theorem findResponseFields_of_overruns {attr : CommandAttrEntry} (h : ReplyOverruns buf size attr) :
    (findResponseFields buf size attr).val = none := by
  cases hf : (findResponseFields buf size attr).val with
  | none => rfl
  | some f =>
    obtain ⟨hparams, harea, hnonce, hle⟩ := findResponseFields_eq_some hf
    unfold ReplyOverruns at h
    rw [hnonce, harea, hparams] at hle
    simp only at h
    omega

/-- Once nothing is pending, a bad response changes nothing at all. -/
theorem process_bad_of_not_pending (hp : st.pendingStartAuthSession = false)
    (hbad : BadResponse st buf size) :
    (sessionAuthProcessResponse st (some buf) size).val = st := by
  rcases sessionAuthProcessResponse_cases st buf size with ⟨-, hr⟩ | ⟨-, hp', -⟩ | ⟨-, hp', -⟩ |
    ⟨hgood, -, hr | ⟨-, htag, hrc, hr⟩⟩
  · exact hr
  · rw [hp] at hp'
    cases hp'
  · rw [hp] at hp'
    cases hp'
  · exact hr
  · rw [hr]
    cases hbad with
    | short h => exact absurd hgood.ten_le (by omega)
    | header h => exact absurd hgood.header h
    | failed h => exact absurd hrc h
    | tag h =>
      rw [branchTag, hp] at h
      exact absurd htag h
    | unknown h => simp only [processSessionResponse, h, val_pure]
    | start hp' h =>
      rw [hp] at hp'
      cases hp'
    | reply hp' hattr h =>
      simp only [processSessionResponse, hattr, val_bind,
        findResponseFields_of_overruns h, val_pure]

/-- A bad response keeps the session, unless it opens the one of a stale start. -/
theorem process_bad_keeps_iff (hbad : BadResponse st buf size) :
    KeepsSession st (sessionAuthProcessResponse st (some buf) size).val ↔
      ¬ StaleReply st buf size ∨ KeepsSession st (opened st buf) := by
  by_cases hgood : GoodResponse buf size
  · cases hp : st.pendingStartAuthSession with
    | false =>
      refine iff_of_true ?_ (Or.inl fun h => ?_)
      · rw [process_bad_of_not_pending hp hbad]
        exact ⟨_, _, _, rfl⟩
      · have := h.pending
        rw [hp] at this
        cases this
    | true =>
      rw [sessionAuthProcessResponse_good _ hgood, if_pos hp, processStartResponse_eq]
      rcases val_pendingArmArgs st buf size (Tpm.read16 buf 0) (Tpm.read32 buf 6) with
        ⟨htag, hrc, hcompat, hfits, hargs⟩ | ⟨hno, hargs⟩
      · have hunknown : lookupCommandAttr st.lastCommandCode = none := by
          cases hbad with
          | short h => exact absurd hgood.ten_le (by omega)
          | header h => exact absurd hgood.header h
          | failed h => exact absurd hrc h
          | tag h =>
            rw [branchTag, hp] at h
            exact absurd htag h
          | unknown h => exact h
          | start _ h => exact absurd h hfits
          | reply hp' _ _ =>
            rw [hp] at hp'
            cases hp'
        have hstale : StaleReply st buf size := ⟨hp, hcompat, hunknown, hgood, htag, hrc, hfits⟩
        rw [hargs]
        simp only
        rw [val_sessionAuthInit_opened, or_iff_right (not_not.mpr hstale)]
      · rw [hargs]
        refine iff_of_true ⟨false, false, _, rfl⟩ (Or.inl fun h => ?_)
        exact hno ⟨h.tag, h.success, h.compatible, h.fits⟩
  · rw [sessionAuthProcessResponse_bad _ hgood]
    exact iff_of_true ⟨_, _, _, rfl⟩ (Or.inl fun h => hgood h.good)

/-! ## Runs -/

variable (C : Crypto)

/-- If the call is given a bad response, it keeps the session. -/
def BadKept (st : SessionState) (c : Call) : Prop :=
  ∀ buf size, c = .processResponse (some buf) size → BadResponse st buf size →
    KeepsSession st (stepCall C st c)

/-- If the call is given a response, it is not stale, or the session is the one it opens. -/
def NotStale (st : SessionState) (c : Call) : Prop :=
  ∀ buf size, c = .processResponse (some buf) size →
    ¬ StaleReply st buf size ∨ KeepsSession st (opened st buf)

theorem badKept_iff (st : SessionState) (c : Call) : BadKept C st c ↔ NotStale st c := by
  constructor
  · rintro h buf size rfl
    by_cases hstale : StaleReply st buf size
    · exact (process_bad_keeps_iff (.unknown hstale.unknown)).mp
        (h buf size rfl (.unknown hstale.unknown))
    · exact Or.inl hstale
  · rintro h buf size rfl hbad
    exact (process_bad_keeps_iff hbad).mpr (h buf size rfl)

/-- In every run, bad responses keep the session exactly when none of them is stale. -/
theorem always_badKept_iff (cs : List Call) :
    Always (stepCall C) SessionState.zero (BadKept C) cs ↔
      Always (stepCall C) SessionState.zero NotStale cs :=
  always_congr (badKept_iff C) cs

theorem patched_code_of_start {x : RawExchange} (hstart : x.GivenStart) (st : SessionState) :
    (x.patched C st).lastCommandCode = TPM2_CC_StartAuthSession := by
  obtain ⟨b, hb, hgood, hcode⟩ := hstart
  obtain ⟨c, a, hf⟩ := captureStartAuthSessionCommand_frame
    { st with lastCommandCode := read32 b 6 } b x.commandSize
  unfold RawExchange.patched
  rw [hb, sessionAuthPatchCommand_good C st hgood]
  simp only [if_pos hcode]
  rw [hf]
  exact hcode

/-- No response is stale where every start is answered. -/
theorem answered_badKept {xs : List RawExchange} (h : ∀ x ∈ xs, x.Answered) :
    Always (rawExchange C) SessionState.zero (fun st x => ∀ buf, x.response = some buf →
      BadResponse (x.patched C st) buf x.responseSize →
        KeepsSession (x.patched C st) (rawExchange C st x)) xs := by
  rintro pre x post rfl buf hbuf hbad
  have hp := (run_paired C fun y hy => h y (List.mem_append_left _ hy)).1
  generalize run (rawExchange C) SessionState.zero pre = st at *
  unfold rawExchange
  rw [hbuf, process_bad_keeps_iff hbad]
  left
  intro hstale
  rcases (patched_pending_iff C _ x).mp hstale.pending with hpend | hstart
  · rw [hp] at hpend
    cases hpend
  · have hunknown := hstale.unknown
    rw [patched_code_of_start C hstart] at hunknown
    cases hunknown

/-- A start without a response and the PCR_Read that comes next, which `kTable` does not have. -/
def pcrReadSent : List Call :=
  [.patchCommand (some hmacSessionStart.encode) 27 27, .processResponse (some []) 0,
    .patchCommand (some (message TPM2_ST_NO_SESSIONS TPM2_CC_PCR_Read (write32 0))) 14 14]

/-- pcrUpdateCounter 0x17, no PCRs and no digests. -/
def pcrReadResponse : Bytes :=
  message TPM2_ST_NO_SESSIONS TPM2_RC_SUCCESS (write32 0x17 ++ (write32 0 ++ write32 0))

/-- Its response arms the layer, with the update counter as the handle. -/
theorem pcrReadResponse_arms :
    let C := Crypto.ofDigests 0 0
    let st := run (stepCall C) SessionState.zero pcrReadSent
    let st' := (sessionAuthProcessResponse st (some pcrReadResponse) 22).val
    Reachable C st ∧ BadResponse st pcrReadResponse 22 ∧ st.initialized = false ∧
      st'.initialized = true ∧ st'.handle = 0x17 ∧ ¬ KeepsSession st st' := by
  intro C st st'
  have hinit : st.initialized = false := by decide +kernel
  have harmed : st'.initialized = true := by decide +kernel
  refine ⟨⟨pcrReadSent, rfl⟩, .unknown (by decide +kernel), hinit, harmed, by decide +kernel, ?_⟩
  rintro ⟨p, c, a, hst'⟩
  rw [hst'] at harmed
  rw [show st.initialized = true from harmed] at hinit
  cases hinit

end Session
