import TpmFuzzer.Session.Messages

/-!
# A start and its response

A run alternates the two calls on arbitrary bytes.  The pending flag a StartAuthSession sets is
cleared by its own response exactly when that response passes the size checks:

    every step is Paired  ↔  every start is Answered            (always_paired_iff)

A start with a response that is cut short stays pending, and the response to whatever command comes
next is then read as its answer (`staleStart_arms`).
-/

namespace Session

open Bytes Tpm Traced Runs

/-- The arguments of one `SessionAuthPatchCommand` call and of the `SessionAuthProcessResponse` call
that follows it. -/
structure RawExchange where
  command : Option Bytes
  commandSize : Nat
  bufCapacity : Nat
  response : Option Bytes
  responseSize : Nat

variable (C : Crypto)

namespace RawExchange

variable (x : RawExchange)

/-- The state between the two calls. -/
def patched (st : SessionState) : SessionState :=
  (sessionAuthPatchCommand C st x.command x.commandSize x.bufCapacity).val.state

/-- The first call is given a StartAuthSession command. -/
def GivenStart : Prop :=
  ∃ b, x.command = some b ∧ GoodHeader b x.commandSize x.bufCapacity ∧
    read32 b 6 = TPM2_CC_StartAuthSession

/-- A StartAuthSession gets a response of at least ten bytes with its own size in the header. -/
def Answered : Prop :=
  x.GivenStart → ∃ b, x.response = some b ∧ GoodResponse b x.responseSize

end RawExchange

def rawExchange (st : SessionState) (x : RawExchange) : SessionState :=
  (sessionAuthProcessResponse (x.patched C st) x.response x.responseSize).val

/-- No start is pending after the response, and the response arms the layer only when the command
before it was a StartAuthSession. -/
def Paired (st : SessionState) (x : RawExchange) : Prop :=
  (rawExchange C st x).pendingStartAuthSession = false ∧
    (Arms (x.patched C st) x.response x.responseSize → x.GivenStart)

/-! ## One exchange -/

/-- After the command a start is pending when it was before, or when the command is one. -/
theorem patched_pending_iff (st : SessionState) (x : RawExchange) :
    (x.patched C st).pendingStartAuthSession = true ↔
      st.pendingStartAuthSession = true ∨ x.GivenStart := by
  unfold RawExchange.patched RawExchange.GivenStart
  cases hc : x.command with
  | none =>
    rw [sessionAuthPatchCommand_none]
    simp
  | some b =>
    rcases sessionAuthPatchCommand_cases C st b x.commandSize x.bufCapacity with ⟨hbad, hr⟩ |
      ⟨hgood, hcode, hr⟩ | ⟨hgood, hcode, hr, -⟩
    · rw [hr]
      constructor
      · exact Or.inl
      · rintro (h | ⟨b', hb, hg, -⟩)
        · exact h
        · cases hb
          exact absurd hg hbad
    · obtain ⟨c, a, hf⟩ := captureStartAuthSessionCommand_frame
        { st with lastCommandCode := read32 b 6 } b x.commandSize
      rw [hr]
      simp only [hf, true_iff]
      exact Or.inr ⟨b, rfl, hgood, hcode⟩
    · rw [hr]
      constructor
      · exact Or.inl
      · rintro (h | ⟨b', hb, -, hcode'⟩)
        · exact h
        · cases hb
          exact absurd hcode' hcode

/-- A response that fails the size checks leaves a start pending; any other leaves none. -/
theorem process_pending_iff (st : SessionState) (buf : Option Bytes) (size : Nat) :
    (sessionAuthProcessResponse st buf size).val.pendingStartAuthSession = true ↔
      st.pendingStartAuthSession = true ∧ ¬ ∃ b, buf = some b ∧ GoodResponse b size := by
  cases buf with
  | none =>
    rw [sessionAuthProcessResponse_none]
    simp
  | some b =>
    have hsome : (∃ b', some b = some b' ∧ GoodResponse b' size) ↔ GoodResponse b size := by
      simp
    rw [hsome]
    rcases sessionAuthProcessResponse_cases st b size with ⟨hbad, hr⟩ | ⟨hgood, -, -, hr⟩ |
      ⟨hgood, -, a, -, hr⟩ | ⟨hgood, hp, hr | ⟨-, -, -, hr⟩⟩
    · rw [hr]
      simp [hbad]
    · rw [hr]
      simp [hgood]
    · have hinit : (sessionAuthInit a.handle .response (some b) 16 a.nonceSize none 0
          a.authHash).val.pendingStartAuthSession = false := rfl
      rw [hr, hinit]
      simp [hgood]
    · rw [hr, hp]
      simp
    · obtain ⟨n, k, names, hf⟩ := processSessionResponse_frame st b size
      rw [hr, hf]
      simp [hp]

theorem rawExchange_paired {st : SessionState} (hp : st.pendingStartAuthSession = false)
    {x : RawExchange} (hx : x.Answered) : Paired C st x := by
  have hpatched := patched_pending_iff C st x
  rw [hp] at hpatched
  constructor
  · rw [← Bool.not_eq_true, rawExchange, process_pending_iff]
    rintro ⟨hpend, hbad⟩
    exact hbad (hx ((hpatched.mp hpend).resolve_left Bool.false_ne_true))
  · rintro ⟨b, -, -, hpend, -⟩
    exact (hpatched.mp hpend).resolve_left Bool.false_ne_true

theorem answered_of_paired {st : SessionState} {x : RawExchange} (h : Paired C st x) :
    x.Answered := by
  intro hstart
  by_contra hbad
  have hpend : (rawExchange C st x).pendingStartAuthSession = true :=
    (process_pending_iff _ _ _).mpr ⟨(patched_pending_iff C st x).mpr (Or.inr hstart), hbad⟩
  rw [h.1] at hpend
  cases hpend

/-! ## Runs -/

theorem run_paired {xs : List RawExchange} (h : ∀ x ∈ xs, x.Answered) :
    (run (rawExchange C) SessionState.zero xs).pendingStartAuthSession = false ∧
      Always (rawExchange C) SessionState.zero (Paired C) xs := by
  induction xs using List.reverseRecOn with
  | nil => exact ⟨rfl, Always.nil⟩
  | append_singleton xs x ih =>
    obtain ⟨hp, hall⟩ := ih fun y hy => h y (List.mem_append_left _ hy)
    have hx := rawExchange_paired C hp (h x (by simp))
    rw [run_snoc, always_snoc]
    exact ⟨hx.1, hall, hx⟩

/-- Starts are paired with their own responses in a run exactly when each of them is answered. -/
theorem always_paired_iff (xs : List RawExchange) :
    Always (rawExchange C) SessionState.zero (Paired C) xs ↔ ∀ x ∈ xs, x.Answered := by
  constructor
  · intro h x hx
    obtain ⟨pre, post, rfl⟩ := List.append_of_mem hx
    exact answered_of_paired C (h pre x post rfl)
  · intro h
    exact (run_paired C h).2

/-- A start whose response never arrives, then a GetRandom whose six random bytes are read as the
rest of a session handle and an empty nonce. -/
def staleStart : List RawExchange :=
  let start : StartAuthSession :=
    ⟨TPM2_RH_NULL, TPM2_RH_NULL, none, TPM2B.empty, TPM2B.empty, TPM2_SE_HMAC,
      ⟨write16 TPM2_ALG_NULL, by decide⟩, TPM2_ALG_SHA256⟩
  let getRandom := message TPM2_ST_NO_SESSIONS TPM2_CC_GetRandom (write16 6)
  let random := message TPM2_ST_NO_SESSIONS TPM2_RC_SUCCESS
    (write16 6 ++ [0xA1, 0xA2, 0x00, 0x00, 0xA5, 0xA6])
  [⟨some start.encode, 27, 27, some [], 0⟩, ⟨some getRandom, 12, 12, some random, 18⟩]

/-- The response to the GetRandom arms the layer, under a handle made of its size and random
bytes. -/
theorem staleStart_arms :
    let C := Crypto.ofDigests 0 0
    (run (rawExchange C) SessionState.zero staleStart).initialized = true ∧
      (run (rawExchange C) SessionState.zero staleStart).handle = 0x0006A1A2 ∧
      ¬ Always (rawExchange C) SessionState.zero
        (fun st x => Arms (x.patched C st) x.response x.responseSize →
          x.GivenStart) staleStart := by
  refine ⟨by decide +kernel, by decide +kernel, fun h => ?_⟩
  obtain ⟨b, hb, -, hcode⟩ := h [_] _ [] rfl ⟨_, rfl,
    by decide +kernel, by decide +kernel, by decide +kernel⟩
  cases hb
  revert hcode
  decide +kernel

end Session
