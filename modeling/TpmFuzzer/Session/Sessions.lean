import TpmFuzzer.Session.Rewrite
import TpmFuzzer.Session.Turns

/-!
# Which session the layer is armed for

Over a run of turns, `latest startNote ts h` is the StartAuthSession that the last successful
response with handle `h` answered.  While no incompatible start is given the armed handle, a handle
whose last start was incompatible is never rewritten (`incompatible_unchanged`); `reusedHandle` is a
run in which it is.
-/

namespace Session

open Bytes Tpm Traced Runs

variable (C : Crypto)

/-! ## What stays the same -/

theorem turn_executed_frame {c : TaggedCommand} {r : TaggedReply} {t : Turn}
    (ht : t.exchange = .executed c r) (st : SessionState)
    (hp : st.pendingStartAuthSession = false) :
    (turn C st t).initialized = st.initialized ∧ (turn C st t).handle = st.handle ∧
      (turn C st t).pendingStartAuthSession = false := by
  rw [turn_executed_eq C ht, if_neg (by rw [hp]; decide)]
  split
  · exact ⟨rfl, rfl, hp⟩
  · obtain ⟨n, k, names, hf⟩ := processSessionResponse_frame
      { st with lastCommandCode := c.attr.commandCode }
        (r.encode ++ t.responseSlack) r.encode.length
    rw [hf]
    exact ⟨rfl, rfl, hp⟩

theorem SameSession.frame {st st' : SessionState} (h : SameSession st st') :
    st'.initialized = st.initialized ∧ st'.handle = st.handle ∧ st'.nonce = st.nonce ∧
      st'.names = st.names ∧ st'.pendingStartAuthSession = false := by
  obtain ⟨code, compatible, authHash, rfl⟩ := h
  exact ⟨rfl, rfl, rfl, rfl, rfl⟩

/-- Between turns nothing is pending. -/
theorem turn_pending (st : SessionState) (hp : st.pendingStartAuthSession = false) (t : Turn) :
    (turn C st t).pendingStartAuthSession = false := by
  cases ht : t.exchange with
  | started s r =>
    by_cases hs : s.Armable
    · exact (turn_armable C st ht hs).pending_eq
    · exact (turn_not_armable C st ht hs).frame.2.2.2.2
  | executed c r => exact (turn_executed_frame C ht st hp).2.2
  | other command response => exact (turn_other C st hp ht).frame.2.2.2.2
  | failed command response => exact (turn_failed C st ht).frame.2.2.2.2

/-! ## The last start of a handle -/

/-- A successful start, for the handle it returned. -/
def startNote (t : Turn) (h : UInt32) : Option StartAuthSession :=
  match t.exchange with
  | .started s r => if r.handle = h then some s else none
  | _ => none

/-- An incompatible start does not return the handle the layer is armed for. -/
def KeepsHandle (st : SessionState) (t : Turn) : Prop :=
  ∀ s r, t.exchange = .started s r → ¬ s.Compatible → st.initialized = true → r.handle ≠ st.handle

/-- The armed session was started compatibly. -/
structure ArmedCompatible (ts : List Turn) (st : SessionState) : Prop where
  pending_eq : st.pendingStartAuthSession = false
  compatible : st.initialized = true → ∃ s, latest startNote ts st.handle = some s ∧ s.Compatible

/-- A turn that starts nothing and keeps the armed handle. -/
theorem ArmedCompatible.keep {ts : List Turn} {st st' : SessionState} {t : Turn}
    (h : ArmedCompatible ts st) (hnote : startNote t st.handle = none)
    (hinit : st'.initialized = st.initialized) (hhandle : st'.handle = st.handle)
    (hp : st'.pendingStartAuthSession = false) : ArmedCompatible (ts ++ [t]) st' := by
  refine ⟨hp, fun hi => ?_⟩
  rw [hhandle, latest_snoc_of_none hnote]
  exact h.compatible (hinit ▸ hi)

theorem armedCompatible_turn (ts : List Turn) (st : SessionState) (t : Turn)
    (h : ArmedCompatible ts st) (hkeep : KeepsHandle st t) :
    ArmedCompatible (ts ++ [t]) (turn C st t) := by
  have hp := turn_pending C st h.pending_eq t
  cases ht : t.exchange with
  | started s r =>
    by_cases hs : s.Armable
    · have harmed := turn_armable C st ht hs
      refine ⟨hp, fun _ => ⟨s, latest_snoc_of_some ?_, hs.2⟩⟩
      rw [harmed.handle_eq]
      simp [startNote, ht]
    · obtain ⟨hinit, hhandle, -⟩ := (turn_not_armable C st ht hs).frame
      by_cases hh : r.handle = st.handle
      · refine ⟨hp, fun hi => ⟨s, latest_snoc_of_some ?_, ?_⟩⟩
        · rw [hhandle]
          simp [startNote, ht, hh]
        · by_contra hc
          exact hkeep s r ht hc (hinit ▸ hi) hh
      · exact h.keep (by simp [startNote, ht, hh]) hinit hhandle hp
  | executed c r =>
    obtain ⟨hinit, hhandle, -⟩ := turn_executed_frame C ht st h.pending_eq
    exact h.keep (by simp [startNote, ht]) hinit hhandle hp
  | other command response =>
    obtain ⟨hinit, hhandle, -⟩ := (turn_other C st h.pending_eq ht).frame
    exact h.keep (by simp [startNote, ht]) hinit hhandle hp
  | failed command response =>
    obtain ⟨hinit, hhandle, -⟩ := (turn_failed C st ht).frame
    exact h.keep (by simp [startNote, ht]) hinit hhandle hp

theorem run_armedCompatible {ts : List Turn}
    (h : Always (turn C) SessionState.zero KeepsHandle ts) :
    ArmedCompatible ts (run (turn C) SessionState.zero ts) :=
  run_history ⟨rfl, fun hi => by cases hi⟩
    (fun pre t hinv hkeep => armedCompatible_turn C pre _ t hinv hkeep) ts h

/-- A command that names a handle whose last start was incompatible is passed on as it is. -/
theorem incompatible_unchanged {ts : List Turn}
    (hkeep : Always (turn C) SessionState.zero KeepsHandle ts) {H : UInt32} {s : StartAuthSession}
    (hlast : latest startNote ts H = some s) (hs : ¬ s.Compatible) {buf : Bytes}
    (hfirst : ∀ attr, lookupCommandAttr (read32 buf 6) = some attr → firstAuthHandle buf attr = H)
    (size cap : Nat) :
    let r := (sessionAuthPatchCommand C (run (turn C) SessionState.zero ts) (some buf) size cap).val
    r.buf = some buf ∧ r.size = size := by
  intro r
  have hinv := run_armedCompatible C hkeep
  rcases sessionAuthPatchCommand_cases C (run (turn C) SessionState.zero ts) buf size cap with
    ⟨-, hr⟩ | ⟨-, -, hr⟩ | ⟨-, -, -, hr | ⟨hi, -, attr, hattr, hhandle⟩⟩
  · exact ⟨congrArg PatchResult.buf hr, congrArg PatchResult.size hr⟩
  · exact ⟨congrArg PatchResult.buf hr, congrArg PatchResult.size hr⟩
  · exact hr
  · -- a rewritten command names the armed handle, whose last start was compatible
    obtain ⟨s', hs', hcompat⟩ := hinv.compatible hi
    rw [← hhandle, hfirst attr hattr, hlast] at hs'
    cases hs'
    exact absurd hcompat hs

/-- A compatible HMAC session under the given handle, with a nonce of sixteen bytes 0x55. -/
def hmacSessionStart : StartAuthSession :=
  ⟨TPM2_RH_NULL, TPM2_RH_NULL, none, TPM2B.empty, TPM2B.empty, TPM2_SE_HMAC,
    ⟨write16 TPM2_ALG_NULL, Nat.le_refl 2⟩, TPM2_ALG_SHA256⟩

/-- The same start with another hash algorithm, SHA-384. -/
def sha384SessionStart : StartAuthSession := { hmacSessionStart with authHash := 0x000C }

def startReply (handle : UInt32) : StartReply := ⟨handle, ⟨List.replicate 16 0x55, by decide⟩, []⟩

def hmacStarted : Turn := ⟨.started hmacSessionStart (startReply 0x02000000), by decide, [], []⟩

/-- FlushContext of the session. -/
def flushed : Turn :=
  ⟨.other (message TPM2_ST_NO_SESSIONS TPM2_CC_FlushContext (write32 0x02000000))
    (message TPM2_ST_NO_SESSIONS TPM2_RC_SUCCESS []), by decide, [], []⟩

def sha384Started (handle : UInt32) : Turn :=
  ⟨.started sha384SessionStart (startReply handle), ⟨by decide, by
    simp [StartReply.encode, StartReply.body, sha384SessionStart, hmacSessionStart, startReply,
      TPM2B.size]⟩, [], []⟩

theorem sha384_unchanged :
    let ts := [hmacStarted, sha384Started 0x02000001]
    let buf := (clearCommand 0x02000001 []).encode
    let r := (sessionAuthPatchCommand clearDigests (run (turn clearDigests) SessionState.zero ts)
      (some buf) 27 91).val
    r.buf = some buf ∧ r.size = 27 := by
  have hkeep : Always (turn clearDigests) SessionState.zero KeepsHandle
      [hmacStarted, sha384Started 0x02000001] := by
    refine (Always.nil.snoc ?_).snoc ?_
    · intro s r ht hs _
      cases ht
      exact absurd (by decide) hs
    · intro s r ht _ _
      cases ht
      decide +kernel
  exact incompatible_unchanged clearDigests hkeep (H := 0x02000001) (s := sha384SessionStart)
    (by decide +kernel) (by decide) (by decide +kernel) 27 91

/-- A run in which the TPM gives the handle of a flushed HMAC session to a SHA-384 session. -/
def reusedHandle : List Turn := [hmacStarted, flushed, sha384Started 0x02000000]

/-- The command of the SHA-384 session is rewritten for the session that is gone. -/
theorem reusedHandle_rewritten :
    let buf := (clearCommand 0x02000000 []).encode ++ List.replicate 64 0
    let r := (sessionAuthPatchCommand clearDigests
      (run (turn clearDigests) SessionState.zero reusedHandle) (some buf) 27 91).val
    latest startNote reusedHandle 0x02000000 = some sha384SessionStart ∧
      ¬ sha384SessionStart.Compatible ∧
      (∀ attr, lookupCommandAttr (read32 buf 6) = some attr →
        firstAuthHandle buf attr = 0x02000000) ∧
      r.size = 75 ∧ r.buf ≠ some buf := by
  decide +kernel

end Session
