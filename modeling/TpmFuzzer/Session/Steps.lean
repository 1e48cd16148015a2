import TpmFuzzer.Lib.Runs
import TpmFuzzer.Session.Names

/-!
# What one call can do

One case lemma per entry point; every invariant of the layer is derived from these.

* `sessionAuthPatchCommand_cases`: a bad header changes nothing, a StartAuthSession is captured, and
  any other command only sets `last_command_code`; the bytes change only in an armed state, for
  a session-tagged command of the table whose first auth entry names the armed handle.
* `sessionAuthProcessResponse_cases`: a bad header changes nothing, a pending start is consumed
  (arming the layer or not), and otherwise only the nonce and the Names change.
-/

namespace Session

open Bytes Tpm Traced Runs

/-! ## The command side -/

/-- The checks on size and header that every command must pass. -/
structure GoodHeader (buf : Bytes) (size cap : Nat) : Prop where
  ten_le : 10 ≤ size
  le_cap : size ≤ cap
  header : (Tpm.read32 buf 2).toNat = size

instance (buf : Bytes) (size cap : Nat) : Decidable (GoodHeader buf size cap) :=
  decidable_of_iff (10 ≤ size ∧ size ≤ cap ∧ (Tpm.read32 buf 2).toNat = size)
    ⟨fun h => ⟨h.1, h.2.1, h.2.2⟩, fun h => ⟨h.1, h.2, h.3⟩⟩

theorem GoodHeader.lt {buf : Bytes} {size cap : Nat} (h : GoodHeader buf size cap) :
    size < 2 ^ 32 := by
  rw [← h.header]
  exact (Tpm.read32 buf 2).toNat_lt

/-- Capturing a StartAuthSession touches nothing but the pending fields. -/
theorem captureStartAuthSessionCommand_frame (st : SessionState) (buf : Bytes) (size : Nat) :
    ∃ compatible authHash, (captureStartAuthSessionCommand st buf size).val =
      { st with
        pendingStartAuthSession := true
        startAuthSessionCompatible := compatible
        startAuthSessionAuthHash := authHash } := by
  simp only [captureStartAuthSessionCommand, val_bind, val_ite, val_pure]
  repeat' split
  all_goals exact ⟨_, _, rfl⟩

variable (C : Crypto) (st : SessionState)

theorem sessionAuthPatchCommand_none (size cap : Nat) :
    (sessionAuthPatchCommand C st none size cap).val = ⟨st, none, size⟩ := rfl

theorem sessionAuthPatchCommand_bad {buf : Bytes} {size cap : Nat} (h : ¬ GoodHeader buf size cap) :
    (sessionAuthPatchCommand C st (some buf) size cap).val = ⟨st, some buf, size⟩ := by
  simp only [sessionAuthPatchCommand, val_bind, val_ite, val_pure, Mem.val_read32]
  by_cases h1 : size < 10 ∨ size > cap
  · rw [if_pos h1]
  · have h2 : (Tpm.read32 buf 2).toNat ≠ size := fun h2 => h ⟨by omega, by omega, h2⟩
    rw [if_neg h1, if_pos h2]

/-- A command that passes the header check. -/
theorem sessionAuthPatchCommand_good {buf : Bytes} {size cap : Nat} (h : GoodHeader buf size cap) :
    (sessionAuthPatchCommand C st (some buf) size cap).val =
      let code := Tpm.read32 buf 6
      let st' := { st with lastCommandCode := code }
      if code = TPM2_CC_StartAuthSession then
        ⟨(captureStartAuthSessionCommand st' buf size).val, some buf, size⟩
      else if st.initialized = false ∨ st.digestSize = 0 then ⟨st', some buf, size⟩
      else if Tpm.read16 buf 0 ≠ TPM2_ST_SESSIONS then ⟨st', some buf, size⟩
      else
        let r := (patchSessionCommand C st' buf size cap code).val
        ⟨st', some r.1, r.2⟩ := by
  simp only [sessionAuthPatchCommand, val_bind, val_ite, val_pure, Mem.val_read32, Mem.val_read16]
  rw [if_neg (by have := h.ten_le; have := h.le_cap; omega), if_neg (by have := h.header; omega)]

/-- The first auth entry of a command in `kTable`, where the patcher looks for it. -/
def firstAuthHandle (buf : Bytes) (attr : CommandAttrEntry) : UInt32 :=
  Tpm.read32 buf (10 + 4 * attr.handleCount + 4)

theorem findAuthArea_eq_some {buf : Bytes} {size : Nat} {attr : CommandAttrEntry} {area : AuthArea}
    (h : (findAuthArea buf size attr).val = some area) :
    area = ⟨10 + 4 * attr.handleCount, 10 + 4 * attr.handleCount + 4,
        (Tpm.read32 buf (10 + 4 * attr.handleCount)).toNat⟩ ∧
      area.authOff + area.authSize ≤ size := by
  simp only [findAuthArea, val_bind, val_ite, val_pure, Mem.val_sum, Mem.val_read32] at h
  split at h
  · cases h
  · split at h
    · cases h
    · cases h
      exact ⟨rfl, by simp only; omega⟩

theorem parseAuthEntry_eq_some {handle : UInt32} {buf : Bytes} {area : AuthArea}
    {entry : AuthEntryFields} (h : (parseAuthEntry handle buf area).val = some entry) :
    Tpm.read32 buf area.authOff = handle ∧ entry.nonceOff = area.authOff + 4 ∧
      entry.nonceOff + (2 + entry.origNonceSize) + 1 + (2 + entry.origHmacSize) =
        area.authOff + area.authSize ∧
      entry.origNonceSize < 65536 ∧ entry.origHmacSize < 65536 := by
  simp only [parseAuthEntry, val_bind, val_ite, val_pure, Mem.val_sum, Mem.val_read32,
    Mem.val_read16, Mem.val_read8] at h
  split at h
  · cases h
  split at h
  · cases h
  next hh =>
  split at h
  · cases h
  split at h
  · cases h
  split at h
  · cases h
  split at h
  · cases h
  next hend =>
  cases h
  refine ⟨not_not.mp hh, rfl, not_not.mp hend, ?_, ?_⟩
  · exact UInt16.toNat_lt _
  · exact UInt16.toNat_lt _

/-- The HMAC path leaves the command alone unless its first auth entry names the armed handle. -/
theorem patchSessionCommand_cases (buf : Bytes) (size cap : Nat) (code : UInt32) :
    (patchSessionCommand C st buf size cap code).val = (buf, size) ∨
      ∃ attr, lookupCommandAttr code = some attr ∧ firstAuthHandle buf attr = st.handle := by
  unfold patchSessionCommand
  cases ha : lookupCommandAttr code with
  | none => exact Or.inl rfl
  | some attr =>
    simp only [val_bind]
    cases hf : (findAuthArea buf size attr).val with
    | none => exact Or.inl rfl
    | some area =>
      simp only [val_bind]
      cases hp : (parseAuthEntry st.handle buf area).val with
      | none => exact Or.inl rfl
      | some entry =>
        right
        refine ⟨attr, rfl, ?_⟩
        have hx := (parseAuthEntry_eq_some hp).1
        rw [(findAuthArea_eq_some hf).1] at hx
        exact hx

theorem sessionAuthPatchCommand_cases (buf : Bytes) (size cap : Nat) :
    let r := (sessionAuthPatchCommand C st (some buf) size cap).val
    let code := Tpm.read32 buf 6
    (¬ GoodHeader buf size cap ∧ r = ⟨st, some buf, size⟩) ∨
    (GoodHeader buf size cap ∧ code = TPM2_CC_StartAuthSession ∧
      r = ⟨(captureStartAuthSessionCommand { st with lastCommandCode := code } buf size).val,
        some buf, size⟩) ∨
    (GoodHeader buf size cap ∧ code ≠ TPM2_CC_StartAuthSession ∧
      r.state = { st with lastCommandCode := code } ∧
      ((r.buf = some buf ∧ r.size = size) ∨
        (st.initialized = true ∧ Tpm.read16 buf 0 = TPM2_ST_SESSIONS ∧
          ∃ attr, lookupCommandAttr code = some attr ∧ firstAuthHandle buf attr = st.handle))) := by
  intro r code
  by_cases hg : GoodHeader buf size cap
  · right
    have hr := sessionAuthPatchCommand_good C st hg
    by_cases hc : code = TPM2_CC_StartAuthSession
    · left
      refine ⟨hg, hc, ?_⟩
      rw [show r = _ from hr]
      simp only [show Tpm.read32 buf 6 = TPM2_CC_StartAuthSession from hc, if_true, code]
    · right
      simp only [show ¬ Tpm.read32 buf 6 = TPM2_CC_StartAuthSession from hc, if_false] at hr
      refine ⟨hg, hc, ?_⟩
      rw [show r = _ from hr]
      by_cases hi : st.initialized = false ∨ st.digestSize = 0
      · rw [if_pos hi]
        exact ⟨rfl, Or.inl ⟨rfl, rfl⟩⟩
      · by_cases ht : Tpm.read16 buf 0 ≠ TPM2_ST_SESSIONS
        · rw [if_neg hi, if_pos ht]
          exact ⟨rfl, Or.inl ⟨rfl, rfl⟩⟩
        · rw [if_neg hi, if_neg ht]
          refine ⟨rfl, ?_⟩
          rcases patchSessionCommand_cases C { st with lastCommandCode := code }
              buf size cap code with
            h | ⟨attr, h1, h2⟩
          · left
            simp only [show (patchSessionCommand C
              { st with lastCommandCode := Tpm.read32 buf 6 } buf
              size cap (Tpm.read32 buf 6)).val = (buf, size) from h]
            exact ⟨trivial, trivial⟩
          · right
            refine ⟨?_, not_not.mp ht, attr, h1, h2⟩
            cases hb : st.initialized
            · exact absurd (Or.inl hb) hi
            · rfl
  · exact Or.inl ⟨hg, sessionAuthPatchCommand_bad C st hg⟩

/-! ## The response side -/

theorem sessionAuthProcessResponse_none (size : Nat) :
    (sessionAuthProcessResponse st none size).val = st := rfl

structure GoodResponse (buf : Bytes) (size : Nat) : Prop where
  ten_le : 10 ≤ size
  header : (Tpm.read32 buf 2).toNat = size

instance (buf : Bytes) (size : Nat) : Decidable (GoodResponse buf size) :=
  decidable_of_iff (10 ≤ size ∧ (Tpm.read32 buf 2).toNat = size)
    ⟨fun h => ⟨h.1, h.2⟩, fun h => ⟨h.1, h.2⟩⟩

theorem GoodResponse.lt {buf : Bytes} {size : Nat} (h : GoodResponse buf size) : size < 2 ^ 32 := by
  rw [← h.header]
  exact (Tpm.read32 buf 2).toNat_lt

theorem sessionAuthProcessResponse_bad {buf : Bytes} {size : Nat} (h : ¬ GoodResponse buf size) :
    (sessionAuthProcessResponse st (some buf) size).val = st := by
  simp only [sessionAuthProcessResponse, val_bind, val_ite, val_pure, Mem.val_read32]
  by_cases h1 : size < 10
  · rw [if_pos h1]
  · have h2 : (Tpm.read32 buf 2).toNat ≠ size := fun h2 => h ⟨by omega, h2⟩
    rw [if_neg h1, if_pos h2]

theorem sessionAuthProcessResponse_good {buf : Bytes} {size : Nat} (h : GoodResponse buf size) :
    (sessionAuthProcessResponse st (some buf) size).val =
      if st.pendingStartAuthSession = true then
        (processStartResponse st buf size (Tpm.read16 buf 0) (Tpm.read32 buf 6)).val
      else if st.initialized = false then st
      else if Tpm.read16 buf 0 ≠ TPM2_ST_SESSIONS ∨ Tpm.read32 buf 6 ≠ TPM2_RC_SUCCESS then st
      else (processSessionResponse st buf size).val := by
  simp only [sessionAuthProcessResponse, val_bind, val_ite, val_pure,
    Mem.val_read32, Mem.val_read16]
  rw [if_neg (by have := h.ten_le; omega), if_neg (by have := h.header; omega)]

theorem findResponseFields_eq_some {buf : Bytes} {size : Nat} {attr : CommandAttrEntry}
    {f : ResponseFields} (h : (findResponseFields buf size attr).val = some f) :
    f.paramsOff = 14 + 4 * attr.outHandleCount ∧
      f.authAreaOff = f.paramsOff + (Tpm.read32 buf (10 + 4 * attr.outHandleCount)).toNat ∧
      f.nonceSize = (Tpm.read16 buf f.authAreaOff).toNat ∧
      f.authAreaOff + 2 + f.nonceSize ≤ size := by
  simp only [findResponseFields, val_bind, val_ite, val_pure, Mem.val_sum, Mem.val_read32,
    Mem.val_read16] at h
  split at h
  · cases h
  split at h
  · cases h
  split at h
  · cases h
  split at h
  · cases h
  next hle =>
  cases h
  exact ⟨by simp only; omega, rfl, rfl, by simp only; omega⟩

theorem refreshNonce_frame (buf : Bytes) (off n : Nat) :
    ∃ nonceTpm nonceTpmSize, (refreshNonce st buf off n).val =
      { st with nonceTpm := nonceTpm, nonceTpmSize := nonceTpmSize } := by
  simp only [refreshNonce, val_bind, val_ite, val_pure]
  split
  · exact ⟨_, _, rfl⟩
  · exact ⟨_, _, rfl⟩

/-- Refreshing the nonce and naming the object, once the fields are found. -/
theorem processSessionResponse_some {buf : Bytes} {size : Nat} {attr : CommandAttrEntry}
    {f : ResponseFields} (ha : lookupCommandAttr st.lastCommandCode = some attr)
    (hf : (findResponseFields buf size attr).val = some f) :
    (processSessionResponse st buf size).val =
      let st' := (refreshNonce st buf (f.authAreaOff + 2) f.nonceSize).val
      if attr.outHandleCount = 0 then st'
      else { st' with names := (populateNameFromResponse st.names st.lastCommandCode buf f.paramsOff
        f.authAreaOff (Tpm.read32 buf 10)).val } := by
  obtain ⟨nonce, n, hr⟩ := refreshNonce_frame st buf (f.authAreaOff + 2) f.nonceSize
  simp only [processSessionResponse, ha, val_bind, hf, val_ite, val_pure, Mem.val_read32, hr]

/-- What the response to a command that is not a pending start may change. -/
theorem processSessionResponse_frame (buf : Bytes) (size : Nat) :
    ∃ nonceTpm nonceTpmSize names, (processSessionResponse st buf size).val =
      { st with nonceTpm := nonceTpm, nonceTpmSize := nonceTpmSize, names := names } := by
  cases ha : lookupCommandAttr st.lastCommandCode with
  | none =>
    simp only [processSessionResponse, ha]
    exact ⟨_, _, _, rfl⟩
  | some attr =>
    cases hf : (findResponseFields buf size attr).val with
    | none =>
      simp only [processSessionResponse, ha, val_bind, hf]
      exact ⟨_, _, _, rfl⟩
    | some f =>
      obtain ⟨nonce, n, hr⟩ := refreshNonce_frame st buf (f.authAreaOff + 2) f.nonceSize
      rw [processSessionResponse_some st ha hf, hr]
      simp only
      split
      · exact ⟨_, _, _, rfl⟩
      · exact ⟨_, _, _, rfl⟩

/-- The pending branch consumes the pending start; it arms the layer when `pendingArmArgs` does. -/
theorem processStartResponse_eq (buf : Bytes) (size : Nat) (tag : UInt16) (rc : UInt32) :
    (processStartResponse st buf size tag rc).val =
      match (pendingArmArgs st buf size tag rc).val with
      | some a =>
        (sessionAuthInit a.handle .response (some buf) 16 a.nonceSize none 0 a.authHash).val
      | none =>
        { st with pendingStartAuthSession := false, startAuthSessionCompatible := false } := by
  simp only [processStartResponse, val_bind]
  cases (pendingArmArgs st buf size tag rc).val <;> rfl

theorem pendingArmArgs_eq_some {buf : Bytes} {size : Nat} {tag : UInt16} {rc : UInt32} {a : ArmArgs}
    (h : (pendingArmArgs st buf size tag rc).val = some a) :
    tag = TPM2_ST_NO_SESSIONS ∧ rc = TPM2_RC_SUCCESS ∧ st.startAuthSessionCompatible = true ∧
      a = ⟨Tpm.read32 buf 10, (Tpm.read16 buf 14).toNat, st.startAuthSessionAuthHash⟩ ∧
      16 + a.nonceSize ≤ size := by
  simp only [pendingArmArgs, val_bind, val_ite, val_pure, Mem.val_sum, Mem.val_read32,
    Mem.val_read16] at h
  split at h
  · cases h
  next h1 =>
  split at h
  · cases h
  next h2 =>
  split at h
  · cases h
  next h3 =>
  cases h
  rw [not_or, not_not, not_not] at h1
  rw [not_or, Bool.not_eq_false] at h2
  exact ⟨h1.1, h1.2, h2.1, rfl, by simp only; omega⟩

/-- Whether a response arms the layer: it reaches the `SessionAuthInit` call. -/
def Arms (buf : Option Bytes) (size : Nat) : Prop :=
  ∃ b, buf = some b ∧ GoodResponse b size ∧ st.pendingStartAuthSession = true ∧
    (pendingArmArgs st b size (Tpm.read16 b 0) (Tpm.read32 b 6)).val ≠ none

theorem sessionAuthProcessResponse_cases (buf : Bytes) (size : Nat) :
    let st' := (sessionAuthProcessResponse st (some buf) size).val
    (¬ GoodResponse buf size ∧ st' = st) ∨
    (GoodResponse buf size ∧ st.pendingStartAuthSession = true ∧ ¬ Arms st (some buf) size ∧
      st' = { st with pendingStartAuthSession := false, startAuthSessionCompatible := false }) ∨
    (GoodResponse buf size ∧ st.pendingStartAuthSession = true ∧
      ∃ a, (pendingArmArgs st buf size (Tpm.read16 buf 0) (Tpm.read32 buf 6)).val = some a ∧
        st' =
          (sessionAuthInit a.handle .response (some buf) 16 a.nonceSize none 0 a.authHash).val) ∨
    (GoodResponse buf size ∧ st.pendingStartAuthSession = false ∧
      (st' = st ∨
        (st.initialized = true ∧ Tpm.read16 buf 0 = TPM2_ST_SESSIONS ∧
          Tpm.read32 buf 6 = TPM2_RC_SUCCESS ∧
          st' = (processSessionResponse st buf size).val))) := by
  intro st'
  by_cases hg : GoodResponse buf size
  · right
    have hr : st' = _ := sessionAuthProcessResponse_good st hg
    by_cases hp : st.pendingStartAuthSession = true
    · rw [if_pos hp, processStartResponse_eq] at hr
      cases ha : (pendingArmArgs st buf size (Tpm.read16 buf 0) (Tpm.read32 buf 6)).val with
      | none =>
        left
        rw [ha] at hr
        refine ⟨hg, hp, ?_, hr⟩
        rintro ⟨b, hb, -, -, hne⟩
        cases hb
        exact hne ha
      | some a =>
        right; left
        rw [ha] at hr
        exact ⟨hg, hp, a, rfl, hr⟩
    · right; right
      rw [if_neg hp] at hr
      refine ⟨hg, by simpa using hp, ?_⟩
      by_cases hi : st.initialized = false
      · rw [if_pos hi] at hr
        exact Or.inl hr
      · rw [if_neg hi] at hr
        by_cases ht : Tpm.read16 buf 0 ≠ TPM2_ST_SESSIONS ∨ Tpm.read32 buf 6 ≠ TPM2_RC_SUCCESS
        · rw [if_pos ht] at hr
          exact Or.inl hr
        · rw [if_neg ht] at hr
          rw [not_or, not_not, not_not] at ht
          exact Or.inr ⟨by simpa using hi, ht.1, ht.2, hr⟩
  · exact Or.inl ⟨hg, sessionAuthProcessResponse_bad st hg⟩

/-! ## Arming -/

/-- The state `SessionAuthInit` leaves when it is called without a key and with as many nonce bytes
as the buffer holds. -/
theorem sessionAuthInit_response (buf : Bytes) {n : Nat} (hn : 16 + n ≤ buf.length)
    (handle : UInt32) (authHash : UInt16) :
    let st' := (sessionAuthInit handle .response (some buf) 16 n none 0 authHash).val
    st'.nonce = (slice buf 16 n).take SESSION_AUTH_MAX_DIGEST ∧
      st' = { SessionState.zero with
        initialized := true
        handle := handle
        hashAlg := authHash
        digestSize := digestSizeFor authHash
        nonceTpm := st'.nonceTpm
        nonceTpmSize := min n SESSION_AUTH_MAX_DIGEST } := by
  have hmin : (if n > SESSION_AUTH_MAX_DIGEST then SESSION_AUTH_MAX_DIGEST else n) =
      min n SESSION_AUTH_MAX_DIGEST := by
    split <;> omega
  intro st'
  have hst : st' = { SessionState.zero with
      initialized := true
      handle := handle
      hashAlg := authHash
      digestSize := digestSizeFor authHash
      nonceTpm := (copyIn .response (some buf) 16 (min n SESSION_AUTH_MAX_DIGEST) .nonceTpm
        SessionState.zero.nonceTpm).val
      nonceTpmSize := min n SESSION_AUTH_MAX_DIGEST } := by
    simp only [st', sessionAuthInit, val_bind, val_pure, hmin]
    rfl
  refine ⟨?_, ?_⟩
  · rw [hst]
    have hl : (slice buf 16 (min n SESSION_AUTH_MAX_DIGEST)).length =
        min n SESSION_AUTH_MAX_DIGEST :=
      length_slice (by omega)
    have hcut : slice buf 16 (min n SESSION_AUTH_MAX_DIGEST) =
        (slice buf 16 n).take SESSION_AUTH_MAX_DIGEST := by
      rw [slice, slice, List.take_take, Nat.min_comm]
    by_cases h0 : min n SESSION_AUTH_MAX_DIGEST = 0
    · have : n = 0 := by simp [SESSION_AUTH_MAX_DIGEST] at h0; omega
      subst this
      rfl
    · simp only [SessionState.nonce, copyIn, ne_eq, h0, not_false_eq_true, if_true, val_bind,
        Mem.val_bytes, val_pure]
      have := Fixed.first_blit SessionState.zero.nonceTpm
        (slice buf 16 (min n SESSION_AUTH_MAX_DIGEST)) (by omega)
      rw [hl] at this
      rw [this, hcut]
  · rw [hst]

end Session
