import TpmFuzzer.Session.Steps

/-!
# Bounds of the state and of every access

`Call` is one call of the layer's interface with arbitrary arguments, `Reachable` the states after
any sequence of calls.  `Bounded` is the invariant the fixed-size arrays rest on; every call keeps
it (`call_bounded`), and a call in a `Bounded` state makes accesses inside its `Extents` only
(`call_safe`).
-/

namespace Session

open Bytes Tpm Traced Runs

/-! ## Calls -/

/-- One call of the interface, with whatever pointers and sizes the caller has; `none` is a null
pointer. -/
inductive Call
  | initialise (sessionHandle : UInt32) (nonceTpm : Option Bytes) (nonceTpmSize : Nat)
      (sessionKey : Option Bytes) (sessionKeySize : Nat) (authHashAlg : UInt16)
  | reset
  | patchCommand (buf : Option Bytes) (commandSize bufCapacity : Nat)
  | processResponse (buf : Option Bytes) (size : Nat)

variable (C : Crypto)

/-- What the call does to the state, and the accesses on the way. -/
def call (st : SessionState) : Call → Mem SessionState
  | .initialise h nonce nonceSize key keySize alg =>
    sessionAuthInit h .initNonce nonce 0 nonceSize key keySize alg
  | .reset => return sessionAuthReset
  | .patchCommand buf size cap => do
    let r ← sessionAuthPatchCommand C st buf size cap
    return r.state
  | .processResponse buf size => sessionAuthProcessResponse st buf size

def stepCall (st : SessionState) (c : Call) : SessionState := (call C st c).val

/-- The states after any sequence of calls from the zero-initialised global. -/
def Reachable (st : SessionState) : Prop := ∃ cs, run (stepCall C) SessionState.zero cs = st

/-! ## The invariant -/

/-- The sizes that the state keeps are within its arrays. -/
structure Bounded (st : SessionState) : Prop where
  nonceTpmSize_le : st.nonceTpmSize ≤ SESSION_AUTH_MAX_DIGEST
  sessionKeySize_le : st.sessionKeySize ≤ SESSION_AUTH_MAX_DIGEST
  count_le : st.names.count ≤ kMaxNames
  nameSize_le : ∀ e ∈ st.names.entries, e.nameSize ≤ kMaxNameSize

/-- The part of the invariant that is about the Name table. -/
def BoundedNames (t : NameTable) : Prop :=
  t.count ≤ kMaxNames ∧ ∀ e ∈ t.entries, e.nameSize ≤ kMaxNameSize

theorem Bounded.names {st : SessionState} (h : Bounded st) : BoundedNames st.names :=
  ⟨h.count_le, h.nameSize_le⟩

theorem bounded_zero : Bounded SessionState.zero :=
  ⟨Nat.zero_le _, Nat.zero_le _, Nat.zero_le _, by simp [SessionState.zero]⟩

/-- `Add` refuses a new handle when the table is full, and cuts a Name to its array. -/
theorem boundedNames_add {t : NameTable} (h : BoundedNames t) (handle : UInt32) (r : Region)
    (src : Bytes) (off n : Nat) : BoundedNames (t.add handle r src off n).val :=
  ⟨NameTable.count_add_le t handle r src off n h.1, NameTable.nameSize_add t handle r src off n h.2⟩

theorem boundedNames_populate {t : NameTable} (h : BoundedNames t) (cc : UInt32) (buf : Bytes)
    (paramsOff paramsEnd : Nat) (outHandle : UInt32) :
    BoundedNames (populateNameFromResponse t cc buf paramsOff paramsEnd outHandle).val := by
  unfold populateNameFromResponse
  simp only [val_ite, val_pure, extractCreatePrimaryName, extractLoadName, val_bind]
  repeat' split
  all_goals first
    | exact h
    | exact boundedNames_add h _ _ _ _ _

/-- `SessionAuthInit` clamps both sizes, whatever it is passed. -/
theorem sessionAuthInit_bounded (h : UInt32) (r : Region) (nonce : Option Bytes) (off n : Nat)
    (key : Option Bytes) (k : Nat) (alg : UInt16) :
    Bounded (sessionAuthInit h r nonce off n key k alg).val := by
  simp only [sessionAuthInit, val_bind, val_pure]
  refine ⟨?_, ?_, Nat.zero_le _, by simp [SessionState.zero]⟩
  · simp only
    split <;> omega
  · simp only
    split <;> omega

/-- The command side changes the pending flags and the last command code only. -/
theorem sessionAuthPatchCommand_bounded {st : SessionState} (h : Bounded st) (buf : Option Bytes)
    (size cap : Nat) : Bounded (sessionAuthPatchCommand C st buf size cap).val.state := by
  cases buf with
  | none => exact h
  | some b =>
    rcases sessionAuthPatchCommand_cases C st b size cap with ⟨-, hr⟩ | ⟨-, -, hr⟩ | ⟨-, -, hr, -⟩
    · rw [hr]
      exact h
    · obtain ⟨compatible, authHash, hf⟩ := captureStartAuthSessionCommand_frame
        { st with lastCommandCode := Tpm.read32 b 6 } b size
      rw [hr]
      simp only [hf]
      exact ⟨h.1, h.2, h.3, h.4⟩
    · rw [hr]
      exact ⟨h.1, h.2, h.3, h.4⟩

theorem refreshNonce_bounded {st : SessionState} (h : Bounded st) (buf : Bytes) (off n : Nat) :
    Bounded (refreshNonce st buf off n).val := by
  simp only [refreshNonce, val_bind, val_ite, val_pure]
  split
  · next hn => exact ⟨hn.2, h.2, h.3, h.4⟩
  · exact h

theorem processSessionResponse_bounded {st : SessionState} (h : Bounded st) (buf : Bytes)
    (size : Nat) : Bounded (processSessionResponse st buf size).val := by
  cases ha : lookupCommandAttr st.lastCommandCode with
  | none =>
    simp only [processSessionResponse, ha]
    exact h
  | some attr =>
    cases hf : (findResponseFields buf size attr).val with
    | none =>
      simp only [processSessionResponse, ha, val_bind, hf]
      exact h
    | some f =>
      have hst := refreshNonce_bounded h buf (f.authAreaOff + 2) f.nonceSize
      have hnames := boundedNames_populate h.names st.lastCommandCode buf f.paramsOff f.authAreaOff
        (Tpm.read32 buf 10)
      rw [processSessionResponse_some st ha hf]
      simp only
      split
      · exact hst
      · exact ⟨hst.1, hst.2, hnames.1, hnames.2⟩

/-- A pending start is answered by `SessionAuthInit`, any other response may change the nonce and
the Names. -/
theorem sessionAuthProcessResponse_bounded {st : SessionState} (h : Bounded st) (buf : Option Bytes)
    (size : Nat) : Bounded (sessionAuthProcessResponse st buf size).val := by
  cases buf with
  | none => exact h
  | some b =>
    rcases sessionAuthProcessResponse_cases st b size with ⟨-, hr⟩ | ⟨-, -, -, hr⟩ |
      ⟨-, -, a, -, hr⟩ | ⟨-, -, hr | ⟨-, -, -, hr⟩⟩
    · rw [hr]
      exact h
    · rw [hr]
      exact ⟨h.1, h.2, h.3, h.4⟩
    · rw [hr]
      exact sessionAuthInit_bounded _ _ _ _ _ _ _ _
    · rw [hr]
      exact h
    · rw [hr]
      exact processSessionResponse_bounded h b size

/-- **Step.**  Every call keeps the invariant, with any arguments. -/
theorem call_bounded {st : SessionState} (h : Bounded st) (c : Call) :
    Bounded (stepCall C st c) := by
  cases c with
  | initialise => exact sessionAuthInit_bounded _ _ _ _ _ _ _ _
  | reset => exact bounded_zero
  | patchCommand buf size cap => exact sessionAuthPatchCommand_bounded C h buf size cap
  | processResponse buf size => exact sessionAuthProcessResponse_bounded h buf size

/-- **Run.**  The invariant holds in every reachable state. -/
theorem Reachable.bounded {st : SessionState} (h : Reachable C st) : Bounded st := by
  obtain ⟨cs, rfl⟩ := h
  exact run_invariant' bounded_zero (fun _ c hs => call_bounded C hs c) cs

/-! ## Extents -/

/-- How many bytes a call may read of each buffer, and how many of the command it may write. -/
structure Extents where
  commandSize : Nat
  bufCapacity : Nat
  responseSize : Nat
  nonceSize : Nat
  keySize : Nat

def Extents.readable (x : Extents) : Region → Nat
  | .command => x.commandSize
  | .response => x.responseSize
  | .initNonce => x.nonceSize
  | .initKey => x.keySize
  | .nonceTpm => SESSION_AUTH_MAX_DIGEST
  | .sessionKey => SESSION_AUTH_MAX_DIGEST
  | .entries => kMaxNames
  | .entryName => kMaxNameSize
  | .nameOut => kMaxNameSize
  | .hmacMsg => 32 + kNonceCallerSize + SESSION_AUTH_MAX_DIGEST + 1
  | .hmacKey => SESSION_AUTH_MAX_DIGEST

/-- The response and the caller's nonce and key are never written. -/
def Extents.writable (x : Extents) : Region → Nat
  | .command => x.bufCapacity
  | .response => 0
  | .initNonce => 0
  | .initKey => 0
  | r => x.readable r

/-- An access inside the extents; a size is in range of `size_t` (and of `int64_t`). -/
def Access.InBounds (x : Extents) : Access → Prop
  | .read r off len => off + len ≤ x.readable r
  | .write r off len => off + len ≤ x.writable r
  | .size v => 0 ≤ v ∧ v < 2 ^ 63
  | .size32 v => 0 ≤ v ∧ v < 2 ^ 32

abbrev Safe {α : Type} (x : Extents) (m : Mem α) : Prop := Emits (Access.InBounds x) m

section
variable {x : Extents} {r : Region} {b src : Bytes} {off len n : Nat} {v : Int}

theorem safe_read (h : off + len ≤ x.readable r) : Safe x (Mem.read r off len) := .event h
theorem safe_write (h : off + len ≤ x.writable r) : Safe x (Mem.write r off len) := .event h

theorem safe_sum (h : n < 2 ^ 63) : Safe x (Mem.sum n) :=
  .bind (.event ⟨by omega, by omega⟩) (.pure _)

/-- A difference that is not negative, so that it does not wrap around as `size_t`. -/
theorem safe_diff (h0 : 0 ≤ v) (h : v < 2 ^ 63) : Safe x (Mem.diff v) :=
  .bind (.event ⟨h0, h⟩) (.pure _)
theorem safe_diff32 (h0 : 0 ≤ v) (h : v < 2 ^ 32) : Safe x (Mem.diff32 v) :=
  .bind (.event ⟨h0, h⟩) (.pure _)

theorem safe_read8 (h : off + 1 ≤ x.readable r) : Safe x (Mem.read8 r b off) :=
  .bind (safe_read h) (.pure _)

theorem safe_read16 (h : off + 2 ≤ x.readable r) : Safe x (Mem.read16 r b off) :=
  .bind (safe_read h) (.pure _)

theorem safe_read32 (h : off + 4 ≤ x.readable r) : Safe x (Mem.read32 r b off) :=
  .bind (safe_read h) (.pure _)

theorem safe_bytes (h : off + len ≤ x.readable r) : Safe x (Mem.bytes r b off len) :=
  .bind (safe_read h) (.pure _)

theorem safe_store (h : off + src.length ≤ x.writable r) : Safe x (Mem.store r b off src) :=
  .bind (safe_write h) (.pure _)

end

/-! ## Names -/

section
variable {x : Extents}

/-- The search passes over at most `kMaxNames` entries, by induction on those that are left. -/
theorem lookupLoop_safe (h : UInt32) (es : List NameEntry)
    (hes : ∀ e ∈ es, e.nameSize ≤ kMaxNameSize) :
    ∀ i, i + es.length ≤ kMaxNames → Safe x (NameTable.lookupLoop h kMaxNameSize i es) := by
  induction es with
  | nil => intro i _; exact .pure _
  | cons e es ih =>
    intro i hi
    have he := hes e List.mem_cons_self
    rw [List.length_cons] at hi
    refine .bind (safe_read (by simp only [Extents.readable]; omega))
      (.ite (fun _ => ?_) fun _ => ?_)
    · exact .ite (fun _ => .pure _) fun _ =>
        .bind (safe_read (by simpa [Extents.readable] using he))
          (.bind (safe_write (by simpa [Extents.writable, Extents.readable] using he)) (.pure _))
    · exact ih (fun e' hm => hes e' (List.mem_cons_of_mem _ hm)) (i + 1) (by omega)

/-- The Name of a handle is four bytes that are written here, or copied from the table. -/
theorem handleName_safe {t : NameTable} (ht : BoundedNames t) (h : UInt32) :
    Safe x (handleName t h kMaxNameSize) := by
  have hraw : Safe x (if kMaxNameSize < 4 then return [] else do
      Mem.write .nameOut 0 4
      return write32 h) :=
    .ite (fun _ => .pure _) fun _ =>
      .bind (safe_write (by simp [Extents.writable, Extents.readable, kMaxNameSize])) (.pure _)
  refine .ite (fun _ => ?_) fun _ => .ite (fun _ => hraw) fun _ =>
    .ite (fun _ => hraw) fun _ => .pure _
  exact lookupLoop_safe h t.entries ht.2 0
    (by have := ht.1; simp only [NameTable.count] at this; omega)

/-- No Name is longer than the caller's array for it. -/
theorem length_handleName_le (t : NameTable) (h : UInt32) :
    (handleName t h kMaxNameSize).val.length ≤ kMaxNameSize := by
  have hlookup : ∀ (es : List NameEntry), ∀ i,
      (NameTable.lookupLoop h kMaxNameSize i es).val.length ≤ kMaxNameSize := by
    intro es
    induction es with
    | nil => intro i; simp [NameTable.lookupLoop]
    | cons e es ih =>
      intro i
      rw [NameTable.val_lookupLoop_cons]
      split
      · split
        · simp
        · rw [Fixed.length_first (by omega)]
          omega
      · exact ih (i + 1)
  simp only [handleName, val_ite, val_bind, val_pure]
  repeat' split
  all_goals first
    | exact hlookup _ _
    | simp [kMaxNameSize]

/-- The search for an entry to overwrite stays in the table, and the copy in the array of that
entry. -/
theorem addLoop_safe (r : Region) (src : Bytes) (off n : Nat) (h : UInt32)
    (hn : n ≤ kMaxNameSize) (hsrc : off + n ≤ x.readable r) (es : List NameEntry) :
    ∀ i, i + es.length ≤ kMaxNames → Safe x (NameTable.addLoop r src off n h i es) := by
  induction es with
  | nil => intro i _; exact .pure _
  | cons e es ih =>
    intro i hi
    rw [List.length_cons] at hi
    refine .bind (safe_read (by simp only [Extents.readable]; omega))
      (.ite (fun _ => ?_) fun _ => ?_)
    · exact .bind (safe_bytes hsrc) (.bind (safe_write
        (by simpa [Extents.writable, Extents.readable] using hn)) (.pure _))
    · exact .bind (ih (i + 1) (by omega)) (.pure _)

theorem add_safe {t : NameTable} (ht : BoundedNames t) (h : UInt32) {r : Region} (src : Bytes)
    {off n : Nat} (hsrc : off + n ≤ x.readable r) : Safe x (t.add h r src off n) := by
  have hmin : (if n > kMaxNameSize then kMaxNameSize else n) = min n kMaxNameSize := by
    split <;> omega
  have hcount := ht.1
  simp only [NameTable.count] at hcount
  simp only [NameTable.add, hmin]
  refine .bind (addLoop_safe r src off _ h (by omega) (by omega) t.entries 0 (by omega)) ?_
  cases (NameTable.addLoop r src off (min n kMaxNameSize) h 0 t.entries).val with
  | some entries => exact .pure _
  | none =>
    refine .ite (fun hlt => ?_) fun _ => .pure _
    refine .bind (safe_write (by simp only [Extents.writable, Extents.readable]; omega))
      (.bind (safe_bytes (by omega)) (.bind (safe_write ?_) (.pure _)))
    simp only [Extents.writable, Extents.readable]
    omega

end

/-! ## The command side -/

section
variable {x : Extents}

/-- The size is read only when there are two bytes for it before the end. -/
theorem skipTPM2B_safe {r : Region} (buf : Bytes) {off e : Nat} (he : e ≤ x.readable r)
    (hoff : off < 2 ^ 33) : Safe x (skipTPM2B r buf off e) := by
  have hsz := (Tpm.read16 buf off).toNat_lt
  refine .bind (safe_sum (by omega)) (.ite (fun _ => .pure _) fun hle => ?_)
  simp only [Mem.val_sum] at hle
  refine .bind (safe_read16 (by omega)) (.bind (safe_sum ?_) (.pure _))
  simp only [Mem.val_read16]
  omega

theorem skipTPM2B_le (r : Region) (buf : Bytes) (off e : Nat) :
    (skipTPM2B r buf off e).val ≤ e := by
  simp only [skipTPM2B, val_bind, val_ite, val_pure]
  repeat' split
  all_goals omega

/-- Each field of a StartAuthSession is read behind a check for it; nonceCaller and the salt are
skipped by their own sizes. -/
theorem captureStartAuthSessionCommand_safe (st : SessionState) (buf : Bytes) {size : Nat}
    (hsize : size = x.commandSize) (hlt : size < 2 ^ 32) :
    Safe x (captureStartAuthSessionCommand st buf size) := by
  subst hsize
  have hrd : x.readable .command = x.commandSize := rfl
  refine .ite (fun _ => .pure _) fun h27 => ?_
  refine .bind (safe_read32 (by omega)) (.bind (safe_read32 (by omega)) ?_)
  refine .bind (skipTPM2B_safe buf (by omega) (by omega)) (.ite (fun _ => .pure _) fun h1 => ?_)
  have hle1 := skipTPM2B_le .command buf 18 x.commandSize
  refine .bind (skipTPM2B_safe buf (by omega) (by omega)) (.ite (fun _ => .pure _) fun h2 => ?_)
  -- the salt was skipped, so its size field lies inside the command
  have hsalt : (skipTPM2B .command buf 18 x.commandSize).val + 2 ≤ x.commandSize := by
    by_contra hgt
    apply h2
    simp only [skipTPM2B, val_bind, val_ite, val_pure, Mem.val_sum]
    exact if_pos (by simpa [skipTPM2B] using hgt)
  have hle2 := skipTPM2B_le .command buf (skipTPM2B .command buf 18 x.commandSize).val x.commandSize
  refine .bind (safe_sum (by omega)) (.ite (fun _ => .pure _) fun h3 => ?_)
  simp only [Mem.val_sum] at h3
  refine .bind (safe_read8 (by omega)) (.bind (safe_diff (by omega) (by omega)) ?_)
  refine .bind (safe_read16 (by simp only [Mem.val_diff]; omega)) ?_
  exact .bind (safe_read16 (by omega)) (.pure _)

/-- authorizationSize is read behind the handles, and the area it counts lies in the command. -/
theorem findAuthArea_safe (buf : Bytes) {size : Nat} {attr : CommandAttrEntry}
    (hsize : size = x.commandSize) (hlt : size < 2 ^ 32) (hattr : attr.handleCount ≤ 2) :
    Safe x (findAuthArea buf size attr) := by
  subst hsize
  have hrd : x.readable .command = x.commandSize := rfl
  have hauth := (Tpm.read32 buf (10 + 4 * attr.handleCount)).toNat_lt
  refine .bind (safe_sum (by omega)) (.bind (safe_sum (by simp only [Mem.val_sum]; omega)) ?_)
  refine .ite (fun _ => .pure _) fun h => ?_
  simp only [Mem.val_sum] at h
  refine .bind (safe_read32 (by simp only [Mem.val_sum]; omega)) (.bind (safe_sum ?_) ?_)
  · simp only [Mem.val_sum, Mem.val_read32]
    omega
  · exact .ite (fun _ => .pure _) fun _ => .pure _

/-- Both sizes of the first entry are read inside the area. -/
theorem parseAuthEntry_safe (handle : UInt32) (buf : Bytes) {area : AuthArea}
    (hend : area.authOff + area.authSize ≤ x.commandSize) (hlt : x.commandSize < 2 ^ 32) :
    Safe x (parseAuthEntry handle buf area) := by
  have hrd : x.readable .command = x.commandSize := rfl
  have hn := (Tpm.read16 buf (area.authOff + 4)).toNat_lt
  refine .bind (safe_sum (by omega)) (.bind (safe_sum (by omega))
    (.ite (fun _ => .pure _) fun h1 => ?_))
  simp only [Mem.val_sum] at h1
  refine .bind (safe_read32 (by omega)) (.ite (fun _ => .pure _) fun _ => ?_)
  refine .bind (safe_sum (by simp only [Mem.val_sum]; omega)) (.ite (fun _ => .pure _) fun h2 => ?_)
  simp only [Mem.val_sum] at h2
  refine .bind (safe_read16 (by simp only [Mem.val_sum]; omega)) ?_
  simp only [Mem.val_sum, Mem.val_read16]
  refine .bind (safe_sum (by omega)) (.bind (safe_sum (by simp only [Mem.val_sum]; omega)) ?_)
  simp only [Mem.val_sum]
  have hh := (Tpm.read16 buf (area.authOff + 4 + (2 +
    (Tpm.read16 buf (area.authOff + 4)).toNat) + 1)).toNat_lt
  refine .ite (fun _ => .pure _) fun h3 => ?_
  refine .bind (safe_read8 (by omega))
    (.bind (safe_sum (by omega)) (.ite (fun _ => .pure _) fun h4 => ?_))
  simp only [Mem.val_sum] at h4
  refine .bind (safe_read16 (by omega)) (.bind (safe_sum ?_) ?_)
  · simp only [Mem.val_read16]
    omega
  · exact .ite (fun _ => .pure _) fun _ => .pure _

/-- The handles lie in the command, by induction on those that are left. -/
theorem hashHandleNames_safe {t : NameTable} (ht : BoundedNames t) (buf : Bytes) :
    ∀ n i ctx, 10 + 4 * (i + n) ≤ x.commandSize → Safe x (hashHandleNames t buf n i ctx) := by
  intro n
  induction n with
  | zero => intro i ctx _; exact .pure _
  | succ n ih =>
    intro i ctx hi
    have hrd : x.readable .command = x.commandSize := rfl
    refine .bind (safe_read32 (by omega)) (.bind (handleName_safe ht _) ?_)
    refine .ite (fun _ => .pure _) fun _ => .bind (safe_read ?_) (ih (i + 1) _ (by omega))
    have := length_handleName_le t (Tpm.read32 buf (10 + 4 * i))
    simp only [Mem.val_read32, Extents.readable]
    omega

theorem computeCpHash_safe {t : NameTable} (ht : BoundedNames t) (buf : Bytes) (code : UInt32)
    {handleCount cpOff cpSize : Nat} (hh : 10 + 4 * handleCount ≤ x.commandSize)
    (hcp : cpOff + cpSize ≤ x.commandSize) :
    Safe x (computeCpHash C t buf code handleCount cpOff cpSize) := by
  refine .bind (hashHandleNames_safe ht buf handleCount 0 _ (by omega)) ?_
  cases (hashHandleNames t buf handleCount 0 (write32 code)).val with
  | none => exact .pure _
  | some ctx => exact .ite (fun _ => .bind (safe_bytes hcp) (.pure _)) fun _ => .pure _

/-- The HMAC input is the digest, the two nonces and the attributes, which its array has room
for. -/
theorem computeHmac_safe {cpHash : Bytes} {nonceTpm key : Fixed SESSION_AUTH_MAX_DIGEST}
    {nonceTpmSize keySize : Nat} (attrs : UInt8) (hn : nonceTpmSize ≤ SESSION_AUTH_MAX_DIGEST)
    (hk : keySize ≤ SESSION_AUTH_MAX_DIGEST) :
    Safe x (computeHmac C cpHash nonceCaller nonceTpm nonceTpmSize attrs key keySize) := by
  have hcaller : nonceCaller.length = 16 := rfl
  simp only [computeHmac, hcaller]
  have hw : ∀ off len, off + len ≤ 113 → Safe x (Mem.write .hmacMsg off len) := by
    intro off len h
    exact safe_write (by
      simpa [Extents.writable, Extents.readable, kNonceCallerSize, SESSION_AUTH_MAX_DIGEST] using h)
  have hr : ∀ len, len ≤ 113 → Safe x (Mem.read .hmacMsg 0 len) := by
    intro len h
    exact safe_read (by simpa [Extents.readable, kNonceCallerSize, SESSION_AUTH_MAX_DIGEST] using h)
  simp only [SESSION_AUTH_MAX_DIGEST] at hn hk
  refine .bind (hw _ _ (by omega)) (.bind (hw _ _ (by omega)) ?_)
  refine .bind (safe_read (by simpa [Extents.readable, SESSION_AUTH_MAX_DIGEST] using hn)) ?_
  refine .bind (hw _ _ (by omega)) (.bind (hw _ _ (by omega)) (.ite (fun _ => ?_) fun _ => ?_))
  · refine .bind (safe_read (by simpa [Extents.readable, SESSION_AUTH_MAX_DIGEST] using hk)) ?_
    refine .bind (safe_write (by
      simpa [Extents.writable, Extents.readable, SESSION_AUTH_MAX_DIGEST] using hk)) ?_
    refine .bind (safe_read (by simpa [Extents.readable, SESSION_AUTH_MAX_DIGEST] using hk)) ?_
    exact .bind (hr _ (by omega)) (.pure _)
  · exact .bind (hr _ (by omega)) (.pure _)

theorem length_computeHmac {cpHash nonceCaller : Bytes}
    {nonceTpm key : Fixed SESSION_AUTH_MAX_DIGEST} {nonceTpmSize keySize : Nat} {attrs : UInt8} :
    (computeHmac C cpHash nonceCaller nonceTpm nonceTpmSize attrs key keySize).val.length = 32 := by
  simp only [computeHmac, val_bind, val_ite, val_pure]
  split <;> exact C.length_hmacSha256 _ _

theorem shiftCpBuffer_safe (buf : Bytes) {cpOff cpSize newCpOff : Nat}
    (hrd : cpOff + cpSize ≤ x.commandSize) (hwr : newCpOff + cpSize ≤ x.bufCapacity) :
    Safe x (shiftCpBuffer buf cpOff cpSize newCpOff) := by
  refine .ite (fun _ => .bind (safe_bytes hrd) (safe_store ?_)) fun _ => .pure _
  have hlen : (slice buf cpOff cpSize).length ≤ cpSize := List.length_take_le _ _
  have hw : x.writable .command = x.bufCapacity := rfl
  simp only [Mem.val_bytes]
  omega

/-- Zeros are written up to the parameters, which start within the capacity. -/
theorem padZero_safe (buf : Bytes) {w newCpOff : Nat} (hwr : newCpOff ≤ x.bufCapacity) :
    Safe x (padZero buf w newCpOff) := by
  refine .ite (fun _ => .pure _) fun h => safe_store ?_
  have hw : x.writable .command = x.bufCapacity := rfl
  rw [List.length_replicate]
  omega

/-- The new entry, the moved parameters and the two sizes are written inside the capacity, with
which the new size is compared first. -/
theorem patchAuthArea_safe (buf : Bytes) {cap : Nat} {area : AuthArea} {entry : AuthEntryFields}
    {hmacOut : Bytes} (hsize : x.commandSize < 2 ^ 32) (hwr : x.bufCapacity = cap)
    (hoff : 10 ≤ area.authSizeOff) (hauth : area.authOff = area.authSizeOff + 4)
    (hend : area.authOff + area.authSize ≤ x.commandSize)
    (hnonce : entry.nonceOff = area.authOff + 4)
    (hentry : entry.nonceOff + (2 + entry.origNonceSize) + 1 + (2 + entry.origHmacSize) =
      area.authOff + area.authSize)
    (hmac : hmacOut.length = 32) :
    Safe x (patchAuthArea buf cap x.commandSize area entry nonceCaller hmacOut) := by
  have hcaller : nonceCaller.length = 16 := rfl
  have hrd : x.readable .command = x.commandSize := rfl
  have hw : x.writable .command = x.bufCapacity := rfl
  simp only [patchAuthArea, hcaller]
  refine .bind (safe_sum (by omega)) (.bind (safe_diff (by simp only [Mem.val_sum]; omega)
    (by simp only [Mem.val_sum]; omega)) ?_)
  refine .bind (safe_sum (by omega)) (.bind (safe_sum (by omega)) (.bind (safe_sum (by omega))
    (.bind (safe_sum (by omega)) ?_)))
  simp only [Mem.val_sum, Mem.val_diff]
  refine .bind (safe_diff (by omega) (by omega)) (.ite (fun _ => .pure _) fun hfit => ?_)
  simp only [Mem.val_diff] at hfit
  refine .bind (safe_diff (by omega) (by omega)) (.bind (shiftCpBuffer_safe buf (by omega)
    (by simp only [Mem.val_diff]; omega)) ?_)
  -- the new auth area ends where cpBuffer begins, inside the capacity
  have hnew : entry.nonceOff + 53 ≤ x.bufCapacity := by omega
  refine .bind (safe_store (by simp only [length_write16]; omega)) ?_
  refine .bind (safe_store (by omega)) (.bind (safe_store (by simp; omega)) ?_)
  refine .bind (safe_store (by simp only [length_write16]; omega))
    (.bind (safe_store (by omega)) ?_)
  refine .bind (padZero_safe _ (by simp only [Mem.val_diff]; omega)) ?_
  refine .bind (safe_diff32 (by omega) (by omega)) ?_
  exact .bind (safe_store (by simp only [length_write32]; omega))
    (.bind (safe_store (by simp only [length_write32]; omega)) (.pure _))

theorem patchSessionCommand_safe {st : SessionState} (h : Bounded st) (buf : Bytes) {cap : Nat}
    (code : UInt32) (hsize : x.commandSize < 2 ^ 32) (hwr : x.bufCapacity = cap) :
    Safe x (patchSessionCommand C st buf x.commandSize cap code) := by
  unfold patchSessionCommand
  cases ha : lookupCommandAttr code with
  | none => exact .pure _
  | some attr =>
    have hattr := (lookupCommandAttr_bounds ha).1
    refine .bind (findAuthArea_safe buf rfl hsize hattr) ?_
    cases hf : (findAuthArea buf x.commandSize attr).val with
    | none => exact .pure _
    | some area =>
      obtain ⟨rfl, hend⟩ := findAuthArea_eq_some hf
      refine .bind (parseAuthEntry_safe st.handle buf hend hsize) ?_
      cases hp : (parseAuthEntry st.handle buf ⟨10 + 4 * attr.handleCount,
          10 + 4 * attr.handleCount + 4, (Tpm.read32 buf (10 + 4 * attr.handleCount)).toNat⟩).val
          with
      | none => exact .pure _
      | some entry =>
        obtain ⟨-, hnonce, hentry, -, -⟩ := parseAuthEntry_eq_some hp
        simp only at hend hnonce hentry
        refine .bind (safe_sum (by simp only; omega)) (.bind (safe_diff
          (by simp only [Mem.val_sum]; omega) (by simp only [Mem.val_sum]; omega)) ?_)
        refine .bind (computeCpHash_safe C h.names buf code (by omega)
          (by simp only [Mem.val_sum, Mem.val_diff]; omega)) ?_
        split
        · exact .pure _
        · next cpHash =>
          exact .bind (computeHmac_safe C _ h.nonceTpmSize_le h.sessionKeySize_le)
            (patchAuthArea_safe buf hsize hwr (by simp only; omega) rfl hend hnonce hentry
              (length_computeHmac C))

/-- The header is read when there are ten bytes for it. -/
theorem sessionAuthPatchCommand_safe {st : SessionState} (h : Bounded st) (buf : Option Bytes)
    {cap : Nat} (hwr : x.bufCapacity = cap) :
    Safe x (sessionAuthPatchCommand C st buf x.commandSize cap) := by
  have hrd : x.readable .command = x.commandSize := rfl
  cases buf with
  | none => exact .pure _
  | some b =>
    refine .ite (fun _ => .pure _) fun h10 => ?_
    refine .bind (safe_read16 (by omega)) (.bind (safe_read32 (by omega)) ?_)
    refine .ite (fun _ => .pure _) fun hh => ?_
    have hlt : x.commandSize < 2 ^ 32 := by
      rw [← not_not.mp hh]
      exact UInt32.toNat_lt _
    refine .bind (safe_read32 (by omega)) (.ite (fun _ => ?_) fun _ => ?_)
    · exact .bind (captureStartAuthSessionCommand_safe _ b rfl hlt) (.pure _)
    · refine .ite (fun _ => .pure _) fun _ => .ite (fun _ => .pure _) fun _ => ?_
      exact .bind (patchSessionCommand_safe C ⟨h.1, h.2, h.3, h.4⟩ b _ hlt hwr) (.pure _)

end

/-! ## The response side -/

section
variable {x : Extents}

theorem copyIn_safe {src dst : Region} (ptr : Option Bytes) {off size : Nat}
    (arr : Fixed SESSION_AUTH_MAX_DIGEST) (hsrc : ∀ b, ptr = some b → off + size ≤ x.readable src)
    (hdst : size ≤ x.writable dst) : Safe x (copyIn src ptr off size dst arr) := by
  cases ptr with
  | none => exact .pure _
  | some b =>
    exact .ite (fun _ => .bind (safe_bytes (hsrc b rfl)) (.bind (safe_write (by omega)) (.pure _)))
      fun _ => .pure _

/-- The nonce and the key are copied as far as the arrays of the state go. -/
theorem sessionAuthInit_safe (h : UInt32) {r : Region} (nonce : Option Bytes) {off n : Nat}
    (key : Option Bytes) {k : Nat} (alg : UInt16)
    (hn : ∀ b, nonce = some b → off + n ≤ x.readable r) (hk : ∀ b, key = some b → k ≤ x.keySize) :
    Safe x (sessionAuthInit h r nonce off n key k alg) := by
  refine .bind (copyIn_safe nonce _ (fun b hb => ?_) ?_)
    (.bind (copyIn_safe key _ (fun b hb => ?_) ?_)
      (.pure _))
  · have := hn b hb
    split <;> omega
  · simp only [Extents.writable, Extents.readable]
    split <;> omega
  · have := hk b hb
    simp only [Extents.readable]
    split <;> omega
  · simp only [Extents.writable, Extents.readable]
    split <;> omega

theorem extractName_safe {t : NameTable} (ht : BoundedNames t) (buf : Bytes) {p e : Nat}
    (h : UInt32) (he : e ≤ x.responseSize) (hlt : x.responseSize < 2 ^ 32) (hp : p < 2 ^ 33) :
    Safe x (extractLoadName t buf p e h) := by
  have hrd : x.readable .response = x.responseSize := rfl
  have hsz := (Tpm.read16 buf p).toNat_lt
  refine .bind (safe_sum (by omega)) (.ite (fun _ => .pure _) fun h1 => ?_)
  simp only [Mem.val_sum] at h1
  refine .bind (safe_read16 (by omega)) (.bind (safe_sum (by simp only [Mem.val_read16]; omega)) ?_)
  refine .ite (fun _ => .pure _) fun h2 => ?_
  simp only [Mem.val_sum, Mem.val_read16] at h2
  exact add_safe ht h buf (by simp only [Mem.val_sum, Mem.val_read16]; omega)

/-- The Name of a CreatePrimary stands behind five fields, each skipped by its own size. -/
theorem extractCreatePrimaryName_safe {t : NameTable} (ht : BoundedNames t) (buf : Bytes)
    {p e : Nat} (h : UInt32) (he : e ≤ x.responseSize) (hlt : x.responseSize < 2 ^ 32)
    (hp : p < 2 ^ 33) :
    Safe x (extractCreatePrimaryName t buf p e h) := by
  have hrd : x.readable .response = x.responseSize := rfl
  have skip : ∀ q, q < 2 ^ 33 → Safe x (skipTPM2B .response buf q e) := fun q hq =>
    skipTPM2B_safe buf (by omega) hq
  have le : ∀ q, (skipTPM2B .response buf q e).val ≤ e := (skipTPM2B_le .response buf · e)
  have lt : ∀ q, (skipTPM2B .response buf q e).val < 2 ^ 33 := fun q => by have := le q; omega
  refine .bind (skip _ hp) (.ite (fun _ => .pure _) fun _ => ?_)
  refine .bind (skip _ (lt _)) (.ite (fun _ => .pure _) fun _ => ?_)
  refine .bind (skip _ (lt _)) (.ite (fun _ => .pure _) fun _ => ?_)
  have hle := le (skipTPM2B .response buf (skipTPM2B .response buf p e).val e).val
  refine .bind (safe_sum (by omega)) (.ite (fun _ => .pure _) fun h1 => ?_)
  simp only [Mem.val_sum] at h1 ⊢
  refine .bind (skip _ (by omega)) (.ite (fun _ => .pure _) fun _ => ?_)
  exact extractName_safe ht buf h he hlt (lt _)

/-- Only the responses to CreatePrimary and to Load are searched. -/
theorem populateNameFromResponse_safe {t : NameTable} (ht : BoundedNames t) (cc : UInt32)
    (buf : Bytes) {p e : Nat} (h : UInt32) (he : e ≤ x.responseSize) (hlt : x.responseSize < 2 ^ 32)
    (hp : p < 2 ^ 33) : Safe x (populateNameFromResponse t cc buf p e h) :=
  .ite (fun _ => extractCreatePrimaryName_safe ht buf h he hlt hp) fun _ =>
    .ite (fun _ => extractName_safe ht buf h he hlt hp) fun _ => .pure _

theorem processStartResponse_safe (st : SessionState) (buf : Bytes) (tag : UInt16) (rc : UInt32)
    (hlt : x.responseSize < 2 ^ 32) :
    Safe x (processStartResponse st buf x.responseSize tag rc) := by
  have hrd : x.readable .response = x.responseSize := rfl
  have hsz := (Tpm.read16 buf 14).toNat_lt
  have hargs : Safe x (pendingArmArgs st buf x.responseSize tag rc) := by
    refine .ite (fun _ => .pure _) fun _ => .ite (fun _ => .pure _) fun h16 => ?_
    refine .bind (safe_read32 (by omega)) (.bind (safe_read16 (by omega)) (.bind (safe_sum ?_) ?_))
    · simp only [Mem.val_read16]
      omega
    · exact .ite (fun _ => .pure _) fun _ => .pure _
  refine .bind hargs ?_
  cases ha : (pendingArmArgs st buf x.responseSize tag rc).val with
  | none => exact .pure _
  | some a =>
    obtain ⟨-, -, -, -, hend⟩ := pendingArmArgs_eq_some st ha
    exact sessionAuthInit_safe a.handle (some buf) none a.authHash (fun _ _ => hend)
      fun b hb => by cases hb

/-- The parameters are skipped by their size, and the auth area behind them is found inside the
response. -/
theorem findResponseFields_safe (buf : Bytes) {attr : CommandAttrEntry}
    (hlt : x.responseSize < 2 ^ 32) (hattr : attr.outHandleCount ≤ 1) :
    Safe x (findResponseFields buf x.responseSize attr) := by
  have hrd : x.readable .response = x.responseSize := rfl
  have hps := (Tpm.read32 buf (10 + 4 * attr.outHandleCount)).toNat_lt
  have hns := (Tpm.read16 buf (10 + 4 * attr.outHandleCount + 4 +
    (Tpm.read32 buf (10 + 4 * attr.outHandleCount)).toNat)).toNat_lt
  refine .bind (safe_sum (by omega)) (.bind (safe_sum (by simp only [Mem.val_sum]; omega)) ?_)
  refine .ite (fun _ => .pure _) fun h1 => ?_
  simp only [Mem.val_sum] at h1 ⊢
  refine .bind (safe_read32 (by omega)) (.bind (safe_sum (by simp only [Mem.val_read32]; omega)) ?_)
  refine .ite (fun _ => .pure _) fun h2 => ?_
  simp only [Mem.val_sum, Mem.val_read32] at h2 ⊢
  refine .bind (safe_sum (by omega)) (.ite (fun _ => .pure _) fun h3 => ?_)
  simp only [Mem.val_sum] at h3 ⊢
  refine .bind (safe_read16 (by omega)) (.bind (safe_sum (by simp only [Mem.val_read16]; omega)) ?_)
  exact .ite (fun _ => .pure _) fun _ => .pure _

theorem refreshNonce_safe (st : SessionState) (buf : Bytes) {off n : Nat}
    (h : off + n ≤ x.responseSize) : Safe x (refreshNonce st buf off n) := by
  refine .ite (fun hn => ?_) fun _ => .pure _
  refine .bind (safe_bytes h) (.bind (safe_write ?_) (.pure _))
  simpa [Extents.writable, Extents.readable] using hn.2

theorem processSessionResponse_safe {st : SessionState} (h : Bounded st) (buf : Bytes)
    (hlt : x.responseSize < 2 ^ 32) : Safe x (processSessionResponse st buf x.responseSize) := by
  have hrd : x.readable .response = x.responseSize := rfl
  unfold processSessionResponse
  cases ha : lookupCommandAttr st.lastCommandCode with
  | none => exact .pure _
  | some attr =>
    refine .bind (findResponseFields_safe buf hlt (lookupCommandAttr_bounds ha).2) ?_
    cases hf : (findResponseFields buf x.responseSize attr).val with
    | none => exact .pure _
    | some f =>
      obtain ⟨hp, hauth, -, hend⟩ := findResponseFields_eq_some hf
      have hattr := (lookupCommandAttr_bounds ha).2
      refine .bind (refreshNonce_safe st buf hend) (.ite (fun _ => .pure _) fun _ => ?_)
      refine .bind (safe_read32 (by omega)) (.bind ?_ (.pure _))
      exact populateNameFromResponse_safe (refreshNonce_bounded h buf _ _).names
        _ buf _ (by omega) hlt
        (by omega)

/-- The header is read when there are ten bytes for it. -/
theorem sessionAuthProcessResponse_safe {st : SessionState} (h : Bounded st) (buf : Option Bytes) :
    Safe x (sessionAuthProcessResponse st buf x.responseSize) := by
  have hrd : x.readable .response = x.responseSize := rfl
  cases buf with
  | none => exact .pure _
  | some b =>
    refine .ite (fun _ => .pure _) fun h10 => ?_
    refine .bind (safe_read16 (by omega)) (.bind (safe_read32 (by omega))
      (.bind (safe_read32 (by omega)) (.ite (fun _ => .pure _) fun hh => ?_)))
    have hlt : x.responseSize < 2 ^ 32 := by
      rw [← not_not.mp hh]
      exact UInt32.toNat_lt _
    refine .ite (fun _ => processStartResponse_safe st b _ _ hlt) fun _ => .ite (fun _ => .pure _)
      fun _ => .ite (fun _ => .pure _) fun _ => processSessionResponse_safe h b hlt

end

/-! ## Every run -/

/-- The extents a call's own size arguments promise. -/
def Call.extents : Call → Extents
  | .initialise _ _ nonceSize _ keySize _ => ⟨0, 0, 0, nonceSize, keySize⟩
  | .reset => ⟨0, 0, 0, 0, 0⟩
  | .patchCommand _ size cap => ⟨size, cap, 0, 0, 0⟩
  | .processResponse _ size => ⟨0, 0, size, 0, 0⟩

/-- **Step.**  A call in a bounded state accesses what its own size arguments promise, and no
more. -/
theorem call_safe {st : SessionState} (h : Bounded st) (c : Call) :
    Safe c.extents (call C st c) := by
  cases c with
  | initialise handle nonce nonceSize key keySize alg =>
    exact sessionAuthInit_safe handle nonce key alg
      (fun _ _ => Nat.le_of_eq (Nat.zero_add nonceSize)) fun _ _ => Nat.le_refl keySize
  | reset => exact .pure _
  | patchCommand buf size cap =>
    exact .bind (sessionAuthPatchCommand_safe C (x := ⟨size, cap, 0, 0, 0⟩) h buf rfl) (.pure _)
  | processResponse buf size =>
    exact sessionAuthProcessResponse_safe (x := ⟨0, 0, size, 0, 0⟩) h buf

/-- After any sequence of calls the sizes kept in the state fit its arrays, and whatever call comes
next reads and writes inside the buffers it was given and the arrays of the layer only. -/
theorem run_bounded_safe (cs : List Call) (c : Call) :
    let st := run (stepCall C) SessionState.zero cs
    Bounded st ∧ Safe c.extents (call C st c) := by
  intro st
  have hst : Bounded st := Reachable.bounded C ⟨cs, rfl⟩
  exact ⟨hst, call_safe C hst c⟩

end Session
