import Mathlib.Data.List.Dedup
import Mathlib.Data.List.Perm.Subperm
import TpmFuzzer.Session.Sessions

/-!
# Object Names over a run

`latest nameNote ts h` is the last Name, of 1 to 68 bytes, that a successful CreatePrimary or Load
gave the object handle `h`.  While the layer is armed before objects are named and not armed again
after (`KeepsNames`), and at most `kMaxNames` handles are named, `HandleName` answers with it:

    latest nameNote ts h = some n  →  HandleName(h) = n                        (run_handleName)

`namedBeforeStart` is a run in which the Name is lost.
-/

namespace Session

open Bytes Tpm Traced Runs

variable (C : Crypto)

/-! ## Names in exchanges -/

/-- A transient or persistent object. -/
def IsObject (h : UInt32) : Prop := (h >>> 24).toUInt8 = 0x80 ∨ (h >>> 24).toUInt8 = 0x81

instance (h : UInt32) : Decidable (IsObject h) := inferInstanceAs (Decidable (_ ∨ _))

theorem val_handleName {h : UInt32} (hh : IsObject h) (names : NameTable) :
    (handleName names h kMaxNameSize).val = names.nameOf h := by
  have hh' : (h >>> 24).toUInt8 = 0x80 ∨ (h >>> 24).toUInt8 = 0x81 := hh
  simp only [handleName]
  rw [if_pos hh']
  rfl

/-- A Name the table can hold. -/
def NameFits (n : TPM2B) : Prop := 1 ≤ n.size ∧ n.size ≤ kMaxNameSize

instance (n : TPM2B) : Decidable (NameFits n) := inferInstanceAs (Decidable (_ ∧ _))

/-- The handle and Name in the response to a successful session-tagged CreatePrimary or Load. -/
def Turn.object? (t : Turn) : Option (UInt32 × TPM2B) :=
  match t.exchange with
  | .executed _ r => r.object?
  | _ => none

def nameNote (t : Turn) (h : UInt32) : Option Bytes :=
  match t.object? with
  | some (h', n) => if h' = h ∧ NameFits n then some n.bytes else none
  | none => none

/-- The handles that are named in a run. -/
def namedHandles (ts : List Turn) : List UInt32 := ts.filterMap fun t => t.object?.map Prod.fst

/-- The steps over which no Name is lost: a start to arm on comes before any object is named, an
object is named while the layer is armed, and a Name the table cannot hold comes for no other
Name. -/
def KeepsNames (st : SessionState) (t : Turn) : Prop :=
  (∀ s r, t.exchange = .started s r → s.Armable → ∀ h, IsObject h → st.names.nameOf h = []) ∧
  ∀ h n, t.object? = some (h, n) → IsObject h →
    if NameFits n then st.initialized = true
    else st.names.nameOf h = [] ∨ st.names.nameOf h = n.bytes.take kMaxNameSize

/-! ## Recording a Name -/

section
variable {names names' : NameTable} {h : UInt32} {n : TPM2B} (hrec : RecordsName names h n names')

include hrec

theorem RecordsName.nameOf_of_ne {h' : UInt32} (hne : h' ≠ h) :
    names'.nameOf h' = names.nameOf h' := by
  obtain ⟨src, off, hlen, -, rfl⟩ := hrec
  exact NameTable.nameOf_add_of_ne names h _ src off n.size hne (by omega)

theorem RecordsName.nameOf_self (hroom : h ∈ names.handles ∨ names.count < kMaxNames) :
    names'.nameOf h = n.bytes.take kMaxNameSize := by
  obtain ⟨src, off, hlen, hslice, rfl⟩ := hrec
  rw [NameTable.nameOf_add_self names h _ src off n.size hroom (by omega), ← hslice, slice, slice,
    List.take_take, Nat.min_comm]

theorem RecordsName.handles_eq (hroom : h ∈ names.handles ∨ names.count < kMaxNames) :
    names'.handles = if h ∈ names.handles then names.handles else names.handles ++ [h] := by
  obtain ⟨src, off, -, -, rfl⟩ := hrec
  by_cases hm : h ∈ names.handles
  · rw [if_pos hm, NameTable.handles_add_of_mem _ _ _ _ _ _ hm]
  · rw [if_neg hm, NameTable.handles_add_of_not_mem _ _ _ _ _ _ hm, if_pos (hroom.resolve_left hm)]

end

/-! ## The invariant -/

/-- The table of a run: it lists each named handle once, and has the last Name of every object. -/
structure HoldsNames (ts : List Turn) (st : SessionState) : Prop where
  pending_eq : st.pendingStartAuthSession = false
  empty : st.initialized = false → st.names = ⟨[]⟩
  nodup : st.names.handles.Nodup
  named : ∀ h ∈ st.names.handles, h ∈ namedHandles ts
  nameOf_eq : ∀ h n, IsObject h → latest nameNote ts h = some n → st.names.nameOf h = n

theorem mem_namedHandles_snoc {ts : List Turn} {t : Turn} {h : UInt32} :
    h ∈ namedHandles (ts ++ [t]) ↔ h ∈ namedHandles ts ∨ ∃ n, t.object? = some (h, n) := by
  simp only [namedHandles, List.filterMap_append, List.mem_append]
  refine or_congr Iff.rfl ?_
  cases ho : t.object? with
  | none => simp [ho]
  | some p =>
    obtain ⟨h', n⟩ := p
    simp [ho, eq_comm]

/-- A recorded Name is not empty. -/
theorem latest_nameNote_ne_nil {ts : List Turn} {h : UInt32} {n : Bytes}
    (hn : latest nameNote ts h = some n) : n ≠ [] := by
  obtain ⟨pre, t, post, -, ht, -⟩ := latest_eq_some_iff.mp hn
  unfold nameNote at ht
  split at ht
  · next h' m _ =>
    split at ht
    · next hfit =>
      cases ht
      have := hfit.2.1
      rintro hnil
      rw [TPM2B.size, hnil] at this
      exact absurd this (by decide)
    · cases ht
  · cases ht

theorem nameNote_eq_none {t : Turn} (ho : t.object? = none) (h : UInt32) : nameNote t h = none := by
  simp [nameNote, ho]

/-- A turn that names no object and leaves the table alone. -/
theorem HoldsNames.keep {ts : List Turn} {st st' : SessionState} {t : Turn} (h : HoldsNames ts st)
    (hnote : ∀ k, IsObject k → nameNote t k = none) (hinit : st'.initialized = st.initialized)
    (hnames : st'.names = st.names)
    (hp : st'.pendingStartAuthSession = false) : HoldsNames (ts ++ [t]) st' := by
  refine ⟨hp, ?_, ?_, ?_, ?_⟩
  · rw [hinit, hnames]
    exact h.empty
  · rw [hnames]
    exact h.nodup
  · rw [hnames]
    exact fun k hk => mem_namedHandles_snoc.mpr (Or.inl (h.named k hk))
  · intro k n hk hlast
    rw [latest_snoc_of_none (hnote k hk)] at hlast
    rw [hnames]
    exact h.nameOf_eq k n hk hlast

/-- A start that arms the layer clears a table without Names of objects. -/
theorem holdsNames_armable {ts : List Turn} {st : SessionState} {t : Turn} {s : StartAuthSession}
    {r : StartReply} (h : HoldsNames ts st) (ht : t.exchange = .started s r) (hs : s.Armable)
    (hkeep : KeepsNames st t) : HoldsNames (ts ++ [t]) (turn C st t) := by
  have harmed := turn_armable C st ht hs
  refine ⟨harmed.pending_eq, fun _ => harmed.names_eq, ?_, ?_, ?_⟩
  · rw [harmed.names_eq]
    exact List.nodup_nil
  · rw [harmed.names_eq]
    simp [NameTable.handles]
  · intro k n hk hlast
    rw [latest_snoc_of_none (by simp [nameNote, Turn.object?, ht])] at hlast
    have hempty := hkeep.1 s r ht hs k hk
    rw [h.nameOf_eq k n hk hlast] at hempty
    exact absurd hempty (latest_nameNote_ne_nil hlast)

/-- As long as at most `kMaxNames` handles are named, there is room for the next one. -/
theorem HoldsNames.room {ts : List Turn} {st : SessionState} {t : Turn} {k : UInt32} {n : TPM2B}
    (h : HoldsNames ts st) (ho : t.object? = some (k, n))
    (hmax : (namedHandles (ts ++ [t])).dedup.length ≤ kMaxNames) :
    k ∈ st.names.handles ∨ st.names.count < kMaxNames := by
  by_cases hm : k ∈ st.names.handles
  · exact Or.inl hm
  · right
    have hsub : (k :: st.names.handles) ⊆ (namedHandles (ts ++ [t])).dedup := by
      intro j hj
      rw [List.mem_dedup, mem_namedHandles_snoc]
      rcases List.mem_cons.mp hj with rfl | hj
      · exact Or.inr ⟨n, ho⟩
      · exact Or.inl (h.named j hj)
    have hlen := (List.Nodup.subperm (List.nodup_cons.mpr ⟨hm, h.nodup⟩) hsub).length_le
    rw [List.length_cons, NameTable.length_handles] at hlen
    omega

/-- A successful command that names an object in an armed state. -/
theorem holdsNames_named {ts : List Turn} {st st' : SessionState} {t : Turn} {k : UInt32}
    {n : TPM2B} (h : HoldsNames ts st) (ho : t.object? = some (k, n)) (hkeep : KeepsNames st t)
    (hmax : (namedHandles (ts ++ [t])).dedup.length ≤ kMaxNames)
    (hrec : RecordsName st.names k n st'.names) (hinit : st'.initialized = true)
    (hp : st'.pendingStartAuthSession = false) : HoldsNames (ts ++ [t]) st' := by
  have hroom := h.room ho hmax
  have hhandles := hrec.handles_eq hroom
  refine ⟨hp, fun hi => absurd (hinit.symm.trans hi) (by decide), ?_, ?_, ?_⟩
  · rw [hhandles]
    split
    · exact h.nodup
    · next hm =>
      exact List.Nodup.append h.nodup (List.nodup_singleton k) (by simpa using hm)
  · intro j hj
    rw [mem_namedHandles_snoc]
    rw [hhandles] at hj
    split at hj
    · exact Or.inl (h.named j hj)
    · rcases List.mem_append.mp hj with hj | hj
      · exact Or.inl (h.named j hj)
      · rw [List.mem_singleton.mp hj]
        exact Or.inr ⟨n, ho⟩
  · intro j m hj hlast
    by_cases hjk : j = k
    · subst hjk
      have hk := hkeep.2 j n ho hj
      rw [hrec.nameOf_self hroom]
      by_cases hfit : NameFits n
      · rw [latest_snoc_of_some (v := n.bytes) (by simp [nameNote, ho, hfit]),
          Option.some.injEq] at hlast
        rw [← hlast]
        exact List.take_of_length_le hfit.2
      · -- a Name that does not fit came for no Name or for its own prefix
        rw [latest_snoc_of_none (by simp [nameNote, ho, hfit])] at hlast
        rw [if_neg hfit] at hk
        have hold := h.nameOf_eq j m hj hlast
        rcases hk with hnil | hsame
        · exact absurd (hold.symm.trans hnil) (latest_nameNote_ne_nil hlast)
        · rw [← hsame, hold]
    · rw [latest_snoc_of_none (by simp [nameNote, ho, Ne.symm hjk])] at hlast
      rw [hrec.nameOf_of_ne hjk]
      exact h.nameOf_eq j m hj hlast

theorem holdsNames_turn {ts : List Turn} {st : SessionState} {t : Turn} (h : HoldsNames ts st)
    (hkeep : KeepsNames st t) (hmax : (namedHandles (ts ++ [t])).dedup.length ≤ kMaxNames) :
    HoldsNames (ts ++ [t]) (turn C st t) := by
  cases ht : t.exchange with
  | started s r =>
    by_cases hs : s.Armable
    · exact holdsNames_armable C h ht hs hkeep
    · obtain ⟨hinit, -, -, hnames, hp⟩ := (turn_not_armable C st ht hs).frame
      exact h.keep (fun k _ => nameNote_eq_none (by simp [Turn.object?, ht]) k) hinit hnames hp
  | executed c r =>
    have ho : t.object? = r.object? := by simp [Turn.object?, ht]
    obtain ⟨hinit, -, hp⟩ := turn_executed_frame C ht st h.pending_eq
    cases hi : st.initialized with
    | true =>
      obtain ⟨names', hturn, hnames⟩ := turn_executed C ht st h.pending_eq hi
      have heq : (turn C st t).names = names' := by rw [hturn]
      cases hr : r.object? with
      | none =>
        rw [hr] at hnames
        exact h.keep (fun k _ => nameNote_eq_none (ho.trans hr) k) hinit (heq.trans hnames) hp
      | some p =>
        obtain ⟨k, n⟩ := p
        rw [hr, ← heq] at hnames
        exact holdsNames_named h (ho.trans hr) hkeep hmax hnames (hinit.trans hi) hp
    | false =>
      have hturn := turn_executed_eq C ht st
      rw [if_neg (by rw [h.pending_eq]; decide), if_pos hi] at hturn
      refine h.keep (fun k hk => ?_) hinit (by rw [hturn]) hp
      -- an object that is named now would have to be named in an armed state
      unfold nameNote
      cases hobj : t.object? with
      | none => rfl
      | some p =>
        obtain ⟨j, n⟩ := p
        refine if_neg ?_
        rintro ⟨rfl, hfit⟩
        have harmed := hkeep.2 j n hobj hk
        rw [if_pos hfit, hi] at harmed
        cases harmed
  | other command response =>
    obtain ⟨hinit, -, -, hnames, hp⟩ := (turn_other C st h.pending_eq ht).frame
    exact h.keep (fun k _ => nameNote_eq_none (by simp [Turn.object?, ht]) k) hinit hnames hp
  | failed command response =>
    obtain ⟨hinit, -, -, hnames, hp⟩ := (turn_failed C st ht).frame
    exact h.keep (fun k _ => nameNote_eq_none (by simp [Turn.object?, ht]) k) hinit hnames hp

theorem run_holdsNames {ts : List Turn} (hkeep : Always (turn C) SessionState.zero KeepsNames ts)
    (hmax : (namedHandles ts).dedup.length ≤ kMaxNames) :
    HoldsNames ts (run (turn C) SessionState.zero ts) := by
  have hzero : HoldsNames [] SessionState.zero :=
    ⟨rfl, fun _ => rfl, List.nodup_nil, by simp [NameTable.handles, SessionState.zero], by simp⟩
  -- the bound on the whole run is a bound on each of its beginnings
  refine run_history (R := fun ts st => (namedHandles ts).dedup.length ≤
    kMaxNames → HoldsNames ts st)
    (fun _ => hzero) (fun pre t hinv hk hle => ?_) ts hkeep hmax
  refine holdsNames_turn C (hinv ?_) hk hle
  have hsub : (namedHandles pre).dedup ⊆ (namedHandles (pre ++ [t])).dedup := by
    intro h hh
    rw [List.mem_dedup] at hh ⊢
    exact mem_namedHandles_snoc.mpr (Or.inl hh)
  exact Nat.le_trans (List.Nodup.subperm (List.nodup_dedup _) hsub).length_le hle

/-- The last Name of an object is what `HandleName` answers. -/
theorem run_handleName {ts : List Turn} (hkeep : Always (turn C) SessionState.zero KeepsNames ts)
    (hmax : (namedHandles ts).dedup.length ≤ kMaxNames) {h : UInt32} (hh : IsObject h) {n : Bytes}
    (hlast : latest nameNote ts h = some n) :
    (handleName (run (turn C) SessionState.zero ts).names h kMaxNameSize).val = n := by
  rw [val_handleName hh]
  exact (run_holdsNames C hkeep hmax).nameOf_eq h n hh hlast

/-- A CreatePrimary for the owner with an empty password, which makes the object 0x80000000. -/
def primaryCreated : Turn where
  exchange := .executed
    { attr := ⟨TPM2_CC_CreatePrimary, 1, 1, 1⟩
      attr_mem := by decide
      handles := [0x40000001]
      handles_length := rfl
      entry := ⟨0x40000009, TPM2B.empty, 0, TPM2B.empty⟩
      moreEntries := []
      params := [] }
    { outHandles := [0x80000000]
      params := .createPrimary TPM2B.empty TPM2B.empty TPM2B.empty 0x8021 0x40000001 TPM2B.empty
        ⟨[0x00, 0x0B, 0xAB], by decide⟩
      nonce := TPM2B.empty
      attrs := 0
      hmac := TPM2B.empty
      moreEntries := [] }
  wellFormed := by decide
  commandSlack := []
  responseSlack := []

theorem primaryCreated_named :
    (handleName (run (turn clearDigests) SessionState.zero [hmacStarted, primaryCreated]).names
      0x80000000 kMaxNameSize).val = [0x00, 0x0B, 0xAB] := by
  refine run_handleName clearDigests ?_ (by decide) (by decide) (by decide +kernel)
  refine (Always.nil.snoc ⟨?_, ?_⟩).snoc ⟨?_, ?_⟩
  · intro _ _ ht
    cases ht
  · intro h n ho _
    cases ho
    rw [if_pos (by decide)]
    decide +kernel
  · intro _ _ _ _ _ _
    rfl
  · intro _ _ ho
    cases ho

/-- The object is named before the session is started, and both are in use afterwards. -/
def namedBeforeStart : List Turn := [primaryCreated, hmacStarted]

theorem namedBeforeStart_lost :
    latest nameNote namedBeforeStart 0x80000000 = some [0x00, 0x0B, 0xAB] ∧
      (namedHandles namedBeforeStart).dedup.length ≤ kMaxNames ∧
      (handleName (run (turn clearDigests) SessionState.zero namedBeforeStart).names 0x80000000
        kMaxNameSize).val = [] := by
  decide +kernel

end Session
