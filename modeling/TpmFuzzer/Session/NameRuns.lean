import TpmFuzzer.Session.Names
import TpmFuzzer.Lib.Runs

/-!
# The Name table after any sequence of calls

From an empty table `Add` keeps the handles of the first `kMaxNames` that are added, in that order,
and for each the Name it was given last, cut to `kMaxNameSize` bytes; a handle that comes later is
dropped:

    Lookup(h) = the last Name added for h, if h is one of the first 16 handles
                                                                              (nameTable_lookup)
-/

namespace Session

open Bytes Tpm Traced Runs

namespace NameTable

/-- A call `Add(handle, src + off, nameSize)`; the bytes that are copied lie in the buffer. -/
structure AddCall where
  handle : UInt32
  region : Region
  src : Bytes
  off : Nat
  nameSize : Nat
  inBuffer : off + min nameSize kMaxNameSize ≤ src.length

def AddCall.name (c : AddCall) : Bytes := slice c.src c.off c.nameSize

def addCall (t : NameTable) (c : AddCall) : NameTable :=
  (t.add c.handle c.region c.src c.off c.nameSize).val

/-- The handles that were added, in the order of their first call. -/
def addedHandles (cs : List AddCall) : List UInt32 := (cs.map AddCall.handle).eraseDups

def addNote (c : AddCall) (h : UInt32) : Option Bytes := if c.handle = h then some c.name else none

theorem addNote_self (c : AddCall) : addNote c c.handle = some c.name := if_pos rfl

theorem addNote_of_ne {c : AddCall} {k : UInt32} (hk : k ≠ c.handle) : addNote c k = none :=
  if_neg (Ne.symm hk)

theorem AddCall.take_name (c : AddCall) :
    c.name.take kMaxNameSize = slice c.src c.off (min c.nameSize kMaxNameSize) := by
  unfold AddCall.name slice
  rw [List.take_take, Nat.min_comm]

/-- What the table holds after the calls `cs`. -/
structure HoldsAdded (cs : List AddCall) (t : NameTable) : Prop where
  handles : t.handles = (addedHandles cs).take kMaxNames
  nameSize : ∀ e ∈ t.entries, e.nameSize ≤ kMaxNameSize
  nameOf : ∀ h ∈ t.handles, t.nameOf h = ((latest addNote cs h).getD []).take kMaxNameSize

theorem holdsAdded_nil : HoldsAdded [] ⟨[]⟩ := by
  refine ⟨rfl, ?_, ?_⟩
  · intro e he
    cases he
  · intro h hh
    cases hh

/-- A slot is free exactly as long as fewer than 16 handles were added. -/
theorem HoldsAdded.count {cs : List AddCall} {t : NameTable} (h : HoldsAdded cs t) :
    t.count = min kMaxNames (addedHandles cs).length := by
  rw [← length_handles, h.handles, List.length_take]

theorem HoldsAdded.mem_added {cs : List AddCall} {t : NameTable} (h : HoldsAdded cs t) {k : UInt32}
    (hk : k ∈ t.handles) : k ∈ cs.map AddCall.handle := by
  rw [h.handles] at hk
  exact List.mem_eraseDups.mp (List.mem_of_mem_take hk)

section step

variable {cs : List AddCall} {t : NameTable} (h : HoldsAdded cs t) (c : AddCall)

include h

/-- An update of a handle in the table, a new handle in a free slot, or a handle that is dropped. -/
theorem HoldsAdded.handles_addCall :
    (t.addCall c).handles = (addedHandles (cs ++ [c])).take kMaxNames := by
  have hadded : addedHandles (cs ++ [c]) =
      if c.handle ∈ cs.map AddCall.handle then addedHandles cs
        else addedHandles cs ++ [c.handle] := by
    unfold addedHandles
    rw [List.map_append, List.map_singleton, eraseDups_snoc]
  have hcount := h.count
  by_cases hm : c.handle ∈ t.handles
  · show (t.add c.handle c.region c.src c.off c.nameSize).val.handles = _
    rw [handles_add_of_mem _ _ _ _ _ _ hm, hadded, if_pos (h.mem_added hm), h.handles]
  · show (t.add c.handle c.region c.src c.off c.nameSize).val.handles = _
    rw [handles_add_of_not_mem _ _ _ _ _ _ hm]
    by_cases hroom : t.count < kMaxNames
    · have hall : t.handles = addedHandles cs := by
        rw [h.handles, List.take_of_length_le (by omega)]
      have hnew : c.handle ∉ cs.map AddCall.handle := by
        intro hold
        apply hm
        rw [hall]
        exact List.mem_eraseDups.mpr hold
      rw [if_pos hroom, hadded, if_neg hnew, List.take_of_length_le, hall]
      rw [List.length_append, List.length_singleton]
      omega
    · rw [if_neg hroom, h.handles, hadded]
      split
      · rfl
      · rw [List.take_append_of_le_length (by omega)]

theorem HoldsAdded.nameOf_addCall (k : UInt32) (hk : k ∈ (t.addCall c).handles) :
    (t.addCall c).nameOf k = ((latest addNote (cs ++ [c]) k).getD []).take kMaxNameSize := by
  by_cases hm : c.handle ∈ t.handles ∨ t.count < kMaxNames
  · by_cases hkc : k = c.handle
    · subst hkc
      rw [latest_snoc_of_some (addNote_self c), Option.getD_some, c.take_name]
      exact nameOf_add_self t c.handle c.region c.src c.off c.nameSize hm c.inBuffer
    · have hold : k ∈ t.handles := by
        change k ∈ (t.add c.handle c.region c.src c.off c.nameSize).val.handles at hk
        by_cases hin : c.handle ∈ t.handles
        · rwa [handles_add_of_mem _ _ _ _ _ _ hin] at hk
        · rw [handles_add_of_not_mem _ _ _ _ _ _ hin, if_pos (hm.resolve_left hin), List.mem_append,
            List.mem_singleton] at hk
          exact hk.resolve_right hkc
      rw [latest_snoc_of_none (addNote_of_ne hkc), ← h.nameOf k hold]
      exact nameOf_add_of_ne t c.handle c.region c.src c.off c.nameSize hkc c.inBuffer
  · -- the table is full, and the handle is not in it
    rw [not_or] at hm
    change k ∈ (t.add c.handle c.region c.src c.off c.nameSize).val.handles at hk
    rw [handles_add_of_not_mem _ _ _ _ _ _ hm.1, if_neg hm.2] at hk
    have hkc : k ≠ c.handle := by
      intro hkc
      exact hm.1 (hkc ▸ hk)
    rw [latest_snoc_of_none (addNote_of_ne hkc), ← h.nameOf k hk]
    exact nameOf_add_of_ne t c.handle c.region c.src c.off c.nameSize hkc c.inBuffer

theorem HoldsAdded.addCall : HoldsAdded (cs ++ [c]) (t.addCall c) :=
  ⟨h.handles_addCall c, nameSize_add t c.handle c.region c.src c.off c.nameSize h.nameSize,
    h.nameOf_addCall c⟩

end step

theorem run_holdsAdded (cs : List AddCall) : HoldsAdded cs (run addCall ⟨[]⟩ cs) := by
  induction cs using List.reverseRecOn with
  | nil => exact holdsAdded_nil
  | append_singleton cs c ih =>
    rw [run_snoc]
    exact ih.addCall c

/-! ## Lookup -/

/-- With room for the longest Name, `Lookup` never refuses to copy. -/
theorem lookup_of_le {t : NameTable} (ht : ∀ e ∈ t.entries, e.nameSize ≤ kMaxNameSize) {cap : Nat}
    (hcap : kMaxNameSize ≤ cap) (h : UInt32) : (t.lookup h cap).val = t.nameOf h := by
  obtain ⟨es⟩ := t
  show (lookupLoop h cap 0 es).val = (lookupLoop h kMaxNameSize 0 es).val
  generalize 0 = i
  induction es generalizing i with
  | nil => rfl
  | cons e es ih =>
    have he : e.nameSize ≤ kMaxNameSize := ht e List.mem_cons_self
    rw [val_lookupLoop_cons, val_lookupLoop_cons, ih (fun e he => ht e (List.mem_cons_of_mem _ he)),
      if_neg (show ¬ e.nameSize > cap by omega), if_neg (show ¬ e.nameSize > kMaxNameSize by omega)]

theorem HoldsAdded.lookup {cs : List AddCall} {t : NameTable} (ht : HoldsAdded cs t) {cap : Nat}
    (hcap : kMaxNameSize ≤ cap) (h : UInt32) :
    (t.lookup h cap).val = if h ∈ (addedHandles cs).take kMaxNames then
      ((latest addNote cs h).getD []).take kMaxNameSize else [] := by
  rw [lookup_of_le ht.nameSize hcap, ← ht.handles]
  split
  · next hm => exact ht.nameOf h hm
  · next hm => exact lookupLoop_eq_nil_of_not_mem h kMaxNameSize t.entries 0 hm

/-- The table is a map of at most 16 handles, in which the last Name wins. -/
theorem nameTable_lookup (cs : List AddCall) :
    (∀ h cap, kMaxNameSize ≤ cap → ((run addCall ⟨[]⟩ cs).lookup h cap).val =
      if h ∈ (addedHandles cs).take kMaxNames then ((latest addNote cs h).getD []).take kMaxNameSize
      else []) ∧
    (run addCall ⟨[]⟩ cs).handles.Nodup ∧
    (run addCall ⟨[]⟩ cs).count = min kMaxNames (addedHandles cs).length ∧
    ∀ c h cap, kMaxNameSize ≤ cap → h ≠ c.handle →
      (((run addCall ⟨[]⟩ cs).addCall c).lookup h cap).val =
        ((run addCall ⟨[]⟩ cs).lookup h cap).val := by
  have ht := run_holdsAdded cs
  refine ⟨fun h cap hcap => ht.lookup hcap h, ?_, ht.count, ?_⟩
  · rw [ht.handles]
    exact (nodup_eraseDups _).sublist (List.take_sublist _ _)
  · intro c h cap hcap hne
    rw [lookup_of_le (ht.addCall c).nameSize hcap, lookup_of_le ht.nameSize hcap]
    exact nameOf_add_of_ne _ c.handle c.region c.src c.off c.nameSize hne c.inBuffer

/-- The Name of 0x80000000 is replaced by a shorter one. -/
def renamed : List AddCall :=
  [⟨0x80000000, .response, [0x00, 0x0B, 0xAB], 0, 3, by decide⟩,
    ⟨0x80000001, .response, [0x00, 0x04], 0, 2, by decide⟩,
    ⟨0x80000000, .response, [0x77, 0x0C], 1, 1, by decide⟩]

theorem renamed_lookup :
    ((run addCall ⟨[]⟩ renamed).lookup 0x80000000 kMaxNameSize).val = [0x0C] ∧
      ((run addCall ⟨[]⟩ renamed).lookup 0x80000001 kMaxNameSize).val = [0x00, 0x04] := by
  have hlookup := (nameTable_lookup renamed).1
  rw [hlookup 0x80000000 kMaxNameSize (Nat.le_refl _),
    hlookup 0x80000001 kMaxNameSize (Nat.le_refl _)]
  decide

end NameTable

end Session
