import TpmFuzzer.Session.Response

/-!
# The Name table as a map

`NameTable.nameOf t h` is what `Lookup` copies out for `h`, empty when there is no Name.  `Add` is
an update of that map at one handle, as long as the handle is already there or a slot is free:

    nameOf (add t h name) h  = name cut to 68 bytes        (nameOf_add_self)
    nameOf (add t h name) h' = nameOf t h'                 (nameOf_add_of_ne)
-/

namespace Session

open Bytes Tpm Traced

namespace NameTable

/-- The handles of the table, in the order they were added. -/
def handles (t : NameTable) : List UInt32 := t.entries.map NameEntry.handle

/-- The recorded Name of a handle, empty when there is none. -/
def nameOf (t : NameTable) (handle : UInt32) : Bytes := (t.lookup handle kMaxNameSize).val

theorem length_handles (t : NameTable) : t.handles.length = t.count := by
  simp [handles, count]

theorem val_lookupLoop_cons (h : UInt32) (cap i : Nat) (e : NameEntry) (es : List NameEntry) :
    (lookupLoop h cap i (e :: es)).val =
      if e.handle = h then (if e.nameSize > cap then [] else e.name.first e.nameSize)
      else (lookupLoop h cap (i + 1) es).val := by
  simp only [lookupLoop, val_bind, val_ite, val_pure]

/-- The index only counts; it does not change what is found. -/
theorem val_lookupLoop_index (h : UInt32) (cap : Nat) (es : List NameEntry) :
    ∀ i j, (lookupLoop h cap i es).val = (lookupLoop h cap j es).val := by
  induction es with
  | nil => intro i j; rfl
  | cons e es ih =>
    intro i j
    rw [val_lookupLoop_cons, val_lookupLoop_cons, ih (i + 1) (j + 1)]

theorem lookupLoop_eq_nil_of_not_mem (h : UInt32) (cap : Nat) (es : List NameEntry) :
    ∀ i, h ∉ es.map NameEntry.handle → (lookupLoop h cap i es).val = [] := by
  induction es with
  | nil => intro i _; rfl
  | cons e es ih =>
    intro i hn
    rw [List.map_cons, List.mem_cons, not_or] at hn
    rw [val_lookupLoop_cons, if_neg (Ne.symm hn.1), ih (i + 1) hn.2]

theorem lookupLoop_append (h : UInt32) (cap : Nat) (es fs : List NameEntry) :
    ∀ i, (lookupLoop h cap i (es ++ fs)).val =
      if h ∈ es.map NameEntry.handle then (lookupLoop h cap i es).val
      else (lookupLoop h cap i fs).val := by
  induction es with
  | nil => intro i; simp
  | cons e es ih =>
    intro i
    rw [List.cons_append, val_lookupLoop_cons, val_lookupLoop_cons, ih (i + 1),
      val_lookupLoop_index h cap fs (i + 1) i]
    by_cases he : e.handle = h
    · simp [he]
    · have hne : ¬ h = e.handle := fun hh => he hh.symm
      simp [he, hne]

section
variable (r : Region) (src : Bytes) (off n : Nat) (h : UInt32)

theorem val_addLoop_cons (i : Nat) (e : NameEntry) (es : List NameEntry) :
    (addLoop r src off n h i (e :: es)).val =
      if e.handle = h then
        some ({ e with name := e.name.blit (slice src off n), nameSize := n } :: es)
      else (addLoop r src off n h (i + 1) es).val.map (e :: ·) := by
  simp only [addLoop, val_bind, val_ite, Mem.val_bytes, val_pure]

/-- No entry is overwritten exactly if the handle is new. -/
theorem addLoop_eq_none_iff (es : List NameEntry) :
    ∀ i, (addLoop r src off n h i es).val = none ↔ h ∉ es.map NameEntry.handle := by
  induction es with
  | nil => intro i; simp [addLoop]
  | cons e es ih =>
    intro i
    rw [val_addLoop_cons]
    by_cases he : e.handle = h
    · simp [he]
    · have hne : ¬ h = e.handle := fun hh => he hh.symm
      simp only [he, if_false, Option.map_eq_none_iff, ih (i + 1)]
      simp [hne]

theorem map_handle_addLoop (es : List NameEntry) :
    ∀ i es', (addLoop r src off n h i es).val = some es' →
      es'.map NameEntry.handle = es.map NameEntry.handle := by
  induction es with
  | nil => intro i es' hs; simp [addLoop] at hs
  | cons e es ih =>
    intro i es' hs
    rw [val_addLoop_cons] at hs
    by_cases he : e.handle = h
    · rw [if_pos he, Option.some.injEq] at hs
      subst hs
      rfl
    · rw [if_neg he, Option.map_eq_some_iff] at hs
      obtain ⟨es₁, h1, rfl⟩ := hs
      rw [List.map_cons, List.map_cons, ih (i + 1) es₁ h1]

theorem nameSize_addLoop (es : List NameEntry) (hn : n ≤ kMaxNameSize)
    (hes : ∀ e ∈ es, e.nameSize ≤ kMaxNameSize) :
    ∀ i es', (addLoop r src off n h i es).val = some es' →
      ∀ e ∈ es', e.nameSize ≤ kMaxNameSize := by
  induction es with
  | nil => intro i es' hs; simp [addLoop] at hs
  | cons e es ih =>
    intro i es' hs e' he'
    rw [val_addLoop_cons] at hs
    by_cases he : e.handle = h
    · rw [if_pos he, Option.some.injEq] at hs
      subst hs
      rcases List.mem_cons.mp he' with rfl | hm
      · exact hn
      · exact hes e' (List.mem_cons_of_mem _ hm)
    · rw [if_neg he, Option.map_eq_some_iff] at hs
      obtain ⟨es₁, h1, rfl⟩ := hs
      rcases List.mem_cons.mp he' with rfl | hm
      · exact hes e' List.mem_cons_self
      · exact ih (fun e hm => hes e (List.mem_cons_of_mem _ hm)) (i + 1) es₁ h1 e' hm

/-- What the updated entries hold. -/
theorem lookupLoop_addLoop (es : List NameEntry) (hn : n ≤ kMaxNameSize)
    (hsrc : off + n ≤ src.length) :
    ∀ i es', (addLoop r src off n h i es).val = some es' → ∀ h' j,
      (lookupLoop h' kMaxNameSize j es').val =
        if h' = h then slice src off n else (lookupLoop h' kMaxNameSize j es).val := by
  induction es with
  | nil => intro i es' hs; simp [addLoop] at hs
  | cons e es ih =>
    intro i es' hs h' j
    rw [val_addLoop_cons] at hs
    by_cases he : e.handle = h
    · rw [if_pos he, Option.some.injEq] at hs
      subst hs
      have hl := length_slice hsrc
      have hfirst : (e.name.blit (slice src off n)).first n = slice src off n := by
        have := Fixed.first_blit e.name (slice src off n) (by omega)
        rwa [hl] at this
      rw [val_lookupLoop_cons, val_lookupLoop_cons]
      simp only [he, if_neg (Nat.not_lt.mpr hn), hfirst]
      by_cases hh : h' = h
      · simp [hh]
      · rw [if_neg hh, if_neg (Ne.symm hh), if_neg (Ne.symm hh)]
    · rw [if_neg he, Option.map_eq_some_iff] at hs
      obtain ⟨es₁, h1, rfl⟩ := hs
      rw [val_lookupLoop_cons, val_lookupLoop_cons, ih (i + 1) es₁ h1 h' (j + 1)]
      by_cases hh : h' = h
      · subst hh
        simp [he]
      · simp [hh]

end

section
variable (t : NameTable) (h : UInt32) (r : Region) (src : Bytes) (off nameSize : Nat)

/-- `Add` stores at most 68 bytes. -/
theorem val_add : (t.add h r src off nameSize).val =
    match (addLoop r src off (min nameSize kMaxNameSize) h 0 t.entries).val with
    | some entries => ⟨entries⟩
    | none =>
      if t.count < kMaxNames then
        ⟨t.entries ++
          [⟨h, (Fixed.zeros kMaxNameSize).blit (slice src off (min nameSize kMaxNameSize)),
          min nameSize kMaxNameSize⟩]⟩
      else t := by
  have hmin : (if nameSize > kMaxNameSize then kMaxNameSize else nameSize) =
      min nameSize kMaxNameSize := by
    split <;> omega
  simp only [add, val_bind, hmin]
  cases (addLoop r src off (min nameSize kMaxNameSize) h 0 t.entries).val with
  | some entries => rfl
  | none => simp

theorem handles_add_of_mem (hm : h ∈ t.handles) :
    (t.add h r src off nameSize).val.handles = t.handles := by
  rw [val_add]
  cases hs : (addLoop r src off (min nameSize kMaxNameSize) h 0 t.entries).val with
  | some entries => exact map_handle_addLoop r src off _ h _ 0 entries hs
  | none => exact absurd hm ((addLoop_eq_none_iff r src off _ h _ 0).mp hs)

/-- A new handle goes to the end while there is room. -/
theorem handles_add_of_not_mem (hm : h ∉ t.handles) :
    (t.add h r src off nameSize).val.handles =
      if t.count < kMaxNames then t.handles ++ [h] else t.handles := by
  rw [val_add, (addLoop_eq_none_iff r src off _ h _ 0).mpr hm]
  simp only
  split
  · simp [handles]
  · rfl

/-- **Frame.**  Other handles keep their Names. -/
theorem nameOf_add_of_ne {h' : UInt32} (hne : h' ≠ h)
    (hsrc : off + min nameSize kMaxNameSize ≤ src.length) :
    (t.add h r src off nameSize).val.nameOf h' = t.nameOf h' := by
  rw [val_add]
  cases hs : (addLoop r src off (min nameSize kMaxNameSize) h 0 t.entries).val with
  | some entries =>
    rw [nameOf, lookup, lookupLoop_addLoop r src off _ h _ (by omega) hsrc 0 entries hs, if_neg hne]
    rfl
  | none =>
    simp only
    split
    · rw [nameOf, lookup, lookupLoop_append]
      split
      · rfl
      · next hn =>
        rw [val_lookupLoop_cons, if_neg (Ne.symm hne), nameOf, lookup,
          lookupLoop_eq_nil_of_not_mem _ _ _ _ hn]
        rfl
    · rfl

/-- The handle has the new Name, cut to the array. -/
theorem nameOf_add_self (hroom : h ∈ t.handles ∨ t.count < kMaxNames)
    (hsrc : off + min nameSize kMaxNameSize ≤ src.length) :
    (t.add h r src off nameSize).val.nameOf h = slice src off (min nameSize kMaxNameSize) := by
  rw [val_add]
  cases hs : (addLoop r src off (min nameSize kMaxNameSize) h 0 t.entries).val with
  | some entries =>
    rw [nameOf, lookup, lookupLoop_addLoop r src off _ h _ (by omega) hsrc 0 entries hs, if_pos rfl]
  | none =>
    have hnot := (addLoop_eq_none_iff r src off _ h _ 0).mp hs
    have hlt : t.count < kMaxNames := hroom.resolve_left hnot
    have hl := length_slice hsrc
    simp only [hlt, if_true]
    rw [nameOf, lookup, lookupLoop_append, if_neg hnot, val_lookupLoop_cons]
    simp only [if_true, show ¬ min nameSize kMaxNameSize > kMaxNameSize by omega, if_false]
    have := Fixed.first_blit (Fixed.zeros kMaxNameSize)
      (slice src off (min nameSize kMaxNameSize)) (by omega)
    rwa [hl] at this

theorem count_add_le (ht : t.count ≤ kMaxNames) :
    (t.add h r src off nameSize).val.count ≤ kMaxNames := by
  rw [← length_handles]
  by_cases hm : h ∈ t.handles
  · rw [handles_add_of_mem _ _ _ _ _ _ hm, length_handles]
    exact ht
  · rw [handles_add_of_not_mem _ _ _ _ _ _ hm]
    split
    · rw [List.length_append, length_handles, List.length_singleton]
      omega
    · rw [length_handles]
      exact ht

theorem nameSize_add (ht : ∀ e ∈ t.entries, e.nameSize ≤ kMaxNameSize) :
    ∀ e ∈ (t.add h r src off nameSize).val.entries, e.nameSize ≤ kMaxNameSize := by
  rw [val_add]
  cases hs : (addLoop r src off (min nameSize kMaxNameSize) h 0 t.entries).val with
  | some entries =>
    exact nameSize_addLoop r src off _ h _ (Nat.min_le_right _ _) ht 0 entries hs
  | none =>
    simp only
    split
    · intro e he
      rcases List.mem_append.mp he with he | he
      · exact ht e he
      · rw [List.mem_singleton.mp he]
        exact Nat.min_le_right _ _
    · exact ht

end

@[simp] theorem nameOf_empty (h : UInt32) : nameOf ⟨[]⟩ h = [] := rfl

end NameTable

end Session
