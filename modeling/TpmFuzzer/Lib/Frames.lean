import Mathlib.Data.List.Basic

/-!
# Self-delimiting frames

A set of words is self-delimiting when no frame is the beginning of another and none is empty.  Then
a word splits into frames in at most one way, and has one longest run of frames at its start:

    fs.flatten = gs.flatten                                    →  fs = gs
                                                                    (flatten_inj)
    fs.flatten ++ a = gs.flatten ++ b, b starts with no frame  →  gs = fs ++ more
                                                                    (exists_append_of_flatten)
-/

namespace Frames

variable {α : Type} {P : List α → Prop}

structure SelfDelimiting (P : List α → Prop) : Prop where
  ne_nil : ∀ f, P f → f ≠ []
  eq_of_append : ∀ f g a b, P f → P g → f ++ a = g ++ b → f = g

/-- No frame stands at the start of `w`. -/
def Unframed (P : List α → Prop) (w : List α) : Prop := ∀ f rest, P f → w ≠ f ++ rest

/-- `fs` are the frames at the start of `w`, as many as there are, and `rest` is what follows
them. -/
structure Splits (P : List α → Prop) (w : List α) (fs : List (List α)) (rest : List α) : Prop where
  frames : ∀ f ∈ fs, P f
  eq_append : w = fs.flatten ++ rest
  unframed : Unframed P rest

theorem SelfDelimiting.unframed_nil (hP : SelfDelimiting P) : Unframed P ([] : List α) := by
  intro f rest hf h
  exact hP.ne_nil f hf (List.append_eq_nil_iff.mp h.symm).1

/-- Frames at the start of a word are among the frames it splits into. -/
theorem SelfDelimiting.exists_append_of_flatten (hP : SelfDelimiting P) :
    ∀ {fs gs : List (List α)} {a b : List α}, (∀ f ∈ fs, P f) → (∀ g ∈ gs, P g) → Unframed P b →
      fs.flatten ++ a = gs.flatten ++ b → ∃ more, gs = fs ++ more := by
  intro fs
  induction fs with
  | nil => exact fun {gs} _ _ _ _ _ _ => ⟨gs, rfl⟩
  | cons f fs ih =>
    intro gs a b hfs hgs hb h
    rw [List.flatten_cons, List.append_assoc] at h
    cases gs with
    | nil => exact absurd h.symm (hb f _ (hfs f List.mem_cons_self))
    | cons g gs =>
      rw [List.flatten_cons, List.append_assoc] at h
      have hfg := hP.eq_of_append f g _ _ (hfs f List.mem_cons_self) (hgs g List.mem_cons_self) h
      subst hfg
      obtain ⟨more, rfl⟩ := ih (fun f hf => hfs f (List.mem_cons_of_mem _ hf))
        (fun g hg => hgs g (List.mem_cons_of_mem _ hg)) hb (List.append_cancel_left h)
      exact ⟨more, rfl⟩

/-- A word has one split at most. -/
theorem SelfDelimiting.splits_unique (hP : SelfDelimiting P) {w : List α} {fs gs : List (List α)}
    {a b : List α} (hf : Splits P w fs a) (hg : Splits P w gs b) : fs = gs ∧ a = b := by
  have h : fs.flatten ++ a = gs.flatten ++ b := hf.eq_append.symm.trans hg.eq_append
  obtain ⟨more, rfl⟩ := hP.exists_append_of_flatten hf.frames hg.frames hg.unframed h
  obtain ⟨more', hmore⟩ := hP.exists_append_of_flatten hg.frames hf.frames hf.unframed h.symm
  rw [List.append_assoc, List.self_eq_append_right, List.append_eq_nil_iff] at hmore
  obtain ⟨rfl, -⟩ := hmore
  rw [List.append_nil] at h
  exact ⟨by rw [List.append_nil], List.append_cancel_left h⟩

/-- The frames a word consists of are determined by it. -/
theorem SelfDelimiting.flatten_inj (hP : SelfDelimiting P) {fs gs : List (List α)}
    (hf : ∀ f ∈ fs, P f) (hg : ∀ g ∈ gs, P g) (h : fs.flatten = gs.flatten) : fs = gs :=
  (hP.splits_unique (w := fs.flatten) ⟨hf, (List.append_nil _).symm, hP.unframed_nil⟩
    ⟨hg, by rw [h, List.append_nil], hP.unframed_nil⟩).1

end Frames
