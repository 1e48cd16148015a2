import Mathlib.Data.List.Basic

/-!
# Computations that report what they touch

`Traced ε α` is a value together with the list of events (memory accesses, size computations)
that producing it causes.  What a program returns is a statement about `val`; what it touches is a
statement about `log`, made with `Emits`:

    Emits P x  →  (Q x.val → Emits P (f x.val))  →  Emits P (x >>= f)      (Emits.bind)

so a proof about accesses follows the program text, and a proof about results never mentions them.
-/

/-- A value, and the events on the way to it. -/
structure Traced (ε α : Type) where
  val : α
  log : List ε

namespace Traced

variable {ε α β : Type}

instance : Monad (Traced ε) where
  pure a := ⟨a, []⟩
  bind x f := ⟨(f x.val).val, x.log ++ (f x.val).log⟩

/-- One event. -/
def event (e : ε) : Traced ε Unit := ⟨(), [e]⟩

@[simp] theorem val_pure (a : α) : (pure a : Traced ε α).val = a := (rfl)

@[simp] theorem val_bind (x : Traced ε α) (f : α → Traced ε β) : (x >>= f).val = (f x.val).val :=
  (rfl)

@[simp] theorem val_event (e : ε) : (event e).val = () := (rfl)

@[simp] theorem val_ite (c : Prop) [Decidable c] (x y : Traced ε α) :
    (if c then x else y).val = if c then x.val else y.val := by
  split <;> rfl

/-- Every event of `x` satisfies `P`. -/
def Emits (P : ε → Prop) (x : Traced ε α) : Prop := ∀ e ∈ x.log, P e

variable {P : ε → Prop}

theorem Emits.pure (a : α) : Emits P (Pure.pure a : Traced ε α) := by
  intro e he
  cases he

theorem Emits.event {e : ε} (h : P e) : Emits P (Traced.event e) := by
  intro e' he
  rw [List.mem_singleton.mp he]
  exact h

/-- The second part goes on from the value of the first. -/
theorem Emits.bind {x : Traced ε α} {f : α → Traced ε β} (hx : Emits P x) (hf : Emits P (f x.val)) :
    Emits P (x >>= f) := by
  intro e he
  rcases List.mem_append.mp he with he | he
  · exact hx e he
  · exact hf e he

/-- Each branch has its condition to argue from. -/
theorem Emits.ite {c : Prop} [Decidable c] {x y : Traced ε α} (hx : c → Emits P x)
    (hy : ¬ c → Emits P y) : Emits P (if c then x else y) := by
  by_cases h : c
  · rw [if_pos h]
    exact hx h
  · rw [if_neg h]
    exact hy h

end Traced
