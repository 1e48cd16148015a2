import TpmFuzzer.Lib.Bytes

/-!
# Writers into a buffer of bounded size

A writer takes the bytes written so far, the part of the buffer before the offset, and returns them
with its own behind, or fails.  `Writes size w e`: the writer `w` fails when its encoding `e` is
`none`, and otherwise appends it, or fails when it does not fit.

* Writers in sequence write their encodings one after the other (`Writes.seq`, `Writes.each`).
* A length field can be written before what it counts and filled in afterwards (`Writes.backpatch`).
-/

namespace Writer

open Bytes

/-- Overwrite or append at an offset, within the size of the buffer. -/
def store (size : Nat) (x out : Bytes) (off : Nat) : Option Bytes :=
  if off + x.length ≤ size then some (poke out off x) else none

/-- Append within the size of the buffer. -/
def emit (size : Nat) (x out : Bytes) : Option Bytes :=
  if out.length + x.length ≤ size then some (out ++ x) else none

theorem poke_length (out x : Bytes) : poke out out.length x = out ++ x := by
  simp [poke]

theorem store_length (size : Nat) (x out : Bytes) :
    store size x out out.length = emit size x out := by
  rw [store, poke_length, emit]

theorem emit_eq_some {size : Nat} {x out out' : Bytes} (h : emit size x out = some out') :
    out' = out ++ x ∧ out'.length ≤ size := by
  unfold emit at h
  split at h
  · next hle =>
    cases h
    exact ⟨rfl, by rw [List.length_append]; exact hle⟩
  · cases h

theorem emit_nil {size : Nat} {out : Bytes} (h : out.length ≤ size) :
    emit size [] out = some out := by
  unfold emit
  rw [if_pos (by simpa using h), List.append_nil]

/-- Two pieces fit exactly if both together do. -/
theorem emit_append (size : Nat) (x y out : Bytes) :
    emit size (x ++ y) out = (emit size x out).bind (emit size y) := by
  unfold emit
  by_cases hx : out.length + x.length ≤ size
  · rw [if_pos hx, Option.bind_some]
    simp [Nat.add_assoc]
  · rw [if_neg hx, if_neg (by rw [List.length_append]; omega), Option.bind_none]

/-- The encoding `e` is what the writer `w` appends. -/
def Writes (size : Nat) (w : Bytes → Option Bytes) (e : Option Bytes) : Prop :=
  ∀ out, out.length ≤ size → w out = e.bind (emit size · out)

/-- Two encodings one after the other. -/
def join (e₁ e₂ : Option Bytes) : Option Bytes := e₁.bind fun x => e₂.map (x ++ ·)

@[simp] theorem join_some (x y : Bytes) : join (some x) (some y) = some (x ++ y) := rfl

@[simp] theorem join_none_left (e : Option Bytes) : join none e = none := rfl

@[simp] theorem join_none_right (e : Option Bytes) : join e none = none := by
  cases e <;> rfl

variable {size : Nat} {w w₁ w₂ : Bytes → Option Bytes} {e e₁ e₂ : Option Bytes}

namespace Writes

theorem emit (x : Bytes) : Writes size (Writer.emit size x) (some x) := fun _ _ => rfl

theorem skip : Writes size some (some []) := fun _ h => (emit_nil h).symm

theorem fail : Writes size (fun _ => none) none := fun _ _ => rfl

/-- What a writer that succeeds returns. -/
theorem eq_some (h : Writes size w e) {out out' : Bytes} (hl : out.length ≤ size)
    (hw : w out = some out') : ∃ x, e = some x ∧ out' = out ++ x ∧ out'.length ≤ size := by
  rw [h out hl] at hw
  cases e with
  | none => cases hw
  | some x => exact ⟨x, rfl, emit_eq_some hw⟩

/-- With room for it, the encoding is appended. -/
theorem of_room {x : Bytes} (h : Writes size w (some x)) {out : Bytes}
    (hroom : out.length + x.length ≤ size) :
    w out = some (out ++ x) := by
  rw [h out (by omega), Option.bind_some, Writer.emit, if_pos hroom]

/-- Two writers in sequence write their encodings in sequence; the second may lack room. -/
theorem seq (h₁ : Writes size w₁ e₁) (h₂ : Writes size w₂ e₂) :
    Writes size (fun out => (w₁ out).bind w₂) (join e₁ e₂) := by
  intro out hl
  show (w₁ out).bind w₂ = _
  rw [h₁ out hl]
  cases e₁ with
  | none => rfl
  | some x =>
    rw [Option.bind_some]
    cases ho : Writer.emit size x out with
    | none =>
      cases e₂ with
      | none => rfl
      | some y => simp [emit_append, ho]
    | some out' =>
      rw [Option.bind_some, h₂ out' (emit_eq_some ho).2]
      cases e₂ with
      | none => rfl
      | some y => simp [emit_append, ho]

/-- Each branch with its condition. -/
theorem ite {c : Prop} [Decidable c] (h₁ : c → Writes size w₁ e₁) (h₂ : ¬ c → Writes size w₂ e₂) :
    Writes size (fun out => if c then w₁ out else w₂ out) (if c then e₁ else e₂) := by
  intro out hl
  by_cases hc : c
  · simp only [if_pos hc]
    exact h₁ hc out hl
  · simp only [if_neg hc]
    exact h₂ hc out hl

end Writes

/-! ## Lists -/

/-- A writer for each element, in order. -/
def each {α : Type} (w : α → Bytes → Option Bytes) : List α → Bytes → Option Bytes
  | [], out => some out
  | a :: as, out => (w a out).bind (each w as)

/-- The encodings of the elements, in order. -/
def joinAll {α : Type} (e : α → Option Bytes) : List α → Option Bytes
  | [] => some []
  | a :: as => join (e a) (joinAll e as)

theorem join_assoc (e₁ e₂ e₃ : Option Bytes) : join (join e₁ e₂) e₃ = join e₁ (join e₂ e₃) := by
  cases e₁ with
  | none => rfl
  | some x =>
    cases e₂ with
    | none => rfl
    | some y =>
      cases e₃ with
      | none => rfl
      | some z => simp

theorem joinAll_append {α : Type} (e : α → Option Bytes) (as bs : List α) :
    joinAll e (as ++ bs) = join (joinAll e as) (joinAll e bs) := by
  induction as with
  | nil => cases h : joinAll e bs <;> simp [joinAll, h]
  | cons a as ih => rw [List.cons_append, joinAll, joinAll, ih, join_assoc]

theorem joinAll_some {α : Type} (f : α → Bytes) (as : List α) :
    joinAll (fun a => some (f a)) as = some (as.flatMap f) := by
  induction as with
  | nil => rfl
  | cons a as ih => rw [joinAll, ih, join_some, List.flatMap_cons]

/-- A sequence fails exactly if one of its parts does. -/
theorem joinAll_eq_none_iff {α : Type} {e : α → Option Bytes} {as : List α} :
    joinAll e as = none ↔ ∃ a ∈ as, e a = none := by
  induction as with
  | nil => simp [joinAll]
  | cons a as ih =>
    rw [joinAll, List.exists_mem_cons_iff, ← ih]
    constructor
    · intro h
      cases ha : e a with
      | none => exact Or.inl rfl
      | some x =>
        cases hx : joinAll e as with
        | none => exact Or.inr rfl
        | some y =>
          rw [ha, hx] at h
          cases h
    · intro h
      rcases h with h | h
      · rw [h, join_none_left]
      · rw [h, join_none_right]

/-- The bytes of an encoding, none where there is no encoding. -/
def written (e : Option Bytes) : Nat := (e.getD []).length

theorem length_joinAll {α : Type} {e : α → Option Bytes} {as : List α} {x : Bytes}
    (h : joinAll e as = some x) : x.length = (as.map fun a => written (e a)).sum := by
  induction as generalizing x with
  | nil =>
    cases h
    rfl
  | cons a as ih =>
    rw [joinAll] at h
    obtain ⟨y, hy, h⟩ := Option.bind_eq_some_iff.mp h
    obtain ⟨z, hz, rfl⟩ := Option.map_eq_some_iff.mp h
    rw [List.length_append, List.map_cons, List.sum_cons, ih hz, written, hy, Option.getD_some]

/-- A loop of writers, by induction on the elements. -/
theorem Writes.each {α : Type} {w : α → Bytes → Option Bytes} {e : α → Option Bytes}
    (h : ∀ a, Writes size (w a) (e a)) (as : List α) :
    Writes size (Writer.each w as) (joinAll e as) := by
  induction as with
  | nil => exact Writes.skip
  | cons a as ih => exact (h a).seq ih

/-! ## Length fields filled in afterwards -/

/-- A placeholder, what `w` writes, and the placeholder overwritten with a field of the same length
that depends on how many bytes `w` wrote. -/
def backpatch (size : Nat) (placeholder : Bytes) (field : Nat → Bytes) (w : Bytes → Option Bytes)
    (out : Bytes) : Option Bytes :=
  (Writer.emit size placeholder out).bind fun start =>
    (w start).bind fun out' => store size (field (out'.length - start.length)) out' out.length

/-- The field is as long as its placeholder, so that what stands behind it stays. -/
theorem Writes.backpatch {placeholder : Bytes} {field : Nat → Bytes}
    (hf : ∀ n, (field n).length = placeholder.length) (h : Writes size w e) :
    Writes size (Writer.backpatch size placeholder field w)
      (e.map fun x => field x.length ++ x) := by
  intro out hl
  show (Writer.emit size placeholder out).bind _ = _
  cases ho : Writer.emit size placeholder out with
  | none =>
    -- no room for the placeholder, and none for a field of its length
    cases e with
    | none => rfl
    | some x =>
      have hno : Writer.emit size (field x.length) out = none := by
        unfold Writer.emit at ho ⊢
        rw [hf]
        split at ho
        · cases ho
        · rw [if_neg (by assumption)]
      simp [emit_append, hno]
  | some start =>
    obtain ⟨rfl, hstart⟩ := emit_eq_some ho
    rw [Option.bind_some, h _ hstart]
    cases e with
    | none => rfl
    | some x =>
      rw [Option.bind_some, Option.map_some, Option.bind_some]
      rw [List.length_append] at hstart
      by_cases hx : (out ++ placeholder).length + x.length ≤ size
      · have hfit := hx
        rw [List.length_append] at hfit
        unfold Writer.emit
        rw [if_pos hx, Option.bind_some, List.append_assoc]
        rw [show (out ++ (placeholder ++ x)).length - (out ++ placeholder).length = x.length by
          simp only [List.length_append]; omega]
        rw [store, hf, if_pos hstart, poke_append rfl (hf _),
          if_pos (by rw [List.length_append, hf]; omega)]
      · unfold Writer.emit
        rw [if_neg hx, Option.bind_none, if_neg]
        rw [List.length_append] at hx ⊢
        rw [hf]
        omega

end Writer
