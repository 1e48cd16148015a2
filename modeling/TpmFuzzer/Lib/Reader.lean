import Mathlib.Data.List.Basic

/-!
# Readers

A reader takes what it reads off the front of its input, or fails.  `Reads p x a`: in front of
anything, `p` takes exactly `x` and makes `a` of it.

* Readers in sequence read what was written one behind the other (`Reads.bind`).
* A reader that is confined to a field has to read all of it (`Reads.within`).
* A list is read by its number of elements (`Reads.times`) or to the end of the input
  (`readAll_flatMap`).

`Spells p enc` is the converse: whatever `p` takes is what `enc` writes for the result.  A reader
that is run on the `window` of a buffer between two offsets does what a program with offset checks
does (`run_takeN_window`).
-/

namespace Reading

variable {τ α β γ : Type}

/-- `τ` is the type of the letters. -/
abbrev Reader (τ α : Type) := StateT (List τ) Option α

def Reads (p : Reader τ α) (x : List τ) (a : α) : Prop := ∀ rest, p.run (x ++ rest) = some (a, rest)

/-- The whole input. -/
def whole (p : Reader τ α) (x : List τ) : Option α :=
  match p.run x with
  | some (a, []) => some a
  | _ => none

def takeN (n : Nat) : Reader τ (List τ) := fun l =>
  if n ≤ l.length then some (l.take n, l.drop n) else none

/-- Everything that is left. -/
def remaining : Reader τ (List τ) := fun l => some (l, [])

/-- `p` on the next `n` letters, all of which it has to read. -/
def within (n : Nat) (p : Reader τ α) : Reader τ α := do
  let x ← takeN n
  match whole p x with
  | some a => pure a
  | none => failure

/-- One after the other, by induction on the number. -/
def times (p : Reader τ α) : Nat → Reader τ (List α)
  | 0 => pure []
  | n + 1 => do
    let a ← p
    let as ← times p n
    return a :: as

/-- `p` again and again, at most `n` times, until nothing is left. -/
def readLoop (p : Reader τ α) : Nat → List τ → Option (List α)
  | _, [] => some []
  | 0, _ => none
  | n + 1, l => do
    let (a, rest) ← p.run l
    let as ← readLoop p n rest
    return a :: as

def readAll (p : Reader τ α) (l : List τ) : Option (List α) := readLoop p l.length l

/-! ## Rules -/

namespace Reads

variable {p : Reader τ α} {x y : List τ} {a : α} {b : β}

protected theorem pure (a : α) : Reads (pure a : Reader τ α) [] a := fun _ => rfl

protected theorem bind {q : α → Reader τ β} (hp : Reads p x a) (hq : Reads (q a) y b) :
    Reads (p >>= q) (x ++ y) b := by
  intro rest
  rw [StateT.run_bind, List.append_assoc, hp (y ++ rest)]
  exact hq rest

/-- The last reader of a sequence. -/
theorem bind_nil {q : α → Reader τ β} (hp : Reads p x a) (hq : Reads (q a) [] b) :
    Reads (p >>= q) x b := by
  have h := hp.bind hq
  rwa [List.append_nil] at h

theorem takeN (x : List τ) : Reads (takeN x.length) x x := by
  intro rest
  show (if x.length ≤ (x ++ rest).length then
    some ((x ++ rest).take x.length, (x ++ rest).drop x.length) else none) = _
  rw [if_pos (by simp), List.take_left, List.drop_left]

protected theorem whole (hp : Reads p x a) : whole p x = some a := by
  have h := hp []
  rw [List.append_nil] at h
  unfold Reading.whole
  rw [h]

theorem within (hp : Reads p x a) : Reads (within x.length p) x a := by
  refine (Reads.takeN x).bind_nil ?_
  rw [hp.whole]
  exact Reads.pure a

theorem times {f : γ → List τ} {g : γ → α} {cs : List γ} (h : ∀ c ∈ cs, Reads p (f c) (g c)) :
    Reads (times p cs.length) (cs.flatMap f) (cs.map g) := by
  induction cs with
  | nil => exact Reads.pure []
  | cons c cs ih =>
    have hcs := ih fun c hc => h c (List.mem_cons_of_mem _ hc)
    exact (h c List.mem_cons_self).bind (hcs.bind_nil (Reads.pure _))

end Reads

variable {p : Reader τ α}

/-- With enough fuel the loop reads to the end, as every element takes something. -/
theorem readLoop_flatMap {f : γ → List τ} {g : γ → α} {cs : List γ}
    (h : ∀ c ∈ cs, Reads p (f c) (g c) ∧ f c ≠ []) :
    ∀ n, (cs.flatMap f).length ≤ n → readLoop p n (cs.flatMap f) = some (cs.map g) := by
  induction cs with
  | nil =>
    intro n _
    cases n <;> rfl
  | cons c cs ih =>
    intro n hn
    obtain ⟨hread, hne⟩ := h c List.mem_cons_self
    have hpos := List.length_pos_iff.mpr hne
    rw [List.flatMap_cons, List.length_append] at hn
    obtain ⟨m, rfl⟩ : ∃ m, n = m + 1 := ⟨n - 1, by omega⟩
    have hcs := ih (fun c hc => h c (List.mem_cons_of_mem _ hc)) m (by omega)
    have hcons : f c ++ cs.flatMap f ≠ [] := fun hnil => hne (List.append_eq_nil_iff.mp hnil).1
    rw [List.flatMap_cons, readLoop.eq_3 p _ m hcons, hread]
    show (readLoop p m (cs.flatMap f)).bind (fun as => some (g c :: as)) = _
    rw [hcs]
    rfl

/-- No element is empty, so reading to the end finds each of them. -/
theorem readAll_flatMap {f : γ → List τ} {g : γ → α} {cs : List γ}
    (h : ∀ c ∈ cs, Reads p (f c) (g c) ∧ f c ≠ []) : readAll p (cs.flatMap f) = some (cs.map g) :=
  readLoop_flatMap h _ (Nat.le_refl _)

/-! ## What a reader has taken -/

def Spells (p : Reader τ α) (enc : α → List τ) : Prop :=
  ∀ l a rest, p.run l = some (a, rest) → l = enc a ++ rest

theorem whole_eq_some_iff {l : List τ} {a : α} : whole p l = some a ↔ p.run l = some (a, []) := by
  unfold whole
  cases hp : p.run l with
  | none => simp
  | some r =>
    obtain ⟨b, rest⟩ := r
    cases rest with
    | nil => simp
    | cons x rest => simp

theorem run_takeN_eq_some {n : Nat} {l x rest : List τ} (h : (takeN n).run l = some (x, rest)) :
    l = x ++ rest ∧ x.length = n := by
  have h' : (if n ≤ l.length then some (l.take n, l.drop n) else none) = some (x, rest) := h
  split at h'
  · next hn =>
    cases h'
    exact ⟨(List.take_append_drop n l).symm, by rw [List.length_take]; omega⟩
  · cases h'

/-- A sequence took what its parts took. -/
theorem run_bind_eq_some {q : α → Reader τ β} {l rest : List τ} {b : β} :
    (p >>= q).run l = some (b, rest) ↔ ∃ a mid, p.run l = some (a, mid) ∧
      (q a).run mid = some (b, rest) := by
  rw [StateT.run_bind]
  show (p.run l).bind (fun r => (q r.1).run r.2) = some (b, rest) ↔ _
  rw [Option.bind_eq_some_iff]
  constructor
  · rintro ⟨⟨a, mid⟩, hp, hq⟩
    exact ⟨a, mid, hp, hq⟩
  · rintro ⟨a, mid, hp, hq⟩
    exact ⟨(a, mid), hp, hq⟩

theorem run_bind_of_some {q : α → Reader τ β} {l mid : List τ} {a : α}
    (h : p.run l = some (a, mid)) :
    (p >>= q).run l = (q a).run mid := by
  rw [StateT.run_bind, h]
  rfl

theorem run_bind_of_none {q : α → Reader τ β} {l : List τ} (h : p.run l = none) :
    (p >>= q).run l = none := by
  rw [StateT.run_bind, h]
  rfl

theorem run_pure_eq_some {a b : α} {l rest : List τ} :
    (pure a : Reader τ α).run l = some (b, rest) ↔ a = b ∧ l = rest := by
  show some (a, l) = some (b, rest) ↔ _
  simp

/-- What is left for the next reader. -/
theorem Reads.whole_bind {x : List τ} {a : α} (hp : Reads p x a) (q : α → Reader τ β) (y : List τ) :
    Reading.whole (p >>= q) (x ++ y) = Reading.whole (q a) y := by
  unfold Reading.whole
  rw [run_bind_of_some (hp y)]

theorem whole_bind_pure (f : α → β) (l : List τ) :
    whole (p >>= fun a => (pure (f a) : Reader τ β)) l = (whole p l).map f := by
  unfold whole
  cases hp : p.run l with
  | none => rw [run_bind_of_none hp]; rfl
  | some r =>
    obtain ⟨a, rest⟩ := r
    rw [run_bind_of_some hp]
    cases rest <;> rfl

/-- A list was taken element by element. -/
theorem spells_times {enc : α → List τ} (h : Spells p enc) (n : Nat) :
    ∀ l as rest, (times p n).run l = some (as, rest) →
      l = as.flatMap enc ++ rest ∧ as.length = n := by
  induction n with
  | zero =>
    intro l as rest hl
    obtain ⟨rfl, rfl⟩ := run_pure_eq_some.mp hl
    exact ⟨rfl, rfl⟩
  | succ n ih =>
    intro l as rest hl
    obtain ⟨a, mid, ha, hl⟩ := run_bind_eq_some.mp hl
    obtain ⟨as', mid', has, hl⟩ := run_bind_eq_some.mp hl
    obtain ⟨rfl, rfl⟩ := run_pure_eq_some.mp hl
    obtain ⟨rfl, rfl⟩ := ih mid as' mid' has
    rw [h l a _ ha]
    exact ⟨by simp, rfl⟩

/-- The part of the input was used up. -/
theorem spells_within {enc : α → List τ} (h : Spells p enc) {n : Nat} {l rest : List τ} {a : α}
    (hl : (within n p).run l = some (a, rest)) : l = enc a ++ rest ∧ (enc a).length = n := by
  obtain ⟨x, mid, hx, hmid⟩ := run_bind_eq_some.mp hl
  obtain ⟨hsplit, hn⟩ := run_takeN_eq_some hx
  cases hw : whole p x with
  | none =>
    rw [hw] at hmid
    cases hmid
  | some b =>
    rw [hw] at hmid
    obtain ⟨rfl, rfl⟩ := run_pure_eq_some.mp hmid
    have hb := h x b [] (whole_eq_some_iff.mp hw)
    rw [List.append_nil] at hb
    exact ⟨by rw [← hb, hsplit], by rw [← hb, hn]⟩

/-! ## Windows of a buffer -/

/-- The letters of `b` from offset `i` up to offset `e`. -/
def window (b : List τ) (i e : Nat) : List τ := (b.take e).drop i

section

variable {b : List τ} {i e : Nat}

theorem length_window (he : e ≤ b.length) : (window b i e).length = e - i := by
  simp only [window, List.length_drop, List.length_take]
  omega

theorem window_self (b : List τ) (i : Nat) : window b i i = [] :=
  List.drop_eq_nil_of_le (List.length_take_le i b)

theorem run_takeN_window (n : Nat) (hi : i ≤ e) (he : e ≤ b.length) :
    (takeN n).run (window b i e) =
      if i + n ≤ e then some (window b i (i + n), window b (i + n) e) else none := by
  show (if n ≤ (window b i e).length then
    some ((window b i e).take n, (window b i e).drop n) else none) = _
  rw [length_window he]
  by_cases h : i + n ≤ e
  · rw [if_pos (by omega), if_pos h]
    simp only [window, List.drop_drop, List.take_drop, List.take_take, Nat.min_eq_left h]
  · rw [if_neg (by omega), if_neg h]

theorem run_within_window (p : Reader τ α) (n : Nat) (hi : i ≤ e) (he : e ≤ b.length) :
    (within n p).run (window b i e) =
      if i + n ≤ e then (whole p (window b i (i + n))).map fun a =>
          (a, window b (i + n) e) else none := by
  show ((takeN n).run (window b i e)).bind (fun r => StateT.run (match whole p r.1 with
    | some a => (pure a : Reader τ α)
    | none => failure) r.2) = _
  rw [run_takeN_window n hi he]
  split
  · rw [Option.bind_some]
    cases whole p (window b i (i + n)) <;> rfl
  · rfl

end

end Reading
