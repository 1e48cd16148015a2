import Mathlib.Data.List.Basic

/-!
# State that outlives an exception

`Eff ε σ α` reads and writes a `σ`, and returns an `α` or raises an `ε`.  What was written before it
raised stays written.

    (x >>= f) s = (.ok b, u)  ↔  ∃ a t, x s = (.ok a, t) ∧ f a t = (.ok b, u)    (bind_returns)
    forM l f s = (.ok (), u)  ↔  Chain f s l u                                   (forM_returns)

where a `Chain` has a state after each element.

`Moves R x` is about the states alone: `R` holds of the ones before and after `x`, which may raise.
`Alike I x y` is about the results: `x` keeps `I`, and from a state with `I` it returns or raises
what `y` does from any state.
-/

namespace Storing

/-- A state that stays as it is when an exception is raised. -/
abbrev Eff (ε σ : Type) := ExceptT ε (StateM σ)

variable {ε σ τ α β : Type}

/-- A computation without state. -/
def resume (x : Except ε α) : Eff ε σ α := fun s => (x, s)

/-- `x` on the part of the state that `get` reads and `set` writes. -/
def zoom (get : σ → τ) (set : σ → τ → σ) (x : Eff ε τ α) : Eff ε σ α := fun s =>
  let (a, t) := x (get s)
  (a, set s t)

/-! ## What an effect that returned did -/

theorem pure_returns {a b : α} {s u : σ} : (pure a : Eff ε σ α) s = (.ok b, u) ↔ a = b ∧ s = u := by
  constructor
  · intro h
    cases h
    exact ⟨rfl, rfl⟩
  · rintro ⟨rfl, rfl⟩
    rfl

/-- An exception in the first part is the exception of the whole, with the state it left. -/
theorem bind_apply (x : Eff ε σ α) (f : α → Eff ε σ β) (s : σ) :
    (x >>= f) s = match x s with
      | (.ok a, t) => f a t
      | (.error e, t) => (.error e, t) := by
  show ExceptT.bindCont f (x s).1 (x s).2 = _
  rcases x s with ⟨a | a, t⟩ <;> rfl

/-- What returned went through a state between its two parts. -/
theorem bind_returns {x : Eff ε σ α} {f : α → Eff ε σ β} {b : β} {s u : σ} :
    (x >>= f) s = (.ok b, u) ↔ ∃ a t, x s = (.ok a, t) ∧ f a t = (.ok b, u) := by
  rw [bind_apply]
  rcases x s with ⟨e | a, t⟩
  · constructor
    · intro h
      cases h
    · rintro ⟨a, t', h, -⟩
      cases h
  · constructor
    · exact fun h => ⟨a, t, rfl, h⟩
    · rintro ⟨a', t', h, hf⟩
      cases h
      exact hf

theorem resume_returns {x : Except ε α} {a : α} {s u : σ} :
    (resume x : Eff ε σ α) s = (.ok a, u) ↔ x = .ok a ∧ s = u :=
  iff_of_eq (Prod.mk.injEq ..)

/-- What returned on a part of the state put that part back. -/
theorem zoom_returns {get : σ → τ} {set : σ → τ → σ} {x : Eff ε τ α} {a : α} {s u : σ} :
    zoom get set x s = (.ok a, u) ↔ ∃ t, x (get s) = (.ok a, t) ∧ set s t = u := by
  unfold zoom
  rcases x (get s) with ⟨b, t⟩
  constructor
  · intro h
    cases h
    exact ⟨t, rfl, rfl⟩
  · rintro ⟨t', h, rfl⟩
    cases h
    rfl

/-! ## Loops -/

/-- `f` returns on every element in turn. -/
inductive Chain (f : α → Eff ε σ Unit) : σ → List α → σ → Prop
  | nil (s : σ) : Chain f s [] s
  | cons {s t u : σ} {a : α} {as : List α} : f a s = (.ok (), t) →
      Chain f t as u → Chain f s (a :: as) u

/-- A loop that returned went through a state after each element. -/
theorem forM_returns {f : α → Eff ε σ Unit} {as : List α} {s u : σ} :
    (forM as f : Eff ε σ Unit) s = (.ok (), u) ↔ Chain f s as u := by
  induction as generalizing s with
  | nil =>
    constructor
    · intro h
      cases h
      exact .nil _
    · intro h
      cases h
      rfl
  | cons a as ih =>
    rw [List.forM_cons, bind_returns]
    constructor
    · rintro ⟨⟨⟩, t, ha, has⟩
      exact .cons ha (ih.mp has)
    · intro h
      cases h with
      | cons ha has => exact ⟨(), _, ha, ih.mpr has⟩

/-- Two loops one after the other. -/
theorem Chain.append {f : α → Eff ε σ Unit} {s t u : σ} {as bs : List α} (h : Chain f s as t)
    (h' : Chain f t bs u) : Chain f s (as ++ bs) u := by
  induction h with
  | nil s => exact h'
  | cons ha _ ih => exact .cons ha (ih h')

/-- Each element of a loop that returned has returned. -/
theorem Chain.exists_of_mem {f : α → Eff ε σ Unit} {s u : σ} {as : List α} (h : Chain f s as u)
    {a : α} (ha : a ∈ as) : ∃ t v, f a t = (.ok (), v) := by
  induction h with
  | nil s => cases ha
  | cons hb _ ih =>
    rcases List.mem_cons.mp ha with rfl | ha
    · exact ⟨_, _, hb⟩
    · exact ih ha

/-- Where each element of a loop does what `g` does along `calls a`, the loop does what `g` does
along all the calls. -/
theorem Chain.flatMap (view : σ → τ) {f : α → Eff ε σ Unit} {g : β → Eff ε τ Unit}
    {calls : α → List β}
    (hstep : ∀ a s u, f a s = (.ok (), u) → Chain g (view s) (calls a) (view u)) {s u : σ}
    {as : List α} (h : Chain f s as u) : Chain g (view s) (as.flatMap calls) (view u) := by
  induction h with
  | nil s => exact .nil (view s)
  | cons ha _ ih => exact (hstep _ _ _ ha).append ih

/-- A loop whose body always returns is a fold. -/
theorem Chain.eq_foldl {f : α → Eff ε σ Unit} {step : σ → α → σ} {s u : σ} {as : List α}
    (h : Chain f s as u) (hstep : ∀ a ∈ as, ∀ s, f a s = (.ok (), step s a)) :
    u = as.foldl step s := by
  induction h with
  | nil s => rfl
  | @cons s t u a as ha _ ih =>
    obtain ⟨hhead, htail⟩ := List.forall_mem_cons.mp hstep
    have ht : t = step s a := (Prod.mk.inj (ha.symm.trans (hhead s))).2
    rw [List.foldl_cons, ← ht]
    exact ih htail

/-! ## What an effect did, if it returned or not -/

/-- `R` relates the states before and after, whether `x` returned or raised. -/
def Moves (R : σ → σ → Prop) (x : Eff ε σ α) : Prop := ∀ s, R s (x s).2

section

variable {R : σ → σ → Prop}

theorem moves_pure (hrefl : ∀ s, R s s) (a : α) : Moves R (pure a : Eff ε σ α) := hrefl

theorem moves_resume (hrefl : ∀ s, R s s) (x : Except ε α) : Moves R (resume x : Eff ε σ α) := hrefl

theorem moves_bind (htrans : ∀ s t u, R s t → R t u → R s u) {x : Eff ε σ α} {f : α → Eff ε σ β}
    (hx : Moves R x) (hf : ∀ a, Moves R (f a)) : Moves R (x >>= f) := by
  intro s
  have hmove := hx s
  rw [bind_apply]
  rcases hxs : x s with ⟨e | a, t⟩ <;> rw [hxs] at hmove
  · exact hmove
  · exact htrans _ _ _ hmove (hf a t)

theorem moves_zoom {Q : τ → τ → Prop} {get : σ → τ} {set : σ → τ → σ} {x : Eff ε τ α}
    (hset : ∀ s t, Q (get s) t → R s (set s t)) (hx : Moves Q x) : Moves R (zoom get set x) :=
  fun s => hset s _ (hx (get s))

/-- Of a loop, for a reflexive and transitive `R`; by induction on the elements. -/
theorem moves_forM (hrefl : ∀ s, R s s) (htrans : ∀ s t u, R s t → R t u → R s u)
    {f : α → Eff ε σ Unit} (hf : ∀ a, Moves R (f a)) (as : List α) :
    Moves R (forM as f : Eff ε σ Unit) := by
  induction as with
  | nil => exact moves_pure hrefl ()
  | cons a as ih =>
    rw [List.forM_cons]
    exact moves_bind htrans (hf a) fun _ => ih

end

/-! ## What an effect returns, whatever the state -/

/-- From a state with `I`, `x` keeps `I` and ends as `y` does from any state. -/
def Alike (I : σ → Prop) (x y : Eff ε σ α) : Prop := ∀ s, I s → I (x s).2 ∧ ∀ t, (x s).1 = (y t).1

section

variable {I : σ → Prop}

theorem alike_pure (a : α) : Alike I (pure a : Eff ε σ α) (pure a) := fun _ hs => ⟨hs, fun _ => rfl⟩

theorem alike_resume (x : Except ε α) : Alike I (resume x : Eff ε σ α) (resume x) :=
  fun _ hs => ⟨hs, fun _ => rfl⟩

/-- The second parts have to be alike only for what the first can return. -/
theorem alike_bind {x y : Eff ε σ α} {f g : α → Eff ε σ β} (hx : Alike I x y)
    (hf : ∀ a, (∃ s t, x s = (.ok a, t)) → Alike I (f a) (g a)) : Alike I (x >>= f) (y >>= g) := by
  intro s hs
  obtain ⟨hkeep, hsame⟩ := hx s hs
  rw [bind_apply]
  rcases hxs : x s with ⟨e | a, s'⟩
  · rw [hxs] at hkeep hsame
    refine ⟨hkeep, fun t => ?_⟩
    have hy := hsame t
    rw [bind_apply]
    rcases hyt : y t with ⟨e' | b, t'⟩ <;> rw [hyt] at hy <;> cases hy
    rfl
  · rw [hxs] at hkeep hsame
    obtain ⟨hrest, hresult⟩ := hf a ⟨s, s', hxs⟩ s' hkeep
    refine ⟨hrest, fun t => ?_⟩
    have hy := hsame t
    rw [bind_apply]
    rcases hyt : y t with ⟨e' | b, t'⟩ <;> rw [hyt] at hy <;> cases hy
    exact hresult t'

theorem alike_zoom {J : τ → Prop} {get : σ → τ} {set : σ → τ → σ} {x y : Eff ε τ α}
    (hget : ∀ s, I s → J (get s)) (hset : ∀ s t, I s → J t → I (set s t)) (h : Alike J x y) :
    Alike I (zoom get set x) (zoom get set y) := by
  intro s hs
  obtain ⟨hkeep, hsame⟩ := h (get s) (hget s hs)
  exact ⟨hset s _ hs hkeep, fun t => hsame (get t)⟩

/-- Loops whose bodies are alike for each element. -/
theorem alike_forM {f g : α → Eff ε σ Unit} {as : List α} (hf : ∀ a ∈ as, Alike I (f a) (g a)) :
    Alike I (forM as f : Eff ε σ Unit) (forM as g) := by
  induction as with
  | nil => exact alike_pure ()
  | cons a as ih =>
    obtain ⟨ha, has⟩ := List.forall_mem_cons.mp hf
    rw [List.forM_cons, List.forM_cons]
    exact alike_bind ha fun _ _ => ih has

end

end Storing
