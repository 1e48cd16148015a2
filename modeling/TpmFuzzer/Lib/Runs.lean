import Mathlib.Data.List.Basic
import Mathlib.Data.List.Induction

/-!
# Runs of a step function

`run step s as` takes one step for each action of `as`.  A condition on steps is a relation `P`
between the state before the step and the action; `Always step s P as` says every step of the run
meets it.  Two rules, both by induction on the run:

* `run_invariant`: what the start satisfies and a step meeting `P` keeps holds after the run;
* `run_history`: the same for a relation between the actions so far and the state.

A third, `run_related`, is for two machines that take the same actions.

`latest note as k` is the last value the actions note for a key `k`:

    latest note as k = some v  ↔  some action notes v for k and none after it notes k
                                                                            (latest_eq_some_iff)
-/

namespace Runs

variable {σ α : Type} (step : σ → α → σ)

def run (s : σ) (as : List α) : σ := as.foldl step s

@[simp] theorem run_nil (s : σ) : run step s [] = s := rfl

theorem run_append (s : σ) (as bs : List α) :
    run step s (as ++ bs) = run step (run step s as) bs := by
  simp [run, List.foldl_append]

theorem run_snoc (s : σ) (as : List α) (a : α) :
    run step s (as ++ [a]) = step (run step s as) a := by
  rw [run_append]
  rfl

/-- Every step of the run meets `P`. -/
def Always (s : σ) (P : σ → α → Prop) (as : List α) : Prop :=
  ∀ pre a post, as = pre ++ a :: post → P (run step s pre) a

variable {step} {s : σ} {P : σ → α → Prop}

theorem Always.nil : Always step s P [] := by
  intro pre a post h
  simp at h

theorem always_snoc {as : List α} {a : α} :
    Always step s P (as ++ [a]) ↔ Always step s P as ∧ P (run step s as) a := by
  constructor
  · intro h
    refine ⟨fun pre b post hb => h pre b (post ++ [a]) (by rw [hb]; simp), h as a [] rfl⟩
  · rintro ⟨has, ha⟩ pre b post hb
    rcases List.eq_nil_or_concat post with rfl | ⟨post, c, rfl⟩
    · obtain ⟨rfl, hab⟩ := List.append_inj' hb rfl
      rw [← List.singleton_inj.mp hab]
      exact ha
    · rw [show pre ++ b :: (post.concat c) = (pre ++ b :: post) ++ [c] by simp] at hb
      exact has pre b post (List.append_inj_left' hb rfl)

theorem Always.snoc {as : List α} {a : α} (h : Always step s P as) (ha : P (run step s as) a) :
    Always step s P (as ++ [a]) := always_snoc.mpr ⟨h, ha⟩

/-- Conditions that agree on every step agree along a run. -/
theorem always_congr {Q : σ → α → Prop} (h : ∀ t a, P t a ↔ Q t a) (as : List α) :
    Always step s P as ↔ Always step s Q as := by
  constructor
  · intro hP pre a post has
    exact (h _ a).mp (hP pre a post has)
  · intro hQ pre a post has
    exact (h _ a).mpr (hQ pre a post has)

/-- A relation between the actions so far and the state, kept by every step that meets `P`. -/
theorem run_history {R : List α → σ → Prop} (h0 : R [] s)
    (hstep : ∀ pre a, R pre (run step s pre) → P (run step s pre) a →
      R (pre ++ [a]) (step (run step s pre) a)) :
    ∀ as, Always step s P as → R as (run step s as) := by
  intro as
  induction as using List.reverseRecOn with
  | nil => intro _; exact h0
  | append_singleton as a ih =>
    intro h
    rw [always_snoc] at h
    rw [run_snoc]
    exact hstep as a (ih h.1) h.2

theorem run_invariant {I : σ → Prop} (h0 : I s) (hstep : ∀ t a, I t → P t a → I (step t a)) :
    ∀ as, Always step s P as → I (run step s as) :=
  run_history (R := fun _ t => I t) h0 fun _ a hI hP => hstep _ a hI hP

/-- An invariant that every step keeps. -/
theorem run_invariant' {I : σ → Prop} (h0 : I s) (hstep : ∀ t a, I t → I (step t a)) (as : List α) :
    I (run step s as) :=
  run_invariant (P := fun _ _ => True) h0 (fun t a h _ => hstep t a h) as fun _ _ _ _ => trivial

/-- Two machines whose states are related step by step are related after a run of the same
actions. -/
theorem run_related {τ : Type} {spec : τ → α → τ} {R : σ → τ → Prop} {as : List α}
    (hstep : ∀ a ∈ as, ∀ s t, R s t → R (step s a) (spec t a)) {t : τ} (h0 : R s t) :
    R (run step s as) (run spec t as) := by
  induction as generalizing s t with
  | nil => exact h0
  | cons a as ih =>
    exact ih (fun b hb => hstep b (List.mem_cons_of_mem _ hb)) (hstep a List.mem_cons_self s t h0)

/-! ## The last value noted for a key -/

section
variable {κ ν : Type} (note : α → κ → Option ν)

def latest (as : List α) (k : κ) : Option ν :=
  as.foldl (fun acc a => (note a k).or acc) none

@[simp] theorem latest_nil (k : κ) : latest note [] k = none := rfl

theorem latest_snoc (as : List α) (a : α) (k : κ) :
    latest note (as ++ [a]) k = (note a k).or (latest note as k) := by
  simp [latest, List.foldl_append]

variable {note}

theorem latest_snoc_of_none {as : List α} {a : α} {k : κ} (h : note a k = none) :
    latest note (as ++ [a]) k = latest note as k := by
  rw [latest_snoc, h, Option.none_or]

theorem latest_snoc_of_some {as : List α} {a : α} {k : κ} {v : ν} (h : note a k = some v) :
    latest note (as ++ [a]) k = some v := by
  rw [latest_snoc, h, Option.some_or]

theorem latest_eq_some_iff {as : List α} {k : κ} {v : ν} :
    latest note as k = some v ↔
      ∃ pre a post, as = pre ++ a :: post ∧ note a k = some v ∧ ∀ b ∈ post, note b k = none := by
  induction as using List.reverseRecOn with
  | nil => simp
  | append_singleton as a ih =>
    cases ha : note a k with
    | some w =>
      rw [latest_snoc_of_some ha]
      constructor
      · intro h
        exact ⟨as, a, [], rfl, by rw [ha, h], by simp⟩
      · rintro ⟨pre, b, post, hb, hv, hpost⟩
        rcases List.eq_nil_or_concat post with rfl | ⟨post, c, rfl⟩
        · obtain ⟨-, hab⟩ := List.append_inj' hb rfl
          rw [← ha, List.singleton_inj.mp hab, hv]
        · rw [show pre ++ b :: (post.concat c) = (pre ++ b :: post) ++ [c] by simp] at hb
          obtain ⟨-, hac⟩ := List.append_inj' hb rfl
          have hnone := hpost c (by simp)
          rw [← List.singleton_inj.mp hac, ha] at hnone
          cases hnone
    | none =>
      rw [latest_snoc_of_none ha, ih]
      constructor
      · rintro ⟨pre, b, post, rfl, hv, hpost⟩
        refine ⟨pre, b, post ++ [a], by simp, hv, ?_⟩
        intro c hc
        rcases List.mem_append.mp hc with hc | hc
        · exact hpost c hc
        · rw [List.mem_singleton.mp hc, ha]
      · rintro ⟨pre, b, post, hb, hv, hpost⟩
        rcases List.eq_nil_or_concat post with rfl | ⟨post, c, rfl⟩
        · obtain ⟨-, hab⟩ := List.append_inj' hb rfl
          rw [← List.singleton_inj.mp hab, ha] at hv
          cases hv
        · rw [show pre ++ b :: (post.concat c) = (pre ++ b :: post) ++ [c] by simp] at hb
          exact ⟨pre, b, post, List.append_inj_left' hb rfl, hv, fun d hd => hpost d (by simp [hd])⟩

theorem latest_eq_none_iff {as : List α} {k : κ} :
    latest note as k = none ↔ ∀ a ∈ as, note a k = none := by
  induction as using List.reverseRecOn with
  | nil => simp
  | append_singleton as a ih =>
    rw [latest_snoc, Option.or_eq_none_iff, ih, List.forall_mem_append,
      List.forall_mem_singleton, and_comm]

end

/-! ## The order of the first occurrences -/

section
variable {κ : Type} [DecidableEq κ]

theorem eraseDups_snoc (l : List κ) (k : κ) :
    (l ++ [k]).eraseDups = if k ∈ l then l.eraseDups else l.eraseDups ++ [k] := by
  rw [List.eraseDups_append]
  by_cases h : k ∈ l
  · rw [if_pos h, show [k].removeAll l = [] by simp [List.removeAll, h]]
    exact List.append_nil _
  · rw [if_neg h, show [k].removeAll l = [k] by simp [List.removeAll, h]]
    rfl

theorem nodup_eraseDups (l : List κ) : l.eraseDups.Nodup := by
  induction l using List.reverseRecOn with
  | nil => exact List.nodup_nil
  | append_singleton l k ih =>
    rw [eraseDups_snoc]
    split
    · exact ih
    · next h =>
      rw [List.nodup_append]
      refine ⟨ih, by simp, ?_⟩
      intro a ha b hb hab
      rw [List.mem_singleton.mp hb] at hab
      exact h (List.mem_eraseDups.mp (hab ▸ ha))

end

end Runs
