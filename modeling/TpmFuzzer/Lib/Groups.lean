import Mathlib.Data.List.AList

/-!
# Maps with one entry for each group

A group is a predicate `G` on the keys of a finite map.  `AtMostOne G d` and `Sole G d v` count its
entries; `SameOn G d e` says that two maps agree on it.

    AtMostOne G d → G p → q ∈ d → G q →  (Sole G ((d.insert p v).erase q) v  ↔  p ≠ q)
                                                                              (sole_replace_iff)

Inserting an entry and then erasing the old one leaves one entry, unless they are the same.

`insertFirsts G d calls` inserts for each call only if its group has no entry.  The entries of `d`
stay, and the first call of each group that `d` leaves vacant enters (`lookup_insertFirsts_iff`).
-/

namespace Groups

variable {κ ν : Type} [DecidableEq κ] {G : κ → Prop} {d e : AList fun _ : κ => ν} {p q : κ} {v : ν}

/-- The group has at most one entry. -/
def AtMostOne (G : κ → Prop) (d : AList fun _ : κ => ν) : Prop :=
  ∀ p ∈ d, ∀ q ∈ d, G p → G q → p = q

/-- The group has one entry, with the value `v`. -/
def Sole (G : κ → Prop) (d : AList fun _ : κ => ν) (v : ν) : Prop :=
  ∃ p, G p ∧ d.lookup p = some v ∧ ∀ q ∈ d, G q → q = p

/-- The maps have the same entries in the group. -/
def SameOn (G : κ → Prop) (d e : AList fun _ : κ => ν) : Prop := ∀ p, G p → e.lookup p = d.lookup p

theorem mem_of_lookup (h : d.lookup p = some v) : p ∈ d :=
  AList.lookup_isSome.mp (by rw [h]; rfl)

theorem Sole.atMostOne (h : Sole G d v) : AtMostOne G d := by
  obtain ⟨p, -, -, hp⟩ := h
  intro q hq r hr hGq hGr
  rw [hp q hq hGq, hp r hr hGr]

/-! ## Maps that agree on a group -/

theorem SameOn.mem_iff (h : SameOn G d e) (hp : G p) : p ∈ e ↔ p ∈ d := by
  rw [← AList.lookup_isSome, ← AList.lookup_isSome, h p hp]

theorem SameOn.mono {G' : κ → Prop} (h : SameOn G d e) (hG : ∀ p, G' p → G p) : SameOn G' d e :=
  fun p hp => h p (hG p hp)

theorem SameOn.trans {f : AList fun _ : κ => ν} (h : SameOn G d e) (h' : SameOn G e f) :
    SameOn G d f :=
  fun p hp => (h' p hp).trans (h p hp)

/-- Whether a group has at most one entry depends on its entries alone. -/
theorem AtMostOne.of_sameOn (hone : AtMostOne G d) (h : SameOn G d e) : AtMostOne G e := by
  intro p hp q hq hGp hGq
  exact hone p ((h.mem_iff hGp).mp hp) q ((h.mem_iff hGq).mp hq) hGp hGq

/-- What the sole entry of a group is depends on its entries alone. -/
theorem Sole.of_sameOn (hsole : Sole G d v) (h : SameOn G d e) : Sole G e v := by
  obtain ⟨p, hp, hv, honly⟩ := hsole
  refine ⟨p, hp, ?_, fun q hq hGq => honly q ((h.mem_iff hGq).mp hq) hGq⟩
  rw [h p hp, hv]

/-! ## Inserting and erasing -/

/-- An entry of the group says nothing about keys outside it. -/
theorem lookup_insert_of_not (hp : ¬ G p) (hq : G q) : (d.insert q v).lookup p = d.lookup p :=
  AList.lookup_insert_ne fun h => hp (h ▸ hq)

theorem lookup_erase_of_not (hp : ¬ G p) (hq : G q) : (d.erase q).lookup p = d.lookup p :=
  AList.lookup_erase_ne fun h => hp (h ▸ hq)

/-- The first entry of a group is its sole one. -/
theorem sole_insert (hp : G p) (hnone : ∀ q ∈ d, ¬ G q) : Sole G (d.insert p v) v := by
  refine ⟨p, hp, AList.lookup_insert d, fun q hq hGq => ?_⟩
  rcases AList.mem_insert d |>.mp hq with h | h
  · exact h
  · exact absurd hGq (hnone q h)

/-- The new entry stays unless it took the key of the old one. -/
theorem sole_replace_iff (hone : AtMostOne G d) (hp : G p) (hq : q ∈ d) (hGq : G q) :
    Sole G ((d.insert p v).erase q) v ↔ p ≠ q := by
  have honly : ∀ r ∈ (d.insert p v).erase q, G r → r ≠ q ∧ r = p := by
    intro r hr hGr
    obtain ⟨hrq, hr⟩ := AList.mem_erase.mp hr
    rcases (AList.mem_insert d).mp hr with h | h
    · exact ⟨hrq, h⟩
    · exact absurd (hone r h q hq hGr hGq) hrq
  constructor
  · rintro ⟨r, hGr, hr, -⟩ rfl
    obtain ⟨hne, heq⟩ := honly r (mem_of_lookup hr) hGr
    exact hne heq
  · intro hpq
    refine ⟨p, hp, ?_, fun r hr hGr => (honly r hr hGr).2⟩
    rw [AList.lookup_erase_ne hpq, AList.lookup_insert]

/-! ## Groups without an entry -/

/-- The group has no entry. -/
def Vacant (G : κ → Prop) (d : AList fun _ : κ => ν) : Prop := ∀ q ∈ d, ¬ G q

instance [DecidablePred G] : Decidable (Vacant G d) :=
  inferInstanceAs (Decidable (∀ q ∈ d.keys, ¬ G q))

/-- The entries of `d` are in `e`. -/
def Grows (d e : AList fun _ : κ => ν) : Prop := ∀ p v, d.lookup p = some v → e.lookup p = some v

theorem Grows.refl (d : AList fun _ : κ => ν) : Grows d d := fun _ _ h => h

theorem Grows.trans {f : AList fun _ : κ => ν} (h : Grows d e) (h' : Grows e f) : Grows d f :=
  fun p v hp => h' p v (h p v hp)

theorem Grows.mem (h : Grows d e) (hp : p ∈ d) : p ∈ e := by
  obtain ⟨v, hv⟩ := Option.isSome_iff_exists.mp (AList.lookup_isSome.mpr hp)
  exact mem_of_lookup (h p v hv)

/-- A group that is vacant in the end was vacant all along. -/
theorem Grows.vacant (h : Grows d e) (he : Vacant G e) : Vacant G d := fun q hq => he q (h.mem hq)

/-- The entry goes in if its group has none; otherwise the map stays. -/
def insertFirst (G : κ → Prop) [DecidablePred G] (d : AList fun _ : κ => ν) (p : κ) (v : ν) :
    AList fun _ : κ => ν :=
  if Vacant G d then d.insert p v else d

section

variable {ι : Type} (G : ι → κ → Prop) [∀ i, DecidablePred (G i)]

/-- A call is a group, a key of the group and a value. -/
def insertFirsts (d : AList fun _ : κ => ν) (calls : List (ι × κ × ν)) : AList fun _ : κ => ν :=
  calls.foldl (fun d c => insertFirst (G c.1) d c.2.1 c.2.2) d

variable {G}

/-- No entry is lost: the new key is one that the map did not have. -/
theorem insertFirst_grows {i : ι} (hp : G i p) : Grows d (insertFirst (G i) d p v) := by
  intro q w hq
  unfold insertFirst
  split
  · next hvacant =>
    rw [AList.lookup_insert_ne]
    · exact hq
    · rintro rfl
      exact hvacant q (mem_of_lookup hq) hp
  · exact hq

/-- Afterwards the group has an entry, the new one or an old one. -/
theorem insertFirst_not_vacant {i : ι} (hp : G i p) : ¬ Vacant (G i) (insertFirst (G i) d p v) := by
  unfold insertFirst
  split
  · intro h
    exact h p ((AList.mem_insert d).mpr (Or.inl rfl)) hp
  · assumption

theorem insertFirsts_grows {calls : List (ι × κ × ν)} (hkeys : ∀ c ∈ calls, G c.1 c.2.1) :
    Grows d (insertFirsts G d calls) := by
  induction calls generalizing d with
  | nil => exact Grows.refl d
  | cons c calls ih =>
    obtain ⟨hc, hcalls⟩ := List.forall_mem_cons.mp hkeys
    exact (insertFirst_grows hc).trans (ih hcalls)

/-- Each group that was called has an entry afterwards. -/
theorem insertFirsts_not_vacant {calls : List (ι × κ × ν)} (hkeys : ∀ c ∈ calls, G c.1 c.2.1)
    {c : ι × κ × ν} (hc : c ∈ calls) : ¬ Vacant (G c.1) (insertFirsts G d calls) := by
  induction calls generalizing d with
  | nil => cases hc
  | cons b calls ih =>
    obtain ⟨hb, hcalls⟩ := List.forall_mem_cons.mp hkeys
    rcases List.mem_cons.mp hc with rfl | hc
    · intro hvacant
      exact insertFirst_not_vacant hb ((insertFirsts_grows hcalls).vacant hvacant)
    · exact ih hcalls hc

/-- Calls whose groups all have entries change nothing. -/
theorem insertFirsts_eq_self {calls : List (ι × κ × ν)} (h : ∀ c ∈ calls, ¬ Vacant (G c.1) d) :
    insertFirsts G d calls = d := by
  induction calls with
  | nil => rfl
  | cons c calls ih =>
    obtain ⟨hc, hcalls⟩ := List.forall_mem_cons.mp h
    have hsame : insertFirst (G c.1) d c.2.1 c.2.2 = d := if_neg hc
    show insertFirsts G (insertFirst (G c.1) d c.2.1 c.2.2) calls = d
    rw [hsame]
    exact ih hcalls

/-- What there was stays, and of each other group the first call enters. -/
theorem lookup_insertFirsts_iff [DecidableEq ι] {calls : List (ι × κ × ν)}
    (hkeys : ∀ c ∈ calls, G c.1 c.2.1)
    (hapart : ∀ c ∈ calls, ∀ c' ∈ calls, ∀ q, G c.1 q → G c'.1 q → c.1 = c'.1) :
    (insertFirsts G d calls).lookup p = some v ↔
      d.lookup p = some v ∨ ∃ i, Vacant (G i) d ∧ calls.find? (·.1 = i) = some (i, p, v) := by
  induction calls generalizing d with
  | nil => simp [insertFirsts]
  | cons c calls ih =>
    obtain ⟨i, q, w⟩ := c
    obtain ⟨hq, hcalls⟩ := List.forall_mem_cons.mp hkeys
    have hrest := ih (d := insertFirst (G i) d q w) hcalls fun a ha b hb =>
      hapart a (List.mem_cons_of_mem _ ha) b (List.mem_cons_of_mem _ hb)
    have hgrows : Grows d (insertFirst (G i) d q w) := insertFirst_grows hq
    show (insertFirsts G (insertFirst (G i) d q w) calls).lookup p = some v ↔ _
    rw [hrest]
    constructor
    · rintro (hp | ⟨j, hvacant, hfind⟩)
      · -- the entry was there, or it is the one of this call
        unfold insertFirst at hp
        split at hp
        · next hvacant =>
          by_cases hpq : p = q
          · subst hpq
            rw [AList.lookup_insert] at hp
            exact Or.inr ⟨i, hvacant, by simp [Option.some.inj hp]⟩
          · rw [AList.lookup_insert_ne hpq] at hp
            exact Or.inl hp
        · exact Or.inl hp
      · have hij : i ≠ j := by
          rintro rfl
          exact insertFirst_not_vacant hq hvacant
        exact Or.inr ⟨j, hgrows.vacant hvacant,
          by rw [List.find?_cons_of_neg (by simpa using hij), hfind]⟩
    · rintro (hp | ⟨j, hvacant, hfind⟩)
      · exact Or.inl (hgrows p v hp)
      · by_cases hij : i = j
        · subst hij
          rw [List.find?_cons_of_pos (by simp)] at hfind
          cases hfind
          refine Or.inl ?_
          rw [insertFirst, if_pos hvacant, AList.lookup_insert]
        · rw [List.find?_cons_of_neg (by simpa using hij)] at hfind
          refine Or.inr ⟨j, fun r hr hGr => ?_, hfind⟩
          -- only the key of this call is new, and it is in another group
          have hcall : (j, p, v) ∈ calls := List.mem_of_find?_eq_some hfind
          unfold insertFirst at hr
          split at hr
          · rcases (AList.mem_insert d).mp hr with rfl | hr
            · exact hij (hapart _ List.mem_cons_self _ (List.mem_cons_of_mem _ hcall) r hq hGr)
            · exact hvacant r hr hGr
          · exact hvacant r hr hGr

end

end Groups
