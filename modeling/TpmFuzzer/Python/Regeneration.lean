import TpmFuzzer.Lib.Groups
import TpmFuzzer.Lib.Text
import TpmFuzzer.Python.Seeds

/-!
# Regenerating seeds

`_create_variant` writes the new file of a variant and then removes the old one by name.  In the
minute the old file was made they are the same file:

    AtMostOne (IsVariant name) d  →  createVariant .. d = (.ok (), d')  →
      (Sole (IsVariant name) d' content  ↔  FreshOrEqual d name timestamp content)
                                                                        (createVariant_sole_iff)

Runs of the program whose calls all meet that condition keep the latest content of every variant.
-/

namespace Python

open Py Storing Groups
open Text (append_cons_inj)

/-! ## One call -/

/-- No file of this minute has other content. -/
def FreshOrEqual (d : Directory) (name timestamp : Str) (content : Bytes) : Prop :=
  ∀ data, d.lookup (variantFile name timestamp) = some data → data = content

theorem isVariant_variantFile (name timestamp : Str) :
    IsVariant name (variantFile name timestamp) :=
  ⟨timestamp, by rw [variantFile, List.append_assoc, List.singleton_append]⟩

theorem runScript_keeps {script : TestScript} {file out : Str} {d e : Directory}
    (h : runScript script file d = (.ok out, e)) : d = e := (Prod.mk.inj h).2

theorem ofResult_returns {σ α : Type} {x : Result α} {a : α} {s u : σ}
    (h : ofResult x s = (.ok a, u)) :
    x = .ok a ∧ s = u := by
  obtain ⟨hx, hs⟩ := resume_returns.mp h
  cases x with
  | error e => cases hx
  | ok b =>
    cases hx
    exact ⟨rfl, hs⟩

theorem compareVariants_keeps {script : TestScript} {out current : Str} {data content : Bytes}
    {proto : Bool} {d e : Directory}
    (h : compareVariants script out current data content proto d = (.ok (), e)) : d = e := by
  unfold compareVariants at h
  split at h
  · simp only [bind_returns, pure_returns] at h
    obtain ⟨_, _, hactual, _, _, hsection, _, _, hexpected, _, _, hsection', -, rfl⟩ := h
    rw [runScript_keeps hactual, (ofResult_returns hsection).2, runScript_keeps hexpected,
      (ofResult_returns hsection').2]
  · simp only [bind_returns, pure_returns] at h
    obtain ⟨_, _, hdata, _, _, hcontent, -, rfl⟩ := h
    rw [(ofResult_returns hdata).2, (ofResult_returns hcontent).2]

theorem readFile_eq_ok {name : Str} {data : Bytes} {d e : Directory}
    (h : readFile name d = (.ok data, e)) :
    d.lookup name = some data ∧ d = e := by
  unfold readFile at h
  split at h
  · next hd =>
    cases h
    exact ⟨hd, rfl⟩
  · cases h

theorem remove_eq_ok {name : Str} {d e : Directory} (h : remove name d = (.ok (), e)) :
    e = d.erase name := by
  unfold remove at h
  split at h
  · cases h
    rfl
  · cases h

/-- What a call with `force` did that returned: it wrote the first file of the variant, kept the
file there was, or wrote the new file and removed the old one. -/
theorem createVariant_eq_ok {script : TestScript} {name timestamp : Str} {content : Bytes}
    {proto : Bool} {d e : Directory}
    (h : createVariant script name timestamp content true proto d = (.ok (), e)) :
    ((∀ q ∈ d, ¬ IsVariant name q) ∧ e = d.insert (variantFile name timestamp) content) ∨
      ∃ out data, IsVariant name out ∧ d.lookup out = some data ∧
        (data = content ∧ e = d ∨
          data ≠ content ∧ e = (d.insert (variantFile name timestamp) content).erase out) := by
  unfold createVariant at h
  obtain ⟨names, _, hnames, h⟩ := bind_returns.mp h
  cases hnames
  generalize hexisting : d.keys.filter (IsVariant name) = existing at h
  cases existing with
  | cons out rest =>
    right
    have hmem : out ∈ d.keys.filter (IsVariant name) := by
      rw [hexisting]
      exact List.mem_cons_self
    have hvariant : IsVariant name out := by simpa using (List.mem_filter.mp hmem).2
    obtain ⟨data, _, hread, h⟩ := bind_returns.mp h
    obtain ⟨hdata, rfl⟩ := readFile_eq_ok hread
    refine ⟨out, data, hvariant, hdata, ?_⟩
    split at h
    · next hne =>
      obtain ⟨_, _, hwrite, h⟩ := bind_returns.mp h
      cases hwrite
      obtain ⟨_, _, hcompare, h⟩ := bind_returns.mp h
      obtain rfl := compareVariants_keeps hcompare
      exact Or.inr ⟨hne.1, remove_eq_ok h⟩
    · next heq =>
      obtain ⟨-, rfl⟩ := pure_returns.mp h
      exact Or.inl ⟨by simpa using heq, rfl⟩
  | nil =>
    left
    cases h
    refine ⟨fun q hq hvariant => ?_, rfl⟩
    have hmem : q ∈ d.keys.filter (IsVariant name) :=
      List.mem_filter.mpr ⟨AList.mem_keys.mp hq, by simpa using hvariant⟩
    rw [hexisting] at hmem
    exact List.not_mem_nil hmem

section

variable {script : TestScript} {name timestamp : Str} {content : Bytes} {proto : Bool}
    {d e : Directory}

/-- A call touches no file of another variant. -/
theorem createVariant_others
    (h : createVariant script name timestamp content true proto d = (.ok (), e)) :
    SameOn (fun p => ¬ IsVariant name p) d e := by
  intro p hp
  have hfile := isVariant_variantFile name timestamp
  rcases createVariant_eq_ok h with ⟨-, rfl⟩ | ⟨out, data, hout, -, ⟨-, rfl⟩ | ⟨-, rfl⟩⟩
  · exact lookup_insert_of_not hp hfile
  · rfl
  · rw [lookup_erase_of_not hp hout, lookup_insert_of_not hp hfile]

theorem createVariant_sole_iff (hone : AtMostOne (IsVariant name) d)
    (h : createVariant script name timestamp content true proto d = (.ok (), e)) :
    Sole (IsVariant name) e content ↔ FreshOrEqual d name timestamp content := by
  have hfile := isVariant_variantFile name timestamp
  have hsame : ∀ {out data}, IsVariant name out → d.lookup out = some data →
      ∀ data', d.lookup (variantFile name timestamp) = some data' →
        variantFile name timestamp = out := by
    intro out data hout hdata data' hdata'
    exact hone _ (mem_of_lookup hdata') _ (mem_of_lookup hdata) hfile hout
  rcases createVariant_eq_ok h with ⟨hnone, rfl⟩ | ⟨out, data, hout, hdata, ⟨rfl, rfl⟩ | ⟨hne, rfl⟩⟩
  · -- the first file
    refine iff_of_true (sole_insert hfile hnone) fun data hdata => ?_
    exact absurd hfile (hnone _ (mem_of_lookup hdata))
  · -- nothing has changed
    refine iff_of_true ⟨out, hout, hdata, fun q hq hGq => ?_⟩ fun data' hdata' => ?_
    · exact hone q hq out (mem_of_lookup hdata) hGq hout
    · rw [hsame hout hdata data' hdata', hdata] at hdata'
      exact (Option.some.inj hdata').symm
  · -- the old file is removed
    rw [sole_replace_iff hone hfile (mem_of_lookup hdata) hout]
    constructor
    · intro hfresh data' hdata'
      exact absurd (hsame hout hdata data' hdata') hfresh
    · rintro hclear rfl
      exact hne (hclear data hdata)

end

/-! ## The names of variants -/

def IsSeedName (name : Str) : Prop := ∃ cmd i, '-' ∉ cmd ∧ name = variantName cmd i

/-- A file name says which variant it is of. -/
theorem variantName_inj {cmd cmd' : Str} {i j : Nat} {p : Str} (hcmd : '-' ∉ cmd)
    (hcmd' : '-' ∉ cmd') (h : IsVariant (variantName cmd i) p)
    (h' : IsVariant (variantName cmd' j) p) : cmd = cmd' ∧ i = j := by
  have hdigits : ∀ n, '-' ∉ Nat.toDigits 10 n := by
    intro n hmem
    have hdigit := Nat.isDigit_of_mem_toDigits (by decide) (by decide) hmem
    exact absurd hdigit (by decide)
  have hsplit : ∀ (c t : Str) (n : Nat), variantName c n ++ ['-'] ++ t =
      c ++ '-' :: ("variant".toList ++ (Nat.toDigits 10 n ++ '-' :: t)) := by
    intro c t n
    simp [variantName]
  obtain ⟨t, ht⟩ := h
  obtain ⟨t', ht'⟩ := h'
  rw [← ht', hsplit, hsplit] at ht
  obtain ⟨rfl, hrest⟩ := append_cons_inj hcmd hcmd' ht
  obtain ⟨hij, -⟩ := append_cons_inj (hdigits i) (hdigits j) (List.append_cancel_left hrest)
  refine ⟨rfl, ?_⟩
  rw [← Nat.ofDigitChars_ten_toDigits (n := i), hij, Nat.ofDigitChars_ten_toDigits]

theorem IsSeedName.eq_of_isVariant {name name' p : Str} (hname : IsSeedName name)
    (hname' : IsSeedName name') (h : IsVariant name p) (h' : IsVariant name' p) : name = name' := by
  obtain ⟨cmd, i, hcmd, rfl⟩ := hname
  obtain ⟨cmd', j, hcmd', rfl⟩ := hname'
  obtain ⟨rfl, rfl⟩ := variantName_inj hcmd hcmd' h h'
  rfl

/-! ## The calls for many variants -/

theorem FreshOrEqual.of_sameOn {d e : Directory} {name timestamp : Str} {content : Bytes}
    (h : FreshOrEqual d name timestamp content) (hsame : SameOn (IsVariant name) d e) :
    FreshOrEqual e name timestamp content := by
  intro data hdata
  rw [hsame _ (isVariant_variantFile name timestamp)] at hdata
  exact h data hdata

/-- Calls for variants that have no file in common leave each of them with its content. -/
theorem createVariants_sole {script : TestScript} {timestamp : Str} {proto : Bool} {d e : Directory}
    {calls : List (Str × Bytes)}
    (h : Chain (fun v : Str × Bytes => createVariant script v.1 timestamp v.2 true proto) d calls e)
    (hapart : calls.Pairwise fun v w => ∀ p, IsVariant v.1 p → ¬ IsVariant w.1 p)
    (hone : ∀ v ∈ calls, AtMostOne (IsVariant v.1) d)
    (hfresh : ∀ v ∈ calls, FreshOrEqual d v.1 timestamp v.2) :
    (∀ v ∈ calls, Sole (IsVariant v.1) e v.2) ∧ SameOn
      (fun p => ∀ v ∈ calls, ¬ IsVariant v.1 p) d e := by
  induction h with
  | nil s => exact ⟨fun v hv => absurd hv List.not_mem_nil, fun _ _ => rfl⟩
  | @cons d t e v calls hv _ ih =>
    obtain ⟨hv_apart, hcalls_apart⟩ := List.pairwise_cons.mp hapart
    have hsole := (createVariant_sole_iff (hone v List.mem_cons_self) hv).mpr
      (hfresh v List.mem_cons_self)
    have hothers := createVariant_others hv
    have hlater : ∀ w ∈ calls, SameOn (IsVariant w.1) d t := fun w hw =>
      hothers.mono fun p hp hvp => hv_apart w hw p hvp hp
    obtain ⟨hsoles, hsame⟩ := ih hcalls_apart
      (fun w hw => (hone w (List.mem_cons_of_mem _ hw)).of_sameOn (hlater w hw))
      (fun w hw => (hfresh w (List.mem_cons_of_mem _ hw)).of_sameOn (hlater w hw))
    refine ⟨fun w hw => ?_, ?_⟩
    · rcases List.mem_cons.mp hw with rfl | hw
      · exact hsole.of_sameOn (hsame.mono fun p hp x hx => hv_apart x hx p hp)
      · exact hsoles w hw
    · refine (hothers.mono fun p hp => hp v List.mem_cons_self).trans
        (hsame.mono fun p hp w hw => ?_)
      exact hp w (List.mem_cons_of_mem _ hw)

end Python
