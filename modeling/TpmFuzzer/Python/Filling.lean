import TpmFuzzer.Python.SeedRuns

/-!
# Runs without `-recreate`

Such a run writes the files that are missing, and touches no other (`createVariant_fills`).  Of any
number of runs the first one that defines a variant makes its file (`fill_runs`).
-/

namespace Python

open Py Storing Groups Runs

/-! ## One call -/

theorem vacant_iff_filter {name : Str} {d : Directory} :
    Vacant (IsVariant name) d ↔ d.keys.filter (IsVariant name) = [] := by
  simp only [List.filter_eq_nil_iff, decide_eq_true_eq, AList.mem_keys, Vacant]

section

variable (script : TestScript) (name timestamp : Str) (content : Bytes) (force proto : Bool)
    (d : Directory)

/-- The first file of a variant. -/
theorem createVariant_vacant (h : Vacant (IsVariant name) d) :
    createVariant script name timestamp content force proto d =
      (.ok (), d.insert (variantFile name timestamp) content) := by
  unfold createVariant
  rw [bind_apply, listdir]
  dsimp only
  rw [vacant_iff_filter.mp h]
  rfl

/-- A variant that has a file. -/
theorem createVariant_existing (h : ¬ Vacant (IsVariant name) d) : ∃ out data, IsVariant name out ∧
    d.lookup out = some data ∧ createVariant script name timestamp content force proto d =
      (if data ≠ content ∧ force then do
        writeFile (variantFile name timestamp) content
        compareVariants script out (variantFile name timestamp) data content proto
        remove out
      else return : Seeding Unit) d := by
  cases hexisting : d.keys.filter (IsVariant name) with
  | nil => exact absurd (vacant_iff_filter.mpr hexisting) h
  | cons out rest =>
    have hmem : out ∈ d.keys.filter (IsVariant name) := by
      rw [hexisting]
      exact List.mem_cons_self
    obtain ⟨hkey, hvariant⟩ := List.mem_filter.mp hmem
    obtain ⟨data, hdata⟩ := Option.isSome_iff_exists.mp (AList.lookup_isSome.mpr hkey)
    have hread : readFile out d = (.ok data, d) := by
      unfold readFile
      rw [hdata]
    refine ⟨out, data, by simpa using hvariant, hdata, ?_⟩
    unfold createVariant
    rw [bind_apply, listdir]
    dsimp only
    rw [hexisting]
    dsimp only
    rw [bind_apply, hread]

/-- Without `force` a call returns, and writes at most the first file of its variant. -/
theorem createVariant_fills : createVariant script name timestamp content false proto d =
    (.ok (), insertFirst (IsVariant name) d (variantFile name timestamp) content) := by
  unfold insertFirst
  by_cases h : Vacant (IsVariant name) d
  · rw [if_pos h]
    exact createVariant_vacant script name timestamp content false proto d h
  · obtain ⟨out, data, -, -, hcall⟩ :=
      createVariant_existing script name timestamp content false proto d h
    rw [if_neg h, hcall, if_neg fun h => Bool.false_ne_true h.2]
    rfl

end

/-! ## One run -/

/-- Both directories have what they had. -/
def Grown (s u : SeedDirectories) : Prop := ∀ proto, Grows (s.directory proto) (u.directory proto)

theorem Grown.refl (s : SeedDirectories) : Grown s s := fun _ => Grows.refl _

theorem Grown.trans (s t u : SeedDirectories) (h : Grown s t) (h' : Grown t u) : Grown s u :=
  fun proto => (h proto).trans (h' proto)

theorem SeedDirectories.ext_directory {s u : SeedDirectories}
    (h : ∀ proto, s.directory proto = u.directory proto) :
    s = u := by
  have hbytes := h false
  have hproto := h true
  cases s
  cases u
  cases hbytes
  cases hproto
  rfl

section

variable {messageToString : List Proto.TPMCommand → Str} {script script' : TestScript}
  {timestamp timestamp' cmd : Str} {table : SeedTable} {s u : SeedDirectories}

theorem moves_createVariant {name : Str} {content : Bytes} {proto : Bool} :
    Moves Grows (createVariant script name timestamp content false proto) := by
  intro d
  rw [createVariant_fills]
  exact insertFirst_grows (G := IsVariant) (isVariant_variantFile name timestamp)

theorem moves_runVariant (v : SeedSequence × Nat) :
    Moves Grown (runVariant messageToString script cmd timestamp false v) := by
  unfold runVariant
  refine moves_bind Grown.trans (moves_resume Grown.refl _) fun content => ?_
  refine moves_bind Grown.trans (moves_zoom ?_ moves_createVariant) fun _ => ?_
  · intro s d hd proto
    cases proto
    · exact hd
    · exact Grows.refl _
  refine moves_bind Grown.trans (moves_resume Grown.refl _) fun protoContent => ?_
  cases protoContent with
  | none => exact moves_pure Grown.refl ()
  | some protoContent =>
    refine moves_zoom ?_ moves_createVariant
    intro s d hd proto
    cases proto
    · exact Grows.refl _
    · exact hd

/-- A run without `-recreate` keeps every file, also if it raises. -/
theorem moves_generateSeeds :
    Moves Grown (generateSeeds messageToString script timestamp false table) := by
  refine moves_forM Grown.refl Grown.trans (fun seed => ?_) _
  refine moves_bind Grown.trans (moves_resume Grown.refl _) fun variants => ?_
  exact moves_forM Grown.refl Grown.trans moves_runVariant _

/-- Where the calls of two runs return alike, the runs do. -/
theorem alike_generateSeeds {force force' : Bool} {I : Bool → Directory → Prop}
    (hcalls : ∀ v ∈ table.variants, ∀ proto content, seedContent messageToString proto v.2 =
      some content →
      Alike (I proto) (createVariant script v.1 timestamp content force proto)
        (createVariant script' v.1 timestamp' content force' proto)) :
    Alike (fun s : SeedDirectories => ∀ proto, I proto (s.directory proto))
      (generateSeeds messageToString script timestamp force table)
      (generateSeeds messageToString script' timestamp' force' table) := by
  refine alike_forM fun seed hseed => alike_bind (alike_resume _) fun variants hvariants =>
    alike_forM fun v hv => ?_
  obtain ⟨_, _, hvariants⟩ := hvariants
  have hmem : (variantName seed.1 v.2, v.1) ∈ table.variants := by
    refine List.mem_flatMap.mpr ⟨seed, hseed, List.mem_map.mpr ⟨v, ?_, rfl⟩⟩
    rw [variantsOf, (ofResult_returns hvariants).1]
    exact hv
  unfold runVariant
  refine alike_bind (alike_resume _) fun content hcontent => alike_bind ?_ fun _ _ =>
    alike_bind (alike_resume _) fun protoContent hproto => ?_
  · obtain ⟨_, _, hcontent⟩ := hcontent
    refine alike_zoom (fun s hs => hs false) (fun s d hs hd proto => ?_)
      (hcalls _ hmem false content ?_)
    · cases proto
      · exact hd
      · exact hs true
    · rw [seedContent, if_neg Bool.false_ne_true, (ofResult_returns hcontent).1]
  · obtain ⟨_, _, hproto⟩ := hproto
    cases protoContent with
    | none => exact alike_pure ()
    | some protoContent =>
      refine alike_zoom (fun s hs => hs true) (fun s d hs hd proto => ?_)
        (hcalls _ hmem true protoContent ?_)
      · cases proto
        · exact hs false
        · exact hd
      · rw [seedContent, if_pos rfl, (ofResult_returns hproto).1]

/-- Without `-recreate` what a run returns or raises is up to the table alone. -/
theorem generateSeeds_result (s u : SeedDirectories) :
    (generateSeeds messageToString script timestamp false table s).1 =
      (generateSeeds messageToString script' timestamp' false table u).1 := by
  refine (alike_generateSeeds (I := fun _ _ => True)
    (fun v _ proto content _ d _ => ⟨trivial, fun e => ?_⟩) s
    fun _ => trivial).2 u
  rw [createVariant_fills, createVariant_fills]

/-- The files that a run defines, each for its variant. -/
def SeedTable.files (messageToString : List Proto.TPMCommand → Str) (table : SeedTable)
    (timestamp : Str) (proto : Bool) : List (Str × Str × Bytes) :=
  (table.contents messageToString proto).map fun v => (v.1, variantFile v.1 timestamp, v.2)

theorem generateSeeds_fills
    (h : (generateSeeds messageToString script timestamp false table s).1 = .ok ()) (proto : Bool) :
    (generateSeeds messageToString script timestamp false table s).2.directory proto =
      insertFirsts IsVariant (s.directory proto) (table.files messageToString timestamp proto) := by
  have hchain := generateSeeds_returns (Prod.ext h rfl) proto
  have hfold := hchain.eq_foldl fun v _ d => createVariant_fills script v.1 timestamp v.2 proto d
  rw [hfold, insertFirsts, SeedTable.files, List.foldl_map]

end

/-! ## Runs -/

section

variable (messageToString : List Proto.TPMCommand → Str)

namespace Generation

/-- The run without `-recreate`. -/
def fill (g : Generation) : Generating Unit :=
  generateSeeds messageToString g.script g.timestamp false g.table

def afterFill (s : SeedDirectories) (g : Generation) : SeedDirectories :=
  (g.fill messageToString s).2

def Fills (g : Generation) (s : SeedDirectories) : Prop := (g.fill messageToString s).1 = .ok ()

def files (proto : Bool) (g : Generation) : List (Str × Str × Bytes) :=
  g.table.files messageToString g.timestamp proto

end Generation

variable {messageToString} {start : SeedDirectories} {gs : List Generation} {proto : Bool}

theorem isVariant_of_mem_files {c : Str × Str × Bytes}
    (hc : c ∈ gs.flatMap (Generation.files messageToString proto)) :
    IsSeedName c.1 ∧ IsVariant c.1 c.2.1 := by
  obtain ⟨g, -, hc⟩ := List.mem_flatMap.mp hc
  obtain ⟨v, hv, rfl⟩ := List.mem_map.mp hc
  exact ⟨isSeedName_of_mem hv, isVariant_variantFile v.1 g.timestamp⟩

/-- Runs that return write the files they define one by one, each if its variant has none. -/
theorem fill_run (h : Always (Generation.afterFill messageToString) start
    (fun s g => g.Fills messageToString s) gs) :
    ∀ proto, (run (Generation.afterFill messageToString) start gs).directory proto =
      insertFirsts IsVariant (start.directory proto)
      (gs.flatMap (Generation.files messageToString proto)) := by
  refine run_history (R := fun gs s => ∀ proto, s.directory proto =
    insertFirsts IsVariant (start.directory proto)
      (gs.flatMap (Generation.files messageToString proto)))
    (fun proto => rfl) (fun gs g hgs hg proto => ?_) gs h
  have hfiles := generateSeeds_fills hg proto
  rw [hgs proto] at hfiles
  rw [List.flatMap_append, List.flatMap_singleton, insertFirsts, List.foldl_append]
  exact hfiles

end

/-- Without `-recreate` no run, returning or raising, touches a file there is.  After runs that
return the directories hold in addition the file of each variant that had none, as the first of the
runs that define it made it, and to repeat one of them, at any time, changes nothing. -/
theorem fill_runs (messageToString : List Proto.TPMCommand → Str) (start : SeedDirectories)
    (gs : List Generation) :
    Grown start (run (Generation.afterFill messageToString) start gs) ∧
    (Always (Generation.afterFill messageToString) start (fun s g => g.Fills messageToString s) gs →
      (∀ proto p c,
        ((run (Generation.afterFill messageToString) start gs).directory proto).lookup p = some c ↔
          (start.directory proto).lookup p = some c ∨
          ∃ name, Vacant (IsVariant name) (start.directory proto) ∧
            (gs.flatMap (Generation.files messageToString proto)).find? (·.1 = name) =
              some (name, p, c)) ∧
      ∀ g ∈ gs, ∀ script timestamp,
        generateSeeds messageToString script timestamp false g.table
            (run (Generation.afterFill messageToString) start gs) =
          (.ok (), run (Generation.afterFill messageToString) start gs)) := by
  constructor
  · exact run_invariant' (I := Grown start) (Grown.refl start)
      (fun s g h => h.trans _ _ _ (moves_generateSeeds s)) gs
  intro h
  have hkeys : ∀ proto, ∀ c ∈ gs.flatMap (Generation.files messageToString proto),
      IsVariant c.1 c.2.1 :=
    fun proto c hc => (isVariant_of_mem_files hc).2
  constructor
  · intro proto p c
    rw [fill_run h proto]
    refine lookup_insertFirsts_iff (hkeys proto) fun c hc c' hc' q hq hq' => ?_
    exact (isVariant_of_mem_files hc).1.eq_of_isVariant (isVariant_of_mem_files hc').1 hq hq'
  · intro g hg script timestamp
    set s := run (Generation.afterFill messageToString) start gs with hs
    obtain ⟨pre, post, hgs⟩ := List.append_of_mem hg
    have hreturns : (generateSeeds messageToString script timestamp false g.table s).1 = .ok () :=
      (generateSeeds_result s _).trans (h pre g post hgs)
    refine Prod.ext hreturns (SeedDirectories.ext_directory fun proto => ?_)
    rw [generateSeeds_fills hreturns proto]
    refine insertFirsts_eq_self fun c hc hvacant => ?_
    -- the variant has had a file since its run
    obtain ⟨v, hv, rfl⟩ := List.mem_map.mp hc
    rw [hs, fill_run h proto] at hvacant
    exact insertFirsts_not_vacant (hkeys proto)
      (List.mem_flatMap.mpr ⟨g, hg, List.mem_map.mpr ⟨v, hv, rfl⟩⟩) hvacant

/-- The seed of a first run stays in the next. -/
theorem clearVariant_filled : ∃ later : Generation, later.timestamp ≠ clearRun.timestamp ∧
    (run (Generation.afterFill fun _ => []) ⟨∅, ∅⟩ [clearRun, later]).byteDirectory.lookup
      (variantFile clearVariant clearRun.timestamp) =
      some [0x80, 0x01, 0, 0, 0, 10, 0, 0, 0x01, 0x26] := by
  refine ⟨⟨clearRun.script, "202603261201".toList, clearRun.table⟩, by decide, ?_⟩
  have hreturns : Always (Generation.afterFill fun _ => []) ⟨∅, ∅⟩
    (fun s g => g.Fills (fun _ => []) s)
      ([] ++ [clearRun] ++ [⟨clearRun.script, "202603261201".toList, clearRun.table⟩]) := by
    refine Always.snoc (Always.snoc Always.nil ?_) ?_
    · rfl
    · rfl
  obtain ⟨hfiles, -⟩ := (fill_runs (fun _ => []) ⟨∅, ∅⟩ _).2 hreturns
  refine (hfiles false _ _).mpr (Or.inr ⟨clearVariant, fun q hq => ?_, rfl⟩)
  exact absurd hq (AList.notMem_empty q)

end Python
