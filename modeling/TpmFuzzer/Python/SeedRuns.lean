import TpmFuzzer.Lib.Runs
import TpmFuzzer.Python.Regeneration

/-!
# Runs of the seed generator

A run with `-recreate` makes one call for each file its table defines, in both directories
(`generateSeeds_returns`).  After any number of runs that return and whose calls are `Clear`, every
variant has one file with its latest content (`regenerated_run`).
-/

namespace Python

open Py Storing Groups Runs

/-! ## The calls of a run -/

/-- What `normalize_variants` makes of a definition; nothing where it raises. -/
def variantsOf (command : SeedDefinition) : SeedVariants :=
  match normalizeVariants command with
  | .ok variants => variants
  | .error _ => []

/-- The variants a table defines, under their names. -/
def SeedTable.variants (table : SeedTable) : List (Str × SeedSequence) :=
  table.seeds.entries.flatMap fun seed =>
    (variantsOf seed.2).zipIdx.map fun v => (variantName seed.1 v.2, v.1)

theorem SeedTable.isSeedName {table : SeedTable} {v : Str × SeedSequence}
    (hv : v ∈ table.variants) : IsSeedName v.1 := by
  obtain ⟨seed, hseed, hv⟩ := List.mem_flatMap.mp hv
  obtain ⟨w, -, rfl⟩ := List.mem_map.mp hv
  exact ⟨seed.1, w.2, table.no_hyphen seed.1 (AList.mem_keys.mpr (List.mem_keys_of_mem hseed)), rfl⟩

theorem SeedTable.variants_apart (table : SeedTable) :
    table.variants.Pairwise fun v w => ∀ p, IsVariant v.1 p → ¬ IsVariant w.1 p := by
  have hhyphen : ∀ seed ∈ table.seeds.entries, '-' ∉ seed.1 := fun seed hseed =>
    table.no_hyphen seed.1 (AList.mem_keys.mpr (List.mem_keys_of_mem hseed))
  refine List.pairwise_flatMap.mpr ⟨fun seed hseed => ?_, ?_⟩
  · -- one command: the numbers differ
    have hnodup := List.pairwise_map.mp (List.nodup_zipIdx_map_snd (variantsOf seed.2))
    refine List.pairwise_map.mpr (hnodup.imp fun {v w} hvw p hp hp' => hvw ?_)
    exact (variantName_inj (hhyphen seed hseed) (hhyphen seed hseed) hp hp').2
  · -- two commands
    have hkeys := List.nodupKeys_iff_pairwise.mp table.seeds.nodupKeys
    refine hkeys.imp_of_mem fun {seed seed'} hseed hseed' hne v hv w hw p hp hp' => ?_
    obtain ⟨v, -, rfl⟩ := List.mem_map.mp hv
    obtain ⟨w, -, rfl⟩ := List.mem_map.mp hw
    exact hne (variantName_inj (hhyphen seed hseed) (hhyphen seed' hseed') hp hp').1

/-! ## Two directories -/

/-- The directory of the protobuf seeds, or that of the byte seeds. -/
def SeedDirectories.directory (s : SeedDirectories) (proto : Bool) : Directory :=
  if proto then s.protoDirectory else s.byteDirectory

section

variable (messageToString : List Proto.TPMCommand → Str)

/-- The file of a sequence: its bytes, or the text of its protobuf form if it has one. -/
def seedContent (proto : Bool) (sequence : SeedSequence) : Option Bytes :=
  if proto then
    match serializeProtoSequence messageToString sequence with
    | .ok content => content
    | .error _ => none
  else
    match serializeSequence (sequence.map SeedObject.toTPMCommand) with
    | .ok content => some content
    | .error _ => none

/-- The files that a table defines in one of the directories. -/
def SeedTable.contents (table : SeedTable) (proto : Bool) : List (Str × Bytes) :=
  table.variants.flatMap fun v => ((seedContent messageToString proto v.2).map (v.1, ·)).toList

variable {messageToString} {script : TestScript} {timestamp cmd : Str} {s u : SeedDirectories}

theorem runVariant_returns {force : Bool} {v : SeedSequence × Nat}
    (h : runVariant messageToString script cmd timestamp force v s = (.ok (), u)) :
    (seedContent messageToString false v.1).isSome ∧ ∀ proto,
      Chain (fun w : Str × Bytes => createVariant script w.1 timestamp w.2 force proto)
        (s.directory proto)
        ((seedContent messageToString proto v.1).map (variantName cmd v.2, ·)).toList
        (u.directory proto) := by
  obtain ⟨sequence, i⟩ := v
  unfold runVariant at h
  obtain ⟨content, _, hserialize, hrest⟩ := bind_returns.mp h
  obtain ⟨hcontent, rfl⟩ := ofResult_returns hserialize
  obtain ⟨_, _, hwrite, hrest⟩ := bind_returns.mp hrest
  obtain ⟨d, hbytes, rfl⟩ := zoom_returns.mp hwrite
  obtain ⟨protoContent, _, hserialize', hrest⟩ := bind_returns.mp hrest
  obtain ⟨hproto, rfl⟩ := ofResult_returns hserialize'
  have hsome : seedContent messageToString false sequence = some content := by
    unfold seedContent
    rw [if_neg Bool.false_ne_true, hcontent]
  have hoption : seedContent messageToString true sequence = protoContent := by
    unfold seedContent
    rw [if_pos rfl, hproto]
  refine ⟨by rw [hsome]; rfl, fun proto => ?_⟩
  cases protoContent with
  | none =>
    obtain ⟨-, rfl⟩ := pure_returns.mp hrest
    cases proto with
    | false =>
      rw [hsome]
      exact .cons hbytes (.nil _)
    | true =>
      rw [hoption]
      exact .nil _
  | some protoContent =>
    obtain ⟨e, hcall, rfl⟩ := zoom_returns.mp hrest
    cases proto with
    | false =>
      rw [hsome]
      exact .cons hbytes (.nil _)
    | true =>
      rw [hoption]
      exact .cons hcall (.nil _)

theorem runCommands_returns {force : Bool} {command : SeedDefinition}
    (h : runCommands messageToString script timestamp force cmd command s = (.ok (), u)) :
    Chain (runVariant messageToString script cmd timestamp force) s
      (variantsOf command).zipIdx u := by
  obtain ⟨variants, _, hnormalize, hloop⟩ := bind_returns.mp h
  obtain ⟨hvariants, rfl⟩ := ofResult_returns hnormalize
  rw [variantsOf, hvariants]
  exact forM_returns.mp hloop

/-- A run of the program that returned made one call for each file its table defines. -/
theorem generateSeeds_returns {force : Bool} {table : SeedTable}
    (h : generateSeeds messageToString script timestamp force table s = (.ok (), u))
    (proto : Bool) :
    Chain (fun w : Str × Bytes => createVariant script w.1 timestamp w.2 force proto)
      (s.directory proto) (table.contents messageToString proto) (u.directory proto) := by
  rw [SeedTable.contents, SeedTable.variants, List.flatMap_assoc]
  simp only [List.flatMap_map]
  refine Chain.flatMap (SeedDirectories.directory · proto)
    (fun seed s u hrun => ?_) (forM_returns.mp h)
  exact Chain.flatMap _ (fun v s u hv => (runVariant_returns hv).2 proto) (runCommands_returns hrun)

theorem generateSeeds_serializes {force : Bool} {table : SeedTable}
    (h : generateSeeds messageToString script timestamp force table s = (.ok (), u))
    {v : Str × SeedSequence} (hv : v ∈ table.variants) :
    (seedContent messageToString false v.2).isSome := by
  obtain ⟨seed, hseed, hv⟩ := List.mem_flatMap.mp hv
  obtain ⟨w, hw, rfl⟩ := List.mem_map.mp hv
  obtain ⟨t, t', hrun⟩ := (forM_returns.mp h).exists_of_mem hseed
  obtain ⟨_, _, hcall⟩ := (runCommands_returns hrun).exists_of_mem hw
  exact (runVariant_returns hcall).1

end

/-! ## Runs -/

/-- One run of the program with `-recreate`. -/
structure Generation where
  script : TestScript
  timestamp : Str
  table : SeedTable

section

variable (messageToString : List Proto.TPMCommand → Str)

namespace Generation

/-- The program from a table. -/
def generate (g : Generation) : Generating Unit :=
  generateSeeds messageToString g.script g.timestamp true g.table

/-- What the directories hold after the run. -/
def after (s : SeedDirectories) (g : Generation) : SeedDirectories :=
  (g.generate messageToString s).2

/-- The content that the run defines for a variant. -/
def content (proto : Bool) (g : Generation) (name : Str) : Option Bytes :=
  (g.table.contents messageToString proto).lookup name

/-- No file of this minute has other content than the run defines. -/
def Clear (g : Generation) (s : SeedDirectories) : Prop :=
  ∀ proto, ∀ v ∈ g.table.contents messageToString proto,
    FreshOrEqual (s.directory proto) v.1 g.timestamp v.2

/-- The run ends without an exception. -/
def Returns (g : Generation) (s : SeedDirectories) : Prop :=
  (g.generate messageToString s).1 = .ok ()

end Generation

variable {messageToString}

theorem SeedTable.mem_contents {table : SeedTable} {proto : Bool} {v : Str × Bytes} :
    v ∈ table.contents messageToString proto ↔
      ∃ sequence, (v.1, sequence) ∈ table.variants ∧
        seedContent messageToString proto sequence = some v.2 := by
  obtain ⟨name, content⟩ := v
  simp only [SeedTable.contents, List.mem_flatMap, Option.mem_toList,
    Option.map_eq_some_iff, Prod.mk.injEq]
  constructor
  · rintro ⟨⟨_, sequence⟩, hv, c, hc, rfl, rfl⟩
    exact ⟨sequence, hv, hc⟩
  · rintro ⟨sequence, hv, hc⟩
    exact ⟨(name, sequence), hv, content, hc, rfl, rfl⟩

theorem SeedTable.contents_apart (table : SeedTable) (proto : Bool) :
    (table.contents messageToString proto).Pairwise fun v w => ∀ p, IsVariant v.1 p →
      ¬ IsVariant w.1 p := by
  refine List.pairwise_flatMap.mpr ⟨fun v _ => ?_, table.variants_apart.imp
    fun {v w} hvw x hx y hy => ?_⟩
  · cases seedContent messageToString proto v.2 with
    | none => exact List.Pairwise.nil
    | some c => exact List.pairwise_singleton _ _
  · simp only [Option.mem_toList, Option.map_eq_some_iff] at hx hy
    obtain ⟨_, -, rfl⟩ := hx
    obtain ⟨_, -, rfl⟩ := hy
    exact hvw

theorem Generation.content_eq_some_iff {g : Generation} {proto : Bool} {name : Str} {c : Bytes} :
    g.content messageToString proto name = some c ↔
      (name, c) ∈ g.table.contents messageToString proto := by
  unfold Generation.content
  constructor
  · intro h
    obtain ⟨pre, post, hsplit, -⟩ := List.lookup_eq_some_iff.mp h
    rw [hsplit]
    exact List.mem_append_right _ List.mem_cons_self
  · intro h
    obtain ⟨pre, post, hsplit⟩ := List.append_of_mem h
    refine List.lookup_eq_some_iff.mpr ⟨pre, post, hsplit, fun v hv => ?_⟩
    have hapart : (g.table.contents messageToString proto).Pairwise _ :=
      g.table.contents_apart proto
    rw [hsplit] at hapart
    have hv_apart := (List.pairwise_append.mp hapart).2.2 v hv (name, c) List.mem_cons_self
    rw [bne_iff_ne]
    rintro rfl
    exact hv_apart _ (isVariant_variantFile v.1 []) (isVariant_variantFile v.1 [])

theorem isSeedName_of_mem {g : Generation} {proto : Bool} {v : Str × Bytes}
    (hv : v ∈ g.table.contents messageToString proto) : IsSeedName v.1 := by
  obtain ⟨sequence, hmem, -⟩ := SeedTable.mem_contents.mp hv
  exact SeedTable.isSeedName hmem

theorem isSeedName_of_latest {gs : List Generation} {proto : Bool} {name : Str} {c : Bytes}
    (h : latest (Generation.content messageToString proto) gs name = some c) : IsSeedName name := by
  obtain ⟨_, g, _, -, hcontent, -⟩ := latest_eq_some_iff.mp h
  exact isSeedName_of_mem (Generation.content_eq_some_iff.mp hcontent)

/-- What the runs so far have made of the directories they started with. -/
structure Regenerated (messageToString : List Proto.TPMCommand → Str) (start : SeedDirectories)
    (gs : List Generation) (s : SeedDirectories) : Prop where
  sole : ∀ proto name c, latest (Generation.content messageToString proto) gs name = some c →
    Sole (IsVariant name) (s.directory proto) c
  others : ∀ proto, SameOn
    (fun p => ∀ name, IsVariant name p →
      latest (Generation.content messageToString proto) gs name = none)
    (start.directory proto) (s.directory proto)

/-- Before a run each of its variants has at most one file: the one of an earlier run, or what was
there at the start. -/
theorem Regenerated.atMostOne {start s : SeedDirectories} {gs : List Generation} {g : Generation}
    (h : Regenerated messageToString start gs s) {proto : Bool} {v : Str × Bytes}
    (hv : v ∈ g.table.contents messageToString proto)
    (hone : AtMostOne (IsVariant v.1) (start.directory proto)) :
    AtMostOne (IsVariant v.1) (s.directory proto) := by
  cases hlatest : latest (Generation.content messageToString proto) gs v.1 with
  | some c => exact (h.sole proto v.1 c hlatest).atMostOne
  | none =>
    refine hone.of_sameOn ((h.others proto).mono fun p hp name hname => ?_)
    cases hother : latest (Generation.content messageToString proto) gs name with
    | none => rfl
    | some c =>
      have heq := (isSeedName_of_latest hother).eq_of_isVariant (isSeedName_of_mem hv) hname hp
      rw [heq, hlatest] at hother
      cases hother

/-- One more run that returns and whose calls are clear. -/
theorem Regenerated.snoc {start s : SeedDirectories} {gs : List Generation} {g : Generation}
    (h : Regenerated messageToString start gs s)
    (hone : ∀ proto, ∀ v ∈ g.table.contents messageToString proto,
      AtMostOne (IsVariant v.1) (start.directory proto))
    (hreturns : g.Returns messageToString s) (hclear : g.Clear messageToString s) :
    Regenerated messageToString start (gs ++ [g]) (g.after messageToString s) := by
  have hrun : g.generate messageToString s = (.ok (), g.after messageToString s) :=
    Prod.ext hreturns rfl
  have hcalls := fun proto => createVariants_sole (generateSeeds_returns hrun proto)
    (g.table.contents_apart proto) (fun v hv => h.atMostOne hv (hone proto v hv)) (hclear proto)
  constructor
  · intro proto name c hlatest
    rw [latest_snoc] at hlatest
    cases hcontent : g.content messageToString proto name with
    | some c' =>
      rw [hcontent, Option.some_or] at hlatest
      cases hlatest
      exact (hcalls proto).1 _ (Generation.content_eq_some_iff.mp hcontent)
    | none =>
      -- no file of the run is one of this variant
      rw [hcontent, Option.none_or] at hlatest
      refine (h.sole proto name c hlatest).of_sameOn ((hcalls proto).2.mono fun p hp v hv hvp => ?_)
      have heq := (isSeedName_of_mem hv).eq_of_isVariant (isSeedName_of_latest hlatest) hvp hp
      rw [← heq, Generation.content_eq_some_iff.mpr hv] at hcontent
      cases hcontent
  · intro proto
    refine ((h.others proto).mono fun p hp name hname => ?_).trans
      ((hcalls proto).2.mono fun p hp v hv hvp => ?_)
    · exact latest_eq_none_iff.mpr fun a ha =>
        latest_eq_none_iff.mp (hp name hname) a (List.mem_append_left _ ha)
    · have hnone := latest_eq_none_iff.mp (hp v.1 hvp) g
        (List.mem_append_right _ (List.mem_singleton_self g))
      rw [Generation.content_eq_some_iff.mpr hv] at hnone
      cases hnone

/-- Any number of runs. -/
theorem regenerated_run {start : SeedDirectories} {gs : List Generation}
    (hone : ∀ g ∈ gs, ∀ proto, ∀ v ∈ g.table.contents messageToString proto,
      AtMostOne (IsVariant v.1) (start.directory proto))
    (h : Always (Generation.after messageToString) start
      (fun s g => g.Returns messageToString s ∧ g.Clear messageToString s) gs) :
    Regenerated messageToString start gs (run (Generation.after messageToString) start gs) := by
  have hstart : Regenerated messageToString start [] start := by
    refine ⟨fun _ _ _ h => ?_, fun _ _ _ => rfl⟩
    cases h
  refine run_history hstart (P := fun s g =>
    (g.Returns messageToString s ∧ g.Clear messageToString s) ∧
    ∀ proto, ∀ v ∈ g.table.contents messageToString proto,
      AtMostOne (IsVariant v.1) (start.directory proto)) (fun pre g hpre hg => ?_) gs
        fun pre g post hgs => ?_
  · exact hpre.snoc hg.2 hg.1.1 hg.1.2
  · exact ⟨h pre g post hgs, hone g (by rw [hgs]; simp)⟩

/-- Every variant that a run defines has its bytes in the table's contents. -/
theorem content_isSome {g : Generation} {s : SeedDirectories} (h : g.Returns messageToString s)
    {v : Str × SeedSequence} (hv : v ∈ g.table.variants) :
    ∃ c, g.content messageToString false v.1 = some c := by
  have hrun : g.generate messageToString s = (.ok (), g.after messageToString s) := Prod.ext h rfl
  obtain ⟨c, hc⟩ := Option.isSome_iff_exists.mp (generateSeeds_serializes hrun hv)
  exact ⟨c, Generation.content_eq_some_iff.mpr (SeedTable.mem_contents.mpr ⟨v.2, hv, hc⟩)⟩

end

/-- A call leaves the variant one file with the new content, exactly when no file of its minute has
other content; runs of such calls keep the latest content of every variant they define. -/
theorem createVariant_keeps_seeds_iff (messageToString : List Proto.TPMCommand → Str) :
    (∀ (script : TestScript) (name timestamp : Str) (content : Bytes) (proto : Bool)
        (d d' : Directory),
      AtMostOne (IsVariant name) d →
      createVariant script name timestamp content true proto d = (.ok (), d') →
      (Sole (IsVariant name) d' content ∧ SameOn (fun p => ¬ IsVariant name p) d d' ↔
        FreshOrEqual d name timestamp content)) ∧
    ∀ (start : SeedDirectories) (gs : List Generation),
      (∀ g ∈ gs, ∀ proto, ∀ v ∈ g.table.contents messageToString proto,
        AtMostOne (IsVariant v.1) (start.directory proto)) →
      Always (Generation.after messageToString) start
        (fun s g => g.Returns messageToString s ∧ g.Clear messageToString s) gs →
      ∀ g ∈ gs, ∀ v ∈ g.table.variants,
        (∃ c, latest (Generation.content messageToString false) gs v.1 = some c) ∧
        ∀ proto c, latest (Generation.content messageToString proto) gs v.1 = some c →
          Sole (IsVariant v.1)
            ((run (Generation.after messageToString) start gs).directory proto) c := by
  constructor
  · intro script name timestamp content proto d d' hone h
    rw [createVariant_sole_iff hone h |>.symm]
    exact and_iff_left (createVariant_others h)
  · intro start gs hone h g hg v hv
    constructor
    · obtain ⟨pre, post, hgs⟩ := List.append_of_mem hg
      obtain ⟨c, hc⟩ := content_isSome (h pre g post hgs).1 hv
      cases hlatest : latest (Generation.content messageToString false) gs v.1 with
      | some c => exact ⟨c, rfl⟩
      | none =>
        rw [latest_eq_none_iff.mp hlatest g hg] at hc
        cases hc
    · intro proto c hc
      exact (regenerated_run hone h).sole proto v.1 c hc

/-- The first variant of `TPMClear`. -/
def clearVariant : Str := variantName "TPMClear".toList 0

/-- A table with one seed. -/
def clearRun : Generation where
  script _ _ := .error .calledProcessError
  timestamp := "202603261200".toList
  table := {
    seeds := AList.singleton "TPMClear".toList
      (.command { tag := TPM_ST_NO_SESSIONS, cc := 0x126, params := [] })
    no_hyphen := fun cmd hcmd => by
      obtain rfl := List.mem_singleton.mp hcmd
      decide }

/-- Two minutes later the same seed has another content. -/
def clearRerun : Generation where
  script _ _ := .ok "=\nREQUEST\n=\nTPM Command\n=\nRESPONSE\n=\n".toList
  timestamp := "202603261202".toList
  table := {
    seeds := AList.singleton "TPMClear".toList
      (.command { tag := TPM_ST_NO_SESSIONS, cc := 0x126, params := [0] })
    no_hyphen := clearRun.table.no_hyphen }

/-- A seed is replaced in the minute after; a first run makes it, and the next replaces it. -/
theorem clearVariant_kept :
    Sole (IsVariant clearVariant)
      (AList.singleton (variantFile clearVariant "202603261201".toList) [0x62] : Directory) [0x62] ∧
    clearRun.content (fun _ => []) false clearVariant =
      some [0x80, 0x01, 0, 0, 0, 10, 0, 0, 0x01, 0x26] ∧
    Sole (IsVariant clearVariant)
      (run (Generation.after fun _ => []) ⟨∅, ∅⟩ [clearRun, clearRerun]).byteDirectory
      [0x80, 0x01, 0, 0, 0, 11, 0, 0, 0x01, 0x26, 0] := by
  obtain ⟨hcall, hruns⟩ := createVariant_keeps_seeds_iff fun _ => []
  have hempty : ∀ proto, SeedDirectories.directory ⟨∅, ∅⟩ proto = ∅ := by
    intro proto
    cases proto <;> rfl
  have hcreate : createVariant clearRun.script clearVariant "202603261201".toList [0x62] true true
      (AList.singleton (variantFile clearVariant clearRun.timestamp) [0x61]) =
        (.ok (), AList.singleton (variantFile clearVariant "202603261201".toList) [0x62]) := rfl
  refine ⟨?_, rfl, ?_⟩
  · refine ((hcall _ _ _ _ _ _ _ ?_ hcreate).mpr ?_).1
    · intro p hp q hq _ _
      rw [List.mem_singleton.mp hp, List.mem_singleton.mp hq]
    · intro data hdata
      cases hdata
  · have hfirst : clearRun.Returns (fun _ => []) ⟨∅, ∅⟩ ∧ clearRun.Clear (fun _ => []) ⟨∅, ∅⟩ := by
      refine ⟨rfl, fun proto v _ data hdata => ?_⟩
      rw [hempty, AList.lookup_empty] at hdata
      cases hdata
    -- the file of the first run is of another minute
    have hsecond : clearRerun.Returns (fun _ => [])
      (run (Generation.after fun _ => []) ⟨∅, ∅⟩ [clearRun]) ∧
        clearRerun.Clear (fun _ => []) (run (Generation.after fun _ => []) ⟨∅, ∅⟩ [clearRun]) := by
      have hreturns : clearRerun.Returns (fun _ => [])
          (run (Generation.after fun _ => []) ⟨∅, ∅⟩ [clearRun]) := by
        unfold Generation.Returns
        decide +kernel
      have hnone : (run (Generation.after fun _ => []) ⟨∅, ∅⟩ [clearRun]).byteDirectory.lookup
          (variantFile clearVariant clearRerun.timestamp) = none := by decide +kernel
      refine ⟨hreturns, fun proto v hv data hdata => ?_⟩
      cases proto with
      | false =>
        rw [List.mem_singleton.mp hv] at hdata
        exact absurd (hnone.symm.trans hdata) (Option.some_ne_none data).symm
      | true => cases hv
    have halways : Always (Generation.after fun _ => []) ⟨∅, ∅⟩
        (fun s g => g.Returns (fun _ => []) s ∧ g.Clear (fun _ => []) s)
        ([] ++ [clearRun] ++ [clearRerun]) :=
      Always.snoc (Always.snoc Always.nil (by exact hfirst)) (by exact hsecond)
    refine (hruns ⟨∅, ∅⟩ _ (fun g _ proto v _ p hp => ?_) halways clearRerun (by simp)
      (clearVariant, [{ tag := TPM_ST_NO_SESSIONS, cc := 0x126, params := [0] }])
      List.mem_cons_self).2 false _ rfl
    rw [hempty] at hp
    exact absurd hp (AList.notMem_empty p)

/-- In the minute of the old file the seed is gone. -/
theorem clearVariant_lost :
    ∃ d d' : Directory, AtMostOne (IsVariant clearVariant) d ∧
      d.lookup (variantFile clearVariant clearRun.timestamp) = some [0x61] ∧
      createVariant clearRun.script clearVariant clearRun.timestamp [0x62] true true d =
        (.ok (), d') ∧
      d' = ∅ ∧ ¬ Sole (IsVariant clearVariant) d' [0x62] := by
  refine ⟨AList.singleton (variantFile clearVariant clearRun.timestamp) [0x61], ∅,
    ?_, rfl, rfl, rfl, ?_⟩
  · intro p hp q hq _ _
    rw [List.mem_singleton.mp hp, List.mem_singleton.mp hq]
  · rintro ⟨p, -, hp, -⟩
    cases hp

end Python
