import TpmFuzzer.Harness.TesterOutput
import TpmFuzzer.Python.Filling

/-!
# The seed directories

`main.py` with `test-seed.sh` as its script.  It runs the tester on old byte seeds and decodes old
protobuf seeds, so that it might raise because of what an earlier run has left.  It never does: the
directories stay `Sound`, and from sound ones a run returns, or raises, what it does with none
(`upkeep`).
-/

namespace Harness

open Bytes Parser Text Storing Groups Runs
open Python

variable {P : Type} (pl : Platform P) (stale : Nat → UInt8) (verbose : Bool)

/-- `test-seed.sh -local` on a file of the directory at `path`, on the platform it finds, where the
tester is built and the script may use `corpus` and `coverage`. -/
def testSeed (path : Str) (bench : Str → Directory → Bench P) : TestScript := fun file d =>
  match d.lookup file with
  | none => .error .calledProcessError
  | some data => .ok (testSeedOutput pl stale verbose (path ++ '/' :: file) data (bench file d))

/-- A file that the program can read again: text, or commands, at least one, that the tester
accepts. -/
def SoundFile (path : Str) (proto : Bool) (p : Str) (data : Bytes) : Prop :=
  if proto then ∃ text, decodeUtf8 data = .ok text
  else PlainPath (path ++ '/' :: p) ∧ ∃ c commands, parseCommands data [] = (true, c :: commands)

/-- Every file is a sound one. -/
def SoundDirectory (path : Str) (proto : Bool) (d : Directory) : Prop :=
  ∀ p data, d.lookup p = some data → SoundFile path proto p data

variable {path : Str} {proto : Bool} {d : Directory}

theorem SoundDirectory.insert (hd : SoundDirectory path proto d) {p : Str} {data : Bytes}
    (h : SoundFile path proto p data) : SoundDirectory path proto (d.insert p data) := by
  intro q data' hq
  by_cases hqp : q = p
  · subst hqp
    rw [AList.lookup_insert] at hq
    obtain rfl := Option.some.inj hq
    exact h
  · rw [AList.lookup_insert_ne hqp] at hq
    exact hd q data' hq

theorem SoundDirectory.erase (hd : SoundDirectory path proto d) (p : Str) :
    SoundDirectory path proto (d.erase p) := by
  intro q data hq
  by_cases hqp : q = p
  · subst hqp
    rw [AList.lookup_erase] at hq
    cases hq
  · rw [AList.lookup_erase_ne hqp] at hq
    exact hd q data hq

/-! ## One call -/

/-- A script whose output shows the request of any file of a directory with `I`. -/
def ShowsRequests (script : TestScript) (I : Directory → Prop) : Prop := ∀ d, I d → ∀ file ∈ d,
  ∃ output text, script file d = .ok output ∧ requestSection output = .ok text

/-- The tester prints the requests of every sound file. -/
theorem testSeed_shows (bench : Str → Directory → Bench P) :
    ShowsRequests (testSeed pl stale verbose path bench) (SoundDirectory path false) := by
  intro d hd file hfile
  obtain ⟨data, hdata⟩ := Option.isSome_iff_exists.mp (AList.lookup_isSome.mpr hfile)
  obtain ⟨hpath, c, commands, hparse⟩ := hd file data hdata
  unfold testSeed
  rw [hdata]
  exact ⟨_, _, rfl, requestSection_tester pl stale verbose hparse hpath (bench file d)⟩

section

variable {script script' : TestScript}

theorem ofResult_ok {σ α : Type} {x : Py.Result α} {a : α} (h : x = .ok a) (s : σ) :
    ofResult x s = (.ok a, s) := by
  rw [h]
  rfl

theorem runScript_ok {file output : Str} (h : script file d = .ok output) :
    runScript script file d = (.ok output, d) := by
  rw [runScript, h]

theorem compareVariants_sound {out current : Str} {data content : Bytes}
    (hscript : ShowsRequests script (SoundDirectory path false)) (hd : SoundDirectory path proto d)
    (hout : out ∈ d) (hcurrent : d.lookup current = some content)
    (hdata : SoundFile path proto out data) :
    compareVariants script out current data content proto d = (.ok (), d) := by
  have hcontent := hd current content hcurrent
  unfold compareVariants
  cases proto with
  | false =>
    obtain ⟨output, text, hrun, hsection⟩ := hscript d hd out hout
    obtain ⟨output', text', hrun', hsection'⟩ := hscript d hd current (mem_of_lookup hcurrent)
    refine bind_returns.mpr ⟨output, d, runScript_ok hrun,
      bind_returns.mpr ⟨text, d, ofResult_ok hsection d, ?_⟩⟩
    exact bind_returns.mpr ⟨output', d, runScript_ok hrun',
      bind_returns.mpr ⟨text', d, ofResult_ok hsection' d, rfl⟩⟩
  | true =>
    obtain ⟨text, htext⟩ := hdata
    obtain ⟨text', htext'⟩ := hcontent
    exact bind_returns.mpr ⟨text, d, ofResult_ok htext d,
      bind_returns.mpr ⟨text', d, ofResult_ok htext' d, rfl⟩⟩

/-- A call returns, and leaves the directory sound. -/
theorem createVariant_sound {name timestamp timestamp' : Str} {content : Bytes} {force : Bool}
    (hscript : ShowsRequests script (SoundDirectory path false))
    (hfile : SoundFile path proto (variantFile name timestamp) content) :
    Alike (SoundDirectory path proto) (createVariant script name timestamp content force proto)
      (createVariant script' name timestamp' content false proto) := by
  intro d hd
  have hinsert := hd.insert hfile
  have hresult : ∃ e, createVariant script name timestamp content force proto d = (.ok (), e) ∧
      SoundDirectory path proto e := by
    by_cases hvacant : Vacant (IsVariant name) d
    · exact ⟨_, createVariant_vacant script name timestamp content force proto d hvacant, hinsert⟩
    · obtain ⟨out, data, -, hdata, hcall⟩ :=
        createVariant_existing script name timestamp content force proto d hvacant
      rw [hcall]
      split
      · have hout : out ∈ d.insert (variantFile name timestamp) content :=
          (AList.mem_insert d).mpr (Or.inr (mem_of_lookup hdata))
        refine ⟨_, bind_returns.mpr ⟨(), _, rfl, bind_returns.mpr
          ⟨(), _, compareVariants_sound hscript hinsert hout
          (AList.lookup_insert d) (hd out data hdata), ?_⟩⟩, hinsert.erase out⟩
        unfold remove
        rw [if_pos hout]
      · exact ⟨d, rfl, hd⟩
  obtain ⟨e, hcall, he⟩ := hresult
  rw [hcall]
  refine ⟨he, fun t => ?_⟩
  rw [createVariant_fills]

end

/-! ## What a run writes -/

/-- Names that are printed as they are, and no empty sequence. -/
structure PlainTable (table : SeedTable) : Prop where
  names : ∀ cmd ∈ table.seeds, PlainPath cmd
  sequences : ∀ v ∈ table.variants, v.2 ≠ []

theorem PlainPath.append {s t : Str} (hs : PlainPath s) (ht : PlainPath t) : PlainPath (s ++ t) :=
  ⟨List.not_mem_append hs.lineBreak ht.lineBreak,
    List.not_mem_append hs.carriageReturn ht.carriageReturn,
    List.not_mem_append hs.backslash ht.backslash⟩

theorem plainPath_variantName {cmd : Str} (hcmd : PlainPath cmd) (i : Nat) :
    PlainPath (variantName cmd i) := by
  have hdigits : ∀ c, (∀ d, Nat.digitChar d ≠ c) → c ∉ Nat.toDigits 10 i := by
    intro c hc hmem
    obtain ⟨d, hd⟩ := mem_toDigits (by decide) hmem
    exact hc d hd.symm
  have hplain : PlainPath (Nat.toDigits 10 i) :=
    ⟨hdigits _ fun d => Nat.digitChar_ne _ (by decide),
      hdigits _ fun d => Nat.digitChar_ne _ (by decide),
      hdigits _ fun d => Nat.digitChar_ne _ (by decide)⟩
  exact (hcmd.append (by decide)).append hplain

/-- A text comes back from its bytes. -/
theorem decodeUtf8_encodeUtf8 (s : Str) : decodeUtf8 (encodeUtf8 s) = .ok s := by
  have hdecode : ByteArray.utf8Decode? ⟨(encodeUtf8 s).toArray⟩ = some s.toArray := by
    show (List.utf8Encode s).utf8Decode? = _
    exact List.utf8Decode?_utf8Encode
  unfold decodeUtf8
  rw [hdecode]

variable {messageToString : List Proto.TPMCommand → Str}

theorem soundFile_of_seedContent {sequence : SeedSequence} {content : Bytes} {p : Str}
    (hpath : PlainPath (path ++ '/' :: p)) (hsequence : sequence ≠ [])
    (h : seedContent messageToString proto sequence = some content) :
    SoundFile path proto p content := by
  unfold seedContent at h
  cases proto with
  | false =>
    rw [if_neg Bool.false_ne_true] at h
    split at h
    · next data hdata =>
      obtain rfl := Option.some.inj h
      obtain ⟨bs, hbs, rfl, hframes⟩ := serializeSequence_eq_ok hdata
      refine ⟨hpath, ?_⟩
      cases bs with
      | nil => exact absurd (List.map_eq_nil_iff.mp (List.forall₂_nil_right_iff.mp hbs)) hsequence
      | cons c bs => exact ⟨c, bs, parseCommands_flatten hframes []⟩
    · cases h
  | true =>
    rw [if_pos rfl] at h
    split at h
    · next hcontent =>
      unfold serializeProtoSequence at hcontent
      cases hcommands : protoCommands sequence with
      | error e =>
        rw [hcommands] at hcontent
        cases hcontent
      | ok commands =>
        rw [hcommands] at hcontent
        cases hcontent
        obtain ⟨ms, -, rfl⟩ := Option.map_eq_some_iff.mp h
        exact ⟨messageToString ms, decodeUtf8_encodeUtf8 _⟩
    · cases h

/-! ## Runs -/

/-- One run of the program. -/
structure Invocation (P : Type) where
  timestamp : Str
  recreate : Bool
  table : SeedTable
  bench : Str → Directory → Bench P

/-- Both directories are sound. -/
def Sound (path : Str) (s : SeedDirectories) : Prop :=
  ∀ proto, SoundDirectory path proto (s.directory proto)

variable (messageToString path)

namespace Invocation

/-- A run of the program on both directories. -/
def generate (i : Invocation P) : Generating Unit :=
  generateSeeds messageToString (testSeed pl stale verbose path i.bench)
    i.timestamp i.recreate i.table

/-- The directories after a run, whatever it raised. -/
def after (s : SeedDirectories) (i : Invocation P) : SeedDirectories :=
  (i.generate pl stale verbose path messageToString s).2

end Invocation

theorem sound_empty : Sound path ⟨∅, ∅⟩ := by
  intro proto p data hp
  cases proto <;> cases hp

variable {messageToString path}

/-- From sound directories a run returns or raises as one that does not recreate does from any. -/
theorem generate_alike {i : Invocation P} (hpath : PlainPath path) (htime : PlainPath i.timestamp)
    (htable : PlainTable i.table) :
    Alike (Sound path) (i.generate pl stale verbose path messageToString)
      (generateSeeds messageToString (testSeed pl stale verbose path i.bench)
        i.timestamp false i.table) := by
  refine alike_generateSeeds fun v hv proto content hcontent =>
    createVariant_sound (testSeed_shows pl stale verbose i.bench) ?_
  refine soundFile_of_seedContent ?_ (htable.sequences v hv) hcontent
  obtain ⟨seed, hseed, hv⟩ := List.mem_flatMap.mp hv
  obtain ⟨w, -, rfl⟩ := List.mem_map.mp hv
  have hcmd := htable.names seed.1 (AList.mem_keys.mpr (List.mem_keys_of_mem hseed))
  have hfile : PlainPath (variantFile (variantName seed.1 w.2) i.timestamp) :=
    (plainPath_variantName hcmd w.2).append (PlainPath.append (s := ['-']) (by decide) htime)
  exact hpath.append (PlainPath.append (s := ['/']) (by decide) hfile)

/-- After any runs from sound directories, with `-recreate` or without, returning or raising, the
directories are sound, and no run fared otherwise than it would have with empty ones. -/
theorem upkeep (hpath : PlainPath path) {start : SeedDirectories} (hstart : Sound path start)
    {runs : List (Invocation P)} (hruns : ∀ i ∈ runs, PlainPath i.timestamp ∧ PlainTable i.table) :
    Sound path (run (Invocation.after pl stale verbose path messageToString) start runs) ∧
      Always (Invocation.after pl stale verbose path messageToString) start
        (fun s i => (i.generate pl stale verbose path messageToString s).1 =
          (i.generate pl stale verbose path messageToString ⟨∅, ∅⟩).1) runs := by
  have hsound : ∀ is : List (Invocation P), (∀ i ∈ is, PlainPath i.timestamp ∧ PlainTable i.table) →
      Sound path (run (Invocation.after pl stale verbose path messageToString) start is) := by
    intro is
    induction is using List.reverseRecOn with
    | nil => exact fun _ => hstart
    | append_singleton is i ih =>
      intro his
      obtain ⟨his, hi⟩ := List.forall_mem_append.mp his
      obtain ⟨htime, htable⟩ := hi i (List.mem_singleton_self i)
      rw [run_snoc]
      exact (generate_alike pl stale verbose hpath htime htable _ (ih his)).1
  refine ⟨hsound runs hruns, fun pre i post hsplit => ?_⟩
  obtain ⟨htime, htable⟩ := hruns i (by rw [hsplit]; simp)
  have hpre := hsound pre fun j hj => hruns j (by rw [hsplit]; exact List.mem_append_left _ hj)
  have halike : Alike (Sound path) (i.generate pl stale verbose path messageToString) _ :=
    generate_alike pl stale verbose hpath htime htable
  exact ((halike _ hpre).2 ⟨∅, ∅⟩).trans ((halike _ (sound_empty path)).2 ⟨∅, ∅⟩).symm

/-- A seed is made, and two minutes later made anew with other bytes. -/
theorem clearVariant_upkeep : ∃ first second : Invocation Unit, second.recreate = true ∧
    (∃ c c', (clearVariant, c) ∈ first.table.contents (fun _ => []) false ∧
      (clearVariant, c') ∈ second.table.contents (fun _ => []) false ∧ c ≠ c') ∧
    (second.generate silent (fun _ => 0) false "seeds/bytearray".toList (fun _ => [])
      (run (Invocation.after silent (fun _ => 0) false "seeds/bytearray".toList fun _ => [])
        ⟨∅, ∅⟩ [first])).1 = .ok () := by
  have hkey : ∀ c,
    ∀ cmd ∈ (AList.singleton "TPMClear".toList (.command c) : AList fun _ : Str => SeedDefinition),
      cmd = "TPMClear".toList := fun c cmd hcmd => List.mem_singleton.mp hcmd
  let invocation (c : SeedObject) (timestamp : Str) : Invocation Unit :=
    ⟨timestamp, true, ⟨AList.singleton "TPMClear".toList (.command c), fun cmd hcmd => by
      rw [hkey c cmd hcmd]; decide⟩, fun _ _ => ⟨(), []⟩⟩
  have hplain : ∀ c timestamp, PlainTable (invocation c timestamp).table := by
    intro c timestamp
    constructor
    · intro cmd hcmd
      rw [hkey c cmd hcmd]
      decide
    · intro v hv
      rw [show v = (clearVariant, [c]) from List.mem_singleton.mp hv]
      exact List.cons_ne_nil _ _
  let first := invocation { tag := TPM_ST_NO_SESSIONS, cc := 0x126
                            params := [] } "202603261200".toList
  let second := invocation { tag := TPM_ST_NO_SESSIONS, cc := 0x126
                             params := [0] } "202603261202".toList
  refine ⟨first, second, rfl, ⟨_, _, List.mem_singleton_self _,
    List.mem_singleton_self _, by decide⟩, ?_⟩
  have hpath : PlainPath "seeds/bytearray".toList := by decide
  have hfirst : PlainPath "202603261200".toList := by decide
  have hsecond : PlainPath "202603261202".toList := by decide
  have hruns : ∀ i ∈ [first, second], PlainPath i.timestamp ∧ PlainTable i.table := by
    intro i hi
    rcases List.mem_pair.mp hi with rfl | rfl
    · exact ⟨hfirst, hplain _ _⟩
    · exact ⟨hsecond, hplain _ _⟩
  exact ((upkeep silent (fun _ => 0) false hpath (sound_empty _) hruns).2 [first]
    second [] rfl).trans rfl

end Harness
