import Mathlib.Data.List.AList
import TpmFuzzer.Lib.Storing
import TpmFuzzer.Python.Command

/-!
# `main.py`

The generator keeps one file for each variant of a seed, named `<command>-variant<i>-<minute>`, in a
directory of byte strings and one of text protobufs.  A directory is a finite map from file names to
contents; what is only printed is left out.
-/

namespace Python

open Py Storing

/-- A Python `str`. -/
abbrev Str := List Char

/-- The files of a directory by name. -/
abbrev Directory := AList fun _ : Str => Bytes

/-- What a call raises: one of Python's own errors, or that of a missing file or a failed
process. -/
inductive Raised where
  | error (e : Py.Error)
  | fileNotFoundError (name : Str)
  | calledProcessError
  deriving DecidableEq

def ofResult {σ α : Type} (x : Result α) : Eff Raised σ α := resume (x.mapError Raised.error)

/-! ## Strings -/

/-- What `\s` matches and `rstrip` strips. -/
def isSpace (c : Char) : Bool :=
  0x09 ≤ c.toNat && c.toNat ≤ 0x0D || 0x1C ≤ c.toNat && c.toNat ≤ 0x20 ||
    0x2000 ≤ c.toNat && c.toNat ≤ 0x200A ||
    [0x85, 0xA0, 0x1680, 0x2028, 0x2029, 0x202F, 0x205F, 0x3000].contains c.toNat

def rstrip (s : Str) : Str := (s.reverse.dropWhile isSpace).reverse

/-- `s.encode("utf-8")`. -/
def encodeUtf8 (s : Str) : Bytes := (String.ofList s).toUTF8.data.toList

/-- `b.decode("utf-8")`. -/
def decodeUtf8 (b : Bytes) : Result Str :=
  match ByteArray.utf8Decode? ⟨b.toArray⟩ with
  | some s => .ok s.toList
  | none => .error (.valueError "'utf-8' codec can't decode bytes")

/-- What is behind a match of `=+\n\s*word\s*\n=+` at the start.  The white space behind the word
ends with the line break before the second line of `=`. -/
def afterHeading (word s : Str) : Option Str := do
  let (line, s) := s.span (· = '=')
  guard !line.isEmpty
  let s ← ['\n'].isPrefixOf? s
  let s ← word.isPrefixOf? (s.dropWhile isSpace)
  let (space, s) := s.span isSpace
  guard (space.getLast? = some '\n')
  let (line, s) := s.span (· = '=')
  guard !line.isEmpty
  return s

/-- `(.*?)(?==+\n\s*RESPONSE\s*\n=+)`: the shortest text before such a heading. -/
def untilResponse (s : Str) : Option Str :=
  if (afterHeading "RESPONSE".toList s).isSome then some []
  else match s with
    | [] => none
    | c :: s => (untilResponse s).map (c :: ·)

/-- The pattern at the start of `s`. -/
def requestAt (s : Str) : Option Str := do
  let rest ← afterHeading "REQUEST".toList s
  let rest ← ['\n'].isPrefixOf? rest
  let text ← untilResponse rest
  return s.take (s.length - rest.length) ++ text

def searchRequest : Str → Option Str
  | [] => requestAt []
  | c :: s => requestAt (c :: s) <|> searchRequest s

/-- What the script prints up to the first response. -/
def requestSection (input : Str) : Result Str :=
  match searchRequest input with
  | some text => .ok (rstrip text)
  | none => .error (.valueError "REQUEST section not found")

/-! ## Files -/

/-- A call that reads and writes one directory. -/
abbrev Seeding := Eff Raised Directory

/-- `os.listdir(directory)`, in some order. -/
def listdir : Seeding (List Str) := fun d => (.ok d.keys, d)

/-- A missing file raises. -/
def readFile (name : Str) : Seeding Bytes := fun d =>
  match d.lookup name with
  | some data => (.ok data, d)
  | none => (.error (.fileNotFoundError name), d)

def writeFile (name : Str) (content : Bytes) : Seeding Unit :=
  fun d => (.ok (), d.insert name content)

/-- `os.remove`. -/
def remove (name : Str) : Seeding Unit := fun d =>
  if name ∈ d then (.ok (), d.erase name) else (.error (.fileNotFoundError name), d)

/-- `test_script -local file`: what it prints, or that it fails.  It reads the directory only. -/
abbrev TestScript := Str → Directory → Except Raised Str

/-- The test script reads the directory and leaves it. -/
def runScript (script : TestScript) (file : Str) : Seeding Str := fun d => (script file d, d)

/-- The texts whose difference is printed: what the script makes of the two files, or the two
protobufs. -/
def compareVariants (script : TestScript) (out current : Str)
    (data content : Bytes) (proto : Bool) :
    Seeding Unit :=
  if !proto then do
    let actual ← runScript script out
    let _ ← ofResult (requestSection actual)
    let expected ← runScript script current
    let _ ← ofResult (requestSection expected)
  else do
    let _ ← ofResult (decodeUtf8 data)
    let _ ← ofResult (decodeUtf8 content)

/-- `f"{name}-{timestamp}"`. -/
def variantFile (name timestamp : Str) : Str := name ++ '-' :: timestamp

/-- `p.startswith(f"{name}-")`. -/
def IsVariant (name p : Str) : Prop := name ++ ['-'] <+: p

instance (name p : Str) : Decidable (IsVariant name p) := inferInstanceAs (Decidable (_ <+: _))

/-- `_create_variant(..)`. -/
def createVariant (script : TestScript) (name timestamp : Str) (content : Bytes)
    (force proto : Bool := false) : Seeding Unit := do
  let names ← listdir
  match names.filter (IsVariant name) with
  | out :: _ => do
    let data ← readFile out
    if data ≠ content ∧ force then do
      let current := variantFile name timestamp
      writeFile current content
      compareVariants script out current data content proto
      remove out
    else return
  | [] => writeFile (variantFile name timestamp) content

/-! ## Seeds -/

/-- An object of one of the command classes.  `to_proto()` returns `None` for those without a
protobuf form. -/
structure SeedObject extends TPMCommand where
  toProto : Result (Option Proto.TPMCommand) := .ok none

/-- The commands of one file. -/
abbrev SeedSequence := List SeedObject

/-- The files of one command. -/
abbrev SeedVariants := List SeedSequence

/-- A function that builds the variants, one command, or the variants. -/
inductive SeedDefinition where
  | function (f : Unit → Result SeedVariants)
  | command (c : SeedObject)
  | variants (v : SeedVariants)

def normalizeVariants : SeedDefinition → Result SeedVariants
  | .command c => return [[c]]
  | .function f => f ()
  | .variants v => return v

/-- The protobuf forms of a sequence, or nothing if one command has none. -/
def protoCommands : SeedSequence → Result (Option (List Proto.TPMCommand))
  | [] => return some []
  | c :: cs => do
    let payload ← c.toProto
    match payload with
    | none => return none
    | some m =>
      let rest ← protoCommands cs
      return rest.map (m :: ·)

/-- `f"{cmd}-variant{i}"`. -/
def variantName (cmd : Str) (i : Nat) : Str := cmd ++ "-variant".toList ++ Nat.toDigits 10 i

/-- Where the byte seeds and the protobuf seeds are. -/
structure SeedDirectories where
  byteDirectory : Directory
  protoDirectory : Directory

/-- A call that reads and writes both directories. -/
abbrev Generating := Eff Raised SeedDirectories

def inBytes : Seeding Unit → Generating Unit :=
  zoom SeedDirectories.byteDirectory fun s d => { s with byteDirectory := d }

def inProto : Seeding Unit → Generating Unit :=
  zoom SeedDirectories.protoDirectory fun s d => { s with protoDirectory := d }

section

-- `text_format.MessageToString` of a `TPMCommandSequence`
variable (messageToString : List Proto.TPMCommand → Str)

/-- `_serialize_proto_sequence(commands)`. -/
def serializeProtoSequence (commands : SeedSequence) : Result (Option Bytes) := do
  let protoCommands ← protoCommands commands
  return protoCommands.map fun commands => encodeUtf8 (messageToString commands)

/-- The body of the loop of `_run_commands`. -/
def runVariant (script : TestScript) (cmd timestamp : Str) (force : Bool)
    (variant : SeedSequence × Nat) :
    Generating Unit := do
  let (sequence, i) := variant
  let name := variantName cmd i
  let content ← ofResult (serializeSequence (sequence.map SeedObject.toTPMCommand))
  inBytes (createVariant script name timestamp content force)
  let protoContent ← ofResult (serializeProtoSequence messageToString sequence)
  match protoContent with
  | some protoContent => inProto (createVariant script name timestamp protoContent force true)
  | none => return

def runCommands (script : TestScript) (timestamp : Str) (force : Bool) (cmd : Str)
    (command : SeedDefinition) : Generating Unit := do
  let variants ← ofResult (normalizeVariants command)
  forM variants.zipIdx (runVariant messageToString script cmd timestamp force)

/-- A `dict` of seed definitions in its order.  No key has a hyphen. -/
structure SeedTable where
  seeds : AList fun _ : Str => SeedDefinition
  no_hyphen : ∀ cmd ∈ seeds, '-' ∉ cmd

/-- The keys of `TEST_CASES`. -/
def testCaseNames : List Str :=
  ["TPMGetRandom", "TPMStirRandom", "TPMHash", "TPMGetTestResult", "TPMSelfTest", "TPMReadClock",
    "TPMVendorTCGTest", "TPMUnseal", "TPMLoad", "TPMCreate", "TPMCreatePrimary",
    "TPMStartAuthSessionHMAC", "TPMRSADecrypt", "TPMRSAEncrypt", "TPMMakeCredential",
    "TPMIncrementalSelfTest", "TPMGetCapability", "TPMECCParameters", "TPMLoadExternal", "TPMSign",
    "TPMPCRAllocate", "TPMPCRRead", "TPMPCRExtend", "TPMPCRReset", "TPMPCRSetAuthPolicy",
    "TPMTestParms", "TPMNVDefineSpace", "TPMNVSetBits", "TPMClear", "TPMSetPrimaryPolicy",
    "TPMNVWriteLock", "TPMNVWrite", "TPMNVReadLock", "TPMNVRead", "TPMNVExtend",
    "TPMNVUndefineSpace", "TPMPCREvent"].map String.toList

theorem testCaseNames_nodup : testCaseNames.Nodup := by decide +kernel

theorem testCaseNames_no_hyphen : ∀ cmd ∈ testCaseNames, '-' ∉ cmd := by decide +kernel

/-- `TEST_CASES`, whatever is defined under its keys. -/
def testCases (definition : Str → SeedDefinition) : SeedTable where
  seeds := ⟨testCaseNames.map fun cmd => ⟨cmd, definition cmd⟩, by
    have hkeys :
      (testCaseNames.map fun cmd => (⟨cmd, definition cmd⟩ : Sigma fun _ => SeedDefinition)).keys =
        testCaseNames := by
      rw [List.keys, List.map_map]
      exact List.map_id testCaseNames
    rw [List.NodupKeys, hkeys]
    exact testCaseNames_nodup⟩
  no_hyphen := by
    intro cmd hcmd
    obtain ⟨_, hentry, rfl⟩ := List.mem_map.mp hcmd
    obtain ⟨name, hname, rfl⟩ := List.mem_map.mp hentry
    exact testCaseNames_no_hyphen name hname

/-- `_generate_seeds(..)` in the minute `timestamp`, with both directories made. -/
def generateSeeds (script : TestScript) (timestamp : Str) (recreate : Bool) (table : SeedTable) :
    Generating Unit :=
  forM table.seeds.entries fun seed =>
    runCommands messageToString script timestamp recreate seed.1 seed.2

end

end Python
