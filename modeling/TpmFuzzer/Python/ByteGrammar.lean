import TpmFuzzer.Harness.CommandTable
import TpmFuzzer.Python.Agreement
import TpmFuzzer.Python.ByteCommands

/-!
# What the byte commands say

The commands without a protobuf form are sent as the bytes that `tpm2_commands.py` writes.  A
command is a code, handles, perhaps a session, and parameters (`Layout`), each of which says what
its arguments are (`ByteCommand.Says`).

A command is not well-formed if a scheme comes with another number of words than it has, if a digest
has not the length of its algorithm, or if a public key is longer than 512 bytes.  Then its bytes
cannot be taken apart into its arguments; that a TPM accepts any other is not meant.
-/

namespace Python

open Py Tpm
open Session (AuthEntry)
open Proto (Shape Param WireCommand commandTable)

/-! ## Layouts -/

/-- The arguments that make up one parameter. -/
inductive Piece where
  | byte (x : Int)
  | word16 (x : Int)
  | word32 (x : Int)
  | word64 (x : Int)
  | sized (b : Bytes)
  | algs (l : List TPM_ALG)
  | inPrivate (keyBits : Int) (includePrivate : Bool)
  | inPublic (hashAlg : TPM_ALG) (keyBits : Int)
  | sigScheme (s : SigScheme)
  | hashcheck (t : TkHashcheck)
  | digests (l : DigestValues)
  | publicParms (p : PublicParms)

/-- What Python writes for the argument. -/
def Piece.toBytes : Piece → Result Bytes
  | .byte x => Py.toBytes x 1
  | .word16 x => Py.toBytes x 2
  | .word32 x => Py.toBytes x 4
  | .word64 x => Py.toBytes x 8
  | .sized b => Python.sized b
  | .algs l => do
    let count ← Py.toBytes l.length 4
    let algIds ← algIds l
    return count ++ algIds
  | .inPrivate keyBits includePrivate => TPMLoadExternal.inPrivate keyBits includePrivate
  | .inPublic hashAlg keyBits =>
    Tpm2bPublic.toBytes { publicArea := TPMLoadExternal.publicArea hashAlg keyBits }
  | .sigScheme s => s.toBytes
  | .hashcheck t => t.toBytes
  | .digests l => l.toBytes
  | .publicParms p => p.toBytes

/-- The structure that is read in its place. -/
def Piece.shape : Piece → Shape
  | .byte _ => .byte
  | .word16 _ => .word16
  | .word32 _ => .word32
  | .word64 _ => .word64
  | .sized _ => .sized
  | .algs _ => .algs
  | .inPrivate _ _ => .sensitiveArea
  | .inPublic _ _ => .publicArea
  | .sigScheme _ => .sigScheme
  | .hashcheck _ => .hashCheck
  | .digests _ => .digests
  | .publicParms _ => .publicParms

/-- A command by its parts. -/
structure Layout where
  cc : Int
  handles : List Int := []
  /-- The handle of the session, if there is one. -/
  session : Option Int := none
  pieces : List Piece := []

def Layout.rest (l : Layout) : Result Bytes := joinBytes Piece.toBytes l.pieces

/-- The parts one behind the other, with an area when there is a session. -/
def Layout.command (l : Layout) : Result TPMCommand :=
  match l.session with
  | some handle => withSessions l.cc l.handles handle l.rest
  | none => withoutSessions l.cc l.rest

/-! ## The commands -/

/-- The constructors, called with arguments. -/
inductive ByteCommand where
  | incrementalSelfTest (algorithms : List TPM_ALG)
  | stirRandom (data : Bytes)
  | vendorTCGTest (data : Bytes)
  | selfTest (fullTest : TPMI_YES_NO)
  | getTestResult
  | readClock
  | getCapability (capability : TPM_CAP) (property propertyCount : Int)
  | eccParameters (curve : IntOr TPM_ECC_CURVE)
  | testParms (params : Option PublicParms)
  | hash (data : Bytes) (hashAlg : TPM_ALG) (hierarchy : TPM_RH)
  | sign (keyHandle : Int) (digest : Bytes) (inScheme : SigScheme) (validation : TkHashcheck)
      (sessionHandle : IntOr TPM_RS)
  | loadExternal (hashAlg : TPM_ALG) (keyBits : Int) (hierarchy : TPM_RH) (includePrivate : Bool)
  | pcrExtend (pcrHandle : IntOr TPM_RH) (digests : DigestValues) (sessionHandle : IntOr TPM_RS)
  | pcrReset (pcrHandle : Int) (sessionHandle : IntOr TPM_RS)
  | unsealData (itemHandle : Int) (sessionHandle : IntOr TPM_RS)
  | nvUndefineSpace (nvIndex : Int) (hierarchy : TPM_RH) (sessionHandle : Int)
  | nvWriteLock (nvIndex : Int) (authHandle : IntOr TPM_RH) (sessionHandle : Int)
  | nvReadLock (nvIndex : Int) (authHandle : IntOr TPM_RH) (sessionHandle : Int)
  | nvWrite (nvIndex : IntOr TPM_HT) (data : Bytes) (offset : Int)
      (authHandle : Option (IntOr TPM_RH)) (sessionHandle : IntOr TPM_RS)
  | nvRead (nvIndex size offset : Int) (authHandle : IntOr TPM_RH) (sessionHandle : Int)
  | nvExtend (nvIndex : Int) (data : Bytes) (authHandle : Option (IntOr TPM_RH))
      (sessionHandle : IntOr TPM_RS)
  | nvSetBits (nvIndex bits : Int) (authHandle : IntOr TPM_RH) (sessionHandle : Int)

namespace ByteCommand

/-- The constructor with these arguments. -/
def build : ByteCommand → Result TPMCommand
  | .incrementalSelfTest algorithms => TPMIncrementalSelfTest.init algorithms
  | .stirRandom data => TPMStirRandom.init data
  | .vendorTCGTest data => TPMVendorTCGTest.init data
  | .selfTest fullTest => TPMSelfTest.init fullTest
  | .getTestResult => TPMGetTestResult.init
  | .readClock => TPMReadClock.init
  | .getCapability capability property count => TPMGetCapability.init capability property count
  | .eccParameters curve => TPMECCParameters.init curve
  | .testParms params => TPMTestParms.init params
  | .hash data hashAlg hierarchy => TPMHash.init data hashAlg hierarchy
  | .sign key digest inScheme validation session =>
    TPMSign.init key digest inScheme validation session
  | .loadExternal hashAlg keyBits hierarchy priv =>
    TPMLoadExternal.init hashAlg keyBits hierarchy priv
  | .pcrExtend pcr digests session => TPMPCRExtend.init pcr digests session
  | .pcrReset pcr session => TPMPCRReset.init pcr session
  | .unsealData item session => TPMUnseal.init item session
  | .nvUndefineSpace index hierarchy session => TPMNVUndefineSpace.init index hierarchy session
  | .nvWriteLock index auth session => TPMNVWriteLock.init index auth session
  | .nvReadLock index auth session => TPMNVReadLock.init index auth session
  | .nvWrite index data offset auth session => TPMNVWrite.init index data offset auth session
  | .nvRead index size offset auth session => TPMNVRead.init index size offset auth session
  | .nvExtend index data auth session => TPMNVExtend.init index data auth session
  | .nvSetBits index bits auth session => TPMNVSetBits.init index bits auth session

/-- What the arguments of a constructor say. -/
def layout : ByteCommand → Layout
  | .incrementalSelfTest algorithms =>
    { cc := TPM_CC_INCREMENTAL_SELF_TEST, pieces := [.algs algorithms] }
  | .stirRandom data => { cc := TPM_CC_STIR_RANDOM, pieces := [.sized data] }
  | .vendorTCGTest data => { cc := TPM_CC_VENDOR_TCG_TEST, pieces := [.sized data] }
  | .selfTest fullTest => { cc := TPM_CC_SELF_TEST, pieces := [.byte (PyEnum.value fullTest)] }
  | .getTestResult => { cc := TPM_CC_GET_TEST_RESULT }
  | .readClock => { cc := TPM_CC_READ_CLOCK }
  | .getCapability capability property count =>
    { cc := TPM_CC_GET_CAPABILITY
      pieces := [.word32 (PyEnum.value capability), .word32 property, .word32 count] }
  | .eccParameters curve => { cc := TPM_CC_ECC_PARAMETERS, pieces := [.word16 curve.toInt] }
  | .testParms params =>
    { cc := TPM_CC_TEST_PARMS, pieces := [.publicParms (params.getD { algType := .enum .RSA })] }
  | .hash data hashAlg hierarchy =>
    { cc := TPM_CC_HASH
      pieces := [.sized data, .word16 (PyEnum.value hashAlg), .word32 (PyEnum.value hierarchy)] }
  | .sign key digest inScheme validation session =>
    { cc := TPM_CC_SIGN, handles := [key], session := session.toInt
      pieces := [.sized digest, .sigScheme inScheme, .hashcheck validation] }
  | .loadExternal hashAlg keyBits hierarchy priv =>
    { cc := TPM_CC_LOAD_EXTERNAL
      pieces := [.inPrivate keyBits priv, .inPublic hashAlg keyBits,
        .word32 (PyEnum.value hierarchy)] }
  | .pcrExtend pcr digests session =>
    { cc := TPM_CC_PCR_EXTEND, handles := [pcr.toInt], session := session.toInt
      pieces := [.digests digests] }
  | .pcrReset pcr session => { cc := TPM_CC_PCR_RESET, handles := [pcr], session := session.toInt }
  | .unsealData item session => { cc := TPM_CC_UNSEAL, handles := [item], session := session.toInt }
  | .nvUndefineSpace index hierarchy session =>
    { cc := TPM_CC_NV_UNDEFINE_SPACE, handles := [PyEnum.value hierarchy, index]
      session := session }
  | .nvWriteLock index auth session =>
    { cc := TPM_CC_NV_WRITE_LOCK, handles := [auth.toInt, index], session := session }
  | .nvReadLock index auth session =>
    { cc := TPM_CC_NV_READ_LOCK, handles := [auth.toInt, index], session := session }
  | .nvWrite index data offset auth session =>
    { cc := TPM_CC_NV_WRITE, handles := [authHandleOr index.toInt auth, index.toInt]
      session := session.toInt
      pieces := [.sized data, .word16 offset] }
  | .nvRead index size offset auth session =>
    { cc := TPM_CC_NV_READ, handles := [auth.toInt, index], session := session
      pieces := [.word16 size, .word16 offset] }
  | .nvExtend index data auth session =>
    { cc := TPM_CC_NV_EXTEND, handles := [authHandleOr index auth, index], session := session.toInt
      pieces := [.sized data] }
  | .nvSetBits index bits auth session =>
    { cc := TPM_CC_NV_SET_BITS, handles := [auth.toInt, index], session := session
      pieces := [.word64 bits] }

end ByteCommand

theorem joinBytes_one {α : Type} (f : α → Result Bytes) (a : α) : joinBytes f [a] = f a := by
  simp only [joinBytes, pure_bind, List.append_nil, bind_pure]

theorem joinBytes_two {α : Type} (f : α → Result Bytes) (a b : α) :
    joinBytes f [a, b] = do
      let x ← f a
      let y ← f b
      return x ++ y := by
  simp only [joinBytes, bind_assoc, pure_bind, List.append_nil]

theorem joinBytes_three {α : Type} (f : α → Result Bytes) (a b c : α) :
    joinBytes f [a, b, c] = do
      let x ← f a
      let y ← f b
      let z ← f c
      return x ++ y ++ z := by
  simp only [joinBytes, bind_assoc, pure_bind, List.append_nil, List.append_assoc]

/-- Each constructor builds the command of its layout. -/
theorem ByteCommand.build_eq (c : ByteCommand) : c.build = c.layout.command := by
  cases c <;>
    simp only [build, layout, Layout.command, Layout.rest, joinBytes_one, joinBytes_two,
      joinBytes_three, Piece.toBytes] <;>
    rfl

/-- Its code is in the table, with its handles and parameters. -/
theorem ByteCommand.layout_table (c : ByteCommand) :
    commandTable.lookup (UInt32.ofNat c.layout.cc.toNat) =
      some (c.layout.handles.length, c.layout.pieces.map Piece.shape) := by
  cases c <;> rfl

theorem ByteCommand.layout_handles (c : ByteCommand) (h : c.layout.session = none) :
    c.layout.handles = [] := by
  cases c <;> first | rfl | cases h

/-! ## What the arguments say -/

/-- The numbers on the wire are the arguments. -/
def Numbers (xs : List Int) (vs : List UInt16) : Prop :=
  List.Forall₂ (fun (x : Int) (v : UInt16) => (v.toNat : Int) = x) xs vs

/-- The selector of a union and the words behind it. -/
structure SelectedSays {arms : UInt16 → Option Nat} (selector : Int) (words : List Int)
    (u : Selected arms) : Prop where
  selector : (u.selector.toNat : Int) = selector
  words : Numbers words u.words

/-- The arm of a selector that is an `int`. -/
def armOf (arms : UInt16 → Option Nat) (selector : Int) : Option Nat :=
  arms (UInt16.ofNat selector.toNat)

def SigScheme.words (s : SigScheme) : List Int :=
  if algToInt s.scheme = PyEnum.value TPM_ALG.NULL then [] else [algToInt s.hashAlg]

def SymDefObject.words (s : SymDefObject) : List Int :=
  if algToInt s.algorithm = PyEnum.value TPM_ALG.NULL then [] else [s.keyBits, algToInt s.mode]

def RsaParms.schemeWords (p : RsaParms) : List Int :=
  if algToInt p.scheme = PyEnum.value TPM_ALG.NULL then [] else (p.schemeHash.map algToInt).toList

/-- What RSA parameters say about those that are read. -/
structure RsaParms.Says (p : RsaParms) (d : RsaDetail) : Prop where
  symmetric : SelectedSays (algToInt p.symmetric.algorithm) p.symmetric.words d.symmetric
  scheme : SelectedSays (algToInt p.scheme) p.schemeWords d.scheme
  keyBits : (d.keyBits.toNat : Int) = p.keyBits
  exponent : (d.exponent.toNat : Int) = p.exponent

structure Ha.Says (h : Ha) (w : TPMT_HA) : Prop where
  hashAlg : (w.hashAlg.toNat : Int) = algToInt h.hashAlg
  digest : w.digest = h.digest

structure TkHashcheck.Says (t : TkHashcheck) (w : TPMT_TK_HASHCHECK) : Prop where
  hierarchy : (w.hierarchy.toNat : Int) = t.hierarchy.toInt
  digest : w.digest.bytes = t.digest

/-- A key of `TPMLoadExternal`: its private part, if there is one. -/
def PrivateSays (keyBits : Int) (includePrivate : Bool) (w : Option TPMT_SENSITIVE) : Prop :=
  if includePrivate then
    ∃ s, w = some s ∧ s.sensitiveType = TPM2_ALG_RSA ∧ s.authValue.bytes = [] ∧
      s.seedValue.bytes = [] ∧
      s.sensitive.bytes = TPMLoadExternal.keyOf (keyBits / 8 / 2)
  else w = none

/-- Its public part: no policy, no symmetric algorithm and no scheme. -/
structure ExternalSays (hashAlg : TPM_ALG) (keyBits : Int) (area : TPMT_PUBLIC) : Prop where
  type : area.type = TPM2_ALG_RSA
  nameAlg : (area.nameAlg.toNat : Int) = PyEnum.value hashAlg
  objectAttributes : area.objectAttributes = 0x42
  authPolicy : area.authPolicy.bytes = []
  rsaDetail : area.rsaDetail = { symmetric := { algorithm := TPM2_ALG_NULL }
                                 scheme := { scheme := TPM2_ALG_NULL }
                                 keyBits := UInt16.ofNat keyBits.toNat, exponent := 0 }
  unique : area.uniqueRsa.bytes = TPMLoadExternal.keyOf (keyBits / 8)

/-- What an argument says about the parameter that is read. -/
def Piece.Says : Piece → Param → Prop
  | .byte x, .byte v => (v.toNat : Int) = x
  | .word16 x, .word16 v => (v.toNat : Int) = x
  | .word32 x, .word32 v => (v.toNat : Int) = x
  | .word64 x, .word64 v => (v.toNat : Int) = x
  | .sized b, .sized w => w = b
  | .algs l, .algs w => Numbers (l.map fun a => (PyEnum.value a : Int)) w
  | .inPrivate keyBits includePrivate, .sensitiveArea w => PrivateSays keyBits includePrivate w
  | .inPublic hashAlg keyBits, .publicArea area => ExternalSays hashAlg keyBits area
  | .sigScheme s, .sigScheme w => SelectedSays (algToInt s.scheme) s.words w
  | .hashcheck t, .hashCheck w => t.Says w
  | .digests l, .digests w => List.Forall₂ Ha.Says l.digests w
  | .publicParms p, .publicParms d => ∃ parms, p.rsaParameters = some parms ∧ parms.Says d
  | _, _ => False

/-- One entry for the session, with no nonce and no HMAC. -/
def SessionSays : Option Int → Option (List AuthEntry) → Prop
  | none, none => True
  | some handle, some [e] =>
    (e.handle.toNat : Int) = handle ∧ e.nonce.bytes = [] ∧ e.attrs = 0 ∧ e.hmac.bytes = []
  | _, _ => False

/-- What a command says about the one that is read. -/
structure ByteCommand.Says (c : ByteCommand) (length : Nat) (w : WireCommand) : Prop where
  commandSize : w.commandSize.toNat = length
  commandCode : (w.commandCode.toNat : Int) = c.layout.cc
  handles : List.Forall₂ (fun (x : Int) (v : UInt32) => (v.toNat : Int) = x)
    c.layout.handles w.handles
  sessions : SessionSays c.layout.session w.sessions
  params : List.Forall₂ Piece.Says c.layout.pieces w.params

/-! ## What is well-formed -/

def RsaParms.WellFormed (p : RsaParms) : Prop :=
  armOf symObjectArms (algToInt p.symmetric.algorithm) = some p.symmetric.words.length ∧
    armOf rsaSchemeArms (algToInt p.scheme) = some p.schemeWords.length

/-- The argument is of the form that its structure has. -/
def Piece.WellFormed : Piece → Prop
  | .inPublic _ keyBits => keyBits / 8 ≤ 512
  | .sigScheme s => armOf sigSchemeArms (algToInt s.scheme) = some s.words.length
  | .digests l => ∀ h ∈ l.digests, armOf digestLength (algToInt h.hashAlg) = some h.digest.length
  | .publicParms p => ∀ parms, p.rsaParameters = some parms → parms.WellFormed
  | _ => True

/-- Every scheme has as many words as it needs, every digest the length of its algorithm, and a
public key fits. -/
def ByteCommand.WellFormed (c : ByteCommand) : Prop := ∀ p ∈ c.layout.pieces, p.WellFormed

end Python
