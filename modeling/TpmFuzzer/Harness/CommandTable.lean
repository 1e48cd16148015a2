import TpmFuzzer.Harness.AuthAreas
import TpmFuzzer.Tpm.Parameters

/-!
# The layout of the commands

The commands of the two generators of inputs, laid out as in the tables of the TPM specification's
third part: the number of handles and the types of the parameters of each command code
(`commandTable`).  `readCommand` takes a command apart by them, to see which values stand where.

That is all it does.  Which commands a TPM accepts is not said: a sized buffer is taken whatever its
capacity, a public area of type NULL as one without parameters, and the values of fields are not
looked at, unless the layout goes by them.
-/

namespace Proto

open Bytes Tpm Session Reading

/-! ## Codes of `tpm_cc.proto` without a message -/

def TPM_CC_NV_UNDEFINE_SPACE : UInt32 := 0x122
def TPM_CC_NV_SET_BITS : UInt32 := 0x135
def TPM_CC_NV_EXTEND : UInt32 := 0x136
def TPM_CC_NV_WRITE : UInt32 := 0x137
def TPM_CC_NV_WRITE_LOCK : UInt32 := 0x138
def TPM_CC_PCR_RESET : UInt32 := 0x13D
def TPM_CC_INCREMENTAL_SELF_TEST : UInt32 := 0x142
def TPM_CC_SELF_TEST : UInt32 := 0x143
def TPM_CC_STIR_RANDOM : UInt32 := 0x146
def TPM_CC_NV_READ : UInt32 := 0x14E
def TPM_CC_NV_READ_LOCK : UInt32 := 0x14F
def TPM_CC_SIGN : UInt32 := 0x15D
def TPM_CC_UNSEAL : UInt32 := 0x15E
def TPM_CC_LOAD_EXTERNAL : UInt32 := 0x167
def TPM_CC_ECC_PARAMETERS : UInt32 := 0x178
def TPM_CC_GET_CAPABILITY : UInt32 := 0x17A
def TPM_CC_GET_TEST_RESULT : UInt32 := 0x17C
def TPM_CC_HASH : UInt32 := 0x17D
def TPM_CC_READ_CLOCK : UInt32 := 0x181
def TPM_CC_PCR_EXTEND : UInt32 := 0x182
def TPM_CC_TEST_PARMS : UInt32 := 0x18A
def TPM_CC_VENDOR_TCG_TEST : UInt32 := 0x20000000

/-! ## The types of the parameters -/

/-- The types of parameters. -/
inductive Shape
  | word16
  | word32
  | byte
  | sized
  | symDef
  | sensitive
  | publicArea
  | pcrs
  | rsaDecrypt
  | nvPublic
  | word64
  | algs
  | sensitiveArea
  | sigScheme
  | hashCheck
  | digests
  | publicParms
  deriving DecidableEq

/-- The value of a parameter. -/
inductive Param
  | word16 (v : UInt16)
  | word32 (v : UInt32)
  | byte (v : UInt8)
  | sized (b : Bytes)
  | symDef (s : TPMT_SYM_DEF)
  | sensitive (s : TPMS_SENSITIVE_CREATE)
  | publicArea (area : TPMT_PUBLIC)
  | pcrs (l : List WireSelection)
  | rsaDecrypt (scheme : UInt16) (hashAlg : Option UInt16)
  | nvPublic (p : TPMS_NV_PUBLIC)
  | word64 (v : UInt64)
  | algs (l : List UInt16)
  | sensitiveArea (s : Option TPMT_SENSITIVE)
  | sigScheme (s : Selected sigSchemeArms)
  | hashCheck (t : TPMT_TK_HASHCHECK)
  | digests (l : List TPMT_HA)
  | publicParms (p : RsaDetail)

def Shape.read : Shape → Reader UInt8 Param
  | .word16 => do
    let v ← readWord16
    return .word16 v
  | .word32 => do
    let v ← readWord32
    return .word32 v
  | .byte => do
    let v ← readByte
    return .byte v
  | .sized => do
    let b ← readSized
    return .sized b
  | .symDef => do
    let s ← TPMT_SYM_DEF.read
    return .symDef s
  | .sensitive => do
    let s ← readOuter TPMS_SENSITIVE_CREATE.read
    return .sensitive s
  | .publicArea => do
    let area ← TPM2B_PUBLIC.read
    return .publicArea area
  | .pcrs => do
    let l ← TPML_PCR_SELECTION.read
    return .pcrs l
  | .rsaDecrypt => do
    let (scheme, hashAlg) ← readRsaDecrypt
    return .rsaDecrypt scheme hashAlg
  | .nvPublic => do
    let p ← readOuter TPMS_NV_PUBLIC.read
    return .nvPublic p
  | .word64 => do
    let v ← readWord64
    return .word64 v
  | .algs => do
    let l ← readCounted readWord16
    return .algs l
  | .sensitiveArea => do
    let s ← readSensitive
    return .sensitiveArea s
  | .sigScheme => do
    let s ← Selected.read sigSchemeArms
    return .sigScheme s
  | .hashCheck => do
    let t ← TPMT_TK_HASHCHECK.read
    return .hashCheck t
  | .digests => do
    let l ← readCounted TPMT_HA.read
    return .digests l
  | .publicParms => do
    let p ← readPublicParms
    return .publicParms p

/-- Parameters one behind the other. -/
def readParams : List Shape → Reader UInt8 (List Param)
  | [] => return []
  | s :: shapes => do
    let w ← s.read
    let ws ← readParams shapes
    return w :: ws

/-- The number of handles and the parameters behind each command code. -/
def commandTable : List (UInt32 × Nat × List Shape) :=
  [(TPM_CC_GET_RANDOM, 0, [.word16]),
   (TPM_CC_CREATE, 1, [.sensitive, .publicArea, .sized, .pcrs]),
   (TPM_CC_CREATE_PRIMARY, 1, [.sensitive, .publicArea, .sized, .pcrs]),
   (TPM_CC_START_AUTH_SESSION, 2, [.sized, .sized, .byte, .symDef, .word16]),
   (TPM_CC_RSA_DECRYPT, 1, [.sized, .rsaDecrypt, .sized]),
   (TPM_CC_CLEAR, 1, []),
   (TPM_CC_RSA_ENCRYPT, 1, [.sized, .rsaDecrypt, .sized]),
   (TPM_CC_PCR_EVENT, 1, [.sized]),
   (TPM_CC_PCR_ALLOCATE, 1, [.pcrs]),
   (TPM_CC_NV_DEFINE_SPACE, 1, [.sized, .nvPublic]),
   (TPM_CC_SET_PRIMARY_POLICY, 1, [.sized, .word16]),
   (TPM_CC_LOAD, 1, [.sized, .publicArea]),
   (TPM_CC_MAKE_CREDENTIAL, 1, [.sized, .sized]),
   (TPM_CC_PCR_SET_AUTH_POLICY, 1, [.sized, .word16, .word32]),
   (TPM_CC_PCR_READ, 0, [.pcrs]),
   (TPM_CC_NV_UNDEFINE_SPACE, 2, []),
   (TPM_CC_NV_SET_BITS, 2, [.word64]),
   (TPM_CC_NV_EXTEND, 2, [.sized]),
   (TPM_CC_NV_WRITE, 2, [.sized, .word16]),
   (TPM_CC_NV_WRITE_LOCK, 2, []),
   (TPM_CC_PCR_RESET, 1, []),
   (TPM_CC_INCREMENTAL_SELF_TEST, 0, [.algs]),
   (TPM_CC_SELF_TEST, 0, [.byte]),
   (TPM_CC_STIR_RANDOM, 0, [.sized]),
   (TPM_CC_NV_READ, 2, [.word16, .word16]),
   (TPM_CC_NV_READ_LOCK, 2, []),
   (TPM_CC_SIGN, 1, [.sized, .sigScheme, .hashCheck]),
   (TPM_CC_UNSEAL, 1, []),
   (TPM_CC_LOAD_EXTERNAL, 0, [.sensitiveArea, .publicArea, .word32]),
   (TPM_CC_ECC_PARAMETERS, 0, [.word16]),
   (TPM_CC_GET_CAPABILITY, 0, [.word32, .word32, .word32]),
   (TPM_CC_GET_TEST_RESULT, 0, []),
   (TPM_CC_HASH, 0, [.sized, .word16, .word32]),
   (TPM_CC_READ_CLOCK, 0, []),
   (TPM_CC_PCR_EXTEND, 1, [.digests]),
   (TPM_CC_TEST_PARMS, 0, [.publicParms]),
   (TPM_CC_VENDOR_TCG_TEST, 0, [.sized])]

/-- A command taken apart. -/
structure WireCommand where
  tag : UInt16
  commandSize : UInt32
  commandCode : UInt32
  handles : List UInt32
  /-- The authorization area of a session-tagged command. -/
  sessions : Option (List AuthEntry)
  params : List Param

/-- The authorization area: its size and entries up to its end. -/
def readArea : Reader UInt8 (List AuthEntry) := do
  let authSize ← readWord32
  let area ← takeN authSize.toNat
  match readAll AuthEntry.read area with
  | some entries => return entries
  | none => failure

/-- The tag says whether there is an authorization area. -/
def readSessions (tag : UInt16) : Reader UInt8 (Option (List AuthEntry)) :=
  if tag = TPM2_ST_SESSIONS then do
    let entries ← readArea
    return some entries
  else if tag = TPM2_ST_NO_SESSIONS then return none
  else failure

/-- `tag | commandSize | commandCode | handles | authorizations | parameters`. -/
def readCommand : Reader UInt8 WireCommand := do
  let tag ← readWord16
  let commandSize ← readWord32
  let commandCode ← readWord32
  match commandTable.lookup commandCode with
  | none => failure
  | some (handleCount, shapes) =>
    let handles ← times readWord32 handleCount
    let sessions ← readSessions tag
    let params ← readParams shapes
    return ⟨tag, commandSize, commandCode, handles, sessions, params⟩

/-- The area of a session list, with its size in front. -/
theorem reads_authArea {l : List TPMSession} (hlen : areaSize l < 2 ^ 32) :
    Reads readArea (authArea l) (l.map TPMSession.authEntry) := by
  have hsize : (UInt32.ofNat (areaSize l)).toNat = (l.flatMap TPMSession.encode).length :=
    UInt32.toNat_ofNat_of_lt' hlen
  have htake : Reads (takeN (UInt32.ofNat (areaSize l)).toNat) (l.flatMap TPMSession.encode)
      (l.flatMap TPMSession.encode) := by
    rw [hsize]
    exact Reads.takeN _
  refine (reads_word32 _).bind (htake.bind_nil ?_)
  rw [readAll_sessions]
  exact Reads.pure _

/-! ## What is read of a message -/

theorem reads_handles (handles : List UInt32) :
    Reads (times readWord32 handles.length) (handleBytes handles) handles := by
  have htimes := Reads.times (fun h (_ : h ∈ handles) => reads_word32 h)
  rw [List.map_id'] at htimes
  exact htimes

/-- A command with the handles of its code and an authorization area: what is left are its
parameters. -/
theorem whole_readCommand {tag : UInt16} {code : UInt32} {handles : List UInt32}
    {shapes : List Shape} {area : Bytes} {sessions : Option (List AuthEntry)}
    (htable : commandTable.lookup code = some (handles.length, shapes))
    (hsessions : Reads (readSessions tag) area sessions) (params : Bytes) :
    whole readCommand (message tag code (handleBytes handles ++ (area ++ params))) =
      (whole (readParams shapes) params).map fun ws =>
        ⟨tag, UInt32.ofNat (message tag code (handleBytes handles ++ (area ++ params))).length,
          code, handles,
          sessions, ws⟩ := by
  rw [length_message, message]
  unfold readCommand
  rw [(reads_word16 tag).whole_bind, (reads_word32 _).whole_bind,
    (reads_word32 code).whole_bind, htable]
  dsimp only
  rw [(reads_handles handles).whole_bind, hsessions.whole_bind, whole_bind_pure]

/-- A command with a code that is not in the table has no layout here. -/
theorem whole_readCommand_unknown {tag : UInt16} {code : UInt32}
    (htable : commandTable.lookup code = none) (body : Bytes) :
    whole readCommand (message tag code body) = none := by
  unfold readCommand message
  rw [(reads_word16 tag).whole_bind, (reads_word32 _).whole_bind,
    (reads_word32 code).whole_bind, htable]
  rfl

end Proto
