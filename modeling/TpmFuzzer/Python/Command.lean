import TpmFuzzer.Proto.Messages
import TpmFuzzer.Python.Types

/-!
# The base class of `tpm2_commands.py`

`TPMCommand` with `__bytes__`, and its parsers from parameter bytes back into protobuf messages.  A
protobuf field raises `ValueError` for a number outside its type.
-/

namespace Python

open Py

/-! ## Protobuf fields -/

def outOfRange {α : Type} : Result α := .error (.valueError "Value out of range")

/-- The value a `uint32` field takes from an `int`. -/
def pbUint32 (x : Int) : Result UInt32 :=
  if 0 ≤ x ∧ x < 2 ^ 32 then .ok (UInt32.ofNat x.toNat) else outOfRange

/-- The 32 bits an open enum field takes from an `int`. -/
def pbEnum (x : Int) : Result UInt32 :=
  if -(2 ^ 31) ≤ x ∧ x < 2 ^ 31 then .ok (UInt32.ofNat (x % 2 ^ 32).toNat) else outOfRange

/-- `E.Name(x)`, assigned to a field of the enum. -/
def pbName (numbers : List UInt32) (x : Nat) : Result UInt32 :=
  match numbers.find? fun n => n.toNat = x with
  | some n => .ok n
  | none => .error (.valueError "Enum has no name defined for value")

/-! ## The base class -/

def TPM_ST_NO_SESSIONS : Int := 0x8001
def TPM_ST_SESSIONS : Int := 0x8002

/-- Tag, code and everything behind the header. -/
structure TPMCommand where
  tag : Int
  cc : Int
  params : Bytes

namespace TPMCommand

def ST_LEN : Nat := 2
def CC_LEN : Nat := 4
def SIZE_LEN : Nat := 4

/-- `commandSize` counts the header. -/
def commandSize (c : TPMCommand) : Nat := ST_LEN + CC_LEN + SIZE_LEN + c.params.length

/-- `__bytes__`. -/
def bytes (c : TPMCommand) : Result Bytes := do
  let tag ← toBytes c.tag ST_LEN
  let size ← toBytes c.commandSize SIZE_LEN
  let cc ← toBytes c.cc CC_LEN
  return tag ++ size ++ cc ++ c.params

def protoHeader (c : TPMCommand) : Result Proto.TPMHeader := do
  let tag ← pbEnum c.tag
  let commandSize ← pbUint32 c.commandSize
  let commandCode ← pbEnum c.cc
  return { tag := tag, commandSize := commandSize, commandCode := commandCode }

end TPMCommand

/-- `_serialize_sequence(commands)`. -/
def serializeSequence (commands : List TPMCommand) : Result Bytes :=
  joinBytes TPMCommand.bytes commands

/-! ## Parsers -/

/-- A TPM2B with its size, and the offset behind it. -/
def parseTpm2b (buffer : Bytes) (offset : Nat) : Bytes × Nat :=
  let size := fromBytes (slice buffer offset (offset + 2))
  let stop := offset + 2 + size
  (slice buffer offset stop, stop)

/-- `_proto_tpm2b_data(data)`, and every other message built as `X(size=len(data), buffer=data)`. -/
def protoSized (data : Bytes) : Result Proto.SizedBuffer := do
  let size ← pbUint32 data.length
  return { size := size, buffer := data }

/-- The authValue and the data behind their sizes, in a payload with a size in front. -/
def protoSensitiveCreate (payload : Bytes) : Result Proto.TPM2BSensitiveCreate := do
  let innerSize := fromBytes (slice payload 0 2)
  let inner := slice payload 2 (2 + innerSize)
  let userAuthSize := fromBytes (slice inner 0 2)
  let userAuth := slice inner 2 (2 + userAuthSize)
  let dataOffset := 2 + userAuthSize
  let dataSize := fromBytes (slice inner dataOffset (dataOffset + 2))
  let sensitiveData := slice inner (dataOffset + 2) (dataOffset + 2 + dataSize)
  let size ← pbUint32 innerSize
  let userAuthSize ← pbUint32 userAuthSize
  let dataSize ← pbUint32 dataSize
  return {
    size := size
    sensitive := some {
      userAuth := some { size := userAuthSize, buffer := userAuth }
      data := some { size := dataSize, buffer := sensitiveData } } }

/-- The RSA parameters and unique field at `offset` of a public area. -/
def protoRsaParms (pub : Bytes) (offset : Nat) :
    Result (Proto.TPMUPublicParms × Proto.TPMUPublicId) := do
  let symmetric := fromBytes (slice pub offset (offset + 2))
  let offset := if symmetric = PyEnum.value TPM_ALG.NULL then offset + 2 else offset + 6
  let scheme := fromBytes (slice pub offset (offset + 2))
  let offset := offset + 2
  let keyBits := fromBytes (slice pub offset (offset + 2))
  let offset := offset + 2
  let exponent := fromBytes (slice pub offset (offset + 4))
  let offset := offset + 4
  let uniqueBytes := (parseTpm2b pub offset).1
  let symmetric ← pbEnum symmetric
  let scheme ← pbEnum scheme
  let keyBits ← pbUint32 keyBits
  let exponent ← pbUint32 exponent
  return (.rsa { symmetric := symmetric, scheme := scheme, keyBits := keyBits
                 exponent := exponent },
    .rsa (uniqueBytes.drop 2))

/-- The KEYEDHASH parameters and unique field at `offset` of a public area. -/
def protoKeyedhashParms (pub : Bytes) (offset : Nat) :
    Result (Proto.TPMUPublicParms × Proto.TPMUPublicId) := do
  let scheme := fromBytes (slice pub offset (offset + 2))
  let offset := offset + 2
  let uniqueBytes := (parseTpm2b pub offset).1
  let scheme ← pbEnum scheme
  let unique ← protoSized (uniqueBytes.drop 2)
  return (.keyedhash { scheme := scheme }, .keyedhash unique)

/-- Parameters and unique depend on the type. -/
def protoParameters (pub : Bytes) (publicType offset : Nat) :
    Result (Proto.TPMUPublicParms × Proto.TPMUPublicId) :=
  if publicType = PyEnum.value TPM_ALG.RSA then protoRsaParms pub offset
  else if publicType = PyEnum.value TPM_ALG.KEYEDHASH then protoKeyedhashParms pub offset
  else .error (.notImplementedError "Unsupported public type for proto")

/-- By the type in front: RSA parameters, or a keyed-hash scheme. -/
def protoPublic (payload : Bytes) : Result Proto.TPM2BPublic := do
  let pub := payload.drop 2
  let publicType := fromBytes (slice pub 0 2)
  let nameAlg := fromBytes (slice pub 2 4)
  let objectAttributes := fromBytes (slice pub 4 8)
  let authPolicySize := fromBytes (slice pub 8 10)
  let authPolicy := slice pub 10 (10 + authPolicySize)
  let offset := 10 + authPolicySize
  let (parameters, unique) ← protoParameters pub publicType offset
  let size ← pbUint32 pub.length
  let type ← pbEnum publicType
  let nameAlg ← pbEnum nameAlg
  let objectAttributes ← pbUint32 objectAttributes
  let authPolicySize ← pbUint32 authPolicySize
  return {
    size := size
    publicArea := some {
      type := type
      nameAlg := nameAlg
      objectAttributes := objectAttributes
      authPolicy := some { size := authPolicySize, buffer := authPolicy }
      parameters := some parameters
      unique := some unique } }

/-- The `count` selections at `offset`. -/
def protoPcrSelections (payload : Bytes) : Nat → Nat → Result (List Proto.TPMSPCRSelection)
  | 0, _ => return []
  | count + 1, offset => do
    let hashAlg := fromBytes (slice payload offset (offset + 2))
    let offset := offset + 2
    let sizeofSelect ← index payload offset
    let offset := offset + 1
    let pcrSelect := slice payload offset (offset + sizeofSelect)
    let offset := offset + sizeofSelect
    let hash ← pbEnum hashAlg
    let size ← pbUint32 sizeofSelect
    let rest ← protoPcrSelections payload count offset
    return { hash := hash, sizeofSelect := size, pcrSelect := pcrSelect } :: rest

/-- The count, and that many selections. -/
def protoPcrSelection (payload : Bytes) : Result Proto.TPMLPCRSelection := do
  let count := fromBytes (slice payload 0 4)
  let selections ← protoPcrSelections payload count 4
  let count ← pbUint32 count
  return { count := count, pcrSelections := selections }

/-- The `while` loop of `_proto_sessions`. -/
def protoSessionsLoop (authBytes : Bytes) (offset : Nat) : Result (List Proto.TPMSession) :=
  if offset < authBytes.length then do
    let sessionHandle := fromBytes (slice authBytes offset (offset + 4))
    let nonceSize := fromBytes (slice authBytes (offset + 4) (offset + 6))
    let nonce := slice authBytes (offset + 6) (offset + 6 + nonceSize)
    let attrsOffset := offset + 6 + nonceSize
    let sessionAttributes ← index authBytes attrsOffset
    let hmacSize := fromBytes (slice authBytes (attrsOffset + 1) (attrsOffset + 3))
    let hmac := slice authBytes (attrsOffset + 3) (attrsOffset + 3 + hmacSize)
    let sessionHandle ← pbUint32 sessionHandle
    let nonceSizeField ← pbUint32 nonceSize
    let sessionAttributes ← pbUint32 sessionAttributes
    let hmacSizeField ← pbUint32 hmacSize
    let rest ← protoSessionsLoop authBytes (attrsOffset + 3 + hmacSize)
    return {
      sessionHandle := sessionHandle
      nonceSize := nonceSizeField
      nonce := nonce
      sessionAttributes := sessionAttributes
      hmacSize := hmacSizeField
      hmac := hmac } :: rest
  else return []
termination_by authBytes.length - offset

/-- The entries until the area is used up. -/
def protoSessions (authBytes : Bytes) : Result (List Proto.TPMSession) :=
  protoSessionsLoop authBytes 4

end Python
