import TpmFuzzer.Python.Classes

/-!
# The commands of `tpm2_commands.py` without a protobuf form

`init` is `__init__`; the classes keep nothing else, so that it returns the command itself.  The
parameters of a session-tagged command are its handles, an authorization area with one entry, and
what the class adds (`withSessions`); those of a command without sessions are what the class adds
(`withoutSessions`).
-/

namespace Python

open Py

/-! ## Constants of the protobuf enum -/

def TPM_CC_NV_UNDEFINE_SPACE : Int := 0x122
def TPM_CC_NV_SET_BITS : Int := 0x135
def TPM_CC_NV_EXTEND : Int := 0x136
def TPM_CC_NV_WRITE : Int := 0x137
def TPM_CC_NV_WRITE_LOCK : Int := 0x138
def TPM_CC_PCR_RESET : Int := 0x13D
def TPM_CC_INCREMENTAL_SELF_TEST : Int := 0x142
def TPM_CC_SELF_TEST : Int := 0x143
def TPM_CC_STIR_RANDOM : Int := 0x146
def TPM_CC_NV_READ : Int := 0x14E
def TPM_CC_NV_READ_LOCK : Int := 0x14F
def TPM_CC_SIGN : Int := 0x15D
def TPM_CC_UNSEAL : Int := 0x15E
def TPM_CC_LOAD_EXTERNAL : Int := 0x167
def TPM_CC_ECC_PARAMETERS : Int := 0x178
def TPM_CC_GET_CAPABILITY : Int := 0x17A
def TPM_CC_GET_TEST_RESULT : Int := 0x17C
def TPM_CC_HASH : Int := 0x17D
def TPM_CC_READ_CLOCK : Int := 0x181
def TPM_CC_PCR_EXTEND : Int := 0x182
def TPM_CC_TEST_PARMS : Int := 0x18A
def TPM_CC_VENDOR_TCG_TEST : Int := 0x20000000

/-! ## Shared by the classes -/

def handlesBytes (handles : List Int) : Result Bytes := joinBytes (toBytes · 4) handles

/-- Handles, an area with one session, and the rest. -/
def withSessions (cc : Int) (handles : List Int) (sessionHandle : Int) (rest : Result Bytes) :
    Result TPMCommand := do
  let handles ← handlesBytes handles
  let area ← authAreaOf sessionHandle
  let rest ← rest
  return { tag := TPM_ST_SESSIONS, cc := cc, params := handles ++ area ++ rest }

/-- The parameters alone. -/
def withoutSessions (cc : Int) (params : Result Bytes) : Result TPMCommand := do
  let params ← params
  return { tag := TPM_ST_NO_SESSIONS, cc := cc, params := params }

/-! ## Tests and random numbers -/

/-- `a.value.to_bytes(2, BYTE_ORDER)` of every algorithm, joined. -/
def algIds : List TPM_ALG → Result Bytes := joinBytes fun a => toBytes (PyEnum.value a) 2

def TPMIncrementalSelfTest.init (algorithms : List TPM_ALG) : Result TPMCommand :=
  withoutSessions TPM_CC_INCREMENTAL_SELF_TEST do
    let count ← toBytes algorithms.length 4
    let algIds ← algIds algorithms
    return count ++ algIds

def TPMStirRandom.init (data : Bytes) : Result TPMCommand :=
  withoutSessions TPM_CC_STIR_RANDOM (sized data)

def TPMVendorTCGTest.init (data : Bytes) : Result TPMCommand :=
  withoutSessions TPM_CC_VENDOR_TCG_TEST (sized data)

def TPMSelfTest.init (fullTest : TPMI_YES_NO) : Result TPMCommand :=
  withoutSessions TPM_CC_SELF_TEST (toBytes (PyEnum.value fullTest) 1)

def TPMGetTestResult.init : Result TPMCommand := withoutSessions TPM_CC_GET_TEST_RESULT (return [])

def TPMReadClock.init : Result TPMCommand := withoutSessions TPM_CC_READ_CLOCK (return [])

/-! ## Capabilities and parameters -/

def TPMGetCapability.init (capability : TPM_CAP) (property propertyCount : Int) :
    Result TPMCommand :=
  withoutSessions TPM_CC_GET_CAPABILITY do
    let capability ← toBytes (PyEnum.value capability) 4
    let property ← toBytes property 4
    let propertyCount ← toBytes propertyCount 4
    return capability ++ property ++ propertyCount

def TPMECCParameters.init (curve : IntOr TPM_ECC_CURVE) : Result TPMCommand :=
  withoutSessions TPM_CC_ECC_PARAMETERS (toBytes curve.toInt 2)

def TPMTestParms.init (params : Option PublicParms := none) : Result TPMCommand :=
  withoutSessions TPM_CC_TEST_PARMS (params.getD { algType := .enum .RSA }).toBytes

/-! ## Hashes and signatures -/

def TPMHash.init (data : Bytes) (hashAlg : TPM_ALG) (hierarchy : TPM_RH) : Result TPMCommand :=
  withoutSessions TPM_CC_HASH do
    let data ← sized data
    let hashAlg ← toBytes (PyEnum.value hashAlg) 2
    let hierarchy ← toBytes (PyEnum.value hierarchy) 4
    return data ++ hashAlg ++ hierarchy

def TPMSign.init (keyHandle : Int) (digest : Bytes) (inScheme : SigScheme)
    (validation : TkHashcheck) (sessionHandle : IntOr TPM_RS := .enum .PW) : Result TPMCommand :=
  withSessions TPM_CC_SIGN [keyHandle] sessionHandle.toInt do
    let digest ← sized digest
    let inScheme ← inScheme.toBytes
    let validation ← validation.toBytes
    return digest ++ inScheme ++ validation

/-! ## `TPMLoadExternal` -/

namespace TPMLoadExternal

/-- `b"\x80" + b"\x01" * (n - 1)`. -/
def keyOf (n : Int) : Bytes := 0x80 :: List.replicate (n - 1).toNat 0x01

def inPrivate (keyBits : Int) (includePrivate : Bool) : Result Bytes :=
  if includePrivate then
    Tpm2bSensitive.toBytes { sensitiveType := .enum .RSA, privateKey := keyOf (keyBits / 8 / 2) }
  else toBytes 0 2

def publicArea (hashAlg : TPM_ALG) (keyBits : Int) : TpmtPublic where
  type := .enum .RSA
  nameAlg := .enum hashAlg
  objectAttributes := .flags [.FIXEDTPM, .USERWITHAUTH]
  rsaParameters := some
    { symmetric := { algorithm := .enum .NULL }, scheme := .enum .NULL
      keyBits := keyBits, exponent := 0 }
  unique := keyOf (keyBits / 8)

def init (hashAlg : TPM_ALG) (keyBits : Int) (hierarchy : TPM_RH := .NULL)
    (includePrivate : Bool := false) :
    Result TPMCommand :=
  withoutSessions TPM_CC_LOAD_EXTERNAL do
    let inPrivate ← inPrivate keyBits includePrivate
    let inPublic ← Tpm2bPublic.toBytes { publicArea := publicArea hashAlg keyBits }
    let hierarchyBytes ← toBytes (PyEnum.value hierarchy) 4
    return inPrivate ++ inPublic ++ hierarchyBytes

end TPMLoadExternal

/-! ## PCRs and sealed objects -/

def TPMPCRExtend.init (pcrHandle : IntOr TPM_RH) (digests : DigestValues)
    (sessionHandle : IntOr TPM_RS := .enum .PW) : Result TPMCommand :=
  withSessions TPM_CC_PCR_EXTEND [pcrHandle.toInt] sessionHandle.toInt digests.toBytes

def TPMPCRReset.init (pcrHandle : Int) (sessionHandle : IntOr TPM_RS := .enum .PW) :
    Result TPMCommand :=
  withSessions TPM_CC_PCR_RESET [pcrHandle] sessionHandle.toInt (return [])

def TPMUnseal.init (itemHandle : Int) (sessionHandle : IntOr TPM_RS := .enum .PW) :
    Result TPMCommand :=
  withSessions TPM_CC_UNSEAL [itemHandle] sessionHandle.toInt (return [])

/-! ## NV indices -/

/-- The hierarchy comes first here. -/
def TPMNVUndefineSpace.init (nvIndex : Int) (hierarchy : TPM_RH := .OWNER)
    (sessionHandle : Int := PyEnum.value TPM_RS.PW) : Result TPMCommand :=
  withSessions TPM_CC_NV_UNDEFINE_SPACE [PyEnum.value hierarchy, nvIndex] sessionHandle (return [])

def TPMNVWriteLock.init (nvIndex : Int) (authHandle : IntOr TPM_RH := .enum .OWNER)
    (sessionHandle : Int := PyEnum.value TPM_RS.PW) : Result TPMCommand :=
  withSessions TPM_CC_NV_WRITE_LOCK [authHandle.toInt, nvIndex] sessionHandle (return [])

def TPMNVReadLock.init (nvIndex : Int) (authHandle : IntOr TPM_RH := .enum .OWNER)
    (sessionHandle : Int := PyEnum.value TPM_RS.PW) : Result TPMCommand :=
  withSessions TPM_CC_NV_READ_LOCK [authHandle.toInt, nvIndex] sessionHandle (return [])

/-- Without an `auth_handle` the index authorizes itself. -/
def authHandleOr (nvIndex : Int) (authHandle : Option (IntOr TPM_RH)) : Int :=
  (authHandle.map IntOr.toInt).getD nvIndex

def TPMNVWrite.init (nvIndex : IntOr TPM_HT) (data : Bytes) (offset : Int := 0)
    (authHandle : Option (IntOr TPM_RH) := none) (sessionHandle : IntOr TPM_RS := .enum .PW) :
    Result TPMCommand :=
  withSessions TPM_CC_NV_WRITE [authHandleOr nvIndex.toInt authHandle, nvIndex.toInt]
    sessionHandle.toInt do
    let data ← sized data
    let offset ← toBytes offset 2
    return data ++ offset

def TPMNVRead.init (nvIndex size offset : Int) (authHandle : IntOr TPM_RH := .enum .OWNER)
    (sessionHandle : Int := PyEnum.value TPM_RS.PW) : Result TPMCommand :=
  withSessions TPM_CC_NV_READ [authHandle.toInt, nvIndex] sessionHandle do
    let size ← toBytes size 2
    let offset ← toBytes offset 2
    return size ++ offset

def TPMNVExtend.init (nvIndex : Int) (data : Bytes) (authHandle : Option (IntOr TPM_RH) := none)
    (sessionHandle : IntOr TPM_RS := .enum .PW) : Result TPMCommand :=
  withSessions TPM_CC_NV_EXTEND [authHandleOr nvIndex authHandle, nvIndex]
    sessionHandle.toInt (sized data)

def TPMNVSetBits.init (nvIndex bits : Int) (authHandle : IntOr TPM_RH := .enum .OWNER)
    (sessionHandle : Int := PyEnum.value TPM_RS.PW) : Result TPMCommand :=
  withSessions TPM_CC_NV_SET_BITS [authHandle.toInt, nvIndex] sessionHandle (toBytes bits 8)

end Python
