import TpmFuzzer.Python.Command

/-!
# The commands of `tpm2_commands.py` that have a protobuf form

One structure per class with what `__init__` keeps, `init` for `__init__` and `toProto` for
`to_proto()`. The result of `to_proto()` is a dictionary with one key; it is the `TPMCommand`
message with that arm set.
-/

namespace Python

open Py

/-! ## Constants of the protobuf enums -/

def TPM_CC_CLEAR : Int := 0x126
def TPM_CC_NV_DEFINE_SPACE : Int := 0x12A
def TPM_CC_PCR_ALLOCATE : Int := 0x12B
def TPM_CC_PCR_SET_AUTH_POLICY : Int := 0x12C
def TPM_CC_SET_PRIMARY_POLICY : Int := 0x12E
def TPM_CC_CREATE_PRIMARY : Int := 0x131
def TPM_CC_PCR_EVENT : Int := 0x13C
def TPM_CC_CREATE : Int := 0x153
def TPM_CC_LOAD : Int := 0x157
def TPM_CC_RSA_DECRYPT : Int := 0x159
def TPM_CC_MAKE_CREDENTIAL : Int := 0x168
def TPM_CC_RSA_ENCRYPT : Int := 0x174
def TPM_CC_START_AUTH_SESSION : Int := 0x176
def TPM_CC_GET_RANDOM : Int := 0x17B
def TPM_CC_PCR_READ : Int := 0x17E

def TPM_SE_HMAC : Int := 0x00

/-! ## Shared by the classes -/

/-- The authorization area with one entry for `sessionHandle` that has no nonce and no HMAC. -/
def authAreaOf (sessionHandle : Int) : Result Bytes :=
  AuthArea.toBytes { commands := [{ sessionHandle := sessionHandle }] }

/-- `TPMSession(session_handle=.., nonce_size=0, session_attributes=0, hmac_size=0)`. -/
def protoSessionOf (sessionHandle : Int) : Result Proto.TPMSession := do
  let sessionHandle ← pbUint32 sessionHandle
  return { sessionHandle := sessionHandle }

/-- The sessions of the area at `offset`, and the offset behind it; nothing for a command
without. -/
def parseSessions (c : TPMCommand) (offset : Nat) : Result (List Proto.TPMSession × Nat) :=
  if c.tag ≠ TPM_ST_NO_SESSIONS then do
    let authSize := fromBytes (slice c.params offset (offset + 4))
    let authEnd := offset + 4 + authSize
    let sessions ← protoSessions (slice c.params offset authEnd)
    return (sessions, authEnd)
  else return ([], offset)

/-! ## `TPMClear` -/

/-- The message is built from saved members. -/
structure TPMClear extends TPMCommand where
  authHandle : Int
  sessionHandleVal : Int

namespace TPMClear

def init (authHandle : IntOr TPM_RH := .enum .LOCKOUT) (sessionHandle : IntOr TPM_RS := .enum .PW) :
    Result TPMClear := do
  let authHandle := authHandle.toInt
  let sessionHandleVal := sessionHandle.toInt
  let handle ← toBytes authHandle 4
  let area ← authAreaOf sessionHandleVal
  return { tag := TPM_ST_SESSIONS, cc := TPM_CC_CLEAR, params := handle ++ area
           authHandle := authHandle, sessionHandleVal := sessionHandleVal }

def toProto (c : TPMClear) : Result Proto.TPMCommand := do
  let session ← protoSessionOf c.sessionHandleVal
  let header ← c.protoHeader
  let authHandle ← pbUint32 c.authHandle
  return .clear { header := some header, authHandle := authHandle, sessions := [session] }

end TPMClear

/-! ## `TPMSetPrimaryPolicy` -/

/-- The message is built in `__init__`. -/
structure TPMSetPrimaryPolicy extends TPMCommand where
  proto : Proto.TPMCommand

namespace TPMSetPrimaryPolicy

def init (authHandle : IntOr TPM_RH := .enum .OWNER) (authPolicy : Bytes := [])
    (hashAlg : IntOr TPM_ALG := .enum .NULL) (sessionHandle : IntOr TPM_RS := .enum .PW) :
    Result TPMSetPrimaryPolicy := do
  let authHandle := authHandle.toInt
  let hashAlgVal := hashAlg.toInt
  let sessionHandleVal := sessionHandle.toInt
  let area ← authAreaOf sessionHandleVal
  let policy ← sized authPolicy
  let handle ← toBytes authHandle 4
  let hash ← toBytes hashAlgVal 2
  let command : TPMCommand :=
    { tag := TPM_ST_SESSIONS, cc := TPM_CC_SET_PRIMARY_POLICY
      params := handle ++ area ++ policy ++ hash }
  let session ← protoSessionOf sessionHandleVal
  let header ← command.protoHeader
  let authHandle ← pbEnum authHandle
  let authPolicy ← protoSized authPolicy
  let hashAlg ← pbEnum hashAlgVal
  return { command with
    proto := .setprimarypolicy
      { header := some header, authHandle := authHandle, sessions := [session]
        authPolicy := some authPolicy, hashAlg := hashAlg } }

def toProto (c : TPMSetPrimaryPolicy) : Result Proto.TPMCommand := return c.proto

end TPMSetPrimaryPolicy

/-! ## `TPMCreate` and `TPMCreatePrimary` -/

/-- The message is parsed from the parameters, without the sessions. -/
structure TPMCreate extends TPMCommand

namespace TPMCreate

/-- `object_attributes or [..]`; 0 and the empty list count as missing. -/
def attributesOf : Option (Flags TPMA_OBJECT) → Flags TPMA_OBJECT
  | none | some (.int 0) | some (.flags []) =>
    .flags [.FIXEDTPM, .FIXEDPARENT, .SENSITIVEDATAORIGIN, .USERWITHAUTH, .NODA,
      .RESTRICTED, .DECRYPT]
  | some attributes => attributes

def init (parentHandle : Int) (sessionHandle : IntOr TPM_RS) (hashAlg keyType : TPM_ALG)
    (keyBits : Int) (objectAttributes : Option (Flags TPMA_OBJECT) := none)
    (rsaParameters : Option RsaParms := none) (keyedhashScheme : Option KeyedhashParms := none)
    (sensitiveData : Bytes := []) : Result TPMCreate := do
  let template : Tpm2bPublic :=
    { publicArea :=
        { type := .enum keyType, nameAlg := .enum hashAlg
          objectAttributes := attributesOf objectAttributes
          rsaParameters := some (rsaParameters.getD { keyBits := keyBits })
          keyedhashScheme := keyedhashScheme } }
  let handle ← toBytes parentHandle 4
  let area ← authAreaOf sessionHandle.toInt
  let sensitive ← Tpm2bSensitiveCreate.toBytes { sensitive := { data := sensitiveData } }
  let publicBytes ← template.toBytes
  let data ← Tpm2bData.toBytes {}
  let pcrs ← PcrSelectionList.toBytes {}
  return { tag := TPM_ST_SESSIONS, cc := TPM_CC_CREATE
           params := handle ++ area ++ sensitive ++ publicBytes ++ data ++ pcrs }

/-- The authorization area is stepped over. -/
def toProto (c : TPMCreate) : Result Proto.TPMCommand := do
  let params := c.params
  let parentHandle := fromBytes (slice params 0 4)
  let authSize := fromBytes (slice params 4 8)
  let offset := 8 + authSize
  let (inSensitive, offset) := parseTpm2b params offset
  let (inPublic, offset) := parseTpm2b params offset
  let (outsideInfo, offset) := parseTpm2b params offset
  let creationPcr := params.drop offset
  let header ← c.protoHeader
  let parentHandle ← pbUint32 parentHandle
  let inSensitive ← protoSensitiveCreate inSensitive
  let inPublic ← protoPublic inPublic
  let outsideInfo ← protoSized (outsideInfo.drop 2)
  let creationPcr ← protoPcrSelection creationPcr
  return .create
    { header := some header, parentHandle := parentHandle, inSensitive := some inSensitive
      inPublic := some inPublic, outsideInfo := some outsideInfo, creationPcr := some creationPcr }

end TPMCreate

/-- The message is parsed from the parameters, sessions included. -/
structure TPMCreatePrimary extends TPMCommand

namespace TPMCreatePrimary

/-- The template for `public_template=None`. -/
def defaultTemplate (hashAlg : TPM_ALG) (keyBits : Int) : Tpm2bPublic where
  publicArea :=
    { type := .enum .RSA, nameAlg := .enum hashAlg, rsaParameters := some { keyBits := keyBits } }

def init (sessionHandle : IntOr TPM_RS) (hashAlg : TPM_ALG) (keyBits : Int)
    (primaryHandle : IntOr TPM_RH := .enum .OWNER) (publicTemplate : Option Tpm2bPublic := none) :
    Result TPMCreatePrimary := do
  let template := publicTemplate.getD (defaultTemplate hashAlg keyBits)
  let handle ← toBytes primaryHandle.toInt 4
  let area ← authAreaOf sessionHandle.toInt
  let sensitive ← Tpm2bSensitiveCreate.toBytes {}
  let publicBytes ← template.toBytes
  let data ← Tpm2bData.toBytes {}
  let pcrs ← PcrSelectionList.toBytes {}
  return { tag := TPM_ST_SESSIONS, cc := TPM_CC_CREATE_PRIMARY
           params := handle ++ area ++ sensitive ++ publicBytes ++ data ++ pcrs }

def toProto (c : TPMCreatePrimary) : Result Proto.TPMCommand := do
  let params := c.params
  let hierarchy := fromBytes (slice params 0 4)
  let (sessions, offset) ← parseSessions c.toTPMCommand 4
  let (inSensitive, offset) := parseTpm2b params offset
  let (inPublic, offset) := parseTpm2b params offset
  let (outsideInfo, offset) := parseTpm2b params offset
  let creationPcr := params.drop offset
  let header ← c.protoHeader
  let hierarchy ← pbEnum hierarchy
  let inSensitive ← protoSensitiveCreate inSensitive
  let inPublic ← protoPublic inPublic
  let outsideInfo ← protoSized (outsideInfo.drop 2)
  let creationPcr ← protoPcrSelection creationPcr
  return .createprimary
    { header := some header, hierarchy := hierarchy, sessions := sessions
      inSensitive := some inSensitive, inPublic := some inPublic
      outsideInfo := some outsideInfo, creationPcr := some creationPcr }

end TPMCreatePrimary

/-! ## `TPMGetRandom` -/

/-- Of the parameters only the last two bytes are looked at. -/
structure TPMGetRandom extends TPMCommand

namespace TPMGetRandom

def init (reqBytes : Int) (st : TPM_ST := .TPM_ST_NO_SESSIONS) (auth : Option AuthArea := none) :
    Result TPMGetRandom :=
  match auth with
  | none => do
    let req ← toBytes reqBytes 2
    return { tag := PyEnum.value st, cc := TPM_CC_GET_RANDOM, params := req }
  | some auth => do
    let area ← auth.toBytes
    let req ← toBytes reqBytes 2
    return { tag := PyEnum.value st, cc := TPM_CC_GET_RANDOM, params := area ++ req }

def toProto (c : TPMGetRandom) : Result Proto.TPMCommand := do
  let header ← c.protoHeader
  -- params[-2:]
  let bytesRequested ← pbUint32 (fromBytes (c.params.drop (c.params.length - 2)))
  return .getrandom { header := some header, bytesRequested := bytesRequested }

end TPMGetRandom

/-! ## `TPMStartAuthSession` -/

/-- The message is parsed from the parameters. -/
structure TPMStartAuthSession extends TPMCommand

namespace TPMStartAuthSession

/-- The nonce for `nonce=None`. -/
def defaultNonce : Bytes :=
  [0xF6, 0x5C, 0xD5, 0x7F, 0x19, 0xFF, 0xD9, 0xC8, 0xC9, 0x41, 0x64, 0xAC, 0x84, 0xD1, 0xF9, 0xCD]

def init (tpmKey bind : IntOr TPM_RH) (nonce salt : Option Bytes := none)
    (sessionType : Int := TPM_SE_HMAC)
    (symmetric : SymDefObject := { algorithm := .enum .NULL, keyBits := 0, mode := .int 0 })
    (authHash : TPM_ALG := .SHA256) : Result TPMStartAuthSession := do
  let nonce := nonce.getD defaultNonce
  let salt := salt.getD [0, 0]
  let key ← toBytes tpmKey.toInt 4
  let bind ← toBytes bind.toInt 4
  let nonce ← sized nonce
  let sessionType ← toBytes sessionType 1
  let symmetric ← symmetric.toBytes
  let authHash ← toBytes (PyEnum.value authHash) 2
  return { tag := TPM_ST_NO_SESSIONS, cc := TPM_CC_START_AUTH_SESSION
           params := key ++ bind ++ nonce ++ salt ++ sessionType ++ symmetric ++ authHash }

def toProto (c : TPMStartAuthSession) : Result Proto.TPMCommand := do
  let params := c.params
  let tpmKey := fromBytes (slice params 0 4)
  let bind := fromBytes (slice params 4 8)
  let nonceSize := fromBytes (slice params 8 10)
  let nonceEnd := 10 + nonceSize
  let nonce := slice params 10 nonceEnd
  let saltSize := fromBytes (slice params nonceEnd (nonceEnd + 2))
  let saltStart := nonceEnd + 2
  let saltEnd := saltStart + saltSize
  let encryptedSalt := slice params saltStart saltEnd
  let sessionType ← index params saltEnd
  let symmetricAlg := fromBytes (slice params (saltEnd + 1) (saltEnd + 3))
  let isNull := symmetricAlg = PyEnum.value TPM_ALG.NULL
  let symmetricKeyBits := if isNull then 0 else fromBytes (slice params (saltEnd + 3) (saltEnd + 5))
  let symmetricMode :=
    if isNull then PyEnum.value TPM_ALG.NULL
      else fromBytes (slice params (saltEnd + 5) (saltEnd + 7))
  let authHashOffset := if isNull then saltEnd + 3 else saltEnd + 7
  let authHash := fromBytes (slice params authHashOffset (authHashOffset + 2))
  let header ← c.protoHeader
  let tpmKey ← pbEnum tpmKey
  let bind ← pbEnum bind
  let nonce ← protoSized nonce
  let encryptedSalt ← protoSized encryptedSalt
  let sessionType ← pbName Proto.TPMSE sessionType
  let algorithm ← pbName Proto.TPMALG symmetricAlg
  let keyBits ← pbUint32 symmetricKeyBits
  let mode ← pbName Proto.TPMALG symmetricMode
  let authHash ← pbName Proto.TPMALG authHash
  return .startauthsession
    { header := some header, tpmKey := tpmKey, bind := bind, nonce := some nonce
      encryptedSalt := some encryptedSalt, sessionType := sessionType
      symmetric := some { algorithm := algorithm, keyBits := keyBits, mode := mode }
      authHash := authHash }

end TPMStartAuthSession

/-! ## `TPMRSADecrypt` and `TPMRSAEncrypt` -/

/-- The `in_scheme` message; a missing hash is 0. -/
def protoRsaDecrypt (s : RsaDecrypt) : Result Proto.TPMTRSADecrypt := do
  let scheme ← pbEnum s.scheme.toInt
  let hashAlg ← pbEnum ((s.hashAlg.map IntOr.toInt).getD 0)
  return { scheme := scheme, hashAlg := hashAlg }

structure TPMRSADecrypt extends TPMCommand where
  keyHandle : Int
  cipherText : Bytes
  inScheme : RsaDecrypt
  label : Bytes
  sessionHandleVal : Int

namespace TPMRSADecrypt

def init (keyHandle : Int) (cipherText : Bytes) (inScheme : RsaDecrypt) (label : Bytes := [])
    (sessionHandle : IntOr TPM_RS := .enum .PW) : Result TPMRSADecrypt := do
  let sessionHandleVal := sessionHandle.toInt
  let cipherBytes ← sized cipherText
  let labelBytes ← sized label
  let handle ← toBytes keyHandle 4
  let area ← authAreaOf sessionHandleVal
  let scheme ← inScheme.toBytes
  return { tag := TPM_ST_SESSIONS, cc := TPM_CC_RSA_DECRYPT
           params := handle ++ area ++ cipherBytes ++ scheme ++ labelBytes
           keyHandle := keyHandle, cipherText := cipherText, inScheme := inScheme, label := label
           sessionHandleVal := sessionHandleVal }

def toProto (c : TPMRSADecrypt) : Result Proto.TPMCommand := do
  let session ← protoSessionOf c.sessionHandleVal
  let header ← c.protoHeader
  let keyHandle ← pbUint32 c.keyHandle
  let cipherText ← protoSized c.cipherText
  let inScheme ← protoRsaDecrypt c.inScheme
  let label ← protoSized c.label
  return .rsadecrypt
    { header := some header, keyHandle := keyHandle, sessions := [session]
      cipherText := some cipherText, inScheme := some inScheme, label := some label }

end TPMRSADecrypt

structure TPMRSAEncrypt extends TPMCommand where
  keyHandle : Int
  message : Bytes
  inScheme : RsaDecrypt
  label : Bytes

namespace TPMRSAEncrypt

def init (keyHandle : Int) (message : Bytes) (inScheme : RsaDecrypt) (label : Bytes := []) :
    Result TPMRSAEncrypt := do
  let msg ← sized message
  let labelBytes ← sized label
  let handle ← toBytes keyHandle 4
  let scheme ← inScheme.toBytes
  return { tag := TPM_ST_NO_SESSIONS, cc := TPM_CC_RSA_ENCRYPT
           params := handle ++ msg ++ scheme ++ labelBytes
           keyHandle := keyHandle, message := message, inScheme := inScheme, label := label }

def toProto (c : TPMRSAEncrypt) : Result Proto.TPMCommand := do
  let header ← c.protoHeader
  let keyHandle ← pbUint32 c.keyHandle
  let message ← protoSized c.message
  let inScheme ← protoRsaDecrypt c.inScheme
  let label ← protoSized c.label
  return .rsaencrypt
    { header := some header, keyHandle := keyHandle, message := some message
      inScheme := some inScheme, label := some label }

end TPMRSAEncrypt

/-! ## `TPMPCRRead` and `TPMPCRAllocate` -/

/-- The selections of `TPMPCRRead`, each from its own members. -/
def protoSelections : List PcrSelection → Result (List Proto.TPMSPCRSelection)
  | [] => return []
  | sel :: rest => do
    let hash ← pbEnum (algToInt sel.hash)
    let sizeofSelect ← pbUint32 sel.pcrSelect.length
    let rest ← protoSelections rest
    return { hash := hash, sizeofSelect := sizeofSelect, pcrSelect := sel.pcrSelect } :: rest

structure TPMPCRRead extends TPMCommand where
  proto : Proto.TPMCommand

namespace TPMPCRRead

def init (pcrSelection : PcrSelectionList) : Result TPMPCRRead := do
  let params ← pcrSelection.toBytes
  let command : TPMCommand := { tag := TPM_ST_NO_SESSIONS, cc := TPM_CC_PCR_READ, params := params }
  let header ← command.protoHeader
  let count ← pbUint32 pcrSelection.selections.length
  let selections ← protoSelections pcrSelection.selections
  return { command with
    proto := .pcrread
      { header := some header, pcrSelection := some { count := count
                                                      pcrSelections := selections } } }

def toProto (c : TPMPCRRead) : Result Proto.TPMCommand := return c.proto

end TPMPCRRead

structure TPMPCRAllocate extends TPMCommand where
  pcrAllocation : PcrSelectionList
  authHandle : Int
  sessionHandleVal : Int

namespace TPMPCRAllocate

def init (pcrAllocation : PcrSelectionList) (authHandle : IntOr TPM_RH := .enum .PLATFORM)
    (sessionHandle : IntOr TPM_RS := .enum .PW) : Result TPMPCRAllocate := do
  let authHandle := authHandle.toInt
  let sessionHandleVal := sessionHandle.toInt
  let handle ← toBytes authHandle 4
  let area ← authAreaOf sessionHandleVal
  let pcrs ← pcrAllocation.toBytes
  return { tag := TPM_ST_SESSIONS, cc := TPM_CC_PCR_ALLOCATE, params := handle ++ area ++ pcrs
           pcrAllocation := pcrAllocation, authHandle := authHandle,
             sessionHandleVal := sessionHandleVal }

def toProto (c : TPMPCRAllocate) : Result Proto.TPMCommand := do
  let session ← protoSessionOf c.sessionHandleVal
  let header ← c.protoHeader
  let authHandle ← pbEnum c.authHandle
  let pcrs ← c.pcrAllocation.toBytes
  let pcrAllocation ← protoPcrSelection pcrs
  return .pcrallocate
    { header := some header, authHandle := authHandle, sessions := [session]
      pcrAllocation := some pcrAllocation }

end TPMPCRAllocate

/-! ## `TPMNVDefineSpace` -/

structure TPMNVDefineSpace extends TPMCommand

namespace TPMNVDefineSpace

def init (nvIndex : Int := 0x01 <<< 24)
    (attributes : Flags TPMA_NV := .flags [.AUTHREAD, .AUTHWRITE])
    (sessionHandle : Int := PyEnum.value TPM_RS.PW) (hierarchy : TPM_RH := .OWNER)
    (dataSize : Int := 32) : Result TPMNVDefineSpace := do
  let handle ← toBytes (PyEnum.value hierarchy) 4
  let area ← authAreaOf sessionHandle
  let authValue ← Tpm2bData.toBytes {}
  let nvPublic ← Tpm2bNvPublic.toBytes
    { publicInfo := { nvIndex := nvIndex, nameAlg := .enum .SHA256, attributes := attributes
                      dataSize := dataSize } }
  return { tag := TPM_ST_SESSIONS, cc := TPM_CC_NV_DEFINE_SPACE
           params := handle ++ area ++ authValue ++ nvPublic }

/-- The public area of an index, parsed from its bytes. -/
def protoNvPublic (nvInner : Bytes) : Result Proto.TPMNvPublic := do
  let nvIndex := fromBytes (slice nvInner 0 4)
  let nameAlg := fromBytes (slice nvInner 4 6)
  let nvAttributes := fromBytes (slice nvInner 6 10)
  let policySize := fromBytes (slice nvInner 10 12)
  let authPolicy := slice nvInner 12 (12 + policySize)
  let dataSize := fromBytes (slice nvInner (12 + policySize) (12 + policySize + 2))
  let nvIndex ← pbUint32 nvIndex
  let nameAlg ← pbName Proto.TPMALG nameAlg
  let attributes ← pbUint32 nvAttributes
  let dataSize ← pbUint32 dataSize
  return { nvIndex := nvIndex, nameAlg := nameAlg, attributes := attributes
           authPolicy := authPolicy, dataSize := dataSize }

def toProto (c : TPMNVDefineSpace) : Result Proto.TPMCommand := do
  let params := c.params
  let authHandle := fromBytes (slice params 0 4)
  let (sessions, offset) ← parseSessions c.toTPMCommand 4
  let (authValue, offset) := parseTpm2b params offset
  let nvOuter := (parseTpm2b params offset).1
  let header ← c.protoHeader
  let authHandle ← pbUint32 authHandle
  let auth ← protoSized (authValue.drop 2)
  let nvPublic ← protoNvPublic (nvOuter.drop 2)
  return .nvdefinespace
    { header := some header, authHandle := authHandle, sessions := sessions, auth := some auth
      nvPublic := some nvPublic }

end TPMNVDefineSpace

/-! ## `TPMLoad` -/

structure TPMLoad extends TPMCommand where
  proto : Proto.TPMCommand

namespace TPMLoad

/-- Both blobs come with their size in front. -/
def init (parentHandle : Int) (inPrivate inPublic : Bytes)
    (sessionHandle : IntOr TPM_RS := .enum .PW) :
    Result TPMLoad := do
  let sessionHandleVal := sessionHandle.toInt
  let session ← protoSessionOf sessionHandleVal
  let handle ← toBytes parentHandle 4
  let area ← authAreaOf sessionHandleVal
  let command : TPMCommand :=
    { tag := TPM_ST_SESSIONS, cc := TPM_CC_LOAD, params := handle ++ area ++ inPrivate ++ inPublic }
  let header ← command.protoHeader
  let parentHandle ← pbUint32 parentHandle
  let inPrivate ← protoSized (inPrivate.drop 2)
  let inPublic ← protoPublic inPublic
  return { command with
    proto := .load
      { header := some header, parentHandle := parentHandle, sessions := [session]
        inPrivate := some inPrivate, inPublic := some inPublic } }

def toProto (c : TPMLoad) : Result Proto.TPMCommand := return c.proto

end TPMLoad

/-! ## `TPMMakeCredential` -/

structure TPMMakeCredential extends TPMCommand where
  handle : Int
  credential : Bytes
  objectName : Bytes

namespace TPMMakeCredential

def init (handle : Int) (credential objectName : Bytes) : Result TPMMakeCredential := do
  let handleBytes ← toBytes handle 4
  let credentialBytes ← sized credential
  let nameBytes ← sized objectName
  return { tag := TPM_ST_NO_SESSIONS, cc := TPM_CC_MAKE_CREDENTIAL
           params := handleBytes ++ credentialBytes ++ nameBytes
           handle := handle, credential := credential, objectName := objectName }

def toProto (c : TPMMakeCredential) : Result Proto.TPMCommand := do
  let header ← c.protoHeader
  let handle ← pbUint32 c.handle
  let credential ← protoSized c.credential
  let objectName ← protoSized c.objectName
  return .makecredential
    { header := some header, handle := handle, credential := some credential
      objectName := some objectName }

end TPMMakeCredential

/-! ## `TPMPCREvent` -/

structure TPMPCREvent extends TPMCommand where
  proto : Proto.TPMCommand

namespace TPMPCREvent

def init (pcrHandle : Int) (eventData : Bytes) (sessionHandle : Int := PyEnum.value TPM_RS.PW) :
    Result TPMPCREvent := do
  let area ← authAreaOf sessionHandle
  let session ← protoSessionOf sessionHandle
  let event ← sized eventData
  let handle ← toBytes pcrHandle 4
  let command : TPMCommand :=
    { tag := TPM_ST_SESSIONS, cc := TPM_CC_PCR_EVENT, params := handle ++ area ++ event }
  let header ← command.protoHeader
  let pcrHandle ← pbUint32 pcrHandle
  let eventData ← protoSized eventData
  return { command with
    proto := .pcrevent
      { header := some header, pcrHandle := pcrHandle, sessions := [session]
        eventData := some eventData } }

def toProto (c : TPMPCREvent) : Result Proto.TPMCommand := return c.proto

end TPMPCREvent

/-! ## `TPMPCRSetAuthPolicy` -/

structure TPMPCRSetAuthPolicy extends TPMCommand where
  proto : Proto.TPMCommand

namespace TPMPCRSetAuthPolicy

def init (authHandle : Int) (authPolicy : Bytes) (hashAlg : IntOr TPM_ALG) (pcrNum : Int)
    (sessionHandle : Int := PyEnum.value TPM_RS.PW) : Result TPMPCRSetAuthPolicy := do
  let hashAlg := algToInt hashAlg
  let area ← authAreaOf sessionHandle
  let session ← protoSessionOf sessionHandle
  let digest ← sized authPolicy
  let handle ← toBytes authHandle 4
  let hash ← toBytes hashAlg 2
  let num ← toBytes pcrNum 4
  let command : TPMCommand :=
    { tag := TPM_ST_SESSIONS, cc := TPM_CC_PCR_SET_AUTH_POLICY
      params := handle ++ area ++ digest ++ hash ++ num }
  let header ← command.protoHeader
  let authHandle ← pbUint32 authHandle
  let authPolicy ← protoSized authPolicy
  let hashAlg ← pbEnum hashAlg
  let pcrNum ← pbUint32 pcrNum
  return { command with
    proto := .pcrsetauthpolicy
      { header := some header, authHandle := authHandle, sessions := [session]
        authPolicy := some authPolicy, hashAlg := hashAlg, pcrNum := pcrNum } }

def toProto (c : TPMPCRSetAuthPolicy) : Result Proto.TPMCommand := return c.proto

end TPMPCRSetAuthPolicy

end Python
