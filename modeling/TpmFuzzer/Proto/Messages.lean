import TpmFuzzer.Tpm.Wire

/-!
# The protobuf schema

The messages of `include/proto`, field by field.  A sub-message is `none` when it is not set; its
getter then reads the default instance.  A `oneof` is an inductive type.  Enums are open: an enum
field holds the 32 bits of any number.

`TPMCommand.fields` lists the fields of the selected command in declaration order with the
descriptors the marshaller dispatches on, as protobuf reflection gives them.
-/

namespace Proto

/-! ## Enum constants -/

def TPM_ST_NO_SESSIONS : UInt32 := 0x8001
def TPM_ST_SESSIONS : UInt32 := 0x8002

def TPM_RH_OWNER : UInt32 := 0x40000001
def TPM_RH_NULL : UInt32 := 0x40000007
def TPM_RH_LOCKOUT : UInt32 := 0x4000000A

def TPM_CC_CLEAR : UInt32 := 0x126
def TPM_CC_NV_DEFINE_SPACE : UInt32 := 0x12A
def TPM_CC_PCR_ALLOCATE : UInt32 := 0x12B
def TPM_CC_PCR_SET_AUTH_POLICY : UInt32 := 0x12C
def TPM_CC_SET_PRIMARY_POLICY : UInt32 := 0x12E
def TPM_CC_CREATE_PRIMARY : UInt32 := 0x131
def TPM_CC_PCR_EVENT : UInt32 := 0x13C
def TPM_CC_CREATE : UInt32 := 0x153
def TPM_CC_LOAD : UInt32 := 0x157
def TPM_CC_RSA_DECRYPT : UInt32 := 0x159
def TPM_CC_MAKE_CREDENTIAL : UInt32 := 0x168
def TPM_CC_RSA_ENCRYPT : UInt32 := 0x174
def TPM_CC_START_AUTH_SESSION : UInt32 := 0x176
def TPM_CC_GET_RANDOM : UInt32 := 0x17B
def TPM_CC_PCR_READ : UInt32 := 0x17E

def TPM_ALG_UNSPECIFIED : UInt32 := 0
def TPM_ALG_RSA : UInt32 := 0x0001
def TPM_ALG_SHA1 : UInt32 := 0x0004
def TPM_ALG_HMAC : UInt32 := 0x0005
def TPM_ALG_AES : UInt32 := 0x0006
def TPM_ALG_KEYEDHASH : UInt32 := 0x0008
def TPM_ALG_SHA256 : UInt32 := 0x000B
def TPM_ALG_SHA384 : UInt32 := 0x000C
def TPM_ALG_NULL : UInt32 := 0x0010
def TPM_ALG_RSASSA : UInt32 := 0x0014
def TPM_ALG_RSAES : UInt32 := 0x0015
def TPM_ALG_OAEP : UInt32 := 0x0017
def TPM_ALG_CFB : UInt32 := 0x0043

/-- The numbers that `TPMALG` names. -/
def TPMALG : List UInt32 :=
  [TPM_ALG_UNSPECIFIED, TPM_ALG_RSA, TPM_ALG_SHA1, TPM_ALG_HMAC, TPM_ALG_AES, TPM_ALG_KEYEDHASH,
    TPM_ALG_NULL, TPM_ALG_RSASSA, TPM_ALG_RSAES, TPM_ALG_OAEP, TPM_ALG_CFB, TPM_ALG_SHA256,
    TPM_ALG_SHA384]

def TPM_SE_HMAC : UInt32 := 0x00
def TPM_SE_POLICY : UInt32 := 0x01
def TPM_SE_TRIAL : UInt32 := 0x03

/-- The numbers that `TPMSE` names. -/
def TPMSE : List UInt32 := [TPM_SE_HMAC, TPM_SE_POLICY, TPM_SE_TRIAL]

/-! ## `tpm_types` -/

structure TPMHeader where
  tag : UInt32 := 0
  commandSize : UInt32 := 0
  commandCode : UInt32 := 0
  deriving DecidableEq

/-- The messages `{ uint32 size; bytes buffer; }`. -/
structure SizedBuffer where
  size : UInt32 := 0
  buffer : Bytes := []
  deriving DecidableEq

abbrev TPM2BData := SizedBuffer
abbrev TPM2BDigest := SizedBuffer
abbrev TPM2BPrivate := SizedBuffer
abbrev TPM2BPublicKeyRSA := SizedBuffer
abbrev TPM2BEvent := SizedBuffer
abbrev TPM2BAuth := SizedBuffer
abbrev TPM2BSensitiveData := SizedBuffer

structure TPMSession where
  sessionHandle : UInt32 := 0
  nonceSize : UInt32 := 0
  nonce : Bytes := []
  sessionAttributes : UInt32 := 0
  hmacSize : UInt32 := 0
  hmac : Bytes := []
  deriving DecidableEq

structure TPMTSymDef where
  algorithm : UInt32 := 0
  keyBits : UInt32 := 0
  mode : UInt32 := 0
  deriving DecidableEq

structure TPMSSensitiveCreate where
  userAuth : Option TPM2BAuth := none
  data : Option TPM2BSensitiveData := none
  deriving DecidableEq

structure TPM2BSensitiveCreate where
  size : UInt32 := 0
  sensitive : Option TPMSSensitiveCreate := none
  deriving DecidableEq

structure TPMSRSAParms where
  symmetric : UInt32 := 0
  scheme : UInt32 := 0
  symmetricKeyBits : UInt32 := 0
  keyBits : UInt32 := 0
  exponent : UInt32 := 0
  deriving DecidableEq

structure TPMSKeyedHashParms where
  scheme : UInt32 := 0
  deriving DecidableEq

inductive TPMUPublicParms where
  | notSet
  | rsa (parms : TPMSRSAParms)
  | keyedhash (parms : TPMSKeyedHashParms)
  deriving DecidableEq

inductive TPMUPublicId where
  | notSet
  | rsa (buffer : Bytes)
  | keyedhash (digest : TPM2BDigest)
  deriving DecidableEq

structure TPMTPublic where
  type : UInt32 := 0
  nameAlg : UInt32 := 0
  objectAttributes : UInt32 := 0
  authPolicy : Option TPM2BDigest := none
  parameters : Option TPMUPublicParms := none
  unique : Option TPMUPublicId := none
  deriving DecidableEq

structure TPM2BPublic where
  size : UInt32 := 0
  publicArea : Option TPMTPublic := none
  deriving DecidableEq

structure TPMSPCRSelection where
  hash : UInt32 := 0
  sizeofSelect : UInt32 := 0
  pcrSelect : Bytes := []
  deriving DecidableEq

structure TPMLPCRSelection where
  count : UInt32 := 0
  pcrSelections : List TPMSPCRSelection := []
  deriving DecidableEq

structure TPMTRSADecrypt where
  scheme : UInt32 := 0
  hashAlg : UInt32 := 0
  deriving DecidableEq

structure TPMNvPublic where
  nvIndex : UInt32 := 0
  nameAlg : UInt32 := 0
  attributes : UInt32 := 0
  authPolicy : Bytes := []
  dataSize : UInt32 := 0
  deriving DecidableEq

structure TPMIDHObject where
  handle : UInt32 := 0
  deriving DecidableEq

/-! ## Field descriptors -/

/-- A message with its type, as far as `MarshalMessageField` can meet it. -/
inductive Message where
  | tpmHeader (m : TPMHeader)
  | tpm2bData (m : TPM2BData)
  | tpm2bDigest (m : TPM2BDigest)
  | tpm2bPrivate (m : TPM2BPrivate)
  | tpmtSymDef (m : TPMTSymDef)
  | tpm2bSensitiveCreate (m : TPM2BSensitiveCreate)
  | tpm2bPublic (m : TPM2BPublic)
  | tpmlPcrSelection (m : TPMLPCRSelection)
  | tpm2bPublicKeyRsa (m : TPM2BPublicKeyRSA)
  | tpmtRsaDecrypt (m : TPMTRSADecrypt)
  | tpm2bEvent (m : TPM2BEvent)
  | tpmNvPublic (m : TPMNvPublic)
  | tpmSession (m : TPMSession)
  | tpmiDhObject (m : TPMIDHObject)

inductive EnumType where
  | tpmst | tpmcc | tpmrh | tpmse | tpmalg
  deriving DecidableEq

/-- The elements of a repeated field: `TPMSession` messages, messages of another type, or
scalars. -/
inductive Elements where
  | sessions (l : List TPMSession)
  | messages (l : List Message)
  | scalars (l : List UInt32)

/-- The value of a field, by its C++ type. -/
inductive FieldValue where
  | repeated (elements : Elements)
  | message (m : Message)
  | enum (type : EnumType) (number : UInt32)
  | uint32 (value : UInt32)
  | bytes (data : Bytes)

structure Field where
  name : String
  value : FieldValue

/-! ## `tpm_commands` -/

structure TPMGetRandom where
  header : Option TPMHeader := none
  bytesRequested : UInt32 := 0
  deriving DecidableEq

structure TPMCreate where
  header : Option TPMHeader := none
  parentHandle : UInt32 := 0
  sessions : List TPMSession := []
  inSensitive : Option TPM2BSensitiveCreate := none
  inPublic : Option TPM2BPublic := none
  outsideInfo : Option TPM2BData := none
  creationPcr : Option TPMLPCRSelection := none
  deriving DecidableEq

structure TPMCreatePrimary where
  header : Option TPMHeader := none
  hierarchy : UInt32 := 0
  sessions : List TPMSession := []
  inSensitive : Option TPM2BSensitiveCreate := none
  inPublic : Option TPM2BPublic := none
  outsideInfo : Option TPM2BData := none
  creationPcr : Option TPMLPCRSelection := none
  deriving DecidableEq

structure TPMStartAuthSession where
  header : Option TPMHeader := none
  tpmKey : UInt32 := 0
  bind : UInt32 := 0
  nonce : Option TPM2BData := none
  encryptedSalt : Option TPM2BData := none
  sessionType : UInt32 := 0
  symmetric : Option TPMTSymDef := none
  authHash : UInt32 := 0
  deriving DecidableEq

structure TPMRSADecrypt where
  header : Option TPMHeader := none
  keyHandle : UInt32 := 0
  sessions : List TPMSession := []
  cipherText : Option TPM2BPublicKeyRSA := none
  inScheme : Option TPMTRSADecrypt := none
  label : Option TPM2BData := none
  deriving DecidableEq

structure TPMClear where
  header : Option TPMHeader := none
  authHandle : UInt32 := 0
  sessions : List TPMSession := []
  deriving DecidableEq

structure TPMRSAEncrypt where
  header : Option TPMHeader := none
  keyHandle : UInt32 := 0
  message : Option TPM2BPublicKeyRSA := none
  inScheme : Option TPMTRSADecrypt := none
  label : Option TPM2BData := none
  deriving DecidableEq

structure TPMPCREvent where
  header : Option TPMHeader := none
  pcrHandle : UInt32 := 0
  sessions : List TPMSession := []
  eventData : Option TPM2BEvent := none
  deriving DecidableEq

structure TPMPCRAllocate where
  header : Option TPMHeader := none
  authHandle : UInt32 := 0
  sessions : List TPMSession := []
  pcrAllocation : Option TPMLPCRSelection := none
  deriving DecidableEq

structure TPMNvDefineSpace where
  header : Option TPMHeader := none
  authHandle : UInt32 := 0
  sessions : List TPMSession := []
  auth : Option TPM2BData := none
  nvPublic : Option TPMNvPublic := none
  deriving DecidableEq

structure TPMSetPrimaryPolicy where
  header : Option TPMHeader := none
  authHandle : UInt32 := 0
  sessions : List TPMSession := []
  authPolicy : Option TPM2BDigest := none
  hashAlg : UInt32 := 0
  deriving DecidableEq

structure TPMLoad where
  header : Option TPMHeader := none
  parentHandle : UInt32 := 0
  sessions : List TPMSession := []
  inPrivate : Option TPM2BPrivate := none
  inPublic : Option TPM2BPublic := none
  deriving DecidableEq

structure TPMMakeCredential where
  header : Option TPMHeader := none
  handle : UInt32 := 0
  credential : Option TPM2BData := none
  objectName : Option TPM2BData := none
  deriving DecidableEq

structure TPMPCRSetAuthPolicy where
  header : Option TPMHeader := none
  authHandle : UInt32 := 0
  sessions : List TPMSession := []
  authPolicy : Option TPM2BDigest := none
  hashAlg : UInt32 := 0
  pcrNum : UInt32 := 0
  deriving DecidableEq

structure TPMPCRRead where
  header : Option TPMHeader := none
  pcrSelection : Option TPMLPCRSelection := none
  deriving DecidableEq

inductive TPMCommand where
  | notSet
  | getrandom (m : TPMGetRandom)
  | create (m : TPMCreate)
  | createprimary (m : TPMCreatePrimary)
  | startauthsession (m : TPMStartAuthSession)
  | rsadecrypt (m : TPMRSADecrypt)
  | clear (m : TPMClear)
  | rsaencrypt (m : TPMRSAEncrypt)
  | pcrevent (m : TPMPCREvent)
  | pcrallocate (m : TPMPCRAllocate)
  | nvdefinespace (m : TPMNvDefineSpace)
  | setprimarypolicy (m : TPMSetPrimaryPolicy)
  | load (m : TPMLoad)
  | makecredential (m : TPMMakeCredential)
  | pcrsetauthpolicy (m : TPMPCRSetAuthPolicy)
  | pcrread (m : TPMPCRRead)
  deriving DecidableEq

/-! ## Reflection -/

namespace Field

variable (name : String)

/-- `reflection.GetMessage`: a sub-message that is not set reads as its default instance. -/
def header (m : Option TPMHeader) : Field := ⟨"header", .message (.tpmHeader (m.getD {}))⟩
def sessions (l : List TPMSession) : Field := ⟨"sessions", .repeated (.sessions l)⟩
def word (v : UInt32) : Field := ⟨name, .uint32 v⟩
def rh (v : UInt32) : Field := ⟨name, .enum .tpmrh v⟩
def alg (v : UInt32) : Field := ⟨name, .enum .tpmalg v⟩
def data (m : Option TPM2BData) : Field := ⟨name, .message (.tpm2bData (m.getD {}))⟩
def digest (m : Option TPM2BDigest) : Field := ⟨name, .message (.tpm2bDigest (m.getD {}))⟩
def publicKeyRsa (m : Option TPM2BPublicKeyRSA) : Field :=
  ⟨name, .message (.tpm2bPublicKeyRsa (m.getD {}))⟩
def rsaDecrypt (m : Option TPMTRSADecrypt) : Field := ⟨name, .message (.tpmtRsaDecrypt (m.getD {}))⟩
def pcrs (m : Option TPMLPCRSelection) : Field := ⟨name, .message (.tpmlPcrSelection (m.getD {}))⟩
def inSensitive (m : Option TPM2BSensitiveCreate) : Field :=
  ⟨"in_sensitive", .message (.tpm2bSensitiveCreate (m.getD {}))⟩
def inPublic (m : Option TPM2BPublic) : Field := ⟨"in_public", .message (.tpm2bPublic (m.getD {}))⟩

end Field

/-- The fields of the selected command in declaration order; `none` when no command is selected. -/
def TPMCommand.fields : TPMCommand → Option (List Field)
  | .notSet => none
  | .getrandom m => some [.header m.header, .word "bytes_requested" m.bytesRequested]
  | .create m => some [.header m.header, .word "parent_handle" m.parentHandle, .sessions m.sessions,
      .inSensitive m.inSensitive, .inPublic m.inPublic, .data "outside_info" m.outsideInfo,
      .pcrs "creation_pcr" m.creationPcr]
  | .createprimary m => some [.header m.header, .rh "hierarchy" m.hierarchy, .sessions m.sessions,
      .inSensitive m.inSensitive, .inPublic m.inPublic, .data "outside_info" m.outsideInfo,
      .pcrs "creation_pcr" m.creationPcr]
  | .startauthsession m => some [.header m.header, .rh "tpm_key" m.tpmKey, .rh "bind" m.bind,
      .data "nonce" m.nonce, .data "encrypted_salt" m.encryptedSalt,
      ⟨"session_type", .enum .tpmse m.sessionType⟩,
      ⟨"symmetric", .message (.tpmtSymDef (m.symmetric.getD {}))⟩, .alg "auth_hash" m.authHash]
  | .rsadecrypt m => some [.header m.header, .word "key_handle" m.keyHandle, .sessions m.sessions,
      .publicKeyRsa "cipher_text" m.cipherText, .rsaDecrypt "in_scheme" m.inScheme,
      .data "label" m.label]
  | .clear m => some [.header m.header, .word "auth_handle" m.authHandle, .sessions m.sessions]
  | .rsaencrypt m => some [.header m.header, .word "key_handle" m.keyHandle,
      .publicKeyRsa "message" m.message, .rsaDecrypt "in_scheme" m.inScheme, .data "label" m.label]
  | .pcrevent m => some [.header m.header, .word "pcr_handle" m.pcrHandle, .sessions m.sessions,
      ⟨"eventData", .message (.tpm2bEvent (m.eventData.getD {}))⟩]
  | .pcrallocate m => some [.header m.header, .rh "auth_handle" m.authHandle, .sessions m.sessions,
      .pcrs "pcr_allocation" m.pcrAllocation]
  | .nvdefinespace m => some [.header m.header, .word "auth_handle" m.authHandle,
      .sessions m.sessions, .data "auth" m.auth,
      ⟨"nv_public", .message (.tpmNvPublic (m.nvPublic.getD {}))⟩]
  | .setprimarypolicy m => some [.header m.header, .rh "auth_handle" m.authHandle,
      .sessions m.sessions, .digest "auth_policy" m.authPolicy, .alg "hash_alg" m.hashAlg]
  | .load m => some [.header m.header, .word "parent_handle" m.parentHandle, .sessions m.sessions,
      ⟨"in_private", .message (.tpm2bPrivate (m.inPrivate.getD {}))⟩, .inPublic m.inPublic]
  | .makecredential m => some [.header m.header, .word "handle" m.handle,
      .data "credential" m.credential, .data "object_name" m.objectName]
  | .pcrsetauthpolicy m => some [.header m.header, .word "auth_handle" m.authHandle,
      .sessions m.sessions, .digest "authPolicy" m.authPolicy, .alg "hashAlg" m.hashAlg,
      .word "pcrNum" m.pcrNum]
  | .pcrread m => some [.header m.header, .pcrs "pcrSelection" m.pcrSelection]

abbrev TPMCommandSequence := List TPMCommand

end Proto
