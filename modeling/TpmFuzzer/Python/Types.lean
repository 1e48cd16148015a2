import TpmFuzzer.Lib.Py

/-!
# `tpm2_types.py`

The TPM structures of the seed generator and their `to_bytes`.  Members are `int`s of any size; what
does not fit its field raises.
-/

namespace Python

open Py

/-! ## Enums -/

/-- The protobuf enum `TPMST`. -/
inductive TPM_ST where
  | TPM_ST_UNSPECIFIED | TPM_ST_NO_SESSIONS | TPM_ST_SESSIONS | TPM_ST_HASHCHECK
  deriving DecidableEq

instance : PyEnum TPM_ST where
  value
    | .TPM_ST_UNSPECIFIED => 0
    | .TPM_ST_NO_SESSIONS => 0x8001
    | .TPM_ST_SESSIONS => 0x8002
    | .TPM_ST_HASHCHECK => 0x8024

inductive TPM_RH where
  | OWNER | NULL | LOCKOUT | ENDORSEMENT | PLATFORM
  deriving DecidableEq

instance : PyEnum TPM_RH where
  value
    | .OWNER => 0x40000001
    | .NULL => 0x40000007
    | .LOCKOUT => 0x4000000A
    | .ENDORSEMENT => 0x4000000B
    | .PLATFORM => 0x4000000C

inductive TPM_RS where
  | PW
  deriving DecidableEq

instance : PyEnum TPM_RS where
  value | .PW => 0x40000009

inductive TPM_ALG where
  | RSA | HMAC | SHA1 | SHA256 | SHA384 | AES | CFB | NULL | RSASSA | RSAES | OAEP | KEYEDHASH
  deriving DecidableEq

instance : PyEnum TPM_ALG where
  value
    | .RSA => 0x0001
    | .HMAC => 0x0005
    | .SHA1 => 0x0004
    | .SHA256 => 0x000B
    | .SHA384 => 0x000C
    | .AES => 0x0006
    | .CFB => 0x0043
    | .NULL => 0x0010
    | .RSASSA => 0x0014
    | .RSAES => 0x0015
    | .OAEP => 0x0017
    | .KEYEDHASH => 0x0008

/-- `alg_to_int(a)`. -/
abbrev algToInt (a : IntOr TPM_ALG) : Int := a.toInt

inductive TPMA_OBJECT where
  | FIXEDTPM | FIXEDPARENT | SENSITIVEDATAORIGIN | USERWITHAUTH | NODA | DECRYPT | RESTRICTED
  | SIGN_ENCRYPT | X509SIGN
  deriving DecidableEq

instance : PyEnum TPMA_OBJECT where
  value
    | .FIXEDTPM => 1 <<< 1
    | .FIXEDPARENT => 1 <<< 4
    | .SENSITIVEDATAORIGIN => 1 <<< 5
    | .USERWITHAUTH => 1 <<< 6
    | .NODA => 1 <<< 10
    | .DECRYPT => 1 <<< 17
    | .RESTRICTED => 1 <<< 16
    | .SIGN_ENCRYPT => 1 <<< 18
    | .X509SIGN => 1 <<< 19

inductive TPMA_NV where
  | PPWRITE | OWNERWRITE | AUTHWRITE | NT_COUNTER | NT_BITS | NT_EXTEND | POLICY_DELETE
  | WRITEDEFINE | PPREAD | OWNERREAD | AUTHREAD | NO_DA | READLOCKED | PLATFORMCREATE | READ_STCLEAR
  deriving DecidableEq

instance : PyEnum TPMA_NV where
  value
    | .PPWRITE => 1 <<< 0
    | .OWNERWRITE => 1 <<< 1
    | .AUTHWRITE => 1 <<< 2
    | .NT_COUNTER => 1 <<< 4
    | .NT_BITS => 1 <<< 5
    | .NT_EXTEND => 1 <<< 6
    | .POLICY_DELETE => 1 <<< 10
    | .WRITEDEFINE => 1 <<< 13
    | .PPREAD => 1 <<< 16
    | .OWNERREAD => 1 <<< 17
    | .AUTHREAD => 1 <<< 18
    | .NO_DA => 1 <<< 25
    | .READLOCKED => 1 <<< 28
    | .PLATFORMCREATE => 1 <<< 30
    | .READ_STCLEAR => 1 <<< 31

inductive TPMI_YES_NO where
  | YES | NO
  deriving DecidableEq

instance : PyEnum TPMI_YES_NO where
  value
    | .YES => 0x00
    | .NO => 0x01

inductive TPM_HT where
  | NV_INDEX | TRANSIENT
  deriving DecidableEq

instance : PyEnum TPM_HT where
  value
    | .NV_INDEX => 0x01
    | .TRANSIENT => 0x80

inductive TPM_CAP where
  | ALGS | HANDLES | COMMANDS | PP_COMMANDS | AUDIT_COMMANDS | PCRS | TPM_PROPERTIES
  | PCR_PROPERTIES | ECC_CURVES | AUTH_POLICIES | ACT | PUB_KEYS | SPDM_SESSION_INFO
  | VENDOR_PROPERTY
  deriving DecidableEq

instance : PyEnum TPM_CAP where
  value
    | .ALGS => 0x00000000
    | .HANDLES => 0x00000001
    | .COMMANDS => 0x00000002
    | .PP_COMMANDS => 0x00000003
    | .AUDIT_COMMANDS => 0x00000004
    | .PCRS => 0x00000005
    | .TPM_PROPERTIES => 0x00000006
    | .PCR_PROPERTIES => 0x00000007
    | .ECC_CURVES => 0x00000008
    | .AUTH_POLICIES => 0x00000009
    | .ACT => 0x0000000A
    | .PUB_KEYS => 0x0000000B
    | .SPDM_SESSION_INFO => 0x0000000C
    | .VENDOR_PROPERTY => 0x00000100

inductive TPM_ECC_CURVE where
  | NIST_P192
  deriving DecidableEq

instance : PyEnum TPM_ECC_CURVE where
  value | .NIST_P192 => 0x0001

/-! ## Sized buffers -/

/-- `len(b).to_bytes(2, BYTE_ORDER) + b`. -/
def sized (b : Bytes) : Result Bytes := do
  let size ← toBytes b.length 2
  return size ++ b

/-- The `to_bytes` of every element, joined. -/
def joinBytes {α : Type} (f : α → Result Bytes) : List α → Result Bytes
  | [] => return []
  | a :: as => do
    let x ← f a
    let rest ← joinBytes f as
    return x ++ rest

/-! ## Structures -/

/-- `TPMS_SYM_DEF_OBJECT`. -/
structure SymDefObject where
  algorithm : IntOr TPM_ALG := .enum .AES
  keyBits : Int := 128
  mode : IntOr TPM_ALG := .enum .CFB

def SymDefObject.toBytes (s : SymDefObject) : Result Bytes := do
  let alg ← Py.toBytes (algToInt s.algorithm) 2
  -- ALG NULL should return without key bits and mode
  if algToInt s.algorithm = PyEnum.value TPM_ALG.NULL then return alg
  else
    let keyBits ← Py.toBytes s.keyBits 2
    let mode ← Py.toBytes (algToInt s.mode) 2
    return alg ++ keyBits ++ mode

/-- `TPMS_RSA_PARMS`. -/
structure RsaParms where
  symmetric : SymDefObject := {}
  scheme : IntOr TPM_ALG := .enum .NULL
  schemeHash : Option (IntOr TPM_ALG) := none
  keyBits : Int := 2048
  exponent : Int := 0

/-- The scheme, and its hash when there is one and the scheme is not NULL. -/
def RsaParms.schemeBytes (p : RsaParms) : Result Bytes := do
  let scheme ← Py.toBytes (algToInt p.scheme) 2
  match p.schemeHash with
  | some h =>
    if algToInt p.scheme ≠ PyEnum.value TPM_ALG.NULL then
      let hash ← Py.toBytes (algToInt h) 2
      return scheme ++ hash
    else return scheme
  | none => return scheme

def RsaParms.toBytes (p : RsaParms) : Result Bytes := do
  let sym ← p.symmetric.toBytes
  let scheme ← p.schemeBytes
  let keyBits ← Py.toBytes p.keyBits 2
  let exponent ← Py.toBytes p.exponent 4
  return sym ++ scheme ++ keyBits ++ exponent

/-- `TPMS_KEYEDHASH_PARMS`. -/
structure KeyedhashParms where
  scheme : IntOr TPM_ALG := .enum .NULL
  /-- only used when scheme == HMAC -/
  hashAlg : Option (IntOr TPM_ALG) := none

def KeyedhashParms.toBytes (p : KeyedhashParms) : Result Bytes := do
  let s ← Py.toBytes (algToInt p.scheme) 2
  match p.hashAlg with
  | some h =>
    if algToInt p.scheme = PyEnum.value TPM_ALG.HMAC then
      let hash ← Py.toBytes (algToInt h) 2
      return s ++ hash
    else return s
  | none => return s

/-- `TPMT_PUBLIC`. -/
structure TpmtPublic where
  type : IntOr TPM_ALG
  nameAlg : IntOr TPM_ALG := .enum .SHA256
  objectAttributes : Flags TPMA_OBJECT :=
    .flags [.FIXEDTPM, .FIXEDPARENT, .SENSITIVEDATAORIGIN, .USERWITHAUTH, .NODA,
      .RESTRICTED, .DECRYPT]
  authPolicy : Bytes := []
  rsaParameters : Option RsaParms := some {}
  unique : Bytes := []
  keyedhashScheme : Option KeyedhashParms := none

/-- Parameters + unique depend on type. -/
def TpmtPublic.parametersBytes (p : TpmtPublic) : Result Bytes :=
  if algToInt p.type = PyEnum.value TPM_ALG.RSA then
    match p.rsaParameters with
    | none => .error (.valueError "rsa_parameters must be set for RSA public area")
    | some parms => parms.toBytes
  else if algToInt p.type = PyEnum.value TPM_ALG.KEYEDHASH then
    (p.keyedhashScheme.getD {}).toBytes
  else
    .error (.notImplementedError "Only RSA and KEYEDHASH TPMT_PUBLIC is implemented")

def TpmtPublic.toBytes (p : TpmtPublic) : Result Bytes := do
  let type ← Py.toBytes (algToInt p.type) 2
  let nameAlg ← Py.toBytes (algToInt p.nameAlg) 2
  let attrs ← Py.toBytes p.objectAttributes.toInt 4
  let auth ← sized p.authPolicy
  let parameters ← p.parametersBytes
  let unique ← sized p.unique
  return type ++ nameAlg ++ attrs ++ auth ++ parameters ++ unique

/-- `TPM2B_PUBLIC`. -/
structure Tpm2bPublic where
  publicArea : TpmtPublic

def Tpm2bPublic.toBytes (p : Tpm2bPublic) : Result Bytes := do
  let publicBytes ← p.publicArea.toBytes
  sized publicBytes

/-- `TPMS_AUTH_COMMAND`. -/
structure AuthCommand where
  sessionHandle : Int
  nonce : Bytes := []
  sessionAttributes : Int := 0
  hmac : Bytes := []

def AuthCommand.toBytes (a : AuthCommand) : Result Bytes := do
  let sh ← Py.toBytes a.sessionHandle 4
  let nonce ← sized a.nonce
  let attrs ← Py.toBytes a.sessionAttributes 1
  let hmac ← sized a.hmac
  return sh ++ nonce ++ attrs ++ hmac

/-- `TPM_AUTH_AREA`. -/
structure AuthArea where
  commands : List AuthCommand := []

def AuthArea.toBytes (a : AuthArea) : Result Bytes := do
  let authBytes ← joinBytes AuthCommand.toBytes a.commands
  let authSize ← Py.toBytes authBytes.length 4
  return authSize ++ authBytes

/-- `TPMS_SENSITIVE_CREATE`. -/
structure SensitiveCreate where
  userAuth : Bytes := []
  data : Bytes := []

def SensitiveCreate.toBytes (s : SensitiveCreate) : Result Bytes := do
  let ua ← sized s.userAuth
  let d ← sized s.data
  return ua ++ d

/-- `TPM2B_SENSITIVE_CREATE`. -/
structure Tpm2bSensitiveCreate where
  sensitive : SensitiveCreate := {}

def Tpm2bSensitiveCreate.toBytes (s : Tpm2bSensitiveCreate) : Result Bytes := do
  let inner ← s.sensitive.toBytes
  sized inner

/-- `TPM2B_DATA`. -/
structure Tpm2bData where
  buffer : Bytes := []

def Tpm2bData.toBytes (d : Tpm2bData) : Result Bytes := sized d.buffer

/-- `TPMS_PCR_SELECTION`. -/
structure PcrSelection where
  hash : IntOr TPM_ALG
  pcrSelect : Bytes

def PcrSelection.toBytes (s : PcrSelection) : Result Bytes := do
  let alg ← Py.toBytes (algToInt s.hash) 2
  let sizeofSelect ← Py.toBytes s.pcrSelect.length 1
  return alg ++ sizeofSelect ++ s.pcrSelect

/-- `TPML_PCR_SELECTION`. -/
structure PcrSelectionList where
  selections : List PcrSelection := []

def PcrSelectionList.toBytes (l : PcrSelectionList) : Result Bytes := do
  let count ← Py.toBytes l.selections.length 4
  let body ← joinBytes PcrSelection.toBytes l.selections
  return count ++ body

/-- `TPMT_RSA_DECRYPT`. -/
structure RsaDecrypt where
  scheme : IntOr TPM_ALG := .enum .RSAES
  /-- only used with OAEP -/
  hashAlg : Option (IntOr TPM_ALG) := none

def RsaDecrypt.toBytes (r : RsaDecrypt) : Result Bytes := do
  let s ← Py.toBytes (algToInt r.scheme) 2
  match r.hashAlg with
  | some h =>
    if algToInt r.scheme = PyEnum.value TPM_ALG.OAEP then
      let hash ← Py.toBytes (algToInt h) 2
      return s ++ hash
    else return s
  | none => return s

/-- `TPMT_SIG_SCHEME`. -/
structure SigScheme where
  scheme : IntOr TPM_ALG := .enum .NULL
  hashAlg : IntOr TPM_ALG := .enum .SHA256

def SigScheme.toBytes (r : SigScheme) : Result Bytes := do
  let s ← Py.toBytes (algToInt r.scheme) 2
  if algToInt r.scheme = PyEnum.value TPM_ALG.NULL then return s
  else
    let h ← Py.toBytes (algToInt r.hashAlg) 2
    return s ++ h

/-- `TPMT_TK_HASHCHECK`. -/
structure TkHashcheck where
  hierarchy : IntOr TPM_RH := .enum .NULL
  digest : Bytes := []

def TkHashcheck.toBytes (t : TkHashcheck) : Result Bytes := do
  let tag ← Py.toBytes (PyEnum.value TPM_ST.TPM_ST_HASHCHECK) 2
  let h ← Py.toBytes t.hierarchy.toInt 4
  let digest ← sized t.digest
  return tag ++ h ++ digest

/-- `TPM2B_SENSITIVE`. -/
structure Tpm2bSensitive where
  sensitiveType : IntOr TPM_ALG := .enum .RSA
  authValue : Bytes := []
  seedValue : Bytes := []
  privateKey : Bytes := []

def Tpm2bSensitive.toBytes (s : Tpm2bSensitive) : Result Bytes := do
  let stype ← Py.toBytes (algToInt s.sensitiveType) 2
  let auth ← sized s.authValue
  let seed ← sized s.seedValue
  let pk ← sized s.privateKey
  sized (stype ++ auth ++ seed ++ pk)

/-- `TPMT_HA`. -/
structure Ha where
  hashAlg : IntOr TPM_ALG
  digest : Bytes

/-- The length of the digest is not written. -/
def Ha.toBytes (h : Ha) : Result Bytes := do
  let alg ← Py.toBytes (algToInt h.hashAlg) 2
  return alg ++ h.digest

/-- `TPML_DIGEST_VALUES`. -/
structure DigestValues where
  digests : List Ha := []

def DigestValues.toBytes (l : DigestValues) : Result Bytes := do
  let count ← Py.toBytes l.digests.length 4
  let body ← joinBytes Ha.toBytes l.digests
  return count ++ body

/-- `TPMT_PUBLIC_PARMS`. -/
structure PublicParms where
  algType : IntOr TPM_ALG
  rsaParameters : Option RsaParms := some {}

def PublicParms.toBytes (p : PublicParms) : Result Bytes := do
  let alg ← Py.toBytes (algToInt p.algType) 2
  if algToInt p.algType = PyEnum.value TPM_ALG.RSA then
    match p.rsaParameters with
    | none => .error (.valueError "rsa_parameters must be set for RSA public area")
    | some parms =>
      let parameters ← parms.toBytes
      return alg ++ parameters
  else .error (.notImplementedError "Only RSA TPMT_PUBLIC_PARAMS is implemented")

/-- `TPMS_NV_PUBLIC`. -/
structure NvPublic where
  nvIndex : Int
  nameAlg : IntOr TPM_ALG := .enum .SHA256
  attributes : Flags TPMA_NV := .flags []
  authPolicy : Bytes := []
  dataSize : Int := 32

def NvPublic.toBytes (p : NvPublic) : Result Bytes := do
  let index ← Py.toBytes p.nvIndex 4
  let name ← Py.toBytes (algToInt p.nameAlg) 2
  let attrs ← Py.toBytes p.attributes.toInt 4
  let policy ← sized p.authPolicy
  let size ← Py.toBytes p.dataSize 2
  return index ++ name ++ attrs ++ policy ++ size

/-- `TPM2B_NV_PUBLIC`. -/
structure Tpm2bNvPublic where
  publicInfo : NvPublic

def Tpm2bNvPublic.toBytes (p : Tpm2bNvPublic) : Result Bytes := do
  let inner ← p.publicInfo.toBytes
  sized inner

end Python
