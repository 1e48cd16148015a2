import TpmFuzzer.Proto.Messages

/-!
# `proto_normalization.cc`

Before a structure-aware input is marshalled, the fields it leaves at 0 take their defaults.

`mutable_x()` sets a sub-message that was not set, so an area that had no parameters has some
afterwards.
-/

namespace Proto

def kPasswordSessionHandle : UInt32 := 0x40000009
def kFirstTransientObjectHandle : UInt32 := 0x80000000

def kAttrFixedTpm : UInt32 := 0x00000002
def kAttrFixedParent : UInt32 := 0x00000010
def kAttrSensitiveDataOrigin : UInt32 := 0x00000020
def kAttrUserWithAuth : UInt32 := 0x00000040
def kAttrNoDa : UInt32 := 0x00000400
def kAttrRestricted : UInt32 := 0x00010000
def kAttrDecrypt : UInt32 := 0x00020000

/-- For CreatePrimary. -/
def kStorageParentObjectAttributes : UInt32 :=
  kAttrFixedTpm ||| kAttrFixedParent ||| kAttrSensitiveDataOrigin |||
    kAttrUserWithAuth ||| kAttrNoDa |||
    kAttrRestricted ||| kAttrDecrypt

/-- For Create and Load; the same bits. -/
def kChildObjectAttributes : UInt32 :=
  kAttrFixedTpm ||| kAttrFixedParent ||| kAttrSensitiveDataOrigin |||
    kAttrUserWithAuth ||| kAttrNoDa |||
    kAttrRestricted ||| kAttrDecrypt

/-- `if (x() == 0) set_x(d);` -/
def orDefault (x d : UInt32) : UInt32 := if x = 0 then d else x

theorem orDefault_ne_zero {x : UInt32} (h : x ≠ 0) (d : UInt32) : orDefault x d = x := if_neg h

def normalizeKeyedHash (kh : TPMSKeyedHashParms) : TPMSKeyedHashParms where
  scheme := orDefault kh.scheme TPM_ALG_NULL

def normalizeRsa (rsa : TPMSRSAParms) : TPMSRSAParms where
  symmetric := orDefault rsa.symmetric TPM_ALG_AES
  symmetricKeyBits := orDefault rsa.symmetricKeyBits 128
  scheme := orDefault rsa.scheme TPM_ALG_NULL
  keyBits := orDefault rsa.keyBits 2048
  exponent := orDefault rsa.exponent 0

/-- The type and the parameters; an area without either kind becomes a KEYEDHASH area. -/
def normalizeParameters : TPMUPublicParms → UInt32 × TPMUPublicParms
  | .notSet => (TPM_ALG_KEYEDHASH, .keyedhash (normalizeKeyedHash {}))
  | .keyedhash kh => (TPM_ALG_KEYEDHASH, .keyedhash (normalizeKeyedHash kh))
  | .rsa rsa => (TPM_ALG_RSA, .rsa (normalizeRsa rsa))

/-- The type follows the parameters; what is 0 gets a default. -/
def normalizeRsaOrKeyedHashPublic (publicArea : TPMTPublic) (objectAttributes : UInt32) :
    TPMTPublic :=
  let (type, parameters) := normalizeParameters (publicArea.parameters.getD .notSet)
  { publicArea with
    type := type
    nameAlg := orDefault publicArea.nameAlg TPM_ALG_SHA256
    objectAttributes := orDefault publicArea.objectAttributes objectAttributes
    parameters := some parameters }

def normalizeCreatePrimary (msg : TPMCreatePrimary) : TPMCreatePrimary :=
  let inPublic := msg.inPublic.getD {}
  { msg with
    header :=
      some { msg.header.getD {} with tag := TPM_ST_SESSIONS, commandCode := TPM_CC_CREATE_PRIMARY }
    hierarchy := orDefault msg.hierarchy TPM_RH_OWNER
    inPublic := some { inPublic with
      publicArea := some
        (normalizeRsaOrKeyedHashPublic (inPublic.publicArea.getD {})
          kStorageParentObjectAttributes) } }

/-- `mutable_header()->set_tag(tag); mutable_header()->set_command_code(commandCode);` -/
def retag (header : Option TPMHeader) (tag commandCode : UInt32) : Option TPMHeader :=
  some { header.getD {} with tag := tag, commandCode := commandCode }

/-- What `SetPasswordSession` makes of a new session. -/
def passwordSession : TPMSession where
  sessionHandle := kPasswordSessionHandle
  nonceSize := 0
  sessionAttributes := 0
  hmacSize := 0

/-- `if (sessions().empty()) SetPasswordSession(add_sessions());` -/
def defaultSessions (sessions : List TPMSession) : List TPMSession :=
  if sessions.isEmpty then [passwordSession] else sessions

theorem defaultSessions_ne_nil (l : List TPMSession) : defaultSessions l ≠ [] := by
  unfold defaultSessions
  split
  · exact nofun
  · next h => simpa using h

/-- Nothing to normalize when there is no public area. -/
def normalizeInPublic (msg : TPMLoad) : TPMLoad :=
  { msg with
    inPublic := msg.inPublic.map fun inPublic =>
      { inPublic with
        publicArea := some
          (normalizeRsaOrKeyedHashPublic (inPublic.publicArea.getD {}) kChildObjectAttributes) } }

def normalizeLoad (msg : TPMLoad) : TPMLoad :=
  { msg with
    header := retag msg.header TPM_ST_SESSIONS TPM_CC_LOAD
    parentHandle := orDefault msg.parentHandle kFirstTransientObjectHandle
    sessions := defaultSessions msg.sessions }

def normalizeCreate (msg : TPMCreate) : TPMCreate :=
  let inPublic := msg.inPublic.getD {}
  { msg with
    header := retag msg.header TPM_ST_SESSIONS TPM_CC_CREATE
    parentHandle := orDefault msg.parentHandle kFirstTransientObjectHandle
    inPublic := some { inPublic with
      publicArea := some
        (normalizeRsaOrKeyedHashPublic (inPublic.publicArea.getD {}) kChildObjectAttributes) } }

def normalizeRSADecrypt (msg : TPMRSADecrypt) : TPMRSADecrypt :=
  { msg with header := retag msg.header TPM_ST_SESSIONS TPM_CC_RSA_DECRYPT }

def normalizeClear (msg : TPMClear) : TPMClear :=
  { msg with
    header := retag msg.header TPM_ST_SESSIONS TPM_CC_CLEAR
    authHandle := orDefault msg.authHandle TPM_RH_LOCKOUT
    sessions := defaultSessions msg.sessions }

/-- A policy of `n` bytes; one of another length is replaced by zeros. -/
def policyOfSize (policy : TPM2BDigest) (n : Nat) : TPM2BDigest where
  size := UInt32.ofNat n
  buffer := if policy.buffer.length ≠ n then List.replicate n 0 else policy.buffer

/-- The hash algorithm, and a policy of the size of its digests. -/
def normalizePolicy (hashAlg : UInt32) (policy : TPM2BDigest) : UInt32 × TPM2BDigest :=
  if hashAlg = TPM_ALG_SHA1 then (hashAlg, policyOfSize policy 20)
  else if hashAlg = TPM_ALG_SHA256 then (hashAlg, policyOfSize policy 32)
  else if hashAlg = TPM_ALG_SHA384 then (hashAlg, policyOfSize policy 48)
  else if hashAlg = TPM_ALG_NULL then (hashAlg, { size := 0, buffer := [] })
  else (TPM_ALG_SHA256, { size := 32, buffer := List.replicate 32 0 })

/-- The policy is replaced when it does not fit the algorithm. -/
def normalizeSetPrimaryPolicy (msg : TPMSetPrimaryPolicy) : TPMSetPrimaryPolicy :=
  let (hashAlg, authPolicy) := normalizePolicy msg.hashAlg (msg.authPolicy.getD {})
  { msg with
    header := retag msg.header TPM_ST_SESSIONS TPM_CC_SET_PRIMARY_POLICY
    authHandle := orDefault msg.authHandle TPM_RH_OWNER
    sessions := defaultSessions msg.sessions
    authPolicy := some authPolicy
    hashAlg := hashAlg }

end Proto
