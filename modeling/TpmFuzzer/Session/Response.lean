import TpmFuzzer.Session.Command

/-!
# `SessionAuthInit`, `SessionAuthReset` and `SessionAuthProcessResponse`

The response side of the session layer.  Two branches: the answer to a StartAuthSession, which
arms the layer, and the answer to a session-tagged command, which refreshes the nonce and may name
a new object.
-/

namespace Session

open Bytes Tpm Traced

/-! ## Arming -/

/-- Copy the first `min size 64` bytes of a caller's buffer over a fixed array. -/
def copyIn (src : Region) (ptr : Option Bytes) (off size : Nat) (dst : Region)
    (arr : Fixed SESSION_AUTH_MAX_DIGEST) : Mem (Fixed SESSION_AUTH_MAX_DIGEST) :=
  match ptr with
  | some b =>
    if size ≠ 0 then do
      let bytes ← Mem.bytes src b off size
      Mem.write dst 0 size
      return arr.blit bytes
    else return arr
  | none => return arr

/-- `SessionAuthInit`; the nonce is `noncePtr + nonceOff`, in region `nonceRegion`. -/
def sessionAuthInit (sessionHandle : UInt32) (nonceRegion : Region) (noncePtr : Option Bytes)
    (nonceOff nonceTpmSize : Nat) (keyPtr : Option Bytes) (sessionKeySize : Nat)
    (authHashAlg : UInt16) : Mem SessionState := do
  let st := { SessionState.zero with
    initialized := true
    handle := sessionHandle
    hashAlg := authHashAlg
    digestSize := digestSizeFor authHashAlg }
  let nonceTpmSize :=
    if nonceTpmSize > SESSION_AUTH_MAX_DIGEST then SESSION_AUTH_MAX_DIGEST else nonceTpmSize
  let nonceTpm ← copyIn nonceRegion noncePtr nonceOff nonceTpmSize .nonceTpm st.nonceTpm
  let sessionKeySize :=
    if sessionKeySize > SESSION_AUTH_MAX_DIGEST then SESSION_AUTH_MAX_DIGEST else sessionKeySize
  let sessionKey ← copyIn .initKey keyPtr 0 sessionKeySize .sessionKey st.sessionKey
  return { st with
    nonceTpm := nonceTpm, nonceTpmSize := nonceTpmSize
    sessionKey := sessionKey, sessionKeySize := sessionKeySize }

/-- `memset(&g_session, 0, sizeof(g_session))`. -/
def sessionAuthReset : SessionState := SessionState.zero

/-- 0 while no session is armed. -/
def sessionAuthGetSessionHandle (st : SessionState) : UInt32 :=
  if st.initialized then st.handle else 0

/-! ## Names from responses -/

/-- The Name of a CreatePrimary response, whose parameters are
outPublic | creationData | creationHash | tag(2) hierarchy(4) digest | name. -/
def extractCreatePrimaryName (names : NameTable) (buf : Bytes) (paramsStart paramsEnd : Nat)
    (outHandle : UInt32) : Mem NameTable := do
  let p ← skipTPM2B .response buf paramsStart paramsEnd
  if p = 0 then return names
  let p ← skipTPM2B .response buf p paramsEnd
  if p = 0 then return names
  let p ← skipTPM2B .response buf p paramsEnd
  if p = 0 then return names
  -- creationTicket: tag(2) + hierarchy(4) + digest(TPM2B)
  let p ← Mem.sum (p + 6)
  if p > paramsEnd then return names
  let p ← skipTPM2B .response buf p paramsEnd
  if p = 0 then return names
  let nameOff ← Mem.sum (p + 2)
  if nameOff > paramsEnd then return names
  let nameSize ← Mem.read16 .response buf p
  let nameEnd ← Mem.sum (p + 2 + nameSize.toNat)
  if nameEnd > paramsEnd then return names
  names.add outHandle .response buf nameOff nameSize.toNat

/-- The Name of a Load response: the only parameter. -/
def extractLoadName (names : NameTable) (buf : Bytes) (paramsStart paramsEnd : Nat)
    (outHandle : UInt32) : Mem NameTable := do
  let nameOff ← Mem.sum (paramsStart + 2)
  if nameOff > paramsEnd then return names
  let nameSize ← Mem.read16 .response buf paramsStart
  let nameEnd ← Mem.sum (paramsStart + 2 + nameSize.toNat)
  if nameEnd > paramsEnd then return names
  names.add outHandle .response buf nameOff nameSize.toNat

/-- Dispatch over `kNameExtractors`. -/
def populateNameFromResponse (names : NameTable) (commandCode : UInt32) (buf : Bytes)
    (paramsOff paramsEnd : Nat) (outHandle : UInt32) : Mem NameTable :=
  if commandCode = TPM2_CC_CreatePrimary then
    extractCreatePrimaryName names buf paramsOff paramsEnd outHandle
  else if commandCode = TPM2_CC_Load then
    extractLoadName names buf paramsOff paramsEnd outHandle
  else return names

/-! ## The response handler -/

/-- The arguments of the `SessionAuthInit` call the pending branch makes, `none` when it returns
before it. -/
structure ArmArgs where
  handle : UInt32
  nonceSize : Nat
  authHash : UInt16
  deriving DecidableEq, Repr

/-- The guards of the pending branch. -/
def pendingArmArgs (st : SessionState) (buf : Bytes) (size : Nat) (tag : UInt16) (rc : UInt32) :
    Mem (Option ArmArgs) := do
  let compatible := st.startAuthSessionCompatible
  let authHash := st.startAuthSessionAuthHash
  if tag ≠ TPM2_ST_NO_SESSIONS ∨ rc ≠ TPM2_RC_SUCCESS then return none
  if compatible = false ∨ size < 16 then return none
  let handle ← Mem.read32 .response buf 10
  let nonceSize ← Mem.read16 .response buf 14
  let nonceEnd ← Mem.sum (16 + nonceSize.toNat)
  if nonceEnd > size then return none
  return some ⟨handle, nonceSize.toNat, authHash⟩

/-- The answer to a StartAuthSession. -/
def processStartResponse (st : SessionState) (buf : Bytes) (size : Nat) (tag : UInt16)
    (rc : UInt32) : Mem SessionState := do
  match ← pendingArmArgs st buf size tag rc with
  | some a =>
    sessionAuthInit a.handle .response (some buf) 16 a.nonceSize none 0 a.authHash
  | none =>
    return { st with pendingStartAuthSession := false, startAuthSessionCompatible := false }

/-- Refresh `nonceTPM` for the next command's HMAC. -/
def refreshNonce (st : SessionState) (buf : Bytes) (nonceOff nonceSize : Nat) :
    Mem SessionState := do
  if nonceSize > 0 ∧ nonceSize ≤ SESSION_AUTH_MAX_DIGEST then
    let nonce ← Mem.bytes .response buf nonceOff nonceSize
    Mem.write .nonceTpm 0 nonceSize
    return { st with nonceTpm := st.nonceTpm.blit nonce, nonceTpmSize := nonceSize }
  else
    return st

/-- Where the parameters and the auth area of a response are, and how long the nonce is. -/
structure ResponseFields where
  paramsOff : Nat
  authAreaOff : Nat
  nonceSize : Nat
  deriving DecidableEq, Repr

/-- Locate the parameters and the nonce of a session-tagged response. -/
def findResponseFields (buf : Bytes) (size : Nat) (attr : CommandAttrEntry) :
    Mem (Option ResponseFields) := do
  let paramsSizeOff ← Mem.sum (10 + 4 * attr.outHandleCount)
  let paramsOff ← Mem.sum (paramsSizeOff + 4)
  if paramsOff > size then return none
  let paramSize ← Mem.read32 .response buf paramsSizeOff
  let authAreaOff ← Mem.sum (paramsOff + paramSize.toNat)
  if authAreaOff > size then return none
  let nonceOff ← Mem.sum (authAreaOff + 2)
  if nonceOff > size then return none
  let nonceSize ← Mem.read16 .response buf authAreaOff
  let nonceEnd ← Mem.sum (authAreaOff + 2 + nonceSize.toNat)
  if nonceEnd > size then return none
  return some ⟨paramsOff, authAreaOff, nonceSize.toNat⟩

/-- The answer to any other command, from the attribute lookup on. -/
def processSessionResponse (st : SessionState) (buf : Bytes) (size : Nat) : Mem SessionState := do
  match lookupCommandAttr st.lastCommandCode with
  | none => return st
  | some attr =>
    match ← findResponseFields buf size attr with
    | none => return st
    | some f =>
      let st ← refreshNonce st buf (f.authAreaOff + 2) f.nonceSize
      if attr.outHandleCount = 0 then return st
      let outHandle ← Mem.read32 .response buf 10
      let names ← populateNameFromResponse st.names st.lastCommandCode buf f.paramsOff
        f.authAreaOff outHandle
      return { st with names := names }

/-- `SessionAuthProcessResponse`: a pending start first, otherwise a response to the last
command. -/
def sessionAuthProcessResponse (st : SessionState) (buf : Option Bytes) (size : Nat) :
    Mem SessionState :=
  match buf with
  | none => return st
  | some buf => do
    if size < 10 then return st
    let tag ← Mem.read16 .response buf 0
    let hdrSize ← Mem.read32 .response buf 2
    let rc ← Mem.read32 .response buf 6
    if hdrSize.toNat ≠ size then return st
    if st.pendingStartAuthSession then processStartResponse st buf size tag rc
    else if st.initialized = false then return st
    else if tag ≠ TPM2_ST_SESSIONS ∨ rc ≠ TPM2_RC_SUCCESS then return st
    else processSessionResponse st buf size

end Session
