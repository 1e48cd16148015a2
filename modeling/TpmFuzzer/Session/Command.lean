import TpmFuzzer.Session.State

/-!
# `SessionAuthPatchCommand`

The command side of the session layer, function by function as the source has them.  `buf` is the
caller's buffer of at least `bufCapacity` bytes, `none` the null pointer.
-/

namespace Session

open Bytes Tpm Traced

/-! ## Handle Names -/

/-- Advance past a TPM2B; 0 on a parse error. -/
def skipTPM2B (r : Region) (buf : Bytes) (off end_ : Nat) : Mem Nat := do
  let sizeEnd ← Mem.sum (off + 2)
  if sizeEnd > end_ then return 0
  let sz ← Mem.read16 r buf off
  let newOff ← Mem.sum (off + 2 + sz.toNat)
  return if newOff ≤ end_ then newOff else 0

/-- The Name of a handle, empty when it is not known: the handle itself for permanent, PCR and
session handles, the recorded Name for transient and persistent ones. -/
def handleName (names : NameTable) (handle : UInt32) (nameCap : Nat) : Mem Bytes := do
  let handleType := (handle >>> 24).toUInt8
  if handleType = 0x80 ∨ handleType = 0x81 then
    names.lookup handle nameCap
  else if handleType = 0x40 then
    if nameCap < 4 then return []
    Mem.write .nameOut 0 4
    return write32 handle
  else if handleType = 0x00 ∨ handleType = 0x02 ∨ handleType = 0x03 then
    if nameCap < 4 then return []
    Mem.write .nameOut 0 4
    return write32 handle
  else
    return []

/-! ## StartAuthSession -/

/-- Keep the parameters of a `TPM2_StartAuthSession` for the response handler. -/
def captureStartAuthSessionCommand (st : SessionState) (buf : Bytes) (size : Nat) :
    Mem SessionState := do
  let st := { st with pendingStartAuthSession := true, startAuthSessionCompatible := false }
  if size < 27 then return st
  let tpmKey ← Mem.read32 .command buf 10
  let bind ← Mem.read32 .command buf 14
  let encryptedSaltOff ← skipTPM2B .command buf 18 size
  if encryptedSaltOff = 0 then return st
  let p ← skipTPM2B .command buf encryptedSaltOff size
  if p = 0 then return st
  let sessionTypeEnd ← Mem.sum (p + 1)
  if sessionTypeEnd > size then return st
  let sessionType ← Mem.read8 .command buf p
  -- authHash is the last two bytes, however `symmetric` is encoded
  let authHashOff ← Mem.diff ((size : Int) - 2)
  let authHash ← Mem.read16 .command buf authHashOff
  let encryptedSaltSize ← Mem.read16 .command buf encryptedSaltOff
  return { st with
    startAuthSessionAuthHash := authHash
    startAuthSessionCompatible :=
      tpmKey = TPM2_RH_NULL ∧ bind = TPM2_RH_NULL ∧ encryptedSaltSize = 0 ∧
        sessionType = TPM2_SE_HMAC ∧ digestSizeFor authHash ≠ 0 }

/-! ## The patching pipeline -/

/-- The offset of authorizationSize, that of the entries, and their length. -/
structure AuthArea where
  authSizeOff : Nat
  authOff : Nat
  authSize : Nat
  deriving DecidableEq, Repr

/-- Locate the authorization area. -/
def findAuthArea (buf : Bytes) (commandSize : Nat) (attr : CommandAttrEntry) :
    Mem (Option AuthArea) := do
  let handlesOff := 10
  let authSizeOff ← Mem.sum (handlesOff + 4 * attr.handleCount)
  let authOff ← Mem.sum (authSizeOff + 4)
  if authOff > commandSize then return none
  let authSize ← Mem.read32 .command buf authSizeOff
  let authEnd ← Mem.sum (authOff + authSize.toNat)
  if authEnd > commandSize then return none
  return some ⟨authSizeOff, authOff, authSize.toNat⟩

/-- What the parse of the first entry finds. -/
structure AuthEntryFields where
  nonceOff : Nat
  origNonceSize : Nat
  sessionAttrs : UInt8
  origHmacSize : Nat
  deriving DecidableEq, Repr

/-- The first entry of the authorization area, when it names `handle` and is the only one. -/
def parseAuthEntry (handle : UInt32) (buf : Bytes) (area : AuthArea) :
    Mem (Option AuthEntryFields) := do
  let authEnd ← Mem.sum (area.authOff + area.authSize)
  let p ← Mem.sum (area.authOff + 4)
  if p > authEnd then return none
  let sessionHandle ← Mem.read32 .command buf area.authOff
  -- PW session, an unknown session handle, or one we haven't initialized
  if sessionHandle ≠ handle then return none
  let nonceSizeEnd ← Mem.sum (p + 2)
  if nonceSizeEnd > authEnd then return none
  let origNonceSize ← Mem.read16 .command buf p
  let nonceOff := p
  let p ← Mem.sum (p + (2 + origNonceSize.toNat))
  let attrsEnd ← Mem.sum (p + 1)
  if attrsEnd > authEnd then return none
  let sessionAttrs ← Mem.read8 .command buf p
  let p := attrsEnd
  let hmacSizeEnd ← Mem.sum (p + 2)
  if hmacSizeEnd > authEnd then return none
  let origHmacSize ← Mem.read16 .command buf p
  let p ← Mem.sum (p + (2 + origHmacSize.toNat))
  if p ≠ authEnd then return none
  return some ⟨nonceOff, origNonceSize.toNat, sessionAttrs, origHmacSize.toNat⟩

/-- Feed the Names of the `n` handles from handle `i` on to the digest `ctx`. -/
def hashHandleNames (names : NameTable) (buf : Bytes) : Nat → Nat → Bytes → Mem (Option Bytes)
  | 0, _, ctx => return some ctx
  | n + 1, i, ctx => do
    let h ← Mem.read32 .command buf (10 + 4 * i)
    let name ← handleName names h kMaxNameSize
    if name.length = 0 then return none
    Mem.read .nameOut 0 name.length
    hashHandleNames names buf n (i + 1) (ctx ++ name)

/-- cpHash = H(commandCode || Name(h0) || ... || cpBuffer). -/
def computeCpHash (C : Crypto) (names : NameTable) (buf : Bytes) (commandCode : UInt32)
    (handleCount cpOff cpSize : Nat) : Mem (Option Bytes) := do
  match ← hashHandleNames names buf handleCount 0 (write32 commandCode) with
  | none => return none
  | some ctx =>
    if cpSize ≠ 0 then
      let cp ← Mem.bytes .command buf cpOff cpSize
      return some (C.sha256 (ctx ++ cp))
    else
      return some (C.sha256 ctx)

/-- The HMAC over cpHash || nonceNewer || nonceOlder || sessionAttrs. -/
def computeHmac (C : Crypto) (cpHash nonceCaller : Bytes) (nonceTpm : Fixed SESSION_AUTH_MAX_DIGEST)
    (nonceTpmSize : Nat) (sessionAttrs : UInt8) (sessionKey : Fixed SESSION_AUTH_MAX_DIGEST)
    (sessionKeySize : Nat) : Mem Bytes := do
  let mlen := 0
  Mem.write .hmacMsg mlen 32
  let mlen := mlen + 32
  Mem.write .hmacMsg mlen nonceCaller.length
  let mlen := mlen + nonceCaller.length
  Mem.read .nonceTpm 0 nonceTpmSize
  Mem.write .hmacMsg mlen nonceTpmSize
  let mlen := mlen + nonceTpmSize
  Mem.write .hmacMsg mlen 1
  let mlen := mlen + 1
  let hmacMsg := cpHash ++ (nonceCaller ++ (nonceTpm.first nonceTpmSize ++ [sessionAttrs]))
  if sessionKeySize ≠ 0 then
    Mem.read .sessionKey 0 sessionKeySize
    Mem.write .hmacKey 0 sessionKeySize
    Mem.read .hmacKey 0 sessionKeySize
    Mem.read .hmacMsg 0 mlen
    return C.hmacSha256 (sessionKey.first sessionKeySize) hmacMsg
  else
    Mem.read .hmacMsg 0 mlen
    return C.hmacSha256 [] hmacMsg

/-- Move cpBuffer to `newCpOff` (`memmove`). -/
def shiftCpBuffer (buf : Bytes) (cpOff cpSize newCpOff : Nat) : Mem Bytes := do
  if cpSize ≠ 0 ∧ newCpOff ≠ cpOff then
    let cp ← Mem.bytes .command buf cpOff cpSize
    Mem.store .command buf newCpOff cp
  else
    return buf

/-- `while (w < new_cp_off) buf[w++] = 0;` -/
def padZero (buf : Bytes) (w newCpOff : Nat) : Mem Bytes :=
  if newCpOff ≤ w then return buf
  else Mem.store .command buf w (List.replicate (newCpOff - w) 0)

/-- Shift cpBuffer, rewrite the nonce and the HMAC, and update the two size fields. -/
def patchAuthArea (buf : Bytes) (bufCapacity commandSize : Nat) (area : AuthArea)
    (entry : AuthEntryFields) (nonceCaller hmacOut : Bytes) : Mem (Bytes × Nat) := do
  let cpOff ← Mem.sum (area.authSizeOff + 4 + area.authSize)
  let cpSize ← Mem.diff ((commandSize : Int) - cpOff)
  let newNonceField ← Mem.sum (2 + nonceCaller.length)
  let newHmacField ← Mem.sum (2 + 32)
  let oldNonceField ← Mem.sum (2 + entry.origNonceSize)
  let oldHmacField ← Mem.sum (2 + entry.origHmacSize)
  let delta : Int := ((newNonceField + newHmacField : Nat) : Int) -
    (oldNonceField + oldHmacField : Nat)
  let newCommandSize ← Mem.diff (commandSize + delta)
  if newCommandSize > bufCapacity then return (buf, commandSize)
  let newCpOff ← Mem.diff (cpOff + delta)
  let buf ← shiftCpBuffer buf cpOff cpSize newCpOff
  let w := entry.nonceOff
  let buf ← Mem.store .command buf w (write16 (UInt16.ofNat nonceCaller.length))
  let w := w + 2
  let buf ← Mem.store .command buf w nonceCaller
  let w := w + nonceCaller.length
  let buf ← Mem.store .command buf w [entry.sessionAttrs]
  let w := w + 1
  let buf ← Mem.store .command buf w (write16 32)
  let w := w + 2
  let buf ← Mem.store .command buf w hmacOut
  let w := w + 32
  let buf ← padZero buf w newCpOff
  let newAuthSize ← Mem.diff32 (area.authSize + delta)
  let buf ← Mem.store .command buf area.authSizeOff (write32 newAuthSize)
  let buf ← Mem.store .command buf 2 (write32 (UInt32.ofNat newCommandSize))
  return (buf, newCommandSize)

/-- The state, the buffer, and the size to send. -/
structure PatchResult where
  state : SessionState
  buf : Option Bytes
  size : Nat
  deriving DecidableEq

/-- The HMAC path: `st` is armed, the command is tagged `TPM_ST_SESSIONS`. -/
def patchSessionCommand (C : Crypto) (st : SessionState) (buf : Bytes)
    (commandSize bufCapacity : Nat) (commandCode : UInt32) : Mem (Bytes × Nat) := do
  match lookupCommandAttr commandCode with
  | none => return (buf, commandSize)
  | some attr =>
    match ← findAuthArea buf commandSize attr with
    | none => return (buf, commandSize)
    | some area =>
      match ← parseAuthEntry st.handle buf area with
      | none => return (buf, commandSize)
      | some entry =>
        let cpOff ← Mem.sum (area.authOff + area.authSize)
        let cpSize ← Mem.diff ((commandSize : Int) - cpOff)
        match ← computeCpHash C st.names buf commandCode attr.handleCount cpOff cpSize with
        -- Name not in table; let the TPM surface the auth error
        | none => return (buf, commandSize)
        | some cpHash =>
          let hmacOut ← computeHmac C cpHash nonceCaller st.nonceTpm st.nonceTpmSize
            entry.sessionAttrs st.sessionKey st.sessionKeySize
          patchAuthArea buf bufCapacity commandSize area entry nonceCaller hmacOut

/-- `SessionAuthPatchCommand`. -/
def sessionAuthPatchCommand (C : Crypto) (st : SessionState) (buf : Option Bytes)
    (commandSize bufCapacity : Nat) : Mem PatchResult :=
  match buf with
  | none => return ⟨st, none, commandSize⟩
  | some buf => do
    if commandSize < 10 ∨ commandSize > bufCapacity then return ⟨st, some buf, commandSize⟩
    let tag ← Mem.read16 .command buf 0
    let headerSize ← Mem.read32 .command buf 2
    if headerSize.toNat ≠ commandSize then return ⟨st, some buf, commandSize⟩
    let commandCode ← Mem.read32 .command buf 6
    let st := { st with lastCommandCode := commandCode }
    if commandCode = TPM2_CC_StartAuthSession then
      let st ← captureStartAuthSessionCommand st buf commandSize
      return ⟨st, some buf, commandSize⟩
    else if st.initialized = false ∨ st.digestSize = 0 then
      return ⟨st, some buf, commandSize⟩
    else if tag ≠ TPM2_ST_SESSIONS then
      return ⟨st, some buf, commandSize⟩
    else
      let (buf, size) ← patchSessionCommand C st buf commandSize bufCapacity commandCode
      return ⟨st, some buf, size⟩

end Session
