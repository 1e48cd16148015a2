import Mathlib.Data.List.AList
import TpmFuzzer.Session.Messages
import TpmFuzzer.Session.Safety
import TpmFuzzer.Tpm.Grammar

/-!
# What the session layer is for

A `Layer` is what there is to know between two calls: the armed session, the Names of objects (a
finite map of at most `kMaxNames` handles), whether a StartAuthSession is in flight, and the last
command.  It works on whole messages, read by the grammar of their fields; there are no offsets, no
buffers of a fixed size and no flags that stand for one another.

`Layer.patch` is the message to send in place of another, `Layer.process` what a response teaches.
-/

namespace Session

open Bytes Tpm Reading

/-- A session that commands are authorised for. -/
structure ArmedSession where
  handle : UInt32
  hashAlg : UInt16
  nonceTpm : Bytes
  sessionKey : Bytes
  deriving DecidableEq

/-- A nonce of 1 to 64 bytes replaces the one that is kept. -/
def ArmedSession.refresh (s : ArmedSession) (nonce : Bytes) : ArmedSession :=
  if 0 < nonce.length ∧ nonce.length ≤ SESSION_AUTH_MAX_DIGEST then
    { s with nonceTpm := nonce } else s

/-- The Names of transient and persistent objects. -/
abbrev ObjectNames := AList fun _ : UInt32 => Bytes

/-- What the session layer knows between two calls. -/
structure Layer where
  session : Option ArmedSession
  names : ObjectNames
  /-- A StartAuthSession in flight, and whether its session can be authorised. -/
  start : Option Bool
  lastCommandCode : UInt32
  deriving DecidableEq

/-- A TPM message: a header with the length of the message. -/
def IsMessage (m : Bytes) : Prop := 10 ≤ m.length ∧ (Tpm.read32 m 2).toNat = m.length

instance (m : Bytes) : Decidable (IsMessage m) := inferInstanceAs (Decidable (_ ∧ _))

/-! ## Grammars -/

/-- tpmKey | bind | nonceCaller | encryptedSalt | sessionType, up to where the layer looks. -/
def readStart : Reader UInt8 (UInt32 × UInt32 × Bytes × UInt8) := do
  let tpmKey ← readWord32
  let bind ← readWord32
  let _ ← readSized
  let encryptedSalt ← readSized
  let sessionType ← readByte
  return (tpmKey, bind, encryptedSalt, sessionType)

def AuthEntry.read : Reader UInt8 AuthEntry := do
  let handle ← readWord32
  let nonce ← readTPM2B
  let attrs ← readByte
  let hmac ← readTPM2B
  return ⟨handle, nonce, attrs, hmac⟩

/-- handles | authorizationSize | one auth entry of that size | parameters. -/
def readTagged (attr : CommandAttrEntry) : Reader UInt8 (List UInt32 × AuthEntry × Bytes) := do
  let handles ← times readWord32 attr.handleCount
  let authSize ← readWord32
  let entry ← within authSize.toNat AuthEntry.read
  let params ← remaining
  return (handles, entry, params)

/-- sessionHandle | nonceTPM. -/
def readStartReply : Reader UInt8 (UInt32 × Bytes) := do
  let handle ← readWord32
  let nonce ← readSized
  return (handle, nonce)

/-- output handles | parameterSize | parameters | nonceTPM of the first session. -/
def readTaggedReply (attr : CommandAttrEntry) : Reader UInt8 (List UInt32 × Bytes × Bytes) := do
  let handles ← times readWord32 attr.outHandleCount
  let paramSize ← readWord32
  let params ← takeN paramSize.toNat
  let nonce ← readSized
  return (handles, params, nonce)

/-- The Name behind outPublic, creationData, creationHash and creationTicket. -/
def readPrimaryName : Reader UInt8 Bytes := do
  let _ ← readSized
  let _ ← readSized
  let _ ← readSized
  let _ ← takeN 6
  let _ ← readSized
  readSized

/-- The Name in the response parameters of the two commands that make an object. -/
def objectName (commandCode : UInt32) (params : Bytes) : Option Bytes :=
  if commandCode = TPM2_CC_CreatePrimary then (readPrimaryName.run params).map Prod.fst
  else if commandCode = TPM2_CC_Load then (readSized.run params).map Prod.fst
  else none

/-! ## Names -/

/-- A handle is given a Name if it has one already or there is room for another. -/
def ObjectNames.record (names : ObjectNames) (handle : UInt32) (name : Bytes) : ObjectNames :=
  if handle ∈ names ∨ names.keys.length < kMaxNames then
    names.insert handle (name.take kMaxNameSize)
  else names

/-- The Name of a handle, empty when it is not known. -/
def ObjectNames.nameOf (names : ObjectNames) (handle : UInt32) : Bytes :=
  let handleType := (handle >>> 24).toUInt8
  if handleType = 0x80 ∨ handleType = 0x81 then (names.lookup handle).getD []
  else if handleType = 0x40 ∨ handleType = 0x00 ∨ handleType = 0x02 ∨ handleType = 0x03 then
    write32 handle
  else []

/-- Every handle has a Name. -/
def ObjectNames.Knows (names : ObjectNames) (handles : List UInt32) : Prop :=
  ∀ h ∈ handles, names.nameOf h ≠ []

instance (names : ObjectNames) (handles : List UInt32) : Decidable (names.Knows handles) :=
  List.decidableBAll _ handles

namespace Layer

/-- Before the first call. -/
def empty : Layer := ⟨none, ∅, none, 0⟩

/-! ## Commands -/

/-- Whether the layer can authorise commands for the session that a StartAuthSession asks for;
authHash is its last field. -/
def compatible (m : Bytes) : Bool :=
  if m.length < 27 then false
  else match readStart.run (m.drop 10) with
    | none => false
    | some ((tpmKey, bind, encryptedSalt, sessionType), _) =>
      tpmKey = TPM2_RH_NULL ∧ bind = TPM2_RH_NULL ∧ encryptedSalt = [] ∧
      sessionType = TPM2_SE_HMAC ∧
        Tpm.read16 m (m.length - 2) = TPM2_ALG_SHA256

variable (C : Crypto)

/-- The command with the auth entry of session `s`. -/
def authorised (names : ObjectNames) (s : ArmedSession) (commandCode : UInt32)
    (handles : List UInt32) (entry : AuthEntry) (params : Bytes) : Bytes :=
  let cpHash := C.sha256 (write32 commandCode ++ (handles.flatMap names.nameOf ++ params))
  let mac := C.hmacSha256 s.sessionKey (cpHash ++ (nonceCaller ++ (s.nonceTpm ++ [entry.attrs])))
  message TPM2_ST_SESSIONS commandCode (handleBytes handles ++ (write32 57 ++
    (write32 entry.handle ++ (tpm2b nonceCaller ++ (entry.attrs :: (tpm2b mac ++ params))))))

/-- What is sent instead of a session-tagged command: the command itself, unless its only auth entry
is that of the armed session, every handle has a Name, and the result fits the room. -/
def rewrite (names : ObjectNames) (s : ArmedSession) (m : Bytes) (room : Nat) : Bytes :=
  let commandCode := Tpm.read32 m 6
  match lookupCommandAttr commandCode with
  | none => m
  | some attr =>
    match (readTagged attr).run (m.drop 10) with
    | none => m
    | some ((handles, entry, params), _) =>
      let sent := authorised C names s commandCode handles entry params
      if entry.handle = s.handle ∧ names.Knows handles ∧ sent.length ≤ room then sent
      else m

/-- What is sent in place of the command `m`, when there are `room` bytes for it. -/
def patch (l : Layer) (m : Bytes) (room : Nat) : Layer × Bytes :=
  if IsMessage m then
    let commandCode := Tpm.read32 m 6
    let l := { l with lastCommandCode := commandCode }
    if commandCode = TPM2_CC_StartAuthSession then ({ l with start := some (compatible m) }, m)
    else match l.session with
      | none => (l, m)
      | some s =>
        if s.hashAlg = TPM2_ALG_SHA256 ∧ Tpm.read16 m 0 = TPM2_ST_SESSIONS then
          (l, rewrite C l.names s m room)
        else (l, m)
  else (l, m)

/-! ## Responses -/

/-- What a successful response to a session-tagged command teaches. -/
def learn (l : Layer) (s : ArmedSession) (m : Bytes) : Layer :=
  match lookupCommandAttr l.lastCommandCode with
  | none => l
  | some attr =>
    match (readTaggedReply attr).run (m.drop 10) with
    | none => l
    | some ((handles, params, nonce), _) =>
      { l with
        session := some (s.refresh nonce)
        names := match handles, objectName l.lastCommandCode params with
          | h :: _, some name => l.names.record h name
          | _, _ => l.names }

/-- The session that a successful response to a StartAuthSession brings; everything else is
forgotten. -/
def started (m : Bytes) : Option Layer :=
  if Tpm.read16 m 0 = TPM2_ST_NO_SESSIONS ∧ Tpm.read32 m 6 = TPM2_RC_SUCCESS then
    (readStartReply.run (m.drop 10)).map fun r =>
      ⟨some ⟨r.1.1, TPM2_ALG_SHA256, r.1.2.take SESSION_AUTH_MAX_DIGEST, []⟩, ∅, none, 0⟩
  else none

/-- What the response `m` to the last command teaches. -/
def process (l : Layer) (m : Bytes) : Layer :=
  if IsMessage m then
    match l.start with
    | some true => (started m).getD { l with start := none }
    | some false => { l with start := none }
    | none =>
      match l.session with
      | none => l
      | some s =>
        if Tpm.read16 m 0 = TPM2_ST_SESSIONS ∧ Tpm.read32 m 6 =
          TPM2_RC_SUCCESS then learn l s m else l
  else l

/-! ## Calls -/

/-- A caller's bytes cut to 64, zeros for those of a null pointer. -/
def argument (ptr : Option Bytes) (size : Nat) : Bytes :=
  match ptr with
  | some b => b.take (min size SESSION_AUTH_MAX_DIGEST)
  | none => List.replicate (min size SESSION_AUTH_MAX_DIGEST) 0

/-- The four entry points. -/
def step (l : Layer) : Call → Layer
  | .initialise handle nonce nonceSize key keySize alg =>
    ⟨some ⟨handle, alg, argument nonce nonceSize, argument key keySize⟩, ∅, none, 0⟩
  | .reset => empty
  | .patchCommand (some buf) size cap => if size ≤ cap then (l.patch C (buf.take size) cap).1 else l
  | .patchCommand none _ _ => l
  | .processResponse (some buf) size => l.process (buf.take size)
  | .processResponse none _ => l

end Layer

end Session
