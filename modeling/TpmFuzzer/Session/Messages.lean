import TpmFuzzer.Session.Steps

/-!
# Commands and responses as the TPM writes them

The layouts of the TPM specification's third part, as structures with an encoder: a session-tagged
command of `kTable` (`TaggedCommand`) and its response (`TaggedReply`), and a StartAuthSession
(`StartAuthSession`, `StartReply`).  An `Exchange` is a command and the TPM's response to it; a
`Turn` is an exchange with the buffers that carry it, and `turn` is what the layer does in it.
-/

namespace Session

open Bytes Tpm Traced Runs

/-! ## Messages -/

/-- `tag(2) | size(4) | code(4) | body`, a command or a response. -/
def message (tag : UInt16) (code : UInt32) (body : Bytes) : Bytes :=
  write16 tag ++ (write32 (UInt32.ofNat (10 + body.length)) ++ (write32 code ++ body))

section
variable (tag : UInt16) (code : UInt32) (body slack : Bytes)

@[simp] theorem length_message : (message tag code body).length = 10 + body.length := by
  simp [message]
  omega

theorem message_append : (message tag code body ++ slack).drop 0 =
    write16 tag ++ (write32 (UInt32.ofNat (10 + body.length)) ++
      (write32 code ++ (body ++ slack))) := by
  simp [message]

theorem drop_message : (message tag code body ++ slack).drop 10 = body ++ slack := by
  simp [message, write16, write32]

@[simp] theorem read16_message : read16 (message tag code body ++ slack) 0 = tag :=
  read16_of_drop (message_append tag code body slack)

/-- The size counts header and body, as far as 32 bits go. -/
theorem read32_message_size_eq :
    read32 (message tag code body ++ slack) 2 = UInt32.ofNat (10 + body.length) :=
  read32_of_drop (drop_of_drop (message_append tag code body slack) rfl)

/-- A message of fewer than 2^32 bytes carries its own length. -/
theorem read32_message_size (h : 10 + body.length < 2 ^ 32) :
    (read32 (message tag code body ++ slack) 2).toNat = 10 + body.length := by
  rw [read32_message_size_eq, UInt32.toNat_ofNat_of_lt' h]

@[simp] theorem read32_message_code : read32 (message tag code body ++ slack) 6 = code :=
  read32_of_drop (drop_of_drop (drop_of_drop (message_append tag code body slack) rfl) rfl)

/-- Messages with the same header differ in their bodies. -/
theorem message_inj {body body' : Bytes} (h : message tag code body = message tag code body') :
    body = body' := by
  have hd := drop_message tag code body []
  rw [h, drop_message] at hd
  simpa using hd.symm

end

/-! ## Session-tagged commands -/

/-- The handles one behind the other. -/
def handleBytes (handles : List UInt32) : Bytes := handles.flatMap write32

@[simp] theorem length_handleBytes (handles : List UInt32) :
    (handleBytes handles).length = 4 * handles.length := by
  induction handles with
  | nil => rfl
  | cons h hs ih =>
    rw [handleBytes, List.flatMap_cons, List.length_append, ← handleBytes, ih]
    simp
    omega

/-- An entry of a command's authorization area. -/
structure AuthEntry where
  handle : UInt32
  nonce : TPM2B
  attrs : UInt8
  hmac : TPM2B
  deriving DecidableEq

/-- `handle(4) | nonce | attributes(1) | hmac`, the nonce and the HMAC behind their sizes. -/
def AuthEntry.encode (e : AuthEntry) : Bytes :=
  write32 e.handle ++ (e.nonce.encode ++ (e.attrs :: e.hmac.encode))

@[simp] theorem AuthEntry.length_encode (e : AuthEntry) :
    e.encode.length = 9 + e.nonce.size + e.hmac.size := by
  simp [AuthEntry.encode]
  omega

/-- An entry is determined by its bytes: handle and sizes stand at fixed places. -/
theorem AuthEntry.encode_inj {e e' : AuthEntry} (h : e.encode = e'.encode) : e = e' := by
  unfold AuthEntry.encode at h
  obtain ⟨hhandle, h⟩ := List.append_inj h rfl
  obtain ⟨hnonce, h⟩ := TPM2B.encode_append_inj h
  obtain ⟨hattrs, h⟩ := List.cons.inj h
  rw [← List.append_nil e.hmac.encode, ← List.append_nil e'.hmac.encode] at h
  obtain ⟨hhmac, -⟩ := TPM2B.encode_append_inj h
  have hhandle := write32_inj hhandle
  cases e
  cases e'
  simp_all only

/-- A command with authorizations: handles, the first auth entry, whatever entries follow it, and
the parameters (cpBuffer). -/
structure TaggedCommand where
  attr : CommandAttrEntry
  attr_mem : attr ∈ kTable
  handles : List UInt32
  handles_length : handles.length = attr.handleCount
  entry : AuthEntry
  moreEntries : Bytes
  params : Bytes

namespace TaggedCommand

variable (c : TaggedCommand)

/-- The bytes of all entries, which authorizationSize counts. -/
def authSize : Nat := c.entry.encode.length + c.moreEntries.length

def body : Bytes :=
  handleBytes c.handles ++ (write32 (UInt32.ofNat c.authSize) ++
    (c.entry.encode ++ (c.moreEntries ++ c.params)))

/-- The command on the wire. -/
def encode : Bytes := message TPM2_ST_SESSIONS c.attr.commandCode c.body

def size : Nat := 14 + 4 * c.attr.handleCount + c.authSize + c.params.length

@[simp] theorem length_encode : c.encode.length = c.size := by
  simp [encode, body, size, authSize, c.handles_length]
  omega

theorem size_eq : c.size = 10 + c.body.length := by
  rw [← length_encode, encode, length_message]

end TaggedCommand

/-- The codes of `kTable` are distinct. -/
theorem lookupCommandAttr_of_mem {attr : CommandAttrEntry} (h : attr ∈ kTable) :
    lookupCommandAttr attr.commandCode = some attr := by
  have hall : ∀ e ∈ kTable, lookupCommandAttr e.commandCode = some e := by decide
  exact hall attr h

/-- An entry of `kTable` that was found has the code that was looked for. -/
theorem lookupCommandAttr_code {code : UInt32} {attr : CommandAttrEntry}
    (h : lookupCommandAttr code = some attr) : attr.commandCode = code := by
  simpa using List.find?_some h

/-! ## Session-tagged responses -/

/-- The parameters of a successful response: for the two commands that make an object, the
documented fields up to its Name. -/
inductive ReplyParams
  | createPrimary (outPublic creationData creationHash : TPM2B) (ticketTag : UInt16)
      (hierarchy : UInt32) (digest name : TPM2B)
  | load (name : TPM2B)
  | other (params : Bytes)
  deriving DecidableEq

namespace ReplyParams

/-- The response parameters on the wire. -/
def encode : ReplyParams → Bytes
  | .createPrimary outPublic creationData creationHash ticketTag hierarchy digest name =>
    outPublic.encode ++ (creationData.encode ++ (creationHash.encode ++
      (write16 ticketTag ++ (write32 hierarchy ++ (digest.encode ++ name.encode)))))
  | .load name => name.encode
  | .other params => params

/-- The response parameters are those of the command. -/
def Answers (code : UInt32) : ReplyParams → Prop
  | .createPrimary .. => code = TPM2_CC_CreatePrimary
  | .load _ => code = TPM2_CC_Load
  | .other _ => code ≠ TPM2_CC_CreatePrimary ∧ code ≠ TPM2_CC_Load

instance (code : UInt32) (p : ReplyParams) : Decidable (p.Answers code) := by
  cases p <;> unfold Answers <;> infer_instance

/-- The Name of the object that the response is about, if it names one. -/
def name? : ReplyParams → Option TPM2B
  | .createPrimary _ _ _ _ _ _ name => some name
  | .load name => some name
  | .other _ => none

end ReplyParams

/-- A successful response: output handles, parameters, the first entry of the response auth area,
whatever entries follow it. -/
structure TaggedReply where
  outHandles : List UInt32
  params : ReplyParams
  nonce : TPM2B
  attrs : UInt8
  hmac : TPM2B
  moreEntries : Bytes
  deriving DecidableEq

namespace TaggedReply

variable (r : TaggedReply)

def body : Bytes :=
  handleBytes r.outHandles ++ (write32 (UInt32.ofNat r.params.encode.length) ++
    (r.params.encode ++ (r.nonce.encode ++ (r.attrs :: (r.hmac.encode ++ r.moreEntries)))))

/-- The response on the wire. -/
def encode : Bytes := message TPM2_ST_SESSIONS TPM2_RC_SUCCESS r.body

/-- The object a response names. -/
def object? : Option (UInt32 × TPM2B) :=
  match r.outHandles, r.params.name? with
  | h :: _, some name => some (h, name)
  | _, _ => none

end TaggedReply

/-! ## StartAuthSession -/

/-- A StartAuthSession; with `authArea` it is session-tagged (an audit or encryption session). -/
structure StartAuthSession where
  tpmKey : UInt32
  bind : UInt32
  authArea : Option Bytes
  nonceCaller : TPM2B
  encryptedSalt : TPM2B
  sessionType : UInt8
  /-- A TPMT_SYM_DEF: at least its algorithm. -/
  symmetric : {b : Bytes // 2 ≤ b.length}
  authHash : UInt16
  deriving DecidableEq

namespace StartAuthSession

variable (s : StartAuthSession)

def tag : UInt16 := if s.authArea = none then TPM2_ST_NO_SESSIONS else TPM2_ST_SESSIONS

/-- Without an authorization area the tag is that of a plain command, and only then. -/
theorem tag_eq_noSessions_iff : s.tag = TPM2_ST_NO_SESSIONS ↔ s.authArea = none := by
  unfold tag
  split
  · next h => simp [h]
  · next h => simp [h, TPM2_ST_SESSIONS, TPM2_ST_NO_SESSIONS]

def authBytes : Bytes := match s.authArea with
  | none => []
  | some area => write32 (UInt32.ofNat area.length) ++ area

def body : Bytes :=
  write32 s.tpmKey ++ (write32 s.bind ++ (s.authBytes ++ (s.nonceCaller.encode ++
    (s.encryptedSalt.encode ++ (s.sessionType :: (s.symmetric.1 ++ write16 s.authHash))))))

def encode : Bytes := message s.tag TPM2_CC_StartAuthSession s.body

/-- An HMAC session without salt or bind, of a hash the layer can compute. -/
def Compatible : Prop :=
  s.tpmKey = TPM2_RH_NULL ∧ s.bind = TPM2_RH_NULL ∧ s.encryptedSalt.bytes = [] ∧
    s.sessionType = TPM2_SE_HMAC ∧ s.authHash = TPM2_ALG_SHA256

instance : Decidable s.Compatible := inferInstanceAs (Decidable (_ ∧ _))

/-- A compatible start that the layer arms on: it carries no authorization of its own. -/
def Armable : Prop := s.authArea = none ∧ s.Compatible

instance : Decidable s.Armable := inferInstanceAs (Decidable (_ ∧ _))

end StartAuthSession

/-- A successful response to a StartAuthSession: the handle of the new session and nonceTPM. -/
structure StartReply where
  handle : UInt32
  nonceTpm : TPM2B
  /-- The response auth area of a session-tagged start. -/
  authArea : Bytes
  deriving DecidableEq

def StartReply.body (r : StartReply) (s : StartAuthSession) : Bytes :=
  write32 r.handle ++ match s.authArea with
    | none => r.nonceTpm.encode
    | some _ => write32 (UInt32.ofNat r.nonceTpm.encode.length) ++ (r.nonceTpm.encode ++ r.authArea)

/-- A successful response carries the tag of its command. -/
def StartReply.encode (r : StartReply) (s : StartAuthSession) : Bytes :=
  message s.tag TPM2_RC_SUCCESS (r.body s)

/-! ## Exchanges -/

/-- A command and the TPM's response to it. -/
inductive Exchange
  /-- A StartAuthSession that succeeded. -/
  | started (s : StartAuthSession) (r : StartReply)
  /-- A session-tagged command of the table that succeeded. -/
  | executed (c : TaggedCommand) (r : TaggedReply)
  /-- Any other command that succeeded. -/
  | other (command response : Bytes)
  /-- Any command that failed. -/
  | failed (command response : Bytes)

namespace Exchange

def command : Exchange → Bytes
  | .started s _ => s.encode
  | .executed c _ => c.encode
  | .other command _ => command
  | .failed command _ => command

def response : Exchange → Bytes
  | .started s r => r.encode s
  | .executed _ r => r.encode
  | .other _ response => response
  | .failed _ response => response

/-- The sizes fit the header, the response has the layout of its command. -/
def WellFormed : Exchange → Prop
  | .started s r => s.encode.length < 2 ^ 32 ∧ (r.encode s).length < 2 ^ 32
  | .executed c r =>
    c.attr.commandCode ≠ TPM2_CC_StartAuthSession ∧ c.size < 2 ^ 32 ∧
      r.outHandles.length = c.attr.outHandleCount ∧ r.params.Answers c.attr.commandCode ∧
      r.encode.length < 2 ^ 32
  | .other command response =>
    GoodHeader command command.length command.length ∧
      Tpm.read32 command 6 ≠ TPM2_CC_StartAuthSession ∧ GoodResponse response response.length ∧
      (Tpm.read16 response 0 = TPM2_ST_NO_SESSIONS ∨
        lookupCommandAttr (Tpm.read32 command 6) = none)
  | .failed _ response =>
    GoodResponse response response.length ∧ Tpm.read32 response 6 ≠ TPM2_RC_SUCCESS

instance (x : Exchange) : Decidable x.WellFormed := by
  cases x <;> unfold WellFormed <;> infer_instance

end Exchange

/-- An exchange and the buffers that carry it: the layer is given the command in a buffer with
`commandSlack` behind it, and the response likewise. -/
structure Turn where
  exchange : Exchange
  wellFormed : exchange.WellFormed
  commandSlack : Bytes
  responseSlack : Bytes

variable (C : Crypto)

/-- `SessionAuthPatchCommand` on the turn's command. -/
def Turn.patch (st : SessionState) (t : Turn) : PatchResult :=
  let buf := t.exchange.command ++ t.commandSlack
  (sessionAuthPatchCommand C st (some buf) t.exchange.command.length buf.length).val

/-- `SessionAuthProcessResponse` on the turn's response. -/
def Turn.process (st : SessionState) (t : Turn) : SessionState :=
  (sessionAuthProcessResponse st (some (t.exchange.response ++ t.responseSlack))
    t.exchange.response.length).val

/-- One command, patched, and its response. -/
def turn (st : SessionState) (t : Turn) : SessionState := t.process (t.patch C st).state

end Session
