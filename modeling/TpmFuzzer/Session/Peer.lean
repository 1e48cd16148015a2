import TpmFuzzer.Session.Nonces
import TpmFuzzer.Session.Refinement

/-!
# The TPM at the other end

A `Peer` is what the TPM keeps of the sessions and objects the layer is about: the nonceTPM of every
loaded HMAC session without key, bind and salt, whose session key is empty; the Names of entities;
and their authValues.

`Serves p x p'` is what the TPM specification says of an exchange: a successful command gives each
session in its auth area a new nonceTPM, which the response carries in the order of the sessions, a
failed one changes nothing, and the commands that make an object return its Name.  `Peer.Accepts` is
the check of a command's HMAC.
-/

namespace Session

open Bytes Tpm Reading

/-- The handles whose Name is the handle: PCRs, sessions and permanent entities. -/
def IsRaw (h : UInt32) : Prop :=
  (h >>> 24).toUInt8 = 0x40 ∨ (h >>> 24).toUInt8 = 0x00 ∨ (h >>> 24).toUInt8 = 0x02 ∨
    (h >>> 24).toUInt8 = 0x03

instance (h : UInt32) : Decidable (IsRaw h) := inferInstanceAs (Decidable (_ ∨ _))

structure Peer where
  nonceTpm : UInt32 → Option Bytes
  nonceTpm_fits : ∀ h n, nonceTpm h = some n → 0 < n.length ∧ n.length ≤ SESSION_AUTH_MAX_DIGEST
  nameOf : UInt32 → Option Bytes
  nameOf_raw : ∀ h, IsRaw h → nameOf h = some (write32 h)
  nameOf_le : ∀ h n, nameOf h = some n → n.length ≤ kMaxNameSize
  authValue : UInt32 → Bytes

/-! ## The HMAC of a command -/

/-- The authValue of the entity the first session authorises. -/
def Peer.authKey (p : Peer) (c : TaggedCommand) : Bytes :=
  if c.attr.authHandleCount = 0 then [] else (c.handles.head?.map p.authValue).getD []

variable (C : Crypto)

/-- HMAC(authValue, SHA256(cc | Names | parameters) | nonceCaller | nonceTPM | attributes). -/
def Peer.expectedMac (p : Peer) (c : TaggedCommand) (nonceTpm : Bytes) (names : List Bytes) :
    Bytes :=
  C.hmacSha256 (p.authKey c) (C.sha256
    (write32 c.attr.commandCode ++ (names.flatten ++ c.params)) ++
    (c.entry.nonce.bytes ++ (nonceTpm ++ [c.entry.attrs])))

/-- If the session and the entities of the command are there, its HMAC is the one the TPM
computes. -/
def Peer.Accepts (p : Peer) (c : TaggedCommand) : Prop :=
  ∀ nonceTpm names, p.nonceTpm c.entry.handle = some nonceTpm →
    c.handles.mapM p.nameOf = some names →
    c.entry.hmac.bytes = p.expectedMac C c nonceTpm names

/-! ## Exchanges -/

/-- Away from `handles`, what is there afterwards was there before. -/
def Kept (before after : UInt32 → Option Bytes) (handles : List UInt32) : Prop :=
  ∀ h, h ∉ handles → ∀ v, after h = some v → before h = some v

theorem Kept.refl (f : UInt32 → Option Bytes) (handles : List UInt32) : Kept f f handles :=
  fun _ _ _ h => h

def TaggedCommand.sessions (c : TaggedCommand) : List UInt32 :=
  c.entry.handle :: areaSessions c.moreEntries

def StartAuthSession.sessions (s : StartAuthSession) : List UInt32 :=
  (s.authArea.map areaSessions).getD []

/-- The TPM answers the exchange, and `p'` is what it holds afterwards. -/
def Serves (p : Peer) (x : Exchange) (p' : Peer) : Prop :=
  match x with
  | .started s r =>
    p'.nonceTpm r.handle = (if s.Compatible then some r.nonceTpm.bytes else none) ∧
      Kept p.nonceTpm p'.nonceTpm (r.handle :: s.sessions) ∧ Kept p.nameOf p'.nameOf []
  | .executed c r =>
    (∀ n, p'.nonceTpm c.entry.handle = some n → n = r.nonce.bytes) ∧
      Kept p.nonceTpm p'.nonceTpm (c.sessions ++ r.outHandles) ∧
      Kept p.nameOf p'.nameOf r.outHandles ∧
      ∀ h name, r.object? = some (h, name) → ∀ n, p'.nameOf h = some n → n = name.bytes
  | .other _ _ => True
  | .failed _ _ => p' = p

end Session
