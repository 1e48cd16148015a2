import TpmFuzzer.Lib.Traced
import TpmFuzzer.Tpm.Wire

/-!
# The session layer's state

`SessionState` is the one global `g_session` of the layer, `NameTable` its handle→Name map,
`lookupCommandAttr` the attribute table.  Code that touches memory is a `Mem` computation: its value
is what the code returns, its log the accesses it makes, each in a named `Region`.
-/

namespace Session

open Bytes Tpm Traced

def SESSION_AUTH_MAX_DIGEST : Nat := 64
def kNonceCallerFill : UInt8 := 0xAA
def kNonceCallerSize : Nat := 16
def kMaxNames : Nat := 16
def kMaxNameSize : Nat := 68

/-- `nonce_caller`: `kNonceCallerSize` bytes of `kNonceCallerFill`. -/
def nonceCaller : Bytes := List.replicate kNonceCallerSize kNonceCallerFill

/-! ## Memory accesses -/

/-- The memory the layer reads and writes: the caller's buffers, the arrays of the state (`entries`
counts entries, not bytes) and the fixed local buffers. -/
inductive Region
  | command | response | initNonce | initKey
  | nonceTpm | sessionKey | entries | entryName
  | nameOut | hmacMsg | hmacKey
  deriving DecidableEq, Repr

/-- One access, or one computed size: `size` is a `size_t` (or the `int64_t` on the way to one),
`size32` a `uint32_t` size, each with its value before any wrap-around. -/
inductive Access
  | read (r : Region) (off len : Nat)
  | write (r : Region) (off len : Nat)
  | size (v : Int)
  | size32 (v : Int)
  deriving DecidableEq, Repr

/-- A computation over the bytes of memory with the accesses it makes. -/
abbrev Mem := Traced Access

def Mem.read (r : Region) (off len : Nat) : Mem Unit := event (.read r off len)
def Mem.write (r : Region) (off len : Nat) : Mem Unit := event (.write r off len)

/-- A sum of sizes. -/
def Mem.sum (n : Nat) : Mem Nat := do
  event (.size n)
  return n

/-- A size that is computed with a subtraction. -/
def Mem.diff (v : Int) : Mem Nat := do
  event (.size v)
  return v.toNat

def Mem.diff32 (v : Int) : Mem UInt32 := do
  event (.size32 v)
  return UInt32.ofNat v.toNat

def Mem.read8 (r : Region) (b : Bytes) (off : Nat) : Mem UInt8 := do
  Mem.read r off 1
  return byteAt b off

def Mem.read16 (r : Region) (b : Bytes) (off : Nat) : Mem UInt16 := do
  Mem.read r off 2
  return Tpm.read16 b off

def Mem.read32 (r : Region) (b : Bytes) (off : Nat) : Mem UInt32 := do
  Mem.read r off 4
  return Tpm.read32 b off

/-- `len` bytes of `b` at `off`, as `memcpy`, `memmove` or a digest update reads them. -/
def Mem.bytes (r : Region) (b : Bytes) (off len : Nat) : Mem Bytes := do
  Mem.read r off len
  return slice b off len

/-- `memcpy(b + off, src, src.length)`. -/
def Mem.store (r : Region) (b : Bytes) (off : Nat) (src : Bytes) : Mem Bytes := do
  Mem.write r off src.length
  return poke b off src

section
variable (r : Region) (b src : Bytes) (off len n : Nat) (v : Int)

@[simp] theorem Mem.val_read : (Mem.read r off len).val = () := (rfl)
@[simp] theorem Mem.val_write : (Mem.write r off len).val = () := (rfl)
@[simp] theorem Mem.val_sum : (Mem.sum n).val = n := (rfl)
@[simp] theorem Mem.val_diff : (Mem.diff v).val = v.toNat := (rfl)
@[simp] theorem Mem.val_diff32 : (Mem.diff32 v).val = UInt32.ofNat v.toNat := (rfl)
@[simp] theorem Mem.val_read8 : (Mem.read8 r b off).val = byteAt b off := (rfl)
@[simp] theorem Mem.val_read16 : (Mem.read16 r b off).val = Tpm.read16 b off := (rfl)
@[simp] theorem Mem.val_read32 : (Mem.read32 r b off).val = Tpm.read32 b off := (rfl)
@[simp] theorem Mem.val_bytes : (Mem.bytes r b off len).val = slice b off len := (rfl)
@[simp] theorem Mem.val_store : (Mem.store r b off src).val = poke b off src := (rfl)

end

/-! ## The Name table -/

/-- A handle, and the first `nameSize` bytes of an array. -/
structure NameEntry where
  handle : UInt32
  name : Fixed kMaxNameSize
  nameSize : Nat
  deriving DecidableEq

/-- The `count` entries in use, in the order they were added. -/
structure NameTable where
  entries : List NameEntry
  deriving DecidableEq

namespace NameTable

def count (t : NameTable) : Nat := t.entries.length

/-- The update loop of `Add`: the entries with the first one for `handle` overwritten, or `none`
when there is none.  `i` is the index of the first entry of the list. -/
def addLoop (r : Region) (src : Bytes) (off nameSize : Nat) (handle : UInt32) :
    Nat → List NameEntry → Mem (Option (List NameEntry))
  | _, [] => return none
  | i, e :: es => do
    Mem.read .entries i 1
    if e.handle = handle then
      let name ← Mem.bytes r src off nameSize
      Mem.write .entryName 0 nameSize
      return some ({ e with name := e.name.blit name, nameSize := nameSize } :: es)
    else
      let es' ← addLoop r src off nameSize handle (i + 1) es
      return es'.map (e :: ·)

/-- `Add(handle, src + off, nameSize)`. -/
def add (t : NameTable) (handle : UInt32) (r : Region) (src : Bytes) (off nameSize : Nat) :
    Mem NameTable := do
  let nameSize := if nameSize > kMaxNameSize then kMaxNameSize else nameSize
  match ← addLoop r src off nameSize handle 0 t.entries with
  | some entries => return ⟨entries⟩
  | none =>
    if t.count < kMaxNames then
      Mem.write .entries t.count 1
      let name ← Mem.bytes r src off nameSize
      Mem.write .entryName 0 nameSize
      return ⟨t.entries ++ [⟨handle, (Fixed.zeros kMaxNameSize).blit name, nameSize⟩]⟩
    else
      return t

/-- `Lookup`, from entry `i` on; the result is what is copied to `name_out`. -/
def lookupLoop (handle : UInt32) (nameCap : Nat) : Nat → List NameEntry → Mem Bytes
  | _, [] => return []
  | i, e :: es => do
    Mem.read .entries i 1
    if e.handle = handle then
      let ns := e.nameSize
      if ns > nameCap then return []
      Mem.read .entryName 0 ns
      Mem.write .nameOut 0 ns
      return e.name.first ns
    else
      lookupLoop handle nameCap (i + 1) es

/-- The Name of `handle`; nothing when it is not in the table or does not fit `nameCap`. -/
def lookup (t : NameTable) (handle : UInt32) (nameCap : Nat) : Mem Bytes :=
  lookupLoop handle nameCap 0 t.entries

end NameTable

/-! ## The session state -/

/-- `g_session`. -/
structure SessionState where
  initialized : Bool
  handle : UInt32
  hashAlg : UInt16
  digestSize : Nat
  nonceTpm : Fixed SESSION_AUTH_MAX_DIGEST
  nonceTpmSize : Nat
  sessionKey : Fixed SESSION_AUTH_MAX_DIGEST
  sessionKeySize : Nat
  lastCommandCode : UInt32
  names : NameTable
  /-- A StartAuthSession went out; its response is consumed by `ProcessResponse`. -/
  pendingStartAuthSession : Bool
  /-- null salt + no bind + supported hash -/
  startAuthSessionCompatible : Bool
  startAuthSessionAuthHash : UInt16
  deriving DecidableEq

namespace SessionState

/-- All bytes zero. -/
def zero : SessionState where
  initialized := false
  handle := 0
  hashAlg := 0
  digestSize := 0
  nonceTpm := Fixed.zeros _
  nonceTpmSize := 0
  sessionKey := Fixed.zeros _
  sessionKeySize := 0
  lastCommandCode := 0
  names := ⟨[]⟩
  pendingStartAuthSession := false
  startAuthSessionCompatible := false
  startAuthSessionAuthHash := 0

/-- The bytes of `nonce_tpm` in use. -/
def nonce (st : SessionState) : Bytes := st.nonceTpm.first st.nonceTpmSize

/-- The bytes of `session_key` in use. -/
def key (st : SessionState) : Bytes := st.sessionKey.first st.sessionKeySize

end SessionState

/-- Digest size of a supported algorithm, 0 for the others. -/
def digestSizeFor (alg : UInt16) : Nat := if alg = TPM2_ALG_SHA256 then 32 else 0

/-! ## Command attributes -/

/-- A row of `kTable`: how many handles a command has, how many of them need an authorization, and
how many its response has. -/
structure CommandAttrEntry where
  commandCode : UInt32
  handleCount : Nat
  authHandleCount : Nat
  outHandleCount : Nat
  deriving DecidableEq, Repr

/-- The commands whose auth areas the layer can find. -/
def kTable : List CommandAttrEntry := [
  ⟨TPM2_CC_Clear, 1, 1, 0⟩,
  ⟨TPM2_CC_CreatePrimary, 1, 1, 1⟩,
  ⟨TPM2_CC_ActivateCredential, 2, 2, 0⟩,
  ⟨TPM2_CC_Create, 1, 1, 0⟩,
  ⟨TPM2_CC_Load, 1, 1, 1⟩,
  ⟨TPM2_CC_Quote, 1, 1, 0⟩,
  ⟨TPM2_CC_RSA_Decrypt, 1, 1, 0⟩,
  ⟨TPM2_CC_Sign, 1, 1, 0⟩,
  ⟨TPM2_CC_Unseal, 1, 1, 0⟩,
  ⟨TPM2_CC_ContextLoad, 0, 0, 1⟩,
  ⟨TPM2_CC_ContextSave, 1, 0, 0⟩,
  ⟨TPM2_CC_FlushContext, 0, 0, 0⟩,
  ⟨TPM2_CC_MakeCredential, 1, 0, 0⟩,
  ⟨TPM2_CC_StartAuthSession, 2, 0, 1⟩,
  ⟨TPM2_CC_VerifySignature, 1, 0, 0⟩,
  ⟨TPM2_CC_GetCapability, 0, 0, 0⟩,
  ⟨TPM2_CC_GetRandom, 0, 0, 0⟩,
  ⟨TPM2_CC_PCR_Extend, 1, 1, 0⟩,
  ⟨TPM2_CC_NV_DefineSpace, 1, 1, 0⟩]

/-- The row of a command code. -/
def lookupCommandAttr (commandCode : UInt32) : Option CommandAttrEntry :=
  kTable.find? fun e => e.commandCode = commandCode

/-- No command of the table has more than two handles. -/
theorem lookupCommandAttr_bounds {cc : UInt32} {attr : CommandAttrEntry}
    (h : lookupCommandAttr cc = some attr) : attr.handleCount ≤ 2 ∧ attr.outHandleCount ≤ 1 := by
  have hall : ∀ e ∈ kTable, e.handleCount ≤ 2 ∧ e.outHandleCount ≤ 1 := by decide
  exact hall attr (List.mem_of_find?_eq_some h)

/-! ## Hash functions -/

/-- SHA-256 and HMAC-SHA-256, of which only the digest length matters here. -/
structure Crypto where
  sha256 : Bytes → Bytes
  hmacSha256 : Bytes → Bytes → Bytes
  length_sha256 : ∀ msg, (sha256 msg).length = 32
  length_hmacSha256 : ∀ key msg, (hmacSha256 key msg).length = 32

/-- The digests of one input, as functions. -/
def Crypto.ofDigests (digest mac : Nat) : Crypto where
  sha256 _ := be 32 digest
  hmacSha256 _ _ := be 32 mac
  length_sha256 _ := length_be 32 _
  length_hmacSha256 _ _ := length_be 32 _

end Session
