import TpmFuzzer.Tpm.Wire

/-!
# TPM structures and their standard encoding

The C structures the harness fills for tpm2-tss, with the encoding of the TPM 2.0 specification:
members in order, big-endian, a union by its selector, a sized buffer behind its size.  A union is
kept as its arms side by side; `encode` reads the arm the selector names.

`Supported` lists the selectors the encoding is stated for.  Every structure encodes to fewer than
2^16 bytes, so that an outer size field counts it exactly (`TPMT_PUBLIC.length_encode_lt` and its
like).
-/

namespace Tpm

open Bytes

/-! ## Sized buffers of a fixed capacity -/

/-- A C structure `{ UINT16 size; BYTE buffer[cap]; }`. -/
structure TPM2BBuffer (cap : Nat) where
  bytes : Bytes
  length_le : bytes.length ≤ cap
  deriving DecidableEq

namespace TPM2BBuffer

variable {cap : Nat}

def empty (cap : Nat) : TPM2BBuffer cap := ⟨[], Nat.zero_le _⟩

instance : Inhabited (TPM2BBuffer cap) := ⟨empty cap⟩

def encode (x : TPM2BBuffer cap) : Bytes := tpm2b x.bytes

theorem length_encode_le (x : TPM2BBuffer cap) : x.encode.length ≤ 2 + cap := by
  have := x.length_le
  rw [encode, length_tpm2b]
  omega

end TPM2BBuffer

abbrev TPM2B_DIGEST := TPM2BBuffer 64
abbrev TPM2B_AUTH := TPM2B_DIGEST
abbrev TPM2B_DATA := TPM2BBuffer 66
abbrev TPM2B_SENSITIVE_DATA := TPM2BBuffer 256
abbrev TPM2B_PUBLIC_KEY_RSA := TPM2BBuffer 512
abbrev TPM2B_EVENT := TPM2BBuffer 1024

/-! ## Algorithms and schemes -/

/-- `TPMT_SYM_DEF` and `TPMT_SYM_DEF_OBJECT`; the unions hold their `aes` arms. -/
structure TPMT_SYM_DEF where
  algorithm : UInt16 := 0
  keyBits : UInt16 := 0
  mode : UInt16 := 0
  deriving DecidableEq

namespace TPMT_SYM_DEF

def Supported (s : TPMT_SYM_DEF) : Prop := s.algorithm = TPM2_ALG_AES ∨ s.algorithm = TPM2_ALG_NULL

def encode (s : TPMT_SYM_DEF) : Bytes :=
  write16 s.algorithm ++
    if s.algorithm = TPM2_ALG_NULL then [] else write16 s.keyBits ++ write16 s.mode

theorem length_encode_le (s : TPMT_SYM_DEF) : s.encode.length ≤ 6 := by
  unfold encode
  split <;> simp

end TPMT_SYM_DEF

/-- A scheme of an RSA key; only RSASSA has a hash here. -/
structure TPMT_RSA_SCHEME where
  scheme : UInt16 := 0
  hashAlg : UInt16 := 0
  deriving DecidableEq

namespace TPMT_RSA_SCHEME

def Supported (s : TPMT_RSA_SCHEME) : Prop := s.scheme = TPM2_ALG_RSASSA ∨ s.scheme = TPM2_ALG_NULL

def encode (s : TPMT_RSA_SCHEME) : Bytes :=
  write16 s.scheme ++ if s.scheme = TPM2_ALG_NULL then [] else write16 s.hashAlg

theorem length_encode_le (s : TPMT_RSA_SCHEME) : s.encode.length ≤ 4 := by
  unfold encode
  split <;> simp

end TPMT_RSA_SCHEME

/-- HMAC has a hash, XOR a hash and a KDF. -/
structure TPMT_KEYEDHASH_SCHEME where
  scheme : UInt16 := 0
  hashAlg : UInt16 := 0
  kdf : UInt16 := 0
  deriving DecidableEq

namespace TPMT_KEYEDHASH_SCHEME

def Supported (s : TPMT_KEYEDHASH_SCHEME) : Prop :=
  s.scheme = TPM2_ALG_HMAC ∨ s.scheme = TPM2_ALG_XOR ∨ s.scheme = TPM2_ALG_NULL

def encode (s : TPMT_KEYEDHASH_SCHEME) : Bytes :=
  write16 s.scheme ++
    if s.scheme = TPM2_ALG_HMAC then write16 s.hashAlg
    else if s.scheme = TPM2_ALG_XOR then write16 s.hashAlg ++ write16 s.kdf
    else []

theorem length_encode_le (s : TPMT_KEYEDHASH_SCHEME) : s.encode.length ≤ 6 := by
  unfold encode
  split
  · simp
  · split <;> simp

end TPMT_KEYEDHASH_SCHEME

/-- The parameters of an RSA key. -/
structure TPMS_RSA_PARMS where
  symmetric : TPMT_SYM_DEF := {}
  scheme : TPMT_RSA_SCHEME := {}
  keyBits : UInt16 := 0
  exponent : UInt32 := 0
  deriving DecidableEq

namespace TPMS_RSA_PARMS

def encode (p : TPMS_RSA_PARMS) : Bytes :=
  p.symmetric.encode ++ p.scheme.encode ++ write16 p.keyBits ++ write32 p.exponent

theorem length_encode_le (p : TPMS_RSA_PARMS) : p.encode.length ≤ 16 := by
  have h1 := p.symmetric.length_encode_le
  have h2 := p.scheme.length_encode_le
  simp only [encode, List.length_append, length_write16, length_write32]
  omega

end TPMS_RSA_PARMS

/-! ## Public areas -/

/-- A public area, with the arms of its unions side by side. -/
structure TPMT_PUBLIC where
  type : UInt16 := 0
  nameAlg : UInt16 := 0
  objectAttributes : UInt32 := 0
  authPolicy : TPM2B_DIGEST := default
  rsaDetail : TPMS_RSA_PARMS := {}
  keyedHashDetail : TPMT_KEYEDHASH_SCHEME := {}
  uniqueRsa : TPM2B_PUBLIC_KEY_RSA := default
  uniqueKeyedHash : TPM2B_DIGEST := default
  deriving DecidableEq

namespace TPMT_PUBLIC

structure Supported (p : TPMT_PUBLIC) : Prop where
  type : p.type = TPM2_ALG_RSA ∨ p.type = TPM2_ALG_KEYEDHASH ∨ p.type = TPM2_ALG_NULL
  rsa : p.type = TPM2_ALG_RSA → p.rsaDetail.symmetric.Supported ∧ p.rsaDetail.scheme.Supported
  keyedHash : p.type = TPM2_ALG_KEYEDHASH → p.keyedHashDetail.Supported

/-- `TPMU_PUBLIC_PARMS`. -/
def encodeParameters (p : TPMT_PUBLIC) : Bytes :=
  if p.type = TPM2_ALG_RSA then p.rsaDetail.encode
  else if p.type = TPM2_ALG_KEYEDHASH then p.keyedHashDetail.encode
  else []

/-- `TPMU_PUBLIC_ID`. -/
def encodeUnique (p : TPMT_PUBLIC) : Bytes :=
  if p.type = TPM2_ALG_RSA then p.uniqueRsa.encode
  else if p.type = TPM2_ALG_KEYEDHASH then p.uniqueKeyedHash.encode
  else []

def encode (p : TPMT_PUBLIC) : Bytes :=
  write16 p.type ++ write16 p.nameAlg ++ write32 p.objectAttributes ++ p.authPolicy.encode ++
    p.encodeParameters ++ p.encodeUnique

theorem length_encodeParameters_le (p : TPMT_PUBLIC) : p.encodeParameters.length ≤ 16 := by
  have h1 := p.rsaDetail.length_encode_le
  have h2 := p.keyedHashDetail.length_encode_le
  unfold encodeParameters
  split
  · exact h1
  · split
    · omega
    · simp

theorem length_encodeUnique_le (p : TPMT_PUBLIC) : p.encodeUnique.length ≤ 514 := by
  have h1 := p.uniqueRsa.length_encode_le
  have h2 := p.uniqueKeyedHash.length_encode_le
  unfold encodeUnique
  split
  · exact h1
  · split
    · omega
    · simp

theorem length_encode_le (p : TPMT_PUBLIC) : p.encode.length ≤ 604 := by
  have h1 := p.authPolicy.length_encode_le
  have h2 := p.length_encodeParameters_le
  have h3 := p.length_encodeUnique_le
  simp only [encode, List.length_append, length_write16, length_write32]
  omega

theorem length_encode_lt (p : TPMT_PUBLIC) : p.encode.length < 2 ^ 16 := by
  have h := p.length_encode_le
  omega

end TPMT_PUBLIC

/-- The outer `size` is filled in by the encoder when it is 0. -/
structure TPM2B_PUBLIC where
  size : UInt16 := 0
  publicArea : TPMT_PUBLIC := {}

/-! ## Sensitive areas -/

/-- What a new object is given in secret. -/
structure TPMS_SENSITIVE_CREATE where
  userAuth : TPM2B_AUTH := default
  data : TPM2B_SENSITIVE_DATA := default
  deriving DecidableEq

namespace TPMS_SENSITIVE_CREATE

def encode (s : TPMS_SENSITIVE_CREATE) : Bytes := s.userAuth.encode ++ s.data.encode

theorem length_encode_lt (s : TPMS_SENSITIVE_CREATE) : s.encode.length < 2 ^ 16 := by
  have h1 := s.userAuth.length_encode_le
  have h2 := s.data.length_encode_le
  simp only [encode, List.length_append]
  omega

end TPMS_SENSITIVE_CREATE

/-- The outer `size` is filled in by the encoder when it is 0. -/
structure TPM2B_SENSITIVE_CREATE where
  size : UInt16 := 0
  sensitive : TPMS_SENSITIVE_CREATE := {}

/-! ## PCR selections -/

def TPM2_NUM_PCR_BANKS : Nat := 16
def TPM2_PCR_SELECT_MAX : Nat := 4

/-- A bank, and a bit map of its PCRs in a fixed array. -/
structure TPMS_PCR_SELECTION where
  hash : UInt16 := 0
  sizeofSelect : UInt8 := 0
  pcrSelect : Fixed TPM2_PCR_SELECT_MAX := default

def TPMS_PCR_SELECTION.encode (s : TPMS_PCR_SELECTION) : Bytes :=
  write16 s.hash ++ s.sizeofSelect :: s.pcrSelect.first s.sizeofSelect.toNat

/-- `pcrSelections` are the first `count` elements of the C array. -/
structure TPML_PCR_SELECTION where
  count : UInt32 := 0
  pcrSelections : List TPMS_PCR_SELECTION := []

namespace TPML_PCR_SELECTION

structure Supported (l : TPML_PCR_SELECTION) : Prop where
  count : l.count.toNat = l.pcrSelections.length
  length_le : l.pcrSelections.length ≤ TPM2_NUM_PCR_BANKS
  sizeofSelect : ∀ s ∈ l.pcrSelections, s.sizeofSelect.toNat ≤ TPM2_PCR_SELECT_MAX

def encode (l : TPML_PCR_SELECTION) : Bytes :=
  write32 l.count ++ l.pcrSelections.flatMap TPMS_PCR_SELECTION.encode

/-- 4 bytes of count and at most 7 for each of 16 selections. -/
theorem Supported.length_encode_le {l : TPML_PCR_SELECTION} (h : l.Supported) :
    l.encode.length ≤ 116 := by
  have hsel : ∀ s ∈ l.pcrSelections, s.encode.length ≤ 7 := by
    intro s hs
    have hsize : s.sizeofSelect.toNat ≤ 4 := h.sizeofSelect s hs
    have hfirst : (s.pcrSelect.first s.sizeofSelect.toNat).length = s.sizeofSelect.toNat :=
      Fixed.length_first hsize
    rw [TPMS_PCR_SELECTION.encode, List.length_append, length_write16, List.length_cons, hfirst]
    omega
  have hbody : ∀ ss : List TPMS_PCR_SELECTION, (∀ s ∈ ss, s.encode.length ≤ 7) →
      (ss.flatMap TPMS_PCR_SELECTION.encode).length ≤ 7 * ss.length := by
    intro ss
    induction ss with
    | nil => exact fun _ => Nat.le_refl _
    | cons s ss ih =>
      intro hss
      have hs := hss s List.mem_cons_self
      have hrest := ih fun t ht => hss t (List.mem_cons_of_mem _ ht)
      rw [List.flatMap_cons, List.length_append, List.length_cons]
      omega
  have hcount : l.pcrSelections.length ≤ 16 := h.length_le
  have hle := hbody l.pcrSelections hsel
  rw [encode, List.length_append, length_write32]
  omega

end TPML_PCR_SELECTION

/-! ## NV public areas -/

/-- The public area of an NV index. -/
structure TPMS_NV_PUBLIC where
  nvIndex : UInt32 := 0
  nameAlg : UInt16 := 0
  attributes : UInt32 := 0
  authPolicy : TPM2B_DIGEST := default
  dataSize : UInt16 := 0
  deriving DecidableEq

namespace TPMS_NV_PUBLIC

def encode (p : TPMS_NV_PUBLIC) : Bytes :=
  write32 p.nvIndex ++ write16 p.nameAlg ++ write32 p.attributes ++ p.authPolicy.encode ++
    write16 p.dataSize

theorem length_encode_lt (p : TPMS_NV_PUBLIC) : p.encode.length < 2 ^ 16 := by
  have h1 := p.authPolicy.length_encode_le
  simp only [encode, List.length_append, length_write16, length_write32]
  omega

end TPMS_NV_PUBLIC

/-- With the size that tpm2-tss is given. -/
structure TPM2B_NV_PUBLIC where
  size : UInt16 := 0
  nvPublic : TPMS_NV_PUBLIC := {}

end Tpm
