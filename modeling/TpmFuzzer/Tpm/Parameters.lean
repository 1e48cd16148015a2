import TpmFuzzer.Tpm.Grammar

/-!
# Further parameters of commands

Structures that only the byte seeds of the generator contain.  Most are unions of which the arm is a
number of 16-bit words: `Selected arms` is a selector with as many words as `arms` gives it, and a
digest of `TPMT_HA` is as long as its algorithm says.  What cannot be on the wire is not a value of
these types.
-/

namespace Tpm

open Bytes Reading

/-! ## Unions of words -/

/-- A selector and the words of its arm. -/
structure Selected (arms : UInt16 → Option Nat) where
  selector : UInt16
  words : List UInt16
  arm : arms selector = some words.length

namespace Selected

variable {arms : UInt16 → Option Nat}

def read (arms : UInt16 → Option Nat) : Reader UInt8 (Selected arms) := do
  let selector ← readWord16
  match arms selector with
  | none => failure
  | some n =>
    let words ← times readWord16 n
    if h : arms selector = some words.length then return ⟨selector, words, h⟩ else failure

/-- A selector, and as many words as its arm has. -/
theorem reads {x y : Bytes} {selector : UInt16} {words : List UInt16}
    (hselector : Reads readWord16 x selector)
    (hwords : Reads (times readWord16 words.length) y words)
    (harm : arms selector = some words.length) :
    Reads (read arms) (x ++ y) ⟨selector, words, harm⟩ := by
  refine hselector.bind ?_
  split
  · next hnone => exact absurd (hnone.symm.trans harm) (by simp)
  · next n hn =>
    obtain rfl : n = words.length := Option.some.inj (hn.symm.trans harm)
    refine hwords.bind_nil ?_
    rw [dif_pos harm]
    exact Reads.pure _

end Selected

def TPM2_ALG_TDES : UInt16 := 0x0003
def TPM2_ALG_SM4 : UInt16 := 0x0013
def TPM2_ALG_RSAPSS : UInt16 := 0x0016
def TPM2_ALG_ECDSA : UInt16 := 0x0018
def TPM2_ALG_ECDAA : UInt16 := 0x001A
def TPM2_ALG_SM2 : UInt16 := 0x001B
def TPM2_ALG_ECSCHNORR : UInt16 := 0x001C
def TPM2_ALG_ECC : UInt16 := 0x0023
def TPM2_ALG_SYMCIPHER : UInt16 := 0x0025
def TPM2_ALG_CAMELLIA : UInt16 := 0x0026

/-- TPMT_SYM_DEF_OBJECT: a block cipher has a key size and a mode. -/
def symObjectArms (alg : UInt16) : Option Nat :=
  if alg = TPM2_ALG_NULL then some 0
  else if alg ∈ [TPM2_ALG_TDES, TPM2_ALG_AES, TPM2_ALG_SM4, TPM2_ALG_CAMELLIA] then some 2
  else none

/-- TPMT_RSA_SCHEME: all but NULL and RSAES have a hash. -/
def rsaSchemeArms (alg : UInt16) : Option Nat :=
  if alg ∈ [TPM2_ALG_NULL, TPM2_ALG_RSAES] then some 0
  else if alg ∈ [TPM2_ALG_RSASSA, TPM2_ALG_RSAPSS, TPM2_ALG_OAEP] then some 1
  else none

/-- TPMT_SIG_SCHEME: all but NULL have a hash, ECDAA has a counter too. -/
def sigSchemeArms (alg : UInt16) : Option Nat :=
  if alg = TPM2_ALG_NULL then some 0
  else if alg ∈ [TPM2_ALG_HMAC, TPM2_ALG_RSASSA, TPM2_ALG_RSAPSS, TPM2_ALG_ECDSA, TPM2_ALG_SM2,
    TPM2_ALG_ECSCHNORR] then some 1
  else if alg = TPM2_ALG_ECDAA then some 2
  else none

/-! ## Digests -/

def TPM2_ALG_SHA1 : UInt16 := 0x0004
def TPM2_ALG_SHA384 : UInt16 := 0x000C
def TPM2_ALG_SHA512 : UInt16 := 0x000D
def TPM2_ALG_SM3_256 : UInt16 := 0x0012

/-- How long a digest is; other algorithms have none. -/
def digestLength (alg : UInt16) : Option Nat :=
  if alg = TPM2_ALG_SHA1 then some 20
  else if alg ∈ [TPM2_ALG_SHA256, TPM2_ALG_SM3_256] then some 32
  else if alg = TPM2_ALG_SHA384 then some 48
  else if alg = TPM2_ALG_SHA512 then some 64
  else none

/-- A digest behind its algorithm, as long as that says. -/
structure TPMT_HA where
  hashAlg : UInt16
  digest : Bytes
  length_eq : digestLength hashAlg = some digest.length

namespace TPMT_HA

def read : Reader UInt8 TPMT_HA := do
  let hashAlg ← readWord16
  match digestLength hashAlg with
  | none => failure
  | some n =>
    let digest ← takeN n
    if h : digestLength hashAlg = some digest.length then return ⟨hashAlg, digest, h⟩ else failure

/-- A digest of the length of its algorithm. -/
theorem reads {x digest : Bytes} {hashAlg : UInt16} (halg : Reads readWord16 x hashAlg)
    (hlen : digestLength hashAlg = some digest.length) :
    Reads read (x ++ digest) ⟨hashAlg, digest, hlen⟩ := by
  refine halg.bind ?_
  split
  · next hnone => exact absurd (hnone.symm.trans hlen) (by simp)
  · next n hn =>
    obtain rfl : n = digest.length := Option.some.inj (hn.symm.trans hlen)
    refine (Reads.takeN digest).bind_nil ?_
    rw [dif_pos hlen]
    exact Reads.pure _

end TPMT_HA

/-- A 32-bit count and as many elements. -/
def readCounted {α : Type} (p : Reader UInt8 α) : Reader UInt8 (List α) := do
  let count ← readWord32
  times p count.toNat

/-- A list behind its number of elements. -/
theorem reads_counted {α : Type} {p : Reader UInt8 α} {x y : Bytes} {count : UInt32} {l : List α}
    (hread : Reads readWord32 x count) (hcount : count.toNat = l.length)
    (hl : Reads (times p l.length) y l) : Reads (readCounted p) (x ++ y) l := by
  refine hread.bind ?_
  rwa [hcount]

/-! ## Further structures -/

def readWord64 : Reader UInt8 UInt64 := do
  let x ← takeN 8
  return UInt64.ofNat (ofBe x)

theorem reads_word64 {k : Nat} (h : k < 2 ^ 64) : Reads readWord64 (be 8 k) (UInt64.ofNat k) := by
  have htake := Reads.takeN (be 8 k)
  rw [length_be] at htake
  refine htake.bind_nil ?_
  rw [ofBe_be_of_lt h]
  exact Reads.pure _

/-- The private part of a key. -/
structure TPMT_SENSITIVE where
  sensitiveType : UInt16
  authValue : TPM2B_AUTH
  seedValue : TPM2B_DIGEST
  sensitive : TPM2B
  type_mem : sensitiveType ∈ [TPM2_ALG_RSA, TPM2_ALG_ECC, TPM2_ALG_KEYEDHASH, TPM2_ALG_SYMCIPHER]

def TPMT_SENSITIVE.read : Reader UInt8 TPMT_SENSITIVE := do
  let sensitiveType ← readWord16
  let authValue ← TPM2BBuffer.read 64
  let seedValue ← TPM2BBuffer.read 64
  let sensitive ← readTPM2B
  if h : sensitiveType ∈ [TPM2_ALG_RSA, TPM2_ALG_ECC, TPM2_ALG_KEYEDHASH, TPM2_ALG_SYMCIPHER] then
    return ⟨sensitiveType, authValue, seedValue, sensitive, h⟩
  else failure

/-- A TPM2B_SENSITIVE that may be missing: its size is then 0. -/
def readSensitive : Reader UInt8 (Option TPMT_SENSITIVE) := do
  let size ← readWord16
  if size = 0 then return none
  else do
    let s ← within size.toNat TPMT_SENSITIVE.read
    return some s

def TPM2_ST_HASHCHECK : UInt16 := 0x8024

/-- A ticket without its tag, which is always the same. -/
structure TPMT_TK_HASHCHECK where
  hierarchy : UInt32
  digest : TPM2B

def TPMT_TK_HASHCHECK.read : Reader UInt8 TPMT_TK_HASHCHECK := do
  let tag ← readWord16
  let hierarchy ← readWord32
  let digest ← readTPM2B
  if tag = TPM2_ST_HASHCHECK then return ⟨hierarchy, digest⟩ else failure

/-- The parameters of an RSA key with any symmetric algorithm and scheme. -/
structure RsaDetail where
  symmetric : Selected symObjectArms
  scheme : Selected rsaSchemeArms
  keyBits : UInt16
  exponent : UInt32

/-- A TPMT_PUBLIC_PARMS of type RSA. -/
def readPublicParms : Reader UInt8 RsaDetail := do
  let type ← readWord16
  if type = TPM2_ALG_RSA then
    let symmetric ← Selected.read symObjectArms
    let scheme ← Selected.read rsaSchemeArms
    let keyBits ← readWord16
    let exponent ← readWord32
    return ⟨symmetric, scheme, keyBits, exponent⟩
  else failure

end Tpm
