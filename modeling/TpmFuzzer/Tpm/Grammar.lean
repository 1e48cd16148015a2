import TpmFuzzer.Lib.Reader
import TpmFuzzer.Tpm.Structures

/-!
# Reading TPM structures

The layout of the structures of the TPM 2.0 specification, as readers: a union by the selector in
front of it, a sized buffer by its size.  A selector that a union does not have and a buffer over
the capacity of its type have no layout.

Of a union only the selected arm is on the wire; `selected` is a structure without the others, and
what is read back of a structure with supported selectors (`TPMT_PUBLIC.reads`).
-/

namespace Tpm

open Bytes Reading

/-! ## Words and buffers -/

/-- A word of two bytes, the higher one first. -/
def readWord16 : Reader UInt8 UInt16 := do
  let x ← takeN 2
  return read16 x 0

/-- A word of four bytes, the highest one first. -/
def readWord32 : Reader UInt8 UInt32 := do
  let x ← takeN 4
  return read32 x 0

def readByte : Reader UInt8 UInt8 := do
  let x ← takeN 1
  return byteAt x 0

/-- What `write16` wrote is read back, whatever follows it. -/
theorem reads_word16 (v : UInt16) : Reads readWord16 (write16 v) v := by
  refine (Reads.takeN (write16 v)).bind_nil ?_
  have h : read16 ([] ++ (write16 v ++ [])) 0 = v := read16_write16 rfl
  rw [List.nil_append, List.append_nil] at h
  rw [h]
  exact Reads.pure v

theorem reads_word32 (v : UInt32) : Reads readWord32 (write32 v) v := by
  refine (Reads.takeN (write32 v)).bind_nil ?_
  have h : read32 ([] ++ (write32 v ++ [])) 0 = v := read32_write32 rfl
  rw [List.nil_append, List.append_nil] at h
  rw [h]
  exact Reads.pure v

theorem reads_byte (v : UInt8) : Reads readByte [v] v := (Reads.takeN [v]).bind_nil (Reads.pure v)

/-- `size(2) | bytes`. -/
def readSized : Reader UInt8 Bytes := do
  let size ← readWord16
  takeN size.toNat

/-- A buffer that its 16-bit size can count is read back from behind the size. -/
theorem reads_sized {b : Bytes} (h : b.length < 2 ^ 16) : Reads readSized (tpm2b b) b := by
  have hsize : (UInt16.ofNat b.length).toNat = b.length := UInt16.toNat_ofNat_of_lt' h
  refine (reads_word16 _).bind ?_
  rw [hsize]
  exact Reads.takeN b

/-- A sized buffer, with the bound on its length that the size field gives. -/
def readTPM2B : Reader UInt8 TPM2B := do
  let b ← readSized
  if h : b.length < 2 ^ 16 then return ⟨b, h⟩ else failure

/-- A `TPM2B` is read back, as its length always fits the size field. -/
theorem reads_tpm2b (x : TPM2B) : Reads readTPM2B x.encode x := by
  refine (reads_sized x.length_lt).bind_nil ?_
  rw [dif_pos x.length_lt]
  exact Reads.pure x

/-- A sized buffer of at most `cap` bytes; a longer one is not read. -/
def TPM2BBuffer.read (cap : Nat) : Reader UInt8 (TPM2BBuffer cap) := do
  let b ← readSized
  if h : b.length ≤ cap then return ⟨b, h⟩ else failure

/-- A buffer is read back under its own capacity. -/
theorem TPM2BBuffer.reads {cap : Nat} (hcap : cap < 2 ^ 16) (x : TPM2BBuffer cap) :
    Reads (TPM2BBuffer.read cap) x.encode x := by
  have hlt : x.bytes.length < 2 ^ 16 := Nat.lt_of_le_of_lt x.length_le hcap
  refine (reads_sized hlt).bind_nil ?_
  rw [dif_pos x.length_le]
  exact Reads.pure x

/-! ## Words and buffers in a window -/

section

variable {b : Bytes} {i e : Nat}

theorem window_eq_slice {n : Nat} : window b i (i + n) = slice b i n := by
  simp only [window, slice, List.take_drop]

/-- In a window the reader is the bounds check of the code: two more bytes before the end, or
nothing is read. -/
theorem run_word16_window (hi : i ≤ e) (he : e ≤ b.length) :
    readWord16.run (window b i e) = if i + 2 ≤ e then some (read16 b i, window b (i + 2) e)
    else none := by
  show ((takeN 2).run (window b i e)).bind (fun r => some (read16 r.1 0, r.2)) = _
  rw [run_takeN_window 2 hi he]
  split
  · next h =>
    have hword : read16 (window b i (i + 2)) 0 = read16 b i := by
      have hlen := length_window (b := b) (i := i) (e := i + 2) (by omega)
      apply UInt16.toNat_inj.mp
      rw [toNat_read16 (by omega), toNat_read16 (by omega), window_eq_slice, slice, slice,
        List.drop_zero, List.take_take, Nat.min_self]
    rw [Option.bind_some, hword]
  · rfl

theorem run_word32_window (hi : i ≤ e) (he : e ≤ b.length) :
    readWord32.run (window b i e) = if i + 4 ≤ e then some (read32 b i, window b (i + 4) e)
    else none := by
  show ((takeN 4).run (window b i e)).bind (fun r => some (read32 r.1 0, r.2)) = _
  rw [run_takeN_window 4 hi he]
  split
  · next h =>
    have hword : read32 (window b i (i + 4)) 0 = read32 b i := by
      have hlen := length_window (b := b) (i := i) (e := i + 4) (by omega)
      apply UInt32.toNat_inj.mp
      rw [toNat_read32 (by omega), toNat_read32 (by omega), window_eq_slice, slice, slice,
        List.drop_zero, List.take_take, Nat.min_self]
    rw [Option.bind_some, hword]
  · rfl

theorem run_byte_window (hi : i ≤ e) (he : e ≤ b.length) :
    readByte.run (window b i e) = if i + 1 ≤ e then some (byteAt b i, window b (i + 1) e)
    else none := by
  show ((takeN 1).run (window b i e)).bind (fun r => some (byteAt r.1 0, r.2)) = _
  rw [run_takeN_window 1 hi he]
  split
  · next h =>
    have hbyte : byteAt (window b i (i + 1)) 0 = byteAt b i := by
      rw [window_eq_slice]
      simp [slice, byteAt, List.getD, show i < b.length by omega]
    rw [Option.bind_some, hbyte]
  · rfl

/-- The two checks of `SkipTPM2B`: first for the size, then for as many bytes as it says. -/
theorem run_sized_window (hi : i ≤ e) (he : e ≤ b.length) :
    readSized.run (window b i e) =
      if i + 2 ≤ e ∧ i + 2 + (read16 b i).toNat ≤ e then
        some (slice b (i + 2) (read16 b i).toNat, window b (i + 2 + (read16 b i).toNat) e)
      else none := by
  show (readWord16.run (window b i e)).bind (fun r => (takeN r.1.toNat).run r.2) = _
  rw [run_word16_window hi he]
  by_cases h : i + 2 ≤ e
  · rw [if_pos h, Option.bind_some, run_takeN_window _ h he, window_eq_slice]
    simp only [h, true_and]
  · rw [if_neg h, if_neg fun h' => h h'.1]
    rfl

theorem run_tpm2b_window (hi : i ≤ e) (he : e ≤ b.length) :
    readTPM2B.run (window b i e) =
      if i + 2 ≤ e ∧ i + 2 + (read16 b i).toNat ≤ e then
        some (⟨slice b (i + 2) (read16 b i).toNat, Nat.lt_of_le_of_lt (List.length_take_le _ _)
          (read16 b i).toNat_lt⟩, window b (i + 2 + (read16 b i).toNat) e)
      else none := by
  show (readSized.run (window b i e)).bind (fun r => StateT.run (if h : r.1.length < 2 ^ 16 then
    (pure ⟨r.1, h⟩ : Reader UInt8 TPM2B) else failure) r.2) = _
  rw [run_sized_window hi he]
  split
  · have hlt : (slice b (i + 2) (read16 b i).toNat).length < 2 ^ 16 :=
      Nat.lt_of_le_of_lt (List.length_take_le _ _) (read16 b i).toNat_lt
    rw [Option.bind_some, dif_pos hlt]
    rfl
  · rfl

/-- The `n` words from offset `i` on. -/
def words (b : Bytes) : Nat → Nat → List UInt32
  | _, 0 => []
  | i, n + 1 => read32 b i :: words b (i + 4) n

/-- `n` words are one check for `4 * n` bytes, by induction on `n`. -/
theorem run_words_window (he : e ≤ b.length) (n : Nat) :
    ∀ i, i ≤ e → (times readWord32 n).run (window b i e) =
      if i + 4 * n ≤ e then some (words b i n, window b (i + 4 * n) e) else none := by
  induction n with
  | zero =>
    intro i hi
    rw [if_pos (by omega)]
    rfl
  | succ n ih =>
    intro i hi
    have hword := run_word32_window hi he
    by_cases h4 : i + 4 ≤ e
    · rw [if_pos h4] at hword
      rw [times, run_bind_of_some hword]
      have hrest := ih (i + 4) h4
      by_cases hn : i + 4 + 4 * n ≤ e
      · rw [if_pos hn] at hrest
        rw [run_bind_of_some hrest, if_pos (by omega), show i + 4 * (n + 1) =
          i + 4 + 4 * n by omega]
        rfl
      · rw [if_neg hn] at hrest
        rw [run_bind_of_none hrest, if_neg (by omega)]
    · rw [if_neg h4] at hword
      rw [times, run_bind_of_none hword, if_neg (by omega)]

end

/-! ## What was read -/

/-- Two bytes are what is written for the word that is read from them. -/
theorem write16_read16 {x : Bytes} (h : x.length = 2) : write16 (read16 x 0) = x := by
  have hb := be_ofBe x
  rw [h] at hb
  rw [write16_eq_be, toNat_read16 (by omega), slice, List.drop_zero,
    List.take_of_length_le (by omega), hb]

theorem write32_read32 {x : Bytes} (h : x.length = 4) : write32 (read32 x 0) = x := by
  have hb := be_ofBe x
  rw [h] at hb
  rw [write32_eq_be, toNat_read32 (by omega), slice, List.drop_zero,
    List.take_of_length_le (by omega), hb]

/-- A word is taken from the two bytes that `write16` writes for it, and from no others. -/
theorem spells_word16 : Spells readWord16 write16 := by
  intro l v rest h
  obtain ⟨x, mid, hx, hv⟩ := run_bind_eq_some.mp h
  obtain ⟨rfl, hlen⟩ := run_takeN_eq_some hx
  obtain ⟨rfl, rfl⟩ := run_pure_eq_some.mp hv
  rw [write16_read16 hlen]

theorem spells_word32 : Spells readWord32 write32 := by
  intro l v rest h
  obtain ⟨x, mid, hx, hv⟩ := run_bind_eq_some.mp h
  obtain ⟨rfl, hlen⟩ := run_takeN_eq_some hx
  obtain ⟨rfl, rfl⟩ := run_pure_eq_some.mp hv
  rw [write32_read32 hlen]

theorem spells_byte : Spells readByte fun v => [v] := by
  intro l v rest h
  obtain ⟨x, mid, hx, hv⟩ := run_bind_eq_some.mp h
  obtain ⟨rfl, hlen⟩ := run_takeN_eq_some hx
  obtain ⟨rfl, rfl⟩ := run_pure_eq_some.mp hv
  obtain ⟨v, rfl⟩ := List.length_eq_one_iff.mp hlen
  rfl

theorem spells_sized : Spells readSized tpm2b := by
  intro l b rest h
  obtain ⟨size, mid, hsize, hb⟩ := run_bind_eq_some.mp h
  obtain ⟨rfl, hcount⟩ := run_takeN_eq_some hb
  have hword : UInt16.ofNat b.length = size := by rw [hcount, UInt16.ofNat_toNat]
  rw [spells_word16 l size _ hsize, tpm2b, hword, List.append_assoc]

/-- The bytes that are read as a `TPM2B` are its encoding. -/
theorem spells_tpm2b : Spells readTPM2B TPM2B.encode := by
  intro l b rest h
  obtain ⟨x, mid, hx, hb⟩ := run_bind_eq_some.mp h
  have hl := spells_sized l x mid hx
  by_cases hlt : x.length < 2 ^ 16
  · rw [dif_pos hlt] at hb
    obtain ⟨rfl, rfl⟩ := run_pure_eq_some.mp hb
    exact hl
  · rw [dif_neg hlt] at hb
    cases hb

/-! ## Algorithms and schemes -/

namespace TPMT_SYM_DEF

def read : Reader UInt8 TPMT_SYM_DEF := do
  let algorithm ← readWord16
  if algorithm = TPM2_ALG_NULL then
    return { algorithm := algorithm }
  else if algorithm = TPM2_ALG_AES then
    let keyBits ← readWord16
    let mode ← readWord16
    return { algorithm := algorithm, keyBits := keyBits, mode := mode }
  else
    failure

/-- NULL has neither a key size nor a mode. -/
def selected (s : TPMT_SYM_DEF) : TPMT_SYM_DEF :=
  if s.algorithm = TPM2_ALG_NULL then { algorithm := s.algorithm } else s

/-- A supported symmetric definition is read back without what NULL does not send. -/
theorem reads {s : TPMT_SYM_DEF} (h : s.Supported) : Reads read s.encode s.selected := by
  refine (reads_word16 _).bind ?_
  unfold selected
  by_cases hnull : s.algorithm = TPM2_ALG_NULL
  · rw [if_pos hnull, if_pos hnull, if_pos hnull]
    exact Reads.pure _
  · rw [if_neg hnull, if_neg hnull, if_neg hnull, if_pos (h.resolve_right hnull)]
    exact (reads_word16 _).bind ((reads_word16 _).bind_nil (Reads.pure s))

end TPMT_SYM_DEF

namespace TPMT_RSA_SCHEME

def read : Reader UInt8 TPMT_RSA_SCHEME := do
  let scheme ← readWord16
  if scheme = TPM2_ALG_NULL then
    return { scheme := scheme }
  else if scheme = TPM2_ALG_RSASSA then
    let hashAlg ← readWord16
    return { scheme := scheme, hashAlg := hashAlg }
  else
    failure

def selected (s : TPMT_RSA_SCHEME) : TPMT_RSA_SCHEME :=
  if s.scheme = TPM2_ALG_NULL then { scheme := s.scheme } else s

theorem reads {s : TPMT_RSA_SCHEME} (h : s.Supported) : Reads read s.encode s.selected := by
  refine (reads_word16 _).bind ?_
  unfold selected
  by_cases hnull : s.scheme = TPM2_ALG_NULL
  · rw [if_pos hnull, if_pos hnull, if_pos hnull]
    exact Reads.pure _
  · rw [if_neg hnull, if_neg hnull, if_neg hnull, if_pos (h.resolve_right hnull)]
    exact (reads_word16 _).bind_nil (Reads.pure s)

end TPMT_RSA_SCHEME

namespace TPMT_KEYEDHASH_SCHEME

def read : Reader UInt8 TPMT_KEYEDHASH_SCHEME := do
  let scheme ← readWord16
  if scheme = TPM2_ALG_HMAC then
    let hashAlg ← readWord16
    return { scheme := scheme, hashAlg := hashAlg }
  else if scheme = TPM2_ALG_XOR then
    let hashAlg ← readWord16
    let kdf ← readWord16
    return { scheme := scheme, hashAlg := hashAlg, kdf := kdf }
  else if scheme = TPM2_ALG_NULL then
    return { scheme := scheme }
  else
    failure

/-- HMAC has a hash, XOR a hash and a KDF, NULL neither. -/
def selected (s : TPMT_KEYEDHASH_SCHEME) : TPMT_KEYEDHASH_SCHEME :=
  if s.scheme = TPM2_ALG_HMAC then { scheme := s.scheme, hashAlg := s.hashAlg }
  else if s.scheme = TPM2_ALG_XOR then s
  else { scheme := s.scheme }

/-- A supported keyed-hash scheme is read back with the members of its arm. -/
theorem reads {s : TPMT_KEYEDHASH_SCHEME} (h : s.Supported) : Reads read s.encode s.selected := by
  refine (reads_word16 _).bind ?_
  unfold selected
  by_cases hhmac : s.scheme = TPM2_ALG_HMAC
  · rw [if_pos hhmac, if_pos hhmac, if_pos hhmac]
    exact (reads_word16 _).bind_nil (Reads.pure _)
  rw [if_neg hhmac, if_neg hhmac, if_neg hhmac]
  by_cases hxor : s.scheme = TPM2_ALG_XOR
  · rw [if_pos hxor, if_pos hxor, if_pos hxor]
    exact (reads_word16 _).bind ((reads_word16 _).bind_nil (Reads.pure s))
  · rw [if_neg hxor, if_neg hxor, if_neg hxor, if_pos ((h.resolve_left hhmac).resolve_left hxor)]
    exact Reads.pure _

end TPMT_KEYEDHASH_SCHEME

namespace TPMS_RSA_PARMS

def read : Reader UInt8 TPMS_RSA_PARMS := do
  let symmetric ← TPMT_SYM_DEF.read
  let scheme ← TPMT_RSA_SCHEME.read
  let keyBits ← readWord16
  let exponent ← readWord32
  return { symmetric := symmetric, scheme := scheme, keyBits := keyBits, exponent := exponent }

def selected (p : TPMS_RSA_PARMS) : TPMS_RSA_PARMS :=
  { p with symmetric := p.symmetric.selected, scheme := p.scheme.selected }

theorem reads {p : TPMS_RSA_PARMS} (hsym : p.symmetric.Supported) (hscheme : p.scheme.Supported) :
    Reads read p.encode p.selected := by
  unfold encode
  rw [List.append_assoc, List.append_assoc]
  exact (TPMT_SYM_DEF.reads hsym).bind ((TPMT_RSA_SCHEME.reads hscheme).bind
    ((reads_word16 _).bind ((reads_word32 _).bind_nil (Reads.pure _))))

end TPMS_RSA_PARMS

/-! ## Public areas -/

namespace TPMT_PUBLIC

/-- The type selects both unions: RSA and KEYEDHASH have parameters and a unique field, NULL has
neither. -/
def read : Reader UInt8 TPMT_PUBLIC := do
  let type ← readWord16
  let nameAlg ← readWord16
  let objectAttributes ← readWord32
  let authPolicy ← TPM2BBuffer.read 64
  let area : TPMT_PUBLIC :=
    { type := type, nameAlg := nameAlg, objectAttributes := objectAttributes
      authPolicy := authPolicy }
  if type = TPM2_ALG_RSA then
    let rsaDetail ← TPMS_RSA_PARMS.read
    let uniqueRsa ← TPM2BBuffer.read 512
    return { area with rsaDetail := rsaDetail, uniqueRsa := uniqueRsa }
  else if type = TPM2_ALG_KEYEDHASH then
    let keyedHashDetail ← TPMT_KEYEDHASH_SCHEME.read
    let uniqueKeyedHash ← TPM2BBuffer.read 64
    return { area with keyedHashDetail := keyedHashDetail, uniqueKeyedHash := uniqueKeyedHash }
  else if type = TPM2_ALG_NULL then
    return area
  else
    failure

/-- The members before the unions. -/
def fixedPart (p : TPMT_PUBLIC) : TPMT_PUBLIC :=
  { type := p.type, nameAlg := p.nameAlg, objectAttributes := p.objectAttributes
    authPolicy := p.authPolicy }

/-- The members of the arm that the type selects. -/
def selected (p : TPMT_PUBLIC) : TPMT_PUBLIC :=
  if p.type = TPM2_ALG_RSA then
    { p.fixedPart with rsaDetail := p.rsaDetail.selected, uniqueRsa := p.uniqueRsa }
  else if p.type = TPM2_ALG_KEYEDHASH then
    { p.fixedPart with
      keyedHashDetail := p.keyedHashDetail.selected, uniqueKeyedHash := p.uniqueKeyedHash }
  else p.fixedPart

/-- A public area with supported selectors is read back, with the arm of its type. -/
theorem reads {p : TPMT_PUBLIC} (h : p.Supported) : Reads read p.encode p.selected := by
  unfold encode encodeParameters encodeUnique selected
  rw [List.append_assoc, List.append_assoc, List.append_assoc, List.append_assoc]
  refine (reads_word16 _).bind ((reads_word16 _).bind ((reads_word32 _).bind
    ((TPM2BBuffer.reads (by decide) _).bind ?_)))
  by_cases hrsa : p.type = TPM2_ALG_RSA
  · simp only [if_pos hrsa]
    obtain ⟨hsym, hscheme⟩ := h.rsa hrsa
    exact (TPMS_RSA_PARMS.reads hsym hscheme).bind
      ((TPM2BBuffer.reads (by decide) _).bind_nil (Reads.pure _))
  simp only [if_neg hrsa]
  by_cases hkh : p.type = TPM2_ALG_KEYEDHASH
  · simp only [if_pos hkh]
    exact (TPMT_KEYEDHASH_SCHEME.reads (h.keyedHash hkh)).bind
      ((TPM2BBuffer.reads (by decide) _).bind_nil (Reads.pure _))
  · simp only [if_neg hkh, if_pos ((h.type.resolve_left hrsa).resolve_left hkh)]
    exact Reads.pure _

end TPMT_PUBLIC

/-- The size, and a public area that is exactly as long. -/
def TPM2B_PUBLIC.read : Reader UInt8 TPMT_PUBLIC := do
  let size ← readWord16
  within size.toNat TPMT_PUBLIC.read

/-- A public area is shorter than 2^16 bytes, so that its size delimits it exactly. -/
theorem TPM2B_PUBLIC.reads {p : TPMT_PUBLIC} (h : p.Supported) :
    Reads TPM2B_PUBLIC.read (tpm2b p.encode) p.selected := by
  have hsize : (UInt16.ofNat p.encode.length).toNat = p.encode.length :=
    UInt16.toNat_ofNat_of_lt' p.length_encode_lt
  refine (reads_word16 _).bind ?_
  rw [hsize]
  exact (TPMT_PUBLIC.reads h).within

/-! ## PCR selections -/

/-- A selection on the wire. -/
structure WireSelection where
  hash : UInt16
  sizeofSelect : UInt8
  pcrSelect : Bytes
  deriving DecidableEq

def WireSelection.read : Reader UInt8 WireSelection := do
  let hash ← readWord16
  let sizeofSelect ← readByte
  let pcrSelect ← takeN sizeofSelect.toNat
  return ⟨hash, sizeofSelect, pcrSelect⟩

/-- Of the fixed array only `sizeofSelect` bytes are sent. -/
def TPMS_PCR_SELECTION.wire (s : TPMS_PCR_SELECTION) : WireSelection :=
  ⟨s.hash, s.sizeofSelect, s.pcrSelect.first s.sizeofSelect.toNat⟩

/-- A selection that fits its array is read back as the bytes that are sent of it. -/
theorem TPMS_PCR_SELECTION.reads {s : TPMS_PCR_SELECTION}
    (h : s.sizeofSelect.toNat ≤ TPM2_PCR_SELECT_MAX) :
    Reads WireSelection.read s.encode s.wire := by
  have hlen : (s.pcrSelect.first s.sizeofSelect.toNat).length = s.sizeofSelect.toNat :=
    Fixed.length_first h
  have htake := Reads.takeN (s.pcrSelect.first s.sizeofSelect.toNat)
  rw [hlen] at htake
  exact (reads_word16 _).bind ((reads_byte _).bind (htake.bind_nil (Reads.pure _)))

/-- The count, and as many selections. -/
def TPML_PCR_SELECTION.read : Reader UInt8 (List WireSelection) := do
  let count ← readWord32
  times WireSelection.read count.toNat

/-- The selections are read back in order when the count is their number. -/
theorem TPML_PCR_SELECTION.reads {l : TPML_PCR_SELECTION} (h : l.Supported) :
    Reads TPML_PCR_SELECTION.read l.encode (l.pcrSelections.map TPMS_PCR_SELECTION.wire) := by
  refine (reads_word32 _).bind ?_
  rw [h.count]
  exact Reads.times fun s hs => TPMS_PCR_SELECTION.reads (h.sizeofSelect s hs)

/-! ## Further structures behind a size -/

/-- A structure of at most 2^16 bytes behind its size. -/
def readOuter {α : Type} (p : Reader UInt8 α) : Reader UInt8 α := do
  let size ← readWord16
  within size.toNat p

/-- A structure that the size can count is read from behind it, and fills it. -/
theorem reads_outer {α : Type} {p : Reader UInt8 α} {x : Bytes} {a : α} (hp : Reads p x a)
    (hlt : x.length < 2 ^ 16) : Reads (readOuter p) (tpm2b x) a := by
  have hsize : (UInt16.ofNat x.length).toNat = x.length := UInt16.toNat_ofNat_of_lt' hlt
  refine (reads_word16 _).bind ?_
  rw [hsize]
  exact hp.within

def TPMS_SENSITIVE_CREATE.read : Reader UInt8 TPMS_SENSITIVE_CREATE := do
  let userAuth ← TPM2BBuffer.read 64
  let data ← TPM2BBuffer.read 256
  return ⟨userAuth, data⟩

theorem TPMS_SENSITIVE_CREATE.reads (s : TPMS_SENSITIVE_CREATE) : Reads read s.encode s :=
  (TPM2BBuffer.reads (by decide) _).bind ((TPM2BBuffer.reads (by decide) _).bind_nil (Reads.pure s))

def TPMS_NV_PUBLIC.read : Reader UInt8 TPMS_NV_PUBLIC := do
  let nvIndex ← readWord32
  let nameAlg ← readWord16
  let attributes ← readWord32
  let authPolicy ← TPM2BBuffer.read 64
  let dataSize ← readWord16
  return ⟨nvIndex, nameAlg, attributes, authPolicy, dataSize⟩

theorem TPMS_NV_PUBLIC.reads (p : TPMS_NV_PUBLIC) : Reads read p.encode p := by
  unfold encode
  rw [List.append_assoc, List.append_assoc, List.append_assoc]
  exact (reads_word32 _).bind ((reads_word16 _).bind ((reads_word32 _).bind
    ((TPM2BBuffer.reads (by decide) _).bind ((reads_word16 _).bind_nil (Reads.pure p)))))

/-! ## Decryption schemes -/

def TPM2_ALG_RSAES : UInt16 := 0x0015

/-- A TPMT_RSA_DECRYPT: the scheme, and the hash that OAEP has. -/
def readRsaDecrypt : Reader UInt8 (UInt16 × Option UInt16) := do
  let scheme ← readWord16
  if scheme = TPM2_ALG_OAEP then
    let hashAlg ← readWord16
    return (scheme, some hashAlg)
  else if scheme = TPM2_ALG_RSAES ∨ scheme = TPM2_ALG_NULL then
    return (scheme, none)
  else
    failure

end Tpm
