import Mathlib.Data.List.Basic
import Mathlib.Data.Nat.Digits.Defs

/-!
# Printed numbers and dumps

`decimal` and `hex` are the numbers of `std::format`, `dump item n l` the elements of a list in
lines of `n`.

    lineBreak ∉ s → lineBreak ∉ t → println s ++ x = println t ++ y → s = t ∧ x = y  (println_inj)
    l.length = m.length → dump item n l ++ x = dump item n m ++ y → l = m            (dump_inj)

The second needs an `item` that is injective and of one length for all elements, as `hexByte` is.
-/

namespace Text

abbrev Chars := List Char

/-! ## Numbers -/

/-- `{}` of a number. -/
def decimal (n : Nat) : Chars := Nat.toDigits 10 n

/-- `{:0<width>x}` of a number. -/
def hex (width n : Nat) : Chars := (Nat.toDigits 16 n).leftpad width '0'

/-- Every character of a number is a digit; by strong induction, as the recursion divides. -/
theorem mem_toDigits {b n : Nat} (hb : 1 < b) {c : Char} (h : c ∈ Nat.toDigits b n) :
    ∃ d, c = Nat.digitChar d := by
  induction n using Nat.strongRecOn with
  | ind n ih =>
    rw [Nat.toDigits_eq_if hb] at h
    split at h
    · exact ⟨n, List.mem_singleton.mp h⟩
    · next hle =>
      rcases List.mem_append.mp h with h | h
      · exact ih (n / b) (Nat.div_lt_self (by omega) hb) h
      · exact ⟨n % b, List.mem_singleton.mp h⟩

theorem mem_decimal {n : Nat} {c : Char} (h : c ∈ decimal n) : ∃ d, c = Nat.digitChar d :=
  mem_toDigits (by decide) h

theorem mem_hex {width n : Nat} {c : Char} (h : c ∈ hex width n) : ∃ d, c = Nat.digitChar d := by
  unfold hex List.leftpad at h
  rcases List.mem_append.mp h with h | h
  · exact ⟨0, List.eq_of_mem_replicate h⟩
  · exact mem_toDigits (by decide) h

theorem decimal_inj {m n : Nat} (h : decimal m = decimal n) : m = n := by
  unfold decimal at h
  rw [← Nat.ofDigitChars_ten_toDigits (n := m), h, Nat.ofDigitChars_ten_toDigits]

theorem digitChar_inj {d e : Nat} (hd : d < 16) (he : e < 16)
    (h : Nat.digitChar d = Nat.digitChar e) : d = e := by
  have hall : ∀ d e : Fin 16, Nat.digitChar d = Nat.digitChar e → d = e := by decide
  exact Fin.mk.inj (hall ⟨d, hd⟩ ⟨e, he⟩ h)

/-- A byte in hexadecimal is its two halves. -/
theorem hex_two {n : Nat} (h : n < 256) :
    hex 2 n = [Nat.digitChar (n / 16), Nat.digitChar (n % 16)] := by
  unfold hex
  rw [Nat.toDigits_eq_if (by decide)]
  split
  · next hlt =>
    rw [Nat.div_eq_of_lt hlt, Nat.mod_eq_of_lt hlt]
    rfl
  · rw [Nat.toDigits_of_lt_base (by omega)]
    rfl

/-- `{:02x}` of a byte. -/
def hexByte (b : UInt8) : Chars := hex 2 b.toNat

theorem length_hexByte (b : UInt8) : (hexByte b).length = 2 := by
  rw [hexByte, hex_two b.toNat_lt]
  rfl

/-- Bytes are told apart by their hexadecimals. -/
theorem hexByte_inj {b c : UInt8} (h : hexByte b = hexByte c) : b = c := by
  have hb := b.toNat_lt
  have hc := c.toNat_lt
  rw [hexByte, hexByte, hex_two hb, hex_two hc, List.cons.injEq, List.cons.injEq] at h
  have hhigh := digitChar_inj (by omega) (by omega) h.1
  have hlow := digitChar_inj (Nat.mod_lt _ (by decide)) (Nat.mod_lt _ (by decide)) h.2.1
  apply UInt8.toNat_inj.mp
  omega

/-! ## Lines -/

def lineBreak : Char := '\n'

def println (s : Chars) : Chars := s ++ [lineBreak]

/-- A separator that neither part contains splits a text in one way. -/
theorem append_cons_inj {α : Type} {a : α} {x x' z z' : List α} (hx : a ∉ x) (hx' : a ∉ x')
    (h : x ++ a :: z = x' ++ a :: z') : x = x' ∧ z = z' := by
  induction x generalizing x' with
  | nil =>
    cases x' with
    | nil => exact ⟨rfl, (List.cons.inj h).2⟩
    | cons b x' => exact absurd ((List.cons.inj h).1 ▸ List.mem_cons_self) hx'
  | cons b x ih =>
    cases x' with
    | nil => exact absurd ((List.cons.inj h).1 ▸ List.mem_cons_self) hx
    | cons c x' =>
      obtain ⟨rfl, htail⟩ := List.cons.inj h
      obtain ⟨rfl, hz⟩ := ih (List.not_mem_of_not_mem_cons hx)
        (List.not_mem_of_not_mem_cons hx') htail
      exact ⟨rfl, hz⟩

/-- The first lines of two equal texts are equal, and so is what follows. -/
theorem println_inj {s t x y : Chars} (hs : lineBreak ∉ s) (ht : lineBreak ∉ t)
    (h : println s ++ x = println t ++ y) :
    s = t ∧ x = y := by
  unfold println at h
  rw [List.append_assoc, List.append_assoc] at h
  exact append_cons_inj hs ht h

/-! ## Dumps -/

section

variable {α : Type} (item : α → Chars) (n : Nat)

/-- The elements from the `i`th on, with a line break behind every `n`th. -/
def dumpFrom : Nat → List α → Chars
  | _, [] => []
  | i, a :: l => item a ++ (if (i + 1) % n = 0 then [lineBreak] else []) ++ dumpFrom (i + 1) l

/-- The elements in lines of `n`, the last line ended as the others. -/
def dump (l : List α) : Chars := dumpFrom item n 0 l ++ if l.length % n ≠ 0 then [lineBreak] else []

variable {item n}

/-- A dump consists of line breaks and of the characters of its elements. -/
theorem mem_dumpFrom {i : Nat} {l : List α} {c : Char} (h : c ∈ dumpFrom item n i l) :
    c = lineBreak ∨ ∃ a ∈ l, c ∈ item a := by
  induction l generalizing i with
  | nil => cases h
  | cons a l ih =>
    rw [dumpFrom, List.append_assoc, List.mem_append, List.mem_append] at h
    rcases h with h | h | h
    · exact Or.inr ⟨a, List.mem_cons_self, h⟩
    · split at h
      · exact Or.inl (List.mem_singleton.mp h)
      · cases h
    · rcases ih h with h | ⟨b, hb, h⟩
      · exact Or.inl h
      · exact Or.inr ⟨b, List.mem_cons_of_mem _ hb, h⟩

theorem mem_dump {l : List α} {c : Char} (h : c ∈ dump item n l) :
    c = lineBreak ∨ ∃ a ∈ l, c ∈ item a := by
  rcases List.mem_append.mp h with h | h
  · exact mem_dumpFrom h
  · split at h
    · exact Or.inl (List.mem_singleton.mp h)
    · cases h

/-- Two dumps of equally many elements are equal only if the elements are; by induction on the
lists, at the same place in the line. -/
theorem dumpFrom_inj {k : Nat} (hlength : ∀ a, (item a).length = k)
    (hinj : ∀ a b, item a = item b → a = b) {i : Nat} {l m : List α} {x y : Chars}
    (hlm : l.length = m.length) (h : dumpFrom item n i l ++ x = dumpFrom item n i m ++ y) :
    l = m := by
  induction l generalizing i m with
  | nil => exact (List.length_eq_zero_iff.mp hlm.symm).symm
  | cons a l ih =>
    cases m with
    | nil => cases hlm
    | cons b m =>
      simp only [dumpFrom, List.append_assoc] at h
      obtain ⟨hab, hrest⟩ := List.append_inj h ((hlength a).trans (hlength b).symm)
      rw [hinj a b hab, ih (Nat.succ_inj.mp hlm) (List.append_cancel_left hrest)]

theorem dump_inj {k : Nat} (hlength : ∀ a, (item a).length = k)
    (hinj : ∀ a b, item a = item b → a = b) {l m : List α} {x y : Chars} (hlm : l.length = m.length)
    (h : dump item n l ++ x = dump item n m ++ y) :
    l = m := by
  rw [dump, dump, List.append_assoc, List.append_assoc] at h
  exact dumpFrom_inj hlength hinj hlm h

end

end Text
