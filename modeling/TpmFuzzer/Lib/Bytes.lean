import Mathlib.Data.List.Basic
import Mathlib.Data.List.Induction
import Mathlib.Data.Nat.Basic
import Mathlib.Tactic.Ring

/-!
# Byte strings: big-endian numbers, slices and overwriting in place

* `be k n` writes the low `k` bytes of `n`, most significant first; `ofBe` reads them back:

      ofBe (be k n) = n % 256 ^ k           (ofBe_be)
      be l.length (ofBe l) = l              (be_ofBe)

* `slice b i n` is the run of `n` bytes at offset `i`; in `pre ++ x ++ rest` the run at
  `pre.length` of `x.length` bytes is `x` (`slice_append`).
* `poke b off src` overwrites `src.length` bytes at offset `off`, as `memcpy` into a buffer does.
* `Fixed n` is a buffer of exactly `n` bytes of which a caller uses a prefix.
-/

abbrev Bytes := List UInt8

namespace Bytes

/-! ## Big-endian numbers -/

def be : Nat → Nat → Bytes
  | 0, _ => []
  | k + 1, n => be k (n / 256) ++ [UInt8.ofNat (n % 256)]

def ofBe (b : Bytes) : Nat := b.foldl (fun acc x => acc * 256 + x.toNat) 0

@[simp] theorem length_be (k n : Nat) : (be k n).length = k := by
  induction k generalizing n with
  | zero => rfl
  | succ k ih => simp [be, ih]

theorem ofBe_snoc (b : Bytes) (x : UInt8) : ofBe (b ++ [x]) = ofBe b * 256 + x.toNat := by
  simp [ofBe, List.foldl_append]

@[simp] theorem ofBe_nil : ofBe [] = 0 := rfl

theorem ofBe_be (k n : Nat) : ofBe (be k n) = n % 256 ^ k := by
  induction k generalizing n with
  | zero => simp [be, Nat.mod_one]
  | succ k ih =>
    have hx : (UInt8.ofNat (n % 256)).toNat = n % 256 := by simp
    rw [be, ofBe_snoc, ih, hx, Nat.pow_succ, Nat.mul_comm (256 ^ k) 256, Nat.mod_mul]
    omega

theorem ofBe_be_of_lt {k n : Nat} (h : n < 256 ^ k) : ofBe (be k n) = n := by
  rw [ofBe_be, Nat.mod_eq_of_lt h]

theorem be_ofBe (b : Bytes) : be b.length (ofBe b) = b := by
  induction b using List.reverseRecOn with
  | nil => rfl
  | append_singleton b x ih =>
    have hx := x.toNat_lt
    rw [ofBe_snoc, List.length_append, List.length_singleton, be]
    rw [show (ofBe b * 256 + x.toNat) / 256 = ofBe b by omega,
      show (ofBe b * 256 + x.toNat) % 256 = x.toNat by omega, ih]
    simp

theorem be_inj {k m n : Nat} (hm : m < 256 ^ k) (hn : n < 256 ^ k) (h : be k m = be k n) :
    m = n := by
  rw [← ofBe_be_of_lt hm, ← ofBe_be_of_lt hn, h]

theorem be_inj_iff {k m n : Nat} (hm : m < 256 ^ k) (hn : n < 256 ^ k) : be k m = be k n ↔ m = n :=
  ⟨be_inj hm hn, congrArg (be k)⟩

theorem ofBe_append (a b : Bytes) : ofBe (a ++ b) = ofBe a * 256 ^ b.length + ofBe b := by
  induction b using List.reverseRecOn with
  | nil => simp
  | append_singleton b x ih =>
    rw [← List.append_assoc, ofBe_snoc, ofBe_snoc, ih, List.length_append, List.length_singleton]
    ring

/-- Two numbers in a row are one number of both widths. -/
theorem be_append {m n a b : Nat} (ha : a < 256 ^ m) (hb : b < 256 ^ n) :
    be m a ++ be n b = be (m + n) (a * 256 ^ n + b) := by
  have h := be_ofBe (be m a ++ be n b)
  rw [List.length_append, length_be, length_be, ofBe_append, length_be, ofBe_be_of_lt ha,
    ofBe_be_of_lt hb] at h
  exact h.symm

/-! ## Slices -/

def slice (b : Bytes) (i n : Nat) : Bytes := (b.drop i).take n

theorem length_slice {b : Bytes} {i n : Nat} (h : i + n ≤ b.length) : (slice b i n).length = n := by
  simp only [slice, List.length_take, List.length_drop]
  omega

theorem slice_append {pre x rest : Bytes} {i n : Nat} (hi : pre.length = i) (hn : x.length = n) :
    slice (pre ++ (x ++ rest)) i n = x := by
  subst hi hn
  simp [slice]

/-- A run that starts past `pre` is a run of what follows it. -/
theorem slice_append_right {pre rest : Bytes} {i j n : Nat} (h : i = pre.length + j) :
    slice (pre ++ rest) i n = slice rest j n := by
  subst h
  rw [slice, slice, List.drop_append, List.drop_eq_nil_of_le (by omega)]
  simp

theorem slice_append_left {a rest : Bytes} {i n : Nat} (h : i + n ≤ a.length) :
    slice (a ++ rest) i n = slice a i n := by
  simp only [slice]
  rw [List.drop_append_of_le_length (by omega), List.take_append_of_le_length (by
    rw [List.length_drop]; omega)]

theorem slice_take {b : Bytes} {i n m : Nat} (h : i + n ≤ m) :
    slice (b.take m) i n = slice b i n := by
  simp only [slice, List.drop_take, List.take_take]
  congr 1
  omega

/-- Past a known run: what follows it. -/
theorem drop_of_drop {b x rest : Bytes} {i j : Nat} (h : b.drop i = x ++ rest)
    (hj : j = i + x.length) : b.drop j = rest := by
  subst hj
  rw [← List.drop_drop, h, List.drop_left]

theorem drop_succ_of_drop {b rest : Bytes} {x : UInt8} {i : Nat} (h : b.drop i = x :: rest) :
    b.drop (i + 1) = rest :=
  drop_of_drop (x := [x]) h rfl

theorem slice_of_drop {b x rest : Bytes} {i n : Nat}
    (h : b.drop i = x ++ rest) (hn : x.length = n) :
    slice b i n = x := by
  subst hn
  rw [slice, h, List.take_left]

/-- A buffer whose bytes from `i` on are known, split there. -/
theorem eq_take_append_of_drop {b x rest : Bytes} {i : Nat} (h : b.drop i = x ++ rest)
    (hx : x ≠ []) : b = b.take i ++ (x ++ rest) ∧ (b.take i).length = i := by
  constructor
  · rw [← h, List.take_append_drop]
  · have hl := congrArg List.length h
    have hpos := List.length_pos_iff.mpr hx
    rw [List.length_drop, List.length_append] at hl
    rw [List.length_take]
    omega

/-! ## Overwriting in place -/

/-- `memcpy(b + off, src, src.length)`. -/
def poke (b : Bytes) (off : Nat) (src : Bytes) : Bytes :=
  b.take off ++ (src ++ b.drop (off + src.length))

theorem length_poke {b : Bytes} {off : Nat} {src : Bytes} (h : off + src.length ≤ b.length) :
    (poke b off src).length = b.length := by
  simp only [poke, List.length_append, List.length_take, List.length_drop]
  omega

@[simp] theorem poke_nil (b : Bytes) (off : Nat) : poke b off [] = b := by
  simp [poke]

/-- Overwriting `x` by as many bytes `y` leaves what surrounds `x`. -/
theorem poke_append {pre x y rest : Bytes} {off : Nat} (ho : pre.length = off)
    (hl : y.length = x.length) : poke (pre ++ (x ++ rest)) off y = pre ++ (y ++ rest) := by
  subst ho
  simp only [poke, List.take_left', hl]
  rw [← List.append_assoc pre x rest, List.drop_left' (by simp)]

theorem drop_poke {b : Bytes} {off n : Nat} {src : Bytes} (hn : off + src.length ≤ n)
    (ho : off ≤ b.length) : (poke b off src).drop n = b.drop n := by
  have hl : (b.take off).length = off := by simp; omega
  simp only [poke]
  rw [List.drop_append, List.drop_append, hl, List.drop_eq_nil_of_le (by omega),
    List.drop_eq_nil_of_le (by omega), List.drop_drop]
  simp only [List.nil_append]
  congr 1
  omega

theorem take_poke_end {b : Bytes} {off : Nat} {src : Bytes} (ho : off ≤ b.length) :
    (poke b off src).take (off + src.length) = b.take off ++ src := by
  have hl : (b.take off ++ src).length = off + src.length := by simp; omega
  rw [poke, ← List.append_assoc, List.take_left' hl]

/-- Two runs written one behind the other are one run. -/
theorem poke_poke {b x y : Bytes} {off off' : Nat} (ho : off ≤ b.length)
    (h : off' = off + x.length) :
    poke (poke b off x) off' y = poke b off (x ++ y) := by
  subst h
  rw [poke, take_poke_end ho, drop_poke (by omega) ho]
  simp [poke, Nat.add_assoc]

/-! ## Buffers of a fixed size -/

/-- A buffer of exactly `n` bytes. -/
def Fixed (n : Nat) := {b : Bytes // b.length = n}

instance (n : Nat) : DecidableEq (Fixed n) :=
  inferInstanceAs (DecidableEq {b : Bytes // b.length = n})

namespace Fixed

variable {n : Nat}

def zeros (n : Nat) : Fixed n := ⟨List.replicate n 0, List.length_replicate⟩

instance : Inhabited (Fixed n) := ⟨zeros n⟩

/-- The first `k` bytes. -/
def first (f : Fixed n) (k : Nat) : Bytes := f.1.take k

/-- `memcpy(f, src, src.length)`; what lies behind `src` stays. -/
def blit (f : Fixed n) (src : Bytes) : Fixed n :=
  ⟨(src ++ f.1.drop src.length).take n, by
    have := f.2
    simp only [List.length_take, List.length_append, List.length_drop]
    omega⟩

theorem length_first {f : Fixed n} {k : Nat} (h : k ≤ n) : (f.first k).length = k := by
  have := f.2
  simp only [first, List.length_take]
  omega

@[simp] theorem first_zero (f : Fixed n) : f.first 0 = [] := rfl

theorem first_blit (f : Fixed n) (src : Bytes) (h : src.length ≤ n) :
    (f.blit src).first src.length = src := by
  simp only [first, blit, List.take_take, Nat.min_eq_left h]
  rw [List.take_left]

/-- Copying a buffer's own prefix over it changes nothing. -/
theorem blit_first {f : Fixed n} {k : Nat} (h : k ≤ n) : f.blit (f.first k) = f := by
  apply Subtype.ext
  have hf := f.2
  simp only [blit, length_first h]
  rw [first, List.take_append_drop, List.take_of_length_le (by omega)]

end Fixed

/-! ## Repetitions -/

/-- Bytes that are their own start behind `a` and `b` are nothing but `a` and `b`. -/
theorem take_shift_iff {a b : UInt8} {n : Nat} {u : Bytes} (hu : u.length = 2 * n) :
    (a :: b :: u).take (2 * n) = u ↔ u = (List.replicate n [a, b]).flatten := by
  induction n generalizing u with
  | zero =>
    rw [List.length_eq_zero_iff.mp hu]
    simp
  | succ n ih =>
    match u, hu with
    | x :: y :: v, hu =>
      have hv : v.length = 2 * n := by
        simp only [List.length_cons] at hu
        omega
      rw [show 2 * (n + 1) = 2 * n + 1 + 1 by omega, List.take_succ_cons, List.take_succ_cons,
        List.replicate_succ, List.flatten_cons]
      simp only [List.cons_append, List.nil_append, List.cons.injEq]
      constructor
      · rintro ⟨rfl, rfl, h⟩
        exact ⟨rfl, rfl, (ih hv).mp h⟩
      · rintro ⟨rfl, rfl, h⟩
        exact ⟨rfl, rfl, (ih hv).mpr h⟩

end Bytes
