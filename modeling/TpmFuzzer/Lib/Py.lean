import TpmFuzzer.Lib.Bytes

/-!
# Python integers, byte strings and exceptions

`int` is `Int`, `bytes` is a list of bytes, and an expression that can raise is an `Except`.

* `toBytes x n` is `x.to_bytes(n, "big")`, which raises `OverflowError` unless 0 ≤ x < 256^n
  (`toBytes_eq_ok`).
* `fromBytes (toBytes x n) = x`, and a slice that starts inside a byte string never raises.
* `IntOr E` is `Union[int, E]` for an enum `E`.
-/

namespace Py

open Bytes

inductive Error where
  | overflowError
  | valueError (message : String)
  | indexError
  | notImplementedError (message : String)
  deriving DecidableEq, Repr

abbrev Result := Except Error

/-! ## Sequencing -/

theorem bind_eq_ok {α β : Type} {x : Result α} {f : α → Result β} {b : β} :
    (x >>= f) = .ok b ↔ ∃ a, x = .ok a ∧ f a = .ok b := by
  cases x with
  | error e =>
    constructor
    · intro h
      cases h
    · rintro ⟨a, h, -⟩
      cases h
  | ok a =>
    constructor
    · exact fun h => ⟨a, rfl, h⟩
    · rintro ⟨a', h, hf⟩
      cases h
      exact hf

@[simp] theorem ok_bind {α β : Type} (a : α) (f : α → Result β) :
    ((Except.ok a : Result α) >>= f) = f a := (rfl)

@[simp] theorem pure_eq_ok {α : Type} (a : α) : (pure a : Result α) = .ok a := rfl

/-! ## Integers as bytes -/

def toBytes (x : Int) (n : Nat) : Result Bytes :=
  if 0 ≤ x ∧ x < 256 ^ n then .ok (be n x.toNat) else .error .overflowError

/-- `int.from_bytes(b, "big")`, which is not negative. -/
def fromBytes (b : Bytes) : Nat := ofBe b

theorem toBytes_eq_ok {x : Int} {n : Nat} {b : Bytes} :
    toBytes x n = .ok b ↔ ∃ k : Nat, x = k ∧ k < 256 ^ n ∧ b = be n k := by
  unfold toBytes
  constructor
  · intro h
    split at h
    · next hx =>
      cases h
      refine ⟨x.toNat, by omega, ?_, rfl⟩
      have : (x.toNat : Int) < ((256 ^ n : Nat) : Int) := by
        push_cast
        omega
      omega
    · cases h
  · rintro ⟨k, rfl, hk, rfl⟩
    have hk' : ((k : Nat) : Int) < 256 ^ n := by exact_mod_cast hk
    rw [if_pos ⟨by omega, hk'⟩, Int.toNat_natCast]

theorem toBytes_nat {k n : Nat} (h : k < 256 ^ n) : toBytes k n = .ok (be n k) :=
  toBytes_eq_ok.mpr ⟨k, rfl, h, rfl⟩

theorem fromBytes_be {k n : Nat} (h : k < 256 ^ n) : fromBytes (be n k) = k := ofBe_be_of_lt h

/-! ## Slices and indices -/

/-- `b[i:j]` for indices that are not negative. -/
def slice (b : Bytes) (i j : Nat) : Bytes := (b.take j).drop i

/-- `b[i]`. -/
def index (b : Bytes) (i : Nat) : Result Nat :=
  match b[i]? with
  | some x => .ok x.toNat
  | none => .error .indexError

theorem slice_eq_take {b x : Bytes} {i j n : Nat} (h : b.drop i = x) (hj : j = i + n) :
    slice b i j = x.take n := by
  subst hj
  rw [slice, List.drop_take, h, Nat.add_sub_cancel_left]

/-- A slice of what is known to stand at its start. -/
theorem slice_of_drop {b x rest : Bytes} {i j : Nat} (h : b.drop i = x ++ rest)
    (hj : j = i + x.length) : slice b i j = x := by
  rw [slice_eq_take h hj, List.take_left]

theorem index_of_drop {b rest : Bytes} {x : UInt8} {i : Nat} (h : b.drop i = x :: rest) :
    index b i = .ok x.toNat := by
  have hi : b[i]? = some x := by
    rw [← Nat.add_zero i, ← List.getElem?_drop, h]
    rfl
  rw [index, hi]

/-! ## Enums -/

class PyEnum (E : Type) where
  value : E → Nat

/-- `Union[int, E]`. -/
inductive IntOr (E : Type) where
  | int (n : Int)
  | enum (e : E)
  deriving DecidableEq

/-- `x.value if isinstance(x, E) else x`. -/
def IntOr.toInt {E : Type} [PyEnum E] : IntOr E → Int
  | .int n => n
  | .enum e => PyEnum.value e

/-- `Union[int, E, List[E]]` for an enum of flags. -/
inductive Flags (E : Type) where
  | int (n : Int)
  | flag (e : E)
  | flags (l : List E)

/-- The flags of a list are or-ed together. -/
def Flags.toInt {E : Type} [PyEnum E] : Flags E → Int
  | .int n => n
  | .flag e => PyEnum.value e
  | .flags l => ((l.foldl (fun v e => v ||| PyEnum.value e) 0 : Nat) : Int)

end Py
