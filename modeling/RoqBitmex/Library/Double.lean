import Mathlib.Algebra.Order.Ring.Rat
import Mathlib.Order.Defs.LinearOrder

/-! # Numbers that may be NaN

The wire protocol has no token for "no number": a missing member is parsed as NaN, and NaN travels
through comparisons (which it fails) and arithmetic (which it absorbs). `Double` is a finite number
or NaN, with the operations the gateway applies to one. -/

namespace RoqBitmex

/-- A finite number or NaN. -/
inductive Double where
  /-- Not a number: the value of an absent field. -/
  | nan
  /-- A finite number. -/
  | num (value : ℚ)
  deriving DecidableEq, Repr

namespace Double

/-- `std::isnan`. -/
def isNaN : Double → Bool
  | nan => true
  | num _ => false

@[simp] theorem isNaN_nan : nan.isNaN = true := rfl

@[simp] theorem isNaN_num (x : ℚ) : (num x).isNaN = false := rfl

/-- The number a double is, if it is one. -/
def value? : Double → Option ℚ
  | nan => none
  | num x => some x

@[simp] theorem value?_nan : nan.value? = none := rfl

@[simp] theorem value?_num (x : ℚ) : (num x).value? = some x := rfl

/-- What is not NaN is a number. -/
theorem isNaN_eq_false_of_ne {x : Double} (h : x ≠ nan) : x.isNaN = false := by
  cases x with
  | nan => exact absurd rfl h
  | num q => rfl

/-- A double that is not NaN is a number. -/
theorem exists_of_isNaN_eq_false {x : Double} (h : x.isNaN = false) : ∃ q, x = num q := by
  cases x with
  | nan => cases h
  | num q => exact ⟨q, rfl⟩

/-- The comparison `<`, which NaN fails on either side. -/
def lt : Double → Double → Bool
  | num x, num y => decide (x < y)
  | _, _ => false

/-- Negation. -/
def neg : Double → Double
  | nan => nan
  | num x => num (-x)

/-- `std::max(a, b)`: the second argument if the first is less, so `a` when either is NaN. -/
def max (a b : Double) : Double := if a.lt b then b else a

/-- The value with NaN replaced by zero. -/
def orZero : Double → ℚ
  | nan => 0
  | num x => x

@[simp] theorem orZero_num (x : ℚ) : (num x).orZero = x := rfl

/-- NaN does not count towards a maximum. -/
@[simp] theorem max_nan (a : Double) : max a nan = a := by
  cases a <;> rfl

/-- On numbers `std::max` is the maximum. -/
@[simp] theorem max_num (x y : ℚ) : max (num x) (num y) = num (x ⊔ y) := by
  rcases lt_or_ge x y with h | h
  · simp [max, lt, h, max_eq_right h.le]
  · simp [max, lt, not_lt.mpr h, max_eq_left h]

end Double

end RoqBitmex
