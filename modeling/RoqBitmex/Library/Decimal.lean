import Mathlib.Data.Int.Basic
import Mathlib.Tactic.IntervalCases

/-! # Decimals

A whole number is written in decimal, with a minus before it if it is negative. Reading the digits
back gives the number, so different numbers are written differently. -/

namespace RoqBitmex

namespace Decimal

/-- The whole number that a text is, if it is one. -/
def read : List Char → ℤ
  | '-' :: digits => -(Nat.ofDigitChars 10 digits 0 : ℤ)
  | digits => (Nat.ofDigitChars 10 digits 0 : ℤ)

/-- A letter of a decimal. -/
def isDecimal (c : Char) : Bool := c.isDigit || c == '-'

/-- The decimal digits of a number are digits. -/
theorem isDigit_of_mem_repr {n : ℕ} {c : Char} (h : c ∈ n.repr.toList) : c.isDigit = true := by
  rw [Nat.toList_repr] at h
  exact Nat.isDigit_of_mem_toDigits (by decide) (by decide) h

/-- A number that is not negative begins with a digit. -/
theorem exists_cons_repr (n : ℕ) : ∃ c rest, n.repr.toList = c :: rest ∧ c.isDigit = true := by
  cases h : n.repr.toList with
  | nil =>
      rw [Nat.toList_repr] at h
      exact absurd h Nat.toDigits_ne_nil
  | cons c rest => exact ⟨c, rest, rfl, isDigit_of_mem_repr (h ▸ List.mem_cons_self)⟩

/-- A positive number does not begin with a zero. -/
theorem head_repr_ne_zero {n : ℕ} (h : 0 < n) : n.repr.toList.head? ≠ some '0' := by
  rw [Nat.toList_repr]
  induction n using Nat.strongRecOn with
  | ind n ih =>
      rw [Nat.toDigits_eq_if (by decide)]
      split
      · rename_i hlt
        rw [List.head?_singleton]
        revert h
        interval_cases n
        all_goals decide
      -- the first digit is that of a tenth of the number, which is positive too
      · have hdiv : 0 < n / 10 := by omega
        have hhead := ih (n / 10) (by omega) hdiv
        obtain ⟨c, rest, hlist⟩ : ∃ c rest, Nat.toDigits 10 (n / 10) = c :: rest :=
          List.exists_cons_of_ne_nil Nat.toDigits_ne_nil
        rw [hlist] at hhead ⊢
        exact hhead

/-- An integer is printed as the digits of its absolute value, with a sign if it is negative. -/
theorem toList_toString (z : ℤ) :
    (toString z).toList =
      if 0 ≤ z then z.toNat.repr.toList else '-' :: (-z).toNat.repr.toList := by
  rw [Int.toString_eq_repr, Int.repr_eq_if]
  split
  · rfl
  · rw [String.toList_append]
    rfl

/-- The digits of a number are read as it. -/
theorem read_repr (n : ℕ) : read n.repr.toList = n := by
  obtain ⟨c, rest, hlist, hdigit⟩ := exists_cons_repr n
  have hminus : c ≠ '-' := by
    rintro rfl
    exact absurd hdigit (by decide)
  have hread : read n.repr.toList = (Nat.ofDigitChars 10 n.repr.toList 0 : ℤ) := by
    rw [hlist, read]
    rintro digits heq
    exact hminus (List.cons.inj heq).1
  rw [hread, Nat.toList_repr, Nat.ofDigitChars_ten_toDigits]

/-- **A decimal reads back.** -/
theorem read_toString (z : ℤ) : read (toString z).toList = z := by
  rw [toList_toString]
  split
  · rw [read_repr]
    omega
  · -- after the minus there are the digits of the number without it
    have hdigits : Nat.ofDigitChars 10 (-z).toNat.repr.toList 0 = (-z).toNat := by
      rw [Nat.toList_repr, Nat.ofDigitChars_ten_toDigits]
    rw [read, hdigits]
    omega

/-- Integers are told by what is printed of them. -/
theorem toString_inj {z z' : ℤ} (h : toString z = toString z') : z = z' := by
  rw [← read_toString z, ← read_toString z', h]

/-- The letters of a decimal. -/
theorem isDecimal_of_mem {z : ℤ} {c : Char} (h : c ∈ (toString z).toList) : isDecimal c = true := by
  rw [toList_toString] at h
  unfold isDecimal
  split at h
  · simp [isDigit_of_mem_repr h]
  · rcases List.mem_cons.mp h with rfl | h
    · rfl
    · simp [isDigit_of_mem_repr h]

/-- A decimal is not empty. -/
theorem exists_head (z : ℤ) : ∃ c, (toString z).toList.head? = some c ∧ isDecimal c = true := by
  cases h : (toString z).toList with
  | nil =>
      rw [toList_toString] at h
      split at h
      · obtain ⟨c, rest, hlist, -⟩ := exists_cons_repr z.toNat
        rw [hlist] at h
        cases h
      · cases h
  | cons c rest => exact ⟨c, rfl, isDecimal_of_mem (h ▸ List.mem_cons_self)⟩

end Decimal

end RoqBitmex
