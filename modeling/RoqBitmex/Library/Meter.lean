import Mathlib.Algebra.BigOperators.Group.List.Basic
import Mathlib.Algebra.Order.Group.Defs
import Mathlib.Tactic.Abel

/-! # Meters

A meter counts what passes, and is read from time to time. A reading says how much has passed just
now and what the meter shows; what has passed without a reading shows in the next one. So what the
meter shows in the end is what has been read to pass and what has not, and the two agree exactly
when each reading continues the one before. -/

namespace RoqBitmex

universe u

/-- A reading of a meter. -/
structure Reading (A : Type u) where
  /-- What has passed just now. -/
  passed : A
  /-- What the meter shows. -/
  shown : A
  deriving DecidableEq, Repr

namespace Meter

variable {A : Type u}

/-- What a meter shows in the end. -/
def shown (start : A) (readings : List (Reading A)) : A :=
  readings.foldl (fun _ reading => reading.shown) start

@[simp] theorem shown_nil (start : A) : shown start [] = start := rfl

@[simp] theorem shown_cons (start : A) (reading : Reading A) (readings : List (Reading A)) :
    shown start (reading :: readings) = shown reading.shown readings := rfl

section AddCommGroup

variable [AddCommGroup A]

/-- What has been read to pass. -/
def passed (readings : List (Reading A)) : A := (readings.map Reading.passed).sum

@[simp] theorem passed_nil : passed ([] : List (Reading A)) = 0 := rfl

@[simp] theorem passed_cons (reading : Reading A) (readings : List (Reading A)) :
    passed (reading :: readings) = reading.passed + passed readings := List.sum_cons

/-- What has passed without a reading. -/
def unread (start : A) : List (Reading A) → A
  | [] => 0
  | reading :: readings =>
      (reading.shown - (start + reading.passed)) + unread reading.shown readings

/-- Each reading continues the one before. -/
def Continues (start : A) : List (Reading A) → Prop
  | [] => True
  | reading :: readings =>
      start + reading.passed = reading.shown ∧ Continues reading.shown readings

instance [DecidableEq A] : ∀ (start : A) readings, Decidable (Continues start readings)
  | _, [] => isTrue trivial
  | start, reading :: readings =>
      have := instDecidableContinuesOfDecidableEq reading.shown readings
      inferInstanceAs (Decidable (start + reading.passed = reading.shown ∧ _))

/-- **What a meter shows** is where it has started, what has been read to pass and what has not. -/
theorem shown_eq (start : A) (readings : List (Reading A)) :
    shown start readings = start + passed readings + unread start readings := by
  induction readings generalizing start with
  | nil => simp [unread]
  | cons reading readings ih =>
      rw [shown_cons, ih, passed_cons, unread]
      abel

/-- Where each reading continues the one before, everything has been read. -/
theorem Continues.unread_eq_zero {start : A} {readings : List (Reading A)}
    (h : Continues start readings) : unread start readings = 0 := by
  induction readings generalizing start with
  | nil => rfl
  | cons reading readings ih =>
      rw [unread, ih h.2, h.1, sub_self, add_zero]

variable [PartialOrder A] [IsOrderedAddMonoid A]

/-- No reading is repeated or late: a meter shows at least what it showed and what has passed. -/
def Ahead (start : A) : List (Reading A) → Prop
  | [] => True
  | reading :: readings =>
      start + reading.passed ≤ reading.shown ∧ Ahead reading.shown readings

instance [DecidableLE A] : ∀ (start : A) readings, Decidable (Ahead start readings)
  | _, [] => isTrue trivial
  | start, reading :: readings =>
      have := instDecidableAheadOfDecidableLE reading.shown readings
      inferInstanceAs (Decidable (start + reading.passed ≤ reading.shown ∧ _))

/-- What has passed without a reading is nothing negative. -/
theorem Ahead.unread_nonneg {start : A} {readings : List (Reading A)} (h : Ahead start readings) :
    0 ≤ unread start readings := by
  induction readings generalizing start with
  | nil => exact le_rfl
  | cons reading readings ih => exact add_nonneg (sub_nonneg.mpr h.1) (ih h.2)

/-- Nothing has passed without a reading exactly when each continues the one before. -/
theorem Ahead.unread_eq_zero_iff {start : A} {readings : List (Reading A)}
    (h : Ahead start readings) : unread start readings = 0 ↔ Continues start readings := by
  refine ⟨fun hzero => ?_, Continues.unread_eq_zero⟩
  induction readings generalizing start with
  | nil => trivial
  | cons reading readings ih =>
      -- neither part is negative, so neither makes up for the other
      obtain ⟨hgap, hrest⟩ := (add_eq_zero_iff_of_nonneg (sub_nonneg.mpr h.1)
        h.2.unread_nonneg).mp hzero
      exact ⟨(sub_eq_zero.mp hgap).symm, ih h.2 hrest⟩

/-- **What has been read to pass** is no more than what the meter shows, and all of it exactly when
each reading continues the one before. -/
theorem Ahead.passed_le {start : A} {readings : List (Reading A)} (h : Ahead start readings) :
    start + passed readings ≤ shown start readings := by
  rw [shown_eq]
  exact le_add_of_nonneg_right h.unread_nonneg

/-- What has been read to pass is all that the meter shows exactly when each reading continues the
one before. -/
theorem Ahead.passed_eq_iff {start : A} {readings : List (Reading A)} (h : Ahead start readings) :
    start + passed readings = shown start readings ↔ Continues start readings := by
  rw [shown_eq, left_eq_add, h.unread_eq_zero_iff]

end AddCommGroup

end Meter

end RoqBitmex
