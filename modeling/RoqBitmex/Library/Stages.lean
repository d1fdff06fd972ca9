import Mathlib.Data.Nat.Notation

/-! # Stages

A process goes through stages in order, and in each waits for a number of answers, which may be
none. `Stages` are the calls that drive such a process, each with the stages it enters, and
`Stages.Follows` says what its user may rely on: where the process stands is where walking over the
stages has led it. -/

namespace RoqBitmex

universe u v

/-- The calls that drive a process through its stages. Each is given how many answers a stage waits
for, and tells which stages it enters, in order. -/
structure Stages (S : Type u) (D : Type v) where
  /-- A process that has not begun. -/
  idle : D
  /-- Start over. -/
  reset : D → D
  /-- Begin. -/
  begin : (S → ℕ) → D → D × List S
  /-- Take an answer for a stage. -/
  checkRelaxed : (S → ℕ) → D → S → D × List S

namespace Stages

variable {S : Type u} {D : Type v}

/-- Enter stages up to the first one that waits: where that leads, with the answers still to come,
and the stages entered. -/
def walk (count : S → ℕ) : S → List S → (S × ℕ) × List S
  | stage, [] => ((stage, 0), [])
  | _, next :: rest =>
      if count next = 0 then ((walk count next rest).1, next :: (walk count next rest).2)
      else ((next, count next), [next])

/-- What is relied on, in terms of where a process stands: the stage it is in and the answers still
to come. It stands before the first stage until it begins, an answer counts only for the stage it is
in, and the last answer leads on. -/
structure Follows (p : Stages S D) (count : S → ℕ) (first : S) (after : S → List S)
    (stage : D → S × ℕ) : Prop where
  idle : (stage p.idle).1 = first
  reset : ∀ d, (stage (p.reset d)).1 = first
  begin : ∀ d, (stage d).1 = first →
    (stage (p.begin count d).1, (p.begin count d).2) = walk count first (after first)
  other : ∀ d s, (stage d).1 ≠ s →
    (stage (p.checkRelaxed count d s).1, (p.checkRelaxed count d s).2) = (stage d, [])
  more : ∀ d s n, stage d = (s, n + 2) →
    (stage (p.checkRelaxed count d s).1, (p.checkRelaxed count d s).2) = ((s, n + 1), [])
  last : ∀ d s, stage d = (s, 1) →
    (stage (p.checkRelaxed count d s).1, (p.checkRelaxed count d s).2) = walk count s (after s)

section InOrder

variable [DecidableEq S] (first : S) (after : S → List S)

/-- A process that keeps the stage it is in and counts the answers still to come. -/
def inOrder : Stages S (S × ℕ) where
  idle := (first, 0)
  reset _ := (first, 0)
  begin count _ := walk count first (after first)
  checkRelaxed count d s :=
    if d.1 ≠ s then (d, [])
    else if 1 < d.2 then ((d.1, d.2 - 1), [])
    else walk count d.1 (after d.1)

/-- Counting the answers is as is relied on. -/
theorem follows_inOrder (count : S → ℕ) :
    (inOrder first after).Follows count first after id where
  idle := rfl
  reset _ := rfl
  begin _ _ := rfl
  other d s h := by simp [inOrder, show d.1 ≠ s from h]
  more d s n h := by
    obtain rfl : d = (s, n + 2) := h
    simp [inOrder]
  last d s h := by
    obtain rfl : d = (s, 1) := h
    simp [inOrder]

end InOrder

end Stages

end RoqBitmex
