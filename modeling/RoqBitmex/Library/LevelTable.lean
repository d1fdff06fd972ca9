import Mathlib.Logic.Function.Basic
import Mathlib.Algebra.Notation.Defs

/-! # Tables of levels

A table holds an entry at a position, with an amount, under each of its keys. A view of it knows
positions only: the amount at each position, and zero where no entry is. `Views` relates the two,
and the rules `views_set` and `views_erase` say which change of a view follows a change of the
table. They need the entry of a key to stay at its position, and, to erase, entries at distinct
positions. -/

namespace RoqBitmex

universe u v w

variable {κ : Type u} {π : Type v} {ν : Type w}

/-- A table: the position and the amount of the entry under each key that has one. -/
abbrev LevelTable (κ : Type u) (π : Type v) (ν : Type w) := κ → Option (π × ν)

namespace LevelTable

/-- The entries of different keys are at different positions. -/
def Distinct (t : LevelTable κ π ν) : Prop :=
  ∀ k k' x x', t k = some x → t k' = some x' → x.1 = x'.1 → k = k'

/-- The amount a table shows at a position. -/
def Shows [Zero ν] (t : LevelTable κ π ν) (p : π) (v : ν) : Prop :=
  (∃ k, t k = some (p, v)) ∨ v = 0 ∧ ∀ k v', t k ≠ some (p, v')

/-- A view of a table: the amounts it shows. -/
def Views [Zero ν] (t : LevelTable κ π ν) (b : π → ν) : Prop := ∀ p, t.Shows p (b p)

/-- The view of the empty table. -/
theorem views_empty [Zero ν] : Views (fun _ => none : LevelTable κ π ν) fun _ => 0 :=
  fun _ => Or.inr ⟨rfl, fun _ _ => nofun⟩

/-- The levels of an empty table are distinct. -/
theorem distinct_empty : Distinct (fun _ => none : LevelTable κ π ν) := nofun

section Update

variable [DecidableEq κ] {t : LevelTable κ π ν} {k : κ} {p : π}

/-- An entry put where its key has been, if anywhere, and where no other key is. -/
theorem Distinct.set (ht : t.Distinct) (hfresh : ∀ k' x, k' ≠ k → t k' = some x → x.1 ≠ p) (v : ν) :
    Distinct (Function.update t k (some (p, v))) := by
  -- the new entry is one of the two, both, or neither
  intro k₁ k₂ x₁ x₂ h₁ h₂ hpos
  by_cases hk₁ : k₁ = k
  · by_cases hk₂ : k₂ = k
    · rw [hk₁, hk₂]
    · rw [hk₁, Function.update_self] at h₁
      rw [Function.update_of_ne hk₂] at h₂
      obtain rfl := Option.some.inj h₁
      exact absurd hpos.symm (hfresh k₂ x₂ hk₂ h₂)
  · rw [Function.update_of_ne hk₁] at h₁
    by_cases hk₂ : k₂ = k
    · rw [hk₂, Function.update_self] at h₂
      obtain rfl := Option.some.inj h₂
      exact absurd hpos (hfresh k₁ x₁ hk₁ h₁)
    · rw [Function.update_of_ne hk₂] at h₂
      exact ht k₁ k₂ x₁ x₂ h₁ h₂ hpos

/-- Erasing keeps positions distinct. -/
theorem Distinct.erase (ht : t.Distinct) (k : κ) :
    Distinct (Function.update t k none) := by
  have hold : ∀ {k' x}, Function.update t k none k' = some x → t k' = some x := by
    intro k' x h
    by_cases hk : k' = k
    · rw [hk, Function.update_self] at h
      cases h
    · rwa [Function.update_of_ne hk] at h
  intro k₁ k₂ x₁ x₂ h₁ h₂ hpos
  exact ht k₁ k₂ x₁ x₂ (hold h₁) (hold h₂) hpos

variable [DecidableEq π] [Zero ν] {b : π → ν}

/-- **Setting an entry.** If the entry of a key does not move, setting it in the table and its
amount in the view agree. -/
theorem views_set (h : t.Views b) (hstay : ∀ x, t k = some x → x.1 = p) (v : ν) :
    Views (Function.update t k (some (p, v))) (Function.update b p v) := by
  intro p'
  by_cases hp : p' = p
  · -- at the entry's position its amount is shown
    rw [hp, Function.update_self]
    exact Or.inl ⟨k, Function.update_self ..⟩
  · rw [Function.update_of_ne hp]
    rcases h p' with ⟨k', hk'⟩ | ⟨hzero, hnone⟩
    · have hne : k' ≠ k := fun hk => hp (hstay _ (hk ▸ hk'))
      exact Or.inl ⟨k', by rw [Function.update_of_ne hne, hk']⟩
    · refine Or.inr ⟨hzero, fun k' v' => ?_⟩
      by_cases hk : k' = k
      · rw [hk, Function.update_self]
        exact fun heq => hp (congrArg Prod.fst (Option.some.inj heq)).symm
      · rw [Function.update_of_ne hk]
        exact hnone k' v'

/-- **Erasing an entry.** If positions are distinct, erasing an entry of the table and clearing its
position in the view agree. -/
theorem views_erase (h : t.Views b) (ht : t.Distinct) {x : π × ν} (hx : t k = some x) :
    Views (Function.update t k none) (Function.update b x.1 0) := by
  intro p'
  by_cases hp : p' = x.1
  · -- no other key has an entry at the position
    rw [hp, Function.update_self]
    refine Or.inr ⟨rfl, fun k' v' => ?_⟩
    by_cases hk : k' = k
    · rw [hk, Function.update_self]
      exact nofun
    · rw [Function.update_of_ne hk]
      exact fun heq => hk (ht k' k _ _ heq hx rfl)
  · rw [Function.update_of_ne hp]
    rcases h p' with ⟨k', hk'⟩ | ⟨hzero, hnone⟩
    · have hne : k' ≠ k := by
        rintro rfl
        rw [hx] at hk'
        exact hp (congrArg Prod.fst (Option.some.inj hk')).symm
      exact Or.inl ⟨k', by rw [Function.update_of_ne hne, hk']⟩
    · refine Or.inr ⟨hzero, fun k' v' => ?_⟩
      by_cases hk : k' = k
      · rw [hk, Function.update_self]
        exact nofun
      · rw [Function.update_of_ne hk]
        exact hnone k' v'

end Update

end LevelTable

end RoqBitmex
