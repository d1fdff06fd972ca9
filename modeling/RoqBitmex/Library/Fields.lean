import Mathlib.Computability.Language

/-! # Texts put together from fields

A text that is put together from fields, with nothing between them, can be taken apart again if no
word of a field goes on into what may follow the field. `Separated S T` says that a text of `S`
followed by a text of `T` is so in one way only. The rules are `separated_of_prefix`, which looks at
pairs of words, and `separated_of_class`, for fields whose words have letters of their own. -/

namespace RoqBitmex

namespace Fields

universe u

variable {α : Type u} {S T U : Language α}

/-- A text of `S` followed by a text of `T` is so in one way only. -/
def Separated (S T : Language α) : Prop :=
  ∀ a ∈ S, ∀ a' ∈ S, ∀ b ∈ T, ∀ b' ∈ T, a ++ b = a' ++ b' → a = a' ∧ b = b'

/-- **Words that do not go on.** If whatever a word of the field has more than another one does not
begin what may follow, the field is separated from what follows. -/
theorem separated_of_prefix
    (h : ∀ a c, a ∈ S → a ++ c ∈ S → c ≠ [] → ∀ b ∈ T, ¬ c <+: b) : Separated S T := by
  intro a ha a' ha' b hb b' hb' heq
  rcases List.append_eq_append_iff.mp heq with ⟨c, hc, hbc⟩ | ⟨c, hc, hbc⟩
  · -- the second word is the longer one, by what the rest of the first text begins with
    have hnil : c = [] := by
      by_contra hne
      apply h a c ha (hc ▸ ha') hne b hb
      rw [hbc]
      exact List.prefix_append c b'
    subst hnil
    simp_all
  -- or the first one is
  · have hnil : c = [] := by
      by_contra hne
      apply h a' c ha' (hc ▸ ha) hne b' hb'
      rw [hbc]
      exact List.prefix_append c b
    subst hnil
    simp_all

/-- **Letters of its own.** A field whose words have only letters of a class is separated from texts
that do not begin with one. -/
theorem separated_of_class (p : α → Bool) (hS : ∀ a ∈ S, ∀ c ∈ a, p c = true)
    (hT : ∀ b ∈ T, ∀ c, b.head? = some c → p c = false) : Separated S T := by
  apply separated_of_prefix
  intro a c _ hac hne b hb hprefix
  -- the letter that the longer word goes on with is of the class and is not
  obtain ⟨x, c, rfl⟩ := List.exists_cons_of_ne_nil hne
  obtain ⟨rest, rfl⟩ := hprefix
  have hx : p x = true := hS _ hac x (by simp)
  have hx' : p x = false := hT _ hb x rfl
  rw [hx] at hx'
  cases hx'

/-- The fields of a text of three are read one after another. -/
theorem Separated.inj₃ {a a' b b' c c' : List α} (hS : Separated S (T * U)) (hT : Separated T U)
    (ha : a ∈ S) (ha' : a' ∈ S) (hb : b ∈ T) (hb' : b' ∈ T) (hc : c ∈ U) (hc' : c' ∈ U)
    (h : a ++ (b ++ c) = a' ++ (b' ++ c')) : a = a' ∧ b = b' ∧ c = c' := by
  have hbc : b ++ c ∈ T * U := Language.append_mem_mul hb hc
  have hbc' : b' ++ c' ∈ T * U := Language.append_mem_mul hb' hc'
  obtain ⟨haa', hrest⟩ := hS a ha a' ha' _ hbc _ hbc' h
  exact ⟨haa', hT b hb b' hb' c hc c' hc' hrest⟩

/-- The first letter of a text of two fields is that of the first, which is not empty. -/
theorem head?_of_mem_mul {p : α → Bool} (hS : ∀ a ∈ S, ∃ c, a.head? = some c ∧ p c = true)
    {text : List α} (h : text ∈ S * T) : ∃ c, text.head? = some c ∧ p c = true := by
  obtain ⟨a, ha, b, -, rfl⟩ := Language.mem_mul.mp h
  obtain ⟨c, hc, hpc⟩ := hS a ha
  refine ⟨c, ?_, hpc⟩
  rw [List.head?_append, hc]
  rfl

end Fields

end RoqBitmex
