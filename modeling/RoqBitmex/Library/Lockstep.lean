import RoqBitmex.Library.Machine

/-! # Machines in lockstep

Two machines that take the same inputs, and of which nothing can be told apart but their states.
`outputs_eq_of_lockstep` is the rule: where related states answer an input alike and lead to related
states, related states put out the same along every run. -/

namespace RoqBitmex

universe u v w x y

namespace Machine

variable {σ : Type u} {σ' : Type v} {ι : Type w} {ο : Type x} {α : Type y}

/-- Answers that are alike: the outputs are the same, and the states are related. -/
def Alike (R : σ → σ' → Prop) (r : σ × List ο) (r' : σ' × List ο) : Prop := r.2 = r'.2 ∧ R r.1 r'.1

variable {m : Machine σ ι ο} {m' : Machine σ' ι ο} {w : Monitor σ' ι ο α}
  {ok : σ' → α → ι → Prop}

/-- **The rule for lockstep.** Where inputs that meet a condition are answered alike in related
states, a run that meets it puts out the same from related states. -/
theorem outputs_eq_of_lockstep (hhalts : m.halts = m'.halts) (R : α → σ → σ' → Prop)
    (hstep : ∀ a s s' i, R a s s' → ok s' a i →
      Alike (R (m'.after w s' a i)) (m.step s i) (m'.step s' i))
    {a : α} {s : σ} {s' : σ'} {is : List ι} (h : R a s s') (hok : m'.Along w ok s' a is) :
    m.outputs s is = m'.outputs s' is := by
  induction is generalizing a s s' with
  | nil => rfl
  | cons i is ih =>
      obtain ⟨hsame, hnext⟩ := hstep a s s' i h hok.1
      -- as much is seen of the same outputs, and either both machines go on or neither does
      have hvisible : ∀ os : List ο, m.visible os = m'.visible os := by
        intro os
        induction os with
        | nil => rfl
        | cons o os ihos => rw [visible, visible, ihos, hhalts]
      have hout : m.out s i = m'.out s' i := by
        rw [out, out, hsame, hvisible]
      have hstops : m.stops s i = m'.stops s' i := by
        rw [stops, stops, hsame, hhalts]
      rw [outputs, outputs, hout, hstops]
      cases hlive : m'.stops s' i with
      | true => rfl
      | false => exact congrArg _ (ih hnext (hok.2 hlive))

end Machine

end RoqBitmex
