import Mathlib.Data.List.Basic
import Mathlib.Data.List.Nodup
import Mathlib.Data.Nat.Notation

/-! # Tickets

Things are handed out under numbers and given back, in any order and each at most once. The numbers
are taken in turn, so what is held has distinct numbers, all of them given out before; the structure
carries this. What has been issued is, at any time, what has been settled and what is held. -/

namespace RoqBitmex

universe u

/-- Things that are held, each under its ticket, and how many tickets have been issued. -/
structure Tickets (β : Type u) where
  issued : ℕ
  held : List (ℕ × β)
  nodup : (held.map Prod.fst).Nodup
  lt : ∀ p ∈ held, p.1 < issued

namespace Tickets

variable {β : Type u}

/-- Nothing has been issued. -/
def none : Tickets β where
  issued := 0
  held := []
  nodup := List.nodup_nil
  lt := by simp

/-- Hand out a thing, under the next number. -/
def issue (t : Tickets β) (x : β) : Tickets β where
  issued := t.issued + 1
  held := t.held ++ [(t.issued, x)]
  nodup := by
    rw [List.map_append, List.nodup_append]
    refine ⟨t.nodup, List.nodup_singleton _, ?_⟩
    -- the next number is greater than all that are held
    rintro n hn m hm rfl
    obtain ⟨p, hp, rfl⟩ := List.mem_map.mp hn
    have hlt := t.lt p hp
    rw [List.map_singleton, List.mem_singleton] at hm
    omega
  lt := by
    intro p hp
    rcases List.mem_append.mp hp with hp | hp
    · exact Nat.lt_succ_of_lt (t.lt p hp)
    · rw [List.mem_singleton.mp hp]
      exact Nat.lt_succ_self _

/-- The thing that is held under a number. -/
def find (t : Tickets β) (n : ℕ) : Option β := t.held.lookup n

/-- Give back the thing that is held under a number. -/
def settle (t : Tickets β) (n : ℕ) : Tickets β where
  issued := t.issued
  held := t.held.filter fun p => p.1 ≠ n
  nodup := t.nodup.sublist (List.filter_sublist.map _)
  lt p hp := t.lt p (List.mem_of_mem_filter hp)

/-- What is found is held. -/
theorem mem_of_find {t : Tickets β} {n : ℕ} {x : β} (h : t.find n = some x) : (n, x) ∈ t.held := by
  obtain ⟨before, after, heq, -⟩ := List.lookup_eq_some_iff.mp h
  rw [heq]
  exact List.mem_append_right _ List.mem_cons_self

/-- What is issued is held. -/
theorem held_issue (t : Tickets β) (x : β) : (t.issue x).held = t.held ++ [(t.issued, x)] := rfl

/-- Of distinct numbers, giving one back leaves the others. -/
theorem perm_filter {l : List (ℕ × β)} (hl : (l.map Prod.fst).Nodup) {n : ℕ} {x : β}
    (h : (n, x) ∈ l) : l.Perm ((n, x) :: l.filter fun p => p.1 ≠ n) := by
  induction l with
  | nil => cases h
  | cons p l ih =>
      obtain ⟨hfresh, hnodup⟩ := List.nodup_cons.mp hl
      rcases List.mem_cons.mp h with rfl | h
      · -- the number is no other one's, so the rest is left as it is
        have hrest : (l.filter fun p => p.1 ≠ n) = l := by
          refine List.filter_eq_self.mpr fun p hp => ?_
          rw [decide_eq_true_eq]
          rintro rfl
          exact hfresh (List.mem_map.mpr ⟨p, hp, rfl⟩)
        simp only [List.filter_cons, ne_eq, not_true_eq_false, decide_false, Bool.false_eq_true,
          if_false] at hrest ⊢
        rw [hrest]
      · have hne : p.1 ≠ n := by
          intro heq
          apply hfresh
          rw [heq]
          exact List.mem_map_of_mem (f := Prod.fst) h
        rw [List.filter_cons_of_pos (by simpa using hne)]
        exact ((ih hnodup h).cons p).trans (List.Perm.swap _ _ _)

/-- **Giving back.** What is held is what is given back and what is held after it. -/
theorem perm_settle {t : Tickets β} {n : ℕ} {x : β} (h : t.find n = some x) :
    t.held.Perm ((n, x) :: (t.settle n).held) :=
  perm_filter t.nodup (mem_of_find h)

/-- What has been issued, settled and held, in a run: the books are balanced. -/
structure Balanced (t : Tickets β) (issued settled : List (ℕ × β)) : Prop where
  numbers : issued.map Prod.fst = List.range t.issued
  perm : issued.Perm (settled ++ t.held)

/-- Before the first ticket nothing is held. -/
theorem balanced_none : Balanced (none : Tickets β) [] [] where
  numbers := rfl
  perm := List.Perm.refl _

variable {t : Tickets β} {issued settled : List (ℕ × β)}

/-- A ticket that is issued is held. -/
theorem Balanced.issue (h : t.Balanced issued settled) (x : β) :
    (t.issue x).Balanced (issued ++ [(t.issued, x)]) settled where
  numbers := by
    rw [List.map_append, h.numbers]
    exact (List.range_succ).symm
  perm := by
    rw [held_issue, ← List.append_assoc]
    exact h.perm.append_right _

/-- A ticket that is settled is held no more. -/
theorem Balanced.settle (h : t.Balanced issued settled) {n : ℕ} {x : β} (hx : t.find n = some x) :
    (t.settle n).Balanced issued (settled ++ [(n, x)]) where
  numbers := h.numbers
  perm := by
    rw [List.append_assoc]
    exact h.perm.trans ((perm_settle hx).append_left settled)

/-- No number is issued twice. -/
theorem Balanced.nodup_issued (h : t.Balanced issued settled) : (issued.map Prod.fst).Nodup := by
  rw [h.numbers]
  exact List.nodup_range

/-- What is held has been issued. -/
theorem Balanced.mem_issued (h : t.Balanced issued settled) {p : ℕ × β} (hp : p ∈ t.held) :
    p ∈ issued :=
  h.perm.mem_iff.mpr (List.mem_append_right settled hp)

end Tickets

end RoqBitmex
