import Mathlib.Data.List.Nodup
import Mathlib.Logic.Function.Basic
import RoqBitmex.Library.Machine

/-! # Machines side by side

Machines that share nothing take their inputs in any order, and an output that halts one of them
halts all. What is seen of one machine is its own run of the inputs that were reached and were its
own (`outputs_only`), so what holds along every run of the machine alone holds along every run of it
among the others (`along_interleave`). -/

namespace RoqBitmex

universe u v w x y

namespace Machine

variable {κ : Type u} [DecidableEq κ] {σ : κ → Type v} {ι : κ → Type w} {ο : κ → Type x}

/-- Machines side by side. -/
def interleave (m : (k : κ) → Machine (σ k) (ι k) (ο k)) :
    Machine ((k : κ) → σ k) ((k : κ) × ι k) ((k : κ) × ο k) where
  step s i :=
    (Function.update s i.1 ((m i.1).next (s i.1) i.2),
      ((m i.1).step (s i.1) i.2).2.map (Sigma.mk i.1))
  halts o := (m o.1).halts o.2

/-- What belongs to one of several. -/
def ofOne {β : κ → Type y} (k : κ) (x : (k : κ) × β k) : Option (β k) :=
  if h : x.1 = k then some (h ▸ x.2) else none

/-- What belongs to one of several, in order. -/
def only {β : κ → Type y} (k : κ) (xs : List ((k : κ) × β k)) : List (β k) := xs.filterMap (ofOne k)

section Only

variable {β : κ → Type y} {k k' : κ}

/-- Of an empty list nothing is kept. -/
@[simp] theorem only_nil : only k ([] : List ((k : κ) × β k)) = [] := rfl

/-- An element of the machine is kept. -/
@[simp] theorem only_cons_self (x : β k) (xs : List ((k : κ) × β k)) :
    only k (⟨k, x⟩ :: xs) = x :: only k xs := by
  simp [only, ofOne]

/-- An element of another machine is left out. -/
theorem only_cons_of_ne (h : k' ≠ k) (x : β k') (xs : List ((k : κ) × β k)) :
    only k (⟨k', x⟩ :: xs) = only k xs := by
  simp [only, ofOne, h]

/-- What is kept of a list is what is kept of its parts. -/
@[simp] theorem only_append (xs ys : List ((k : κ) × β k)) :
    only k (xs ++ ys) = only k xs ++ only k ys := List.filterMap_append

/-- A machine's own elements are all kept. -/
@[simp] theorem only_map_self (xs : List (β k)) : only k (xs.map (Sigma.mk k)) = xs := by
  induction xs with
  | nil => rfl
  | cons x xs ih => rw [List.map_cons, only_cons_self, ih]

/-- Nothing of another machine is kept. -/
theorem only_map_of_ne (h : k' ≠ k) (xs : List (β k')) : only k (xs.map (Sigma.mk k')) = [] := by
  induction xs with
  | nil => rfl
  | cons x xs ih => rw [List.map_cons, only_cons_of_ne h, ih]

/-- What is handed to each of several once is handed to one of them once. -/
theorem only_map_of_nodup {τ : Type*} {e : τ → κ} (he : e.Injective) {ts : List τ}
    (hts : ts.Nodup) {t : τ} (ht : t ∈ ts) (f : (t : τ) → β (e t)) :
    only (e t) (ts.map fun t => (⟨e t, f t⟩ : (k : κ) × β k)) = [f t] := by
  have hothers : ∀ us : List τ, t ∉ us →
      only (e t) (us.map fun t => (⟨e t, f t⟩ : (k : κ) × β k)) = [] := by
    intro us hus
    induction us with
    | nil => rfl
    | cons u us ih =>
        rw [List.mem_cons, not_or] at hus
        rw [List.map_cons, only_cons_of_ne (he.ne (Ne.symm hus.1)), ih hus.2]
  -- the others come before it and after it
  obtain ⟨before, after, rfl⟩ := List.append_of_mem ht
  have hfresh : t ∉ before ++ after := (List.nodup_cons.mp (List.nodup_middle.mp hts)).1
  rw [List.mem_append, not_or] at hfresh
  rw [List.map_append, List.map_cons, only_append, only_cons_self, hothers before hfresh.1,
    hothers after hfresh.2]
  rfl

/-- What is put out of one of several only is put out of its own. -/
theorem flatMap_only {γ : Type*} {f : ((k : κ) × β k) → List γ} {xs : List ((k : κ) × β k)}
    (h : ∀ x ∈ xs, x.1 ≠ k → f x = []) :
    xs.flatMap f = (only k xs).flatMap fun x => f ⟨k, x⟩ := by
  induction xs with
  | nil => rfl
  | cons x xs ih =>
      obtain ⟨k', x⟩ := x
      have hrest := ih fun y hy => h y (List.mem_cons_of_mem _ hy)
      rw [List.flatMap_cons, hrest]
      by_cases hk : k' = k
      · subst hk
        rw [only_cons_self, List.flatMap_cons]
      · rw [only_cons_of_ne hk, h _ List.mem_cons_self hk, List.nil_append]

/-- What is kept are the elements of the list that are the machine's. -/
theorem mem_only {x : β k} {xs : List ((k : κ) × β k)} : x ∈ only k xs ↔ ⟨k, x⟩ ∈ xs := by
  induction xs with
  | nil => simp
  | cons y ys ih =>
      obtain ⟨k', y⟩ := y
      by_cases h : k' = k
      · subst h
        simp [ih]
      · rw [only_cons_of_ne h, ih, List.mem_cons]
        refine (or_iff_right fun heq => h ?_).symm
        exact (congrArg Sigma.fst heq).symm

end Only

variable (m : (k : κ) → Machine (σ k) (ι k) (ο k))

/-! ## Steps -/

/-- What is visible of one machine's outputs is visible of them among the others. -/
theorem visible_interleave (k : κ) (os : List (ο k)) :
    (interleave m).visible (os.map (Sigma.mk k)) = ((m k).visible os).map (Sigma.mk k) := by
  induction os with
  | nil => rfl
  | cons o os ih =>
      rw [List.map_cons, visible, visible, ih]
      show (if (m k).halts o then _ else _) = _
      split <;> rfl

/-- An input puts out what its machine does. -/
theorem out_interleave (s : (k : κ) → σ k) (k : κ) (i : ι k) :
    (interleave m).out s ⟨k, i⟩ = ((m k).out (s k) i).map (Sigma.mk k) :=
  visible_interleave m k _

/-- An input halts the whole exactly when it halts its machine. -/
theorem stops_interleave (s : (k : κ) → σ k) (k : κ) (i : ι k) :
    (interleave m).stops s ⟨k, i⟩ = (m k).stops (s k) i := by
  show (((m k).step (s k) i).2.map (Sigma.mk k)).any (interleave m).halts = _
  rw [List.any_map]
  rfl

/-- A machine goes on with its input as it does alone. -/
theorem next_interleave_self (s : (k : κ) → σ k) (k : κ) (i : ι k) :
    (interleave m).next s ⟨k, i⟩ k = (m k).next (s k) i := Function.update_self _ _ _

/-- A machine stays as it is when another one has an input. -/
theorem next_interleave_of_ne (s : (k : κ) → σ k) {k k' : κ} (h : k' ≠ k) (i : ι k') :
    (interleave m).next s ⟨k', i⟩ k = s k := Function.update_of_ne h.symm _ _

/-! ## Runs -/

/-- The inputs that are reached. -/
def reached {σ : Type v} {ι : Type w} {ο : Type x} (m : Machine σ ι ο) (s : σ) (is : List ι) :
    List ι :=
  m.collect (fun _ i => i) s is

/-- The inputs that are reached are the first one and, unless it halts, those reached after it. -/
theorem reached_cons {σ : Type v} {ι : Type w} {ο : Type x} (m : Machine σ ι ο) (s : σ) (i : ι)
    (is : List ι) :
    m.reached s (i :: is) = i :: if m.stops s i then [] else m.reached (m.next s i) is := rfl

/-- The inputs that are reached come first. -/
theorem reached_isPrefix {σ : Type v} {ι : Type w} {ο : Type x} (m : Machine σ ι ο) (s : σ)
    (is : List ι) : m.reached s is <+: is := by
  induction is generalizing s with
  | nil => exact List.prefix_refl []
  | cons i is ih =>
      rw [reached_cons]
      cases m.stops s i with
      | true => exact (List.prefix_cons_inj i).mpr List.nil_prefix
      | false => exact (List.prefix_cons_inj i).mpr (ih (m.next s i))

/-- What is put out of the inputs that are reached, input by input, if the state does not matter for
it. -/
theorem outputs_flatMap {σ : Type v} {ι : Type w} {ο : Type x} {γ : Type y} (m : Machine σ ι ο)
    {f : ο → List γ} {g : ι → List γ} (h : ∀ s i, (m.out s i).flatMap f = g i) (s : σ)
    (is : List ι) : (m.outputs s is).flatMap f = (m.reached s is).flatMap g := by
  induction is generalizing s with
  | nil => rfl
  | cons i is ih =>
      rw [outputs, reached_cons, List.flatMap_append, List.flatMap_cons, h]
      cases m.stops s i with
      | true => rfl
      | false => exact congrArg _ (ih (m.next s i))

/-- **What is seen of one machine** among the others is its own run of its own inputs. -/
theorem outputs_only (k : κ) (s : (k : κ) → σ k) (is : List ((k : κ) × ι k)) :
    only k ((interleave m).outputs s is) =
      (m k).outputs (s k) (only k ((interleave m).reached s is)) := by
  induction is generalizing s with
  | nil => rfl
  | cons i is ih =>
      obtain ⟨k', i⟩ := i
      -- an input of another machine puts out nothing of this one's, but it may be the last one
      rw [outputs, reached_cons, out_interleave, stops_interleave]
      by_cases h : k' = k
      · subst h
        rw [only_append, only_map_self, only_cons_self, outputs]
        cases hstops : (m k').stops (s k') i with
        | true => rfl
        | false =>
            have hrest := ih ((interleave m).next s ⟨k', i⟩)
            rw [next_interleave_self] at hrest
            exact congrArg _ hrest
      · rw [only_append, only_map_of_ne h, only_cons_of_ne h, List.nil_append]
        cases hstops : (m k').stops (s k') i with
        | true => rfl
        | false =>
            have hrest := ih ((interleave m).next s ⟨k', i⟩)
            rw [next_interleave_of_ne m s h] at hrest
            exact hrest

/-- The inputs of one machine that are reached among the others are reached in its own run. -/
theorem reached_only (k : κ) (s : (k : κ) → σ k) (is : List ((k : κ) × ι k)) :
    (m k).reached (s k) (only k ((interleave m).reached s is)) =
      only k ((interleave m).reached s is) := by
  induction is generalizing s with
  | nil => rfl
  | cons i is ih =>
      obtain ⟨k', i⟩ := i
      have hrest := ih ((interleave m).next s ⟨k', i⟩)
      rw [reached_cons, stops_interleave]
      by_cases h : k' = k
      · subst h
        rw [only_cons_self, reached_cons]
        cases (m k').stops (s k') i with
        | true => rfl
        | false =>
            rw [next_interleave_self] at hrest
            exact congrArg _ hrest
      · rw [only_cons_of_ne h]
        cases (m k').stops (s k') i with
        | true => rfl
        | false =>
            rw [next_interleave_of_ne m s h] at hrest
            exact hrest

/-! ## Marked outputs -/

/-- Of several, those that can only be of one are picked out from its own. -/
theorem filter_eq_map_only {β : κ → Type y} {k : κ} {xs : List ((k : κ) × β k)}
    {p : (k : κ) × β k → Bool} (h : ∀ x ∈ xs, p x = true → x.1 = k) :
    xs.filter p = ((only k xs).filter fun x => p ⟨k, x⟩).map (Sigma.mk k) := by
  induction xs with
  | nil => rfl
  | cons x xs ih =>
      obtain ⟨k', x⟩ := x
      have hrest := ih fun y hy => h y (List.mem_cons_of_mem _ hy)
      by_cases hk : k' = k
      · subst hk
        rw [only_cons_self, List.filter_cons, List.filter_cons, hrest]
        split <;> rfl
      · have hx : ¬ p ⟨k', x⟩ = true := fun hp => hk (h _ List.mem_cons_self hp)
        rw [only_cons_of_ne hk, List.filter_cons_of_neg hx, hrest]

/-- **What is seen under marks.** Where each machine marks its outputs with marks that no other one
uses, what is put out under the marks of one machine is what it puts out with a mark, in its own run
of its own inputs. -/
theorem marked_outputs {τ : Type y} [DecidableEq τ] {mark : (k : κ) → ο k → Option τ}
    {marks : κ → List τ} (hdisjoint : ∀ k k', k ≠ k' → (marks k).Disjoint (marks k'))
    {s : (k : κ) → σ k}
    (hown : ∀ k is, ∀ o ∈ (m k).outputs (s k) is, ∀ t, mark k o = some t → t ∈ marks k)
    (is : List ((k : κ) × ι k)) (k : κ) :
    (((interleave m).outputs s is).filter fun o => (mark o.1 o.2).any (· ∈ marks k)) =
      (((m k).outputs (s k) (only k ((interleave m).reached s is))).filter
        fun o => (mark k o).isSome).map (Sigma.mk k) := by
  have hone : ∀ o ∈ (interleave m).outputs s is,
      (mark o.1 o.2).any (· ∈ marks k) = true → o.1 = k := by
    rintro ⟨k', o⟩ ho hmarked
    obtain ⟨t, ht, hmem⟩ := (Option.any_eq_true _ _).mp hmarked
    rw [decide_eq_true_eq] at hmem
    -- the output is of a run of its own machine, so its mark is one of that machine's
    have hrun := mem_only.mpr ho
    rw [outputs_only] at hrun
    by_contra hne
    exact hdisjoint k' k hne (hown k' _ o hrun t ht) hmem
  rw [filter_eq_map_only hone, outputs_only]
  congr 1
  refine List.filter_congr fun o ho => ?_
  cases ht : mark k o with
  | none => rfl
  | some t => simpa using hown k _ o ho t ht

/-! ## Conditions along a run -/

variable {α : Type y} (k : κ)

/-- A monitor of one machine, which sees nothing of the others. -/
def among (w : Monitor (σ k) (ι k) (ο k) α) :
    Monitor ((k : κ) → σ k) ((k : κ) × ι k) ((k : κ) × ο k) α where
  input s a i := ((ofOne k i).map (w.input (s k) a)).getD a
  output a o := ((ofOne k o).map (w.output a)).getD a

/-- A condition on the inputs of one machine. -/
def onOne (ok : σ k → α → ι k → Prop) (s : (k : κ) → σ k) (a : α) (i : (k : κ) × ι k) : Prop :=
  ∀ i', ofOne k i = some i' → ok (s k) a i'

variable {m k} {w : Monitor (σ k) (ι k) (ο k) α}

/-- An element of the machine is one of it. -/
theorem ofOne_self {β : κ → Type y} (x : β k) : ofOne k (⟨k, x⟩ : (k : κ) × β k) = some x := by
  simp [ofOne]

/-- An element of another machine is none of it. -/
theorem ofOne_of_ne {β : κ → Type y} {k' : κ} (h : k' ≠ k) (x : β k') :
    ofOne k (⟨k', x⟩ : (k : κ) × β k) = none := by
  simp [ofOne, h]

/-- The monitor follows the outputs of its machine. -/
theorem outputs_among_self (a : α) (os : List (ο k)) :
    (among k w).outputs a (os.map (Sigma.mk k)) = w.outputs a os := by
  induction os generalizing a with
  | nil => rfl
  | cons o os ih =>
      rw [List.map_cons, Monitor.outputs_cons, Monitor.outputs_cons, ih]
      congr 1
      show ((ofOne k _).map (w.output a)).getD a = w.output a o
      rw [ofOne_self]
      rfl

/-- The monitor does not see the outputs of another machine. -/
theorem outputs_among_of_ne {k' : κ} (h : k' ≠ k) (a : α) (os : List (ο k')) :
    (among k w).outputs a (os.map (Sigma.mk k')) = a := by
  refine Monitor.outputs_of_forall ?_ a
  rw [List.forall_mem_map]
  intro o _ a
  show ((ofOne k _).map (w.output a)).getD a = a
  rw [ofOne_of_ne h]
  rfl

/-- An input of the machine moves the history as it does when the machine is alone. -/
theorem after_among_self (s : (k : κ) → σ k) (a : α) (i : ι k) :
    (interleave m).after (among k w) s a ⟨k, i⟩ = (m k).after w (s k) a i := by
  rw [after, after, out_interleave, outputs_among_self]
  congr 1
  show ((ofOne k _).map (w.input (s k) a)).getD a = _
  rw [ofOne_self]
  rfl

/-- An input of another machine leaves the history as it is. -/
theorem after_among_of_ne {k' : κ} (h : k' ≠ k) (s : (k : κ) → σ k) (a : α) (i : ι k') :
    (interleave m).after (among k w) s a ⟨k', i⟩ = a := by
  rw [after, out_interleave, outputs_among_of_ne h]
  show ((ofOne k _).map (w.input (s k) a)).getD a = a
  rw [ofOne_of_ne h]
  rfl

/-- **The rule for one of several.** A condition holds along a run of a machine among others exactly
when it holds along its own run of its own inputs. -/
theorem along_interleave {ok : σ k → α → ι k → Prop} {s : (k : κ) → σ k} {a : α}
    {is : List ((k : κ) × ι k)} :
    (interleave m).Along (among k w) (onOne k ok) s a is ↔
      (m k).Along w ok (s k) a (only k ((interleave m).reached s is)) := by
  induction is generalizing s a with
  | nil => exact Iff.rfl
  | cons i is ih =>
      obtain ⟨k', i⟩ := i
      have hrest := @ih ((interleave m).next s ⟨k', i⟩)
        ((interleave m).after (among k w) s a ⟨k', i⟩)
      rw [Along, reached_cons, stops_interleave]
      by_cases h : k' = k
      · subst h
        rw [next_interleave_self, after_among_self] at hrest
        have hok : onOne k' ok s a ⟨k', i⟩ ↔ ok (s k') a i := by
          unfold onOne
          rw [ofOne_self]
          simp
        rw [only_cons_self, Along, hok, after_among_self]
        cases hstops : (m k').stops (s k') i with
        | true => simp
        | false => simpa using fun _ => hrest
      · rw [next_interleave_of_ne m s h, after_among_of_ne h] at hrest
        -- nothing is asked of an input of another machine
        have hok : onOne k ok s a ⟨k', i⟩ := by
          intro i' hi'
          rw [ofOne_of_ne h] at hi'
          cases hi'
        rw [only_cons_of_ne h, and_iff_right hok, after_among_of_ne h]
        cases hstops : (m k').stops (s k') i with
        | true => simp
        | false => simpa using hrest

/-- What holds along every run of a machine alone holds along every run of it among others. -/
theorem along_interleave_of_forall {ok : σ k → α → ι k → Prop} {s : (k : κ) → σ k} {a : α}
    (h : ∀ is, (m k).Along w ok (s k) a is) (is : List ((k : κ) × ι k)) :
    (interleave m).Along (among k w) (onOne k ok) s a is :=
  along_interleave.mpr (h _)

end Machine

end RoqBitmex
