import Mathlib.Data.List.Basic

/-! # Machines that answer inputs, and monitors that watch them

A `Machine` answers each input with a new state and a list of outputs; some outputs halt it (a
fatal error ends the process, so nothing after it is seen). A `Monitor` folds a history variable
over the inputs and the visible outputs of a run. Properties of runs are stated with

* **`Along w ok s a is`**: every input of the run that is reached meets `ok`, a condition on the
  state before the step, the history and the input;
* **`Sat w P Q s a is`**: every visible output meets `P` when it appears, and every state reached
  by a step that does not halt meets `Q`.

The rules are `sat_of_along` (a step lemma gives a run lemma), `sat_iff_along` (when the condition
is exact for one step, it is exact for runs) and `along_iff_of_related` (a condition on one history
is a condition on another). `batch` answers several inputs as one, and
`Batching` says that one machine's step is a batch of another's. -/

namespace RoqBitmex

universe u v w x

variable {σ : Type u} {ι : Type v} {ο : Type w} {α : Type x}

/-- A machine: each input is answered with a new state and a list of outputs. -/
structure Machine (σ : Type u) (ι : Type v) (ο : Type w) where
  /-- The answer to one input. -/
  step : σ → ι → σ × List ο
  /-- The outputs after which the machine is gone. -/
  halts : ο → Bool

/-- A monitor folds a history variable over a run. -/
structure Monitor (σ : Type u) (ι : Type v) (ο : Type w) (α : Type x) where
  /-- What an input, met in a state of the machine, does to the history. -/
  input : σ → α → ι → α
  /-- What a visible output does to the history. -/
  output : α → ο → α

namespace Monitor

variable (w : Monitor σ ι ο α)

/-- The history after a list of outputs. -/
def outputs (a : α) (os : List ο) : α := os.foldl w.output a

/-- Each output meets `P` with the history of the outputs before it. -/
def Holds (P : α → ο → Prop) : α → List ο → Prop
  | _, [] => True
  | a, o :: os => P a o ∧ Holds P (w.output a o) os

variable {w} {P : α → ο → Prop}

@[simp] theorem outputs_nil (a : α) : w.outputs a [] = a := rfl

@[simp] theorem outputs_cons (a : α) (o : ο) (os : List ο) :
    w.outputs a (o :: os) = w.outputs (w.output a o) os := rfl

/-- A history follows one part of the outputs and then the other. -/
@[simp] theorem outputs_append (a : α) (os os' : List ο) :
    w.outputs a (os ++ os') = w.outputs (w.outputs a os) os' := by
  simp [outputs]

@[simp] theorem holds_nil (a : α) : w.Holds P a [] := trivial

@[simp] theorem holds_cons (a : α) (o : ο) (os : List ο) :
    w.Holds P a (o :: os) ↔ P a o ∧ w.Holds P (w.output a o) os := Iff.rfl

/-- A list of outputs is judged part by part. -/
@[simp] theorem holds_append (a : α) (os os' : List ο) :
    w.Holds P a (os ++ os') ↔ w.Holds P a os ∧ w.Holds P (w.outputs a os) os' := by
  induction os generalizing a with
  | nil => simp
  | cons o os ih => simp [ih, and_assoc]

/-- A decidable condition is decided on a list of outputs. -/
instance decidableHolds [∀ a o, Decidable (P a o)] : ∀ a os, Decidable (w.Holds P a os)
  | _, [] => isTrue trivial
  | a, o :: os =>
      have : Decidable (w.Holds P (w.output a o) os) := decidableHolds (w.output a o) os
      inferInstanceAs (Decidable (_ ∧ _))

/-- Outputs that meet `P` whatever the history are fine. -/
theorem holds_of_forall {os : List ο} (h : ∀ o ∈ os, ∀ a, P a o) (a : α) : w.Holds P a os := by
  induction os generalizing a with
  | nil => trivial
  | cons o os ih =>
      exact ⟨h o (by simp) a, ih (fun o' ho' => h o' (by simp [ho'])) _⟩

/-- Outputs that meet a condition meet a weaker one. -/
theorem holds_mono {P' : α → ο → Prop} (h : ∀ a o, P a o → P' a o) {a : α} {os : List ο}
    (hos : w.Holds P a os) : w.Holds P' a os := by
  induction os generalizing a with
  | nil => trivial
  | cons o os ih => exact ⟨h a o hos.1, ih hos.2⟩

variable (w) in
/-- An output passes: it meets `P` and leaves the history alone. -/
def Passes (P : α → ο → Prop) (a : α) (o : ο) : Prop := P a o ∧ w.output a o = a

/-- Outputs that pass one by one pass together. -/
theorem holds_of_passes {a : α} {os : List ο} (h : ∀ o ∈ os, w.Passes P a o) :
    w.Holds P a os ∧ w.outputs a os = a := by
  induction os with
  | nil => exact ⟨trivial, rfl⟩
  | cons o os ih =>
      obtain ⟨hmeets, hsame⟩ := h o (by simp)
      obtain ⟨hholds, houtputs⟩ := ih fun o' ho' => h o' (by simp [ho'])
      rw [holds_cons, outputs_cons, hsame]
      exact ⟨⟨hmeets, hholds⟩, houtputs⟩

/-- Where outputs leave the history alone, each is judged by the same history. -/
theorem holds_of_mem (hw : ∀ a o, w.output a o = a) {a : α} {os : List ο} (h : ∀ o ∈ os, P a o) :
    w.Holds P a os :=
  (holds_of_passes fun o ho => ⟨h o ho, hw a o⟩).1

/-- Outputs that leave the history alone leave it alone together. -/
theorem outputs_of_forall {os : List ο} (h : ∀ o ∈ os, ∀ a, w.output a o = a) (a : α) :
    w.outputs a os = a := by
  induction os generalizing a with
  | nil => rfl
  | cons o os ih =>
      rw [outputs_cons, h o (by simp)]
      exact ih (fun o' ho' => h o' (by simp [ho'])) a

/-! ### Answers -/

variable (w) in
/-- An answer keeps an invariant: its outputs meet `P`, and the state and the history they lead to
meet the invariant. -/
def Keeps (P : α → ο → Prop) (Inv : σ → α → Prop) (a : α) (r : σ × List ο) : Prop :=
  w.Holds P a r.2 ∧ Inv r.1 (w.outputs a r.2)

variable {Inv : σ → α → Prop} {a : α} {r : σ × List ο} {os : List ο}

/-- Where the outputs pass, the state decides. -/
theorem Keeps.of_passes (hinv : Inv r.1 a) (h : ∀ o ∈ r.2, w.Passes P a o) : w.Keeps P Inv a r := by
  obtain ⟨hholds, houtputs⟩ := holds_of_passes h
  refine ⟨hholds, ?_⟩
  rw [houtputs]
  exact hinv

/-- An answer may come after other outputs, with the history they lead to. -/
theorem Keeps.after (hos : w.Holds P a os) (h : w.Keeps P Inv (w.outputs a os) r) :
    w.Keeps P Inv a (r.1, os ++ r.2) := by
  refine ⟨?_, ?_⟩
  · rw [holds_append]
    exact ⟨hos, h.1⟩
  · rw [outputs_append]
    exact h.2

/-- Outputs that pass may come before an answer. -/
theorem Keeps.prepend (hos : ∀ o ∈ os, w.Passes P a o) (h : w.Keeps P Inv a r) :
    w.Keeps P Inv a (r.1, os ++ r.2) := by
  obtain ⟨hholds, houtputs⟩ := holds_of_passes hos
  apply Keeps.after hholds
  rw [houtputs]
  exact h

/-- Outputs that pass may come after an answer. -/
theorem Keeps.append (h : w.Keeps P Inv a r) (hos : ∀ o ∈ os, w.Passes P (w.outputs a r.2) o) :
    w.Keeps P Inv a (r.1, r.2 ++ os) := by
  obtain ⟨hholds, houtputs⟩ := holds_of_passes hos
  refine ⟨?_, ?_⟩
  · rw [holds_append]
    exact ⟨h.1, hholds⟩
  · rw [outputs_append, houtputs]
    exact h.2

end Monitor

namespace Machine

variable (m : Machine σ ι ο)

/-! ## Steps and runs -/

/-- The outputs that are seen: up to the first one that halts, which is included. -/
def visible : List ο → List ο
  | [] => []
  | o :: os => if m.halts o then [o] else o :: visible os

/-- The state after an input. -/
def next (s : σ) (i : ι) : σ := (m.step s i).1

/-- The visible outputs of an input. -/
def out (s : σ) (i : ι) : List ο := m.visible (m.step s i).2

/-- Whether an input halts the machine. -/
def stops (s : σ) (i : ι) : Bool := (m.step s i).2.any m.halts

/-- The visible outputs of a run, which ends when the machine halts. -/
def outputs : σ → List ι → List ο
  | _, [] => []
  | s, i :: is => m.out s i ++ if m.stops s i then [] else outputs (m.next s i) is

/-- Something about each input that is reached and the state it is met in. -/
def collect {β : Type*} (f : σ → ι → β) : σ → List ι → List β
  | _, [] => []
  | s, i :: is => f s i :: if m.stops s i then [] else collect f (m.next s i) is

@[simp] theorem visible_nil : m.visible [] = [] := rfl

variable {m}

/-- Without a halting output everything is visible. -/
theorem visible_of_any_eq_false {os : List ο} (h : os.any m.halts = false) : m.visible os = os := by
  induction os with
  | nil => rfl
  | cons o os ih =>
      simp only [List.any_cons, Bool.or_eq_false_iff] at h
      simp [visible, h.1, ih h.2]

/-- A halting output hides everything after its own list. -/
theorem visible_append (os os' : List ο) :
    m.visible (os ++ os') =
      m.visible os ++ if os.any m.halts then [] else m.visible os' := by
  induction os with
  | nil => simp
  | cons o os ih =>
      by_cases h : m.halts o
      · simp [visible, h]
      · simp [visible, h, ih]

/-- What is visible was put out. -/
theorem mem_of_mem_visible {os : List ο} {o : ο} (h : o ∈ m.visible os) : o ∈ os := by
  induction os with
  | nil => simp at h
  | cons o' os ih =>
      by_cases ho : m.halts o'
      · simp only [visible, ho, if_true, List.mem_singleton] at h
        simp [h]
      · simp only [visible, ho, Bool.false_eq_true, if_false, List.mem_cons] at h ⊢
        exact h.imp id ih

/-- One input puts out what its step does. -/
theorem outputs_singleton (s : σ) (i : ι) : m.outputs s [i] = m.out s i := by
  simp [outputs]

/-- Of two inputs the second is not reached if the machine stops at the first. -/
theorem outputs_pair (s : σ) (i j : ι) :
    m.outputs s [i, j] =
      m.out s i ++ if m.stops s i then [] else m.out (m.next s i) j := by
  simp [outputs]

/-- Of a step that does not halt everything is visible. -/
theorem out_of_stops_eq_false {s : σ} {i : ι} (h : m.stops s i = false) :
    m.out s i = (m.step s i).2 := visible_of_any_eq_false h

/-- A machine that nothing halts does not stop. -/
theorem stops_of_halts (h : ∀ o, m.halts o = false) (s : σ) (i : ι) : m.stops s i = false := by
  unfold stops
  rw [List.any_eq_false]
  intro o _
  rw [h o]
  exact Bool.false_ne_true

/-- An output that passes for every history passes in what is visible. -/
theorem holds_visible {w : Monitor σ ι ο α} {P : α → ο → Prop} {os : List ο} {a : α}
    (h : w.Holds P a os) : w.Holds P a (m.visible os) := by
  induction os generalizing a with
  | nil => trivial
  | cons o os ih =>
      by_cases ho : m.halts o
      · simpa [visible, ho] using h.1
      · simpa [visible, ho] using ⟨h.1, ih h.2⟩

/-- An invariant that every step keeps, and under which every step puts out what has a property, so
that what a run puts out has it. -/
theorem outputs_forall (Inv : σ → Prop) {p : ο → Prop}
    (hstep : ∀ s i, Inv s → Inv (m.next s i) ∧ ∀ o ∈ (m.step s i).2, p o) {s : σ} (h : Inv s)
    (is : List ι) : ∀ o ∈ m.outputs s is, p o := by
  induction is generalizing s with
  | nil => simp [outputs]
  | cons i is ih =>
      obtain ⟨hnext, hout⟩ := hstep s i h
      refine List.forall_mem_append.mpr ⟨fun o ho => hout o (m.mem_of_mem_visible ho), ?_⟩
      split
      · simp
      · exact ih hnext

/-- Inputs that are answered alike are answered alike along a run. -/
theorem collect_step_map {b : ι → ι} (h : ∀ s i, m.step s (b i) = m.step s i) (s : σ)
    (is : List ι) : m.collect m.step s (is.map b) = m.collect m.step s is := by
  induction is generalizing s with
  | nil => rfl
  | cons i is ih =>
      rw [List.map_cons, collect, collect, stops, next, h, ih]
      rfl

variable (m)

/-! ## Conditions along a run -/

section Along

variable (w : Monitor σ ι ο α)

/-- The history after an input and its visible outputs. -/
def after (s : σ) (a : α) (i : ι) : α := w.outputs (w.input s a i) (m.out s i)

/-- Something about each input that is reached, the state it is met in and the history before it. -/
def observe {β : Type*} (f : σ → α → ι → β) : σ → α → List ι → List β
  | _, _, [] => []
  | s, a, i :: is =>
      f s a i :: if m.stops s i then [] else observe f (m.next s i) (m.after w s a i) is

/-- Every input that is reached meets `ok`. -/
def Along (ok : σ → α → ι → Prop) : σ → α → List ι → Prop
  | _, _, [] => True
  | s, a, i :: is =>
      ok s a i ∧ (m.stops s i = false → Along ok (m.next s i) (m.after w s a i) is)

/-- One step is good: its visible outputs meet `P`, which may look at the state after the step, and
the state and history it reaches meet `Q` unless the machine halts. -/
def StepSat (P : σ → α → ο → Prop) (Q : σ → α → Prop) (s : σ) (a : α) (i : ι) : Prop :=
  w.Holds (P (m.next s i)) (w.input s a i) (m.out s i) ∧
    (m.stops s i = false → Q (m.next s i) (m.after w s a i))

/-- Every step that is reached is good. -/
def Sat (P : σ → α → ο → Prop) (Q : σ → α → Prop) : σ → α → List ι → Prop :=
  m.Along w (m.StepSat w P Q)

variable {m w} {ok ok' wf : σ → α → ι → Prop} {P : σ → α → ο → Prop} {Q : σ → α → Prop}

@[simp] theorem along_nil (s : σ) (a : α) : m.Along w ok s a [] := trivial

/-- A decidable condition is decided along a run. -/
instance decidableAlong [∀ s a i, Decidable (ok s a i)] : ∀ s a is, Decidable (m.Along w ok s a is)
  | _, _, [] => isTrue trivial
  | s, a, i :: is =>
      have : Decidable (m.Along w ok (m.next s i) (m.after w s a i) is) :=
        decidableAlong (m.next s i) (m.after w s a i) is
      inferInstanceAs (Decidable (_ ∧ (_ → _)))

instance [∀ s a o, Decidable (P s a o)] [∀ s a, Decidable (Q s a)] (s : σ) (a : α) (i : ι) :
    Decidable (m.StepSat w P Q s a i) :=
  inferInstanceAs (Decidable (_ ∧ (_ → _)))

instance [∀ s a o, Decidable (P s a o)] [∀ s a, Decidable (Q s a)] (s : σ) (a : α)
    (is : List ι) : Decidable (m.Sat w P Q s a is) :=
  inferInstanceAs (Decidable (m.Along w _ s a is))

/-- **Step lemma to run lemma.** If `ok` makes a step satisfy `ok'` and keep the invariant, then
`ok` along a run gives `ok'` along it. -/
theorem along_of_along (Inv : σ → α → Prop)
    (hstep : ∀ s a i, Inv s a → ok s a i →
      ok' s a i ∧ (m.stops s i = false → Inv (m.next s i) (m.after w s a i)))
    {s : σ} {a : α} {is : List ι} (hinv : Inv s a) (h : m.Along w ok s a is) :
    m.Along w ok' s a is := by
  induction is generalizing s a with
  | nil => trivial
  | cons i is ih =>
      obtain ⟨hok, hnext⟩ := hstep s a i hinv h.1
      exact ⟨hok, fun hs => ih (hnext hs) (h.2 hs)⟩

/-- A condition met by every input is met along every run. -/
theorem along_of_forall (h : ∀ s a i, ok s a i) (s : σ) (a : α) (is : List ι) :
    m.Along w ok s a is := by
  induction is generalizing s a with
  | nil => trivial
  | cons i is ih => exact ⟨h s a i, fun _ => ih _ _⟩

/-- A condition on the inputs alone is met along a run of inputs that meet it. -/
theorem along_of_forall_mem {p : ι → Prop} {is : List ι} (h : ∀ i ∈ is, p i) (s : σ) (a : α) :
    m.Along w (fun _ _ i => p i) s a is := by
  induction is generalizing s a with
  | nil => trivial
  | cons i is ih => exact ⟨h i (by simp), fun _ => ih (fun i' hi' => h i' (by simp [hi'])) _ _⟩

/-- Conditions hold along a run together exactly when each does. -/
theorem along_and {s : σ} {a : α} {is : List ι} :
    m.Along w (fun s a i => ok s a i ∧ ok' s a i) s a is ↔
      m.Along w ok s a is ∧ m.Along w ok' s a is := by
  induction is generalizing s a with
  | nil => simp
  | cons i is ih =>
      constructor
      · rintro ⟨h, hs⟩
        exact ⟨⟨h.1, fun hh => (ih.mp (hs hh)).1⟩, ⟨h.2, fun hh => (ih.mp (hs hh)).2⟩⟩
      · rintro ⟨⟨h, hs⟩, ⟨h', hs'⟩⟩
        exact ⟨⟨h, h'⟩, fun hh => ih.mpr ⟨hs hh, hs' hh⟩⟩

/-- **The run rule.** An invariant that every step meeting `ok` keeps, and from which such a step
is good, makes every run whose steps meet `ok` good. -/
theorem sat_of_along (Inv : σ → α → Prop)
    (hstep : ∀ s a i, Inv s a → ok s a i → m.StepSat w P Q s a i ∧
      (m.stops s i = false → Inv (m.next s i) (m.after w s a i)))
    {s : σ} {a : α} {is : List ι} (hinv : Inv s a) (h : m.Along w ok s a is) :
    m.Sat w P Q s a is :=
  along_of_along Inv hstep hinv h

/-- **The step rule.** A step may be judged by all its outputs, seen or not: if they meet `P` and
lead to the invariant, the step is good and keeps the invariant. -/
theorem stepSat_of_keeps {Inv : σ → α → Prop} (hQ : ∀ s a, Inv s a → Q s a) {s : σ} {a : α} {i : ι}
    (h : w.Keeps (P (m.next s i)) Inv (w.input s a i) (m.step s i)) :
    m.StepSat w P Q s a i ∧ (m.stops s i = false → Inv (m.next s i) (m.after w s a i)) := by
  obtain ⟨hholds, hinv⟩ := h
  have hkeep : m.stops s i = false → Inv (m.next s i) (m.after w s a i) := by
    intro hs
    rw [after, out_of_stops_eq_false hs]
    exact hinv
  exact ⟨⟨holds_visible hholds, fun hs => hQ _ _ (hkeep hs)⟩, hkeep⟩

/-- **The exact rule.** If, under the invariant and the assumptions `wf`, an input meets `ok'`
exactly when it meets `ok`, and then keeps the invariant, a run that meets `wf` meets the one
exactly when it meets the other. -/
theorem along_iff_along (Inv : σ → α → Prop)
    (hiff : ∀ s a i, Inv s a → wf s a i → (ok' s a i ↔ ok s a i))
    (hkeep : ∀ s a i, Inv s a → wf s a i → ok s a i → m.stops s i = false →
      Inv (m.next s i) (m.after w s a i))
    {s : σ} {a : α} {is : List ι} (hinv : Inv s a) (hwf : m.Along w wf s a is) :
    m.Along w ok' s a is ↔ m.Along w ok s a is := by
  induction is generalizing s a with
  | nil => exact Iff.rfl
  | cons i is ih =>
      have hi := hiff s a i hinv hwf.1
      constructor
      · rintro ⟨hgood, hrest⟩
        have hok := hi.mp hgood
        exact ⟨hok, fun hs => (ih (hkeep s a i hinv hwf.1 hok hs) (hwf.2 hs)).mp (hrest hs)⟩
      · rintro ⟨hok, hrest⟩
        exact ⟨hi.mpr hok, fun hs => (ih (hkeep s a i hinv hwf.1 hok hs) (hwf.2 hs)).mpr (hrest hs)⟩

/-- **The exact run rule.** If, under the invariant and the assumptions `wf`, a step is good exactly
when it meets `ok`, and a step meeting `ok` keeps the invariant, then a run that meets `wf` is good
exactly when its steps meet `ok`. -/
theorem sat_iff_along (Inv : σ → α → Prop)
    (hiff : ∀ s a i, Inv s a → wf s a i → (m.StepSat w P Q s a i ↔ ok s a i))
    (hkeep : ∀ s a i, Inv s a → wf s a i → ok s a i → m.stops s i = false →
      Inv (m.next s i) (m.after w s a i))
    {s : σ} {a : α} {is : List ι} (hinv : Inv s a) (hwf : m.Along w wf s a is) :
    m.Sat w P Q s a is ↔ m.Along w ok s a is :=
  along_iff_along Inv hiff hkeep hinv hwf

/-- **The rule of two histories.** If two histories of a run stay related, and an input meets `ok`
under the one exactly when it meets `ok₂` under the other, then a run meets `ok` along the one
exactly when it meets `ok₂` along the other. -/
theorem along_iff_of_related {β : Type*} {w₂ : Monitor σ ι ο β} {ok₂ : σ → β → ι → Prop}
    (R : σ → α → β → Prop) (hiff : ∀ s a b i, R s a b → (ok s a i ↔ ok₂ s b i))
    (hkeep : ∀ s a b i, R s a b → m.stops s i = false →
      R (m.next s i) (m.after w s a i) (m.after w₂ s b i))
    {s : σ} {a : α} {b : β} (h : R s a b) (is : List ι) :
    m.Along w ok s a is ↔ m.Along w₂ ok₂ s b is := by
  induction is generalizing s a b with
  | nil => exact Iff.rfl
  | cons i is ih =>
      refine and_congr (hiff s a b i h) ?_
      exact forall_congr' fun hs => ih (hkeep s a b i h hs)

end Along

/-! ## Batches -/

section Batch

/-- Several inputs answered as one: the outputs are put out one after another. -/
def batch : σ → List ι → σ × List ο
  | s, [] => (s, [])
  | s, i :: is => ((batch (m.next s i) is).1, (m.step s i).2 ++ (batch (m.next s i) is).2)

@[simp] theorem batch_nil (s : σ) : m.batch s [] = (s, []) := rfl

/-- A batch makes its steps one after another. -/
theorem batch_cons (s : σ) (i : ι) (is : List ι) :
    m.batch s (i :: is) =
      ((m.batch (m.next s i) is).1, (m.step s i).2 ++ (m.batch (m.next s i) is).2) := rfl

variable {m}

/-- What is visible of a batch is the run of its inputs. -/
theorem visible_batch (s : σ) (is : List ι) : m.visible (m.batch s is).2 = m.outputs s is := by
  induction is generalizing s with
  | nil => rfl
  | cons i is ih => simp [batch_cons, visible_append, outputs, out, stops, ih]

/-- **The history rule.** What every step keeps of the state and the inputs so far is kept by
batches. -/
theorem inv_batch {Inv : List ι → σ → Prop}
    (hstep : ∀ before s i, Inv before s → Inv (before ++ [i]) (m.next s i)) {before : List ι}
    {s : σ} (hinv : Inv before s) (is : List ι) : Inv (before ++ is) (m.batch s is).1 := by
  induction is generalizing before s with
  | nil => simpa using hinv
  | cons i is ih => simpa [batch_cons] using ih (hstep before s i hinv)

/-- What every step puts out has a property, so what a batch puts out has it. -/
theorem batch_forall {p : ο → Prop} (hstep : ∀ s i, ∀ o ∈ (m.step s i).2, p o) (s : σ)
    (is : List ι) : ∀ o ∈ (m.batch s is).2, p o := by
  induction is generalizing s with
  | nil => simp
  | cons i is ih =>
      intro o ho
      rw [batch_cons] at ho
      rcases List.mem_append.mp ho with h | h
      · exact hstep s i o h
      · exact ih _ o h

/-- An invariant that every step meeting `ok` keeps holds after a batch that meets it and does not
halt, with the history of its outputs. -/
theorem inv_of_along {w : Monitor σ ι ο α} (hinput : ∀ s a i, w.input s a i = a)
    {ok : σ → α → ι → Prop} (Inv : σ → α → Prop)
    (hstep : ∀ s a i, Inv s a → ok s a i → m.stops s i = false → Inv (m.next s i) (m.after w s a i))
    {s : σ} {a : α} {is : List ι} (hinv : Inv s a) (h : m.Along w ok s a is)
    (hlive : (m.batch s is).2.any m.halts = false) :
    Inv (m.batch s is).1 (w.outputs a (m.outputs s is)) := by
  induction is generalizing s a with
  | nil => exact hinv
  | cons i is ih =>
      rw [batch_cons, List.any_append, Bool.or_eq_false_iff] at hlive
      have hs : m.stops s i = false := hlive.1
      have hafter : m.after w s a i = w.outputs a (m.out s i) := by rw [after, hinput]
      rw [outputs, hs, Monitor.outputs_append, ← hafter]
      exact ih (hstep s a i hinv h.1 hs) (h.2 hs) hlive.2

end Batch

end Machine

/-- A machine whose every step is, for the outputs of interest, a batch of another machine. -/
structure Batching {σ' ι' : Type*} (M : Machine σ' ι' ο) (m : Machine σ ι ο) where
  /-- The part of the state the small machine works on. -/
  view : σ' → σ
  /-- The inputs one big input stands for. -/
  inputs : σ' → ι' → List ι
  /-- The outputs of interest. -/
  own : ο → Bool
  /-- The small machine reaches the view of the state the big one reaches. -/
  next_eq : ∀ s i, M.stops s i = false → view (M.next s i) = (m.batch (view s) (inputs s i)).1
  /-- The outputs of interest are the small machine's. -/
  out_eq : ∀ s i, (M.out s i).filter own = (m.outputs (view s) (inputs s i)).filter own
  /-- When the small machine halts the big one does. -/
  stops_of_any : ∀ s i, (m.batch (view s) (inputs s i)).2.any m.halts = true → M.stops s i = true

namespace Batching

variable {σ' ι' : Type*} {M : Machine σ' ι' ο} {m : Machine σ ι ο} (b : Batching M m)

/-- Two monitors that see the same: both follow the outputs of interest and nothing else. -/
structure Watches (w' : Monitor σ' ι' ο α) (w : Monitor σ ι ο α) : Prop where
  input' : ∀ s a i, w'.input s a i = a
  input : ∀ s a i, w.input s a i = a
  output : w'.output = w.output
  own : ∀ a o, b.own o = false → w.output a o = a

variable {b} {w' : Monitor σ' ι' ο α} {w : Monitor σ ι ο α}

/-- The history after a big input is the history after the small ones. -/
theorem after_eq (hw : b.Watches w' w) (s : σ') (a : α) (i : ι') :
    M.after w' s a i = w.outputs a (m.outputs (b.view s) (b.inputs s i)) := by
  have hfilter : ∀ (os : List ο) (a : α), w.outputs a os = w.outputs a (os.filter b.own) := by
    intro os
    induction os with
    | nil => exact fun _ => rfl
    | cons o os ih =>
        intro a
        cases ho : b.own o with
        | true => simp [ho, ih]
        | false =>
            rw [Monitor.outputs_cons, hw.own a o ho, ih, List.filter_cons, ho]
            rfl
  have hout : w'.outputs a (M.out s i) = w.outputs a (M.out s i) := by
    rw [Monitor.outputs, Monitor.outputs, hw.output]
  rw [Machine.after, hw.input', hout, hfilter, b.out_eq, ← hfilter]

/-- **The batch rule.** An invariant that every small step meeting `ok` keeps, and from which such a
step meets `ok'`, holds after every big input whose small ones meet `ok`, and these meet `ok'`. -/
theorem along_of_along {ok ok' : σ → α → ι → Prop} (Inv : σ → α → Prop) (hw : b.Watches w' w)
    (hstep : ∀ s a i, Inv s a → ok s a i →
      ok' s a i ∧ (m.stops s i = false → Inv (m.next s i) (m.after w s a i)))
    {s : σ'} {a : α} {is : List ι'} (hinv : Inv (b.view s) a)
    (h : M.Along w' (fun s a i => m.Along w ok (b.view s) a (b.inputs s i)) s a is) :
    M.Along w' (fun s a i => m.Along w ok' (b.view s) a (b.inputs s i) ∧
      (M.stops s i = false → Inv (b.view (M.next s i)) (M.after w' s a i))) s a is := by
  refine Machine.along_of_along (fun s a => Inv (b.view s) a) (fun s a i hinv hok => ?_)
    hinv h
  have hnext : M.stops s i = false → Inv (b.view (M.next s i)) (M.after w' s a i) := by
    intro hs
    rw [b.next_eq s i hs, after_eq hw]
    refine m.inv_of_along hw.input Inv (fun s a i hinv hok => (hstep s a i hinv hok).2) hinv hok ?_
    by_contra hany
    rw [b.stops_of_any s i (Bool.not_eq_false _ ▸ hany)] at hs
    cases hs
  exact ⟨⟨Machine.along_of_along Inv hstep hinv hok, hnext⟩, hnext⟩

end Batching

end RoqBitmex
