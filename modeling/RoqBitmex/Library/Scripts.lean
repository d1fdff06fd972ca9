import RoqBitmex.Library.Machine

/-! # Scripts

Of the outputs of a machine some are marked, and a script says which marks each input is to be
answered with, going from phase to phase. `OnScript` says that the marks come as the script has
them; a machine whose steps put out the marks that are due, and are in the phase of the script
after it, is on script in every run (`keeps_onScript`). -/

namespace RoqBitmex

universe u v w x y

namespace Monitor

variable {σ : Type u} {ι : Type v} {ο : Type w} {α : Type x} {γ : Type y}

/-- A monitor that looks at nothing but the marks of outputs. -/
def ofMarks (w : Monitor σ ι γ α) (mark : ο → Option γ) : Monitor σ ι ο α where
  input := w.input
  output a o := ((mark o).map (w.output a)).getD a

/-- A condition on the mark of an output, if it has one. -/
def Marked (mark : ο → Option γ) (P : α → γ → Prop) (a : α) (o : ο) : Prop :=
  ∀ c, mark o = some c → P a c

variable {w : Monitor σ ι γ α} {mark : ο → Option γ} {P : α → γ → Prop}

/-- The history is that of the marks. -/
theorem outputs_ofMarks (a : α) (os : List ο) :
    (w.ofMarks mark).outputs a os = w.outputs a (os.filterMap mark) := by
  induction os generalizing a with
  | nil => rfl
  | cons o os ih =>
      rw [outputs_cons, ih, List.filterMap_cons]
      cases h : mark o with
      | none => simp [ofMarks, h]
      | some c => simp [ofMarks, h]

/-- The condition holds of the outputs exactly when it holds of the marks. -/
theorem holds_ofMarks {a : α} {os : List ο} :
    (w.ofMarks mark).Holds (Marked mark P) a os ↔ w.Holds P a (os.filterMap mark) := by
  induction os generalizing a with
  | nil => exact Iff.rfl
  | cons o os ih =>
      rw [holds_cons, ih, List.filterMap_cons]
      cases h : mark o with
      | none => simp [ofMarks, Marked, h]
      | some c => simp [ofMarks, Marked, h]

end Monitor

/-- Where a script is, and what is due. -/
structure Script (φ : Type x) (γ : Type y) where
  phase : φ
  due : List γ := []
  deriving DecidableEq

namespace Script

variable {σ : Type u} {ι : Type v} {ο : Type w} {φ : Type x} {γ : Type y}

/-- A script: what is due for an input, and the phase after it. -/
def monitor (next : σ → φ → ι → φ × List γ) : Monitor σ ι γ (Script φ γ) where
  input s a i := ⟨(next s a.phase i).1, (next s a.phase i).2⟩
  output a _ := { a with due := a.due.tail }

/-- A mark is the next one that is due. -/
def Due (a : Script φ γ) (c : γ) : Prop := a.due.head? = some c

/-- A marked output is the next one that is due. -/
abbrev OnScript (mark : ο → Option γ) : Script φ γ → ο → Prop := Monitor.Marked mark Due

variable {next : σ → φ → ι → φ × List γ} {mark : ο → Option γ}

/-- What is due may come. -/
theorem holds_due (p : φ) (cs : List γ) :
    (monitor next).Holds Due ⟨p, cs⟩ cs ∧ (monitor next).outputs ⟨p, cs⟩ cs = ⟨p, []⟩ := by
  induction cs with
  | nil => exact ⟨trivial, rfl⟩
  | cons c cs ih => exact ⟨⟨rfl, ih.1⟩, ih.2⟩

/-- Outputs leave the phase as it is. -/
theorem phase_outputs (a : Script φ γ) (os : List ο) :
    (((monitor next).ofMarks mark).outputs a os).phase = a.phase := by
  induction os generalizing a with
  | nil => rfl
  | cons o os ih =>
      rw [Monitor.outputs_cons, ih]
      show (((mark o).map ((monitor next).output a)).getD a).phase = a.phase
      cases mark o with
      | none => rfl
      | some c => rfl

/-- **The rule for a script.** An answer whose marks are those that are due is on script, and
nothing is due after it. -/
theorem keeps_onScript {Inv : σ → Script φ γ → Prop} {p : φ} {cs : List γ} {r : σ × List ο}
    (hmarks : r.2.filterMap mark = cs) (hinv : Inv r.1 ⟨p, []⟩) :
    ((monitor next).ofMarks mark).Keeps (OnScript mark) Inv ⟨p, cs⟩ r := by
  obtain ⟨hholds, houtputs⟩ := @holds_due σ ι φ γ next p cs
  refine ⟨?_, ?_⟩
  · rw [Monitor.holds_ofMarks, hmarks]
    exact hholds
  · rw [Monitor.outputs_ofMarks, hmarks, houtputs]
    exact hinv

end Script

end RoqBitmex
