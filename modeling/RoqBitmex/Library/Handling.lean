import Mathlib.Data.List.Basic

/-! # Handlers that put out events and may throw

A `Handling` puts out events one after another and ends with a value or an exception; what it has
put out stays when it throws, and stays when the exception is caught. `Ends h es r` says what a
handler does whatever was put out before it: it puts out `es` and ends with `r`. The rules below
compute it along a handler's text. -/

namespace RoqBitmex

universe u

/-- A handler: it puts out events of type `ε` and ends with a value or an exception of type `χ`. -/
abbrev Handling (ε χ : Type u) := ExceptT χ (StateM (List ε))

namespace Handling

variable {ε χ β γ : Type u}

/-- Put out an event. -/
def dispatch (event : ε) : Handling ε χ PUnit := fun s => (.ok ⟨⟩, s ++ [event])

/-- A value, or the exception raised instead of it. -/
def ofExcept (result : Except χ β) : Handling ε χ β := fun s => (result, s)

/-- What a handler has put out when it ends. -/
def dispatched (h : Handling ε χ PUnit) : List ε := (h.run []).2

/-- Whatever was put out before, the handler puts out `es` and ends with `r`. -/
def Ends (h : Handling ε χ β) (es : List ε) (r : Except χ β) : Prop :=
  ∀ s : List ε, h.run s = (r, s ++ es)

/-- What a handler puts out, read off its rule. -/
theorem Ends.dispatched {h : Handling ε χ PUnit} {es : List ε} {r : Except χ PUnit}
    (hh : Ends h es r) : h.dispatched = es := by
  rw [Handling.dispatched, hh []]
  rfl

/-- Dispatching an event ends with that event. -/
theorem ends_dispatch (event : ε) :
    Ends (dispatch event : Handling ε χ PUnit) [event] (.ok ⟨⟩) := fun _ => rfl

/-- A result that is there already ends with it. -/
theorem ends_ofExcept (result : Except χ β) :
    Ends (ofExcept result : Handling ε χ β) [] result := by
  intro s
  rw [List.append_nil]
  rfl

/-- A value ends with itself. -/
theorem ends_pure (x : β) : Ends (pure x : Handling ε χ β) [] (.ok x) := ends_ofExcept (.ok x)

/-- An exception that is thrown ends with itself. -/
theorem ends_throw (e : χ) : Ends (throw e : Handling ε χ β) [] (.error e) :=
  ends_ofExcept (.error e)

variable {h : Handling ε χ β} {f : β → Handling ε χ γ} {c : χ → Handling ε χ β}
  {es es' : List ε} {x : β} {e : χ} {r : Except χ γ} {r' : Except χ β}

/-- After a value the rest runs. -/
theorem Ends.bind (hh : Ends h es (.ok x)) (hf : Ends (f x) es' r) :
    Ends (h >>= f) (es ++ es') r := by
  intro s
  have hrest := hf (s ++ es)
  rw [List.append_assoc] at hrest
  rw [← hrest]
  show (ExceptT.bindCont f (h.run s).1).run (h.run s).2 = _
  rw [hh s]
  rfl

/-- After an exception the rest is skipped. -/
theorem Ends.bind_error (hh : Ends h es (.error e)) : Ends (h >>= f) es (.error e) := by
  intro s
  show (ExceptT.bindCont f (h.run s).1).run (h.run s).2 = _
  rw [hh s]
  rfl

/-- The catch clause is skipped after a value. -/
theorem Ends.catch_ok (hh : Ends h es (.ok x)) : Ends (tryCatch h c) es (.ok x) := by
  intro s
  show (match (h.run s).1 with
    | .ok x => pure (.ok x)
    | .error e => c e : StateM (List ε) (Except χ β)).run (h.run s).2 = _
  rw [hh s]
  rfl

/-- The catch clause runs after an exception, and what was put out before stays. -/
theorem Ends.catch_error (hh : Ends h es (.error e)) (hc : Ends (c e) es' r') :
    Ends (tryCatch h c) (es ++ es') r' := by
  intro s
  have hcatch := hc (s ++ es)
  rw [List.append_assoc] at hcatch
  rw [← hcatch]
  show (match (h.run s).1 with
    | .ok x => pure (.ok x)
    | .error e => c e : StateM (List ε) (Except χ β)).run (h.run s).2 = _
  rw [hh s]
  rfl

/-- A loop over a list whose passes all end well puts out what its passes do, in order. -/
theorem ends_forM {α : Type u} {g : α → List ε} {body : α → Handling ε χ PUnit} (l : List α)
    (hbody : ∀ a ∈ l, Ends (body a) (g a) (.ok ⟨⟩)) :
    Ends (l.forM body) (l.flatMap g) (.ok ⟨⟩) := by
  induction l with
  | nil => exact ends_pure PUnit.unit
  | cons a l ih =>
      have hhead : Ends (body a) (g a) (.ok ⟨⟩) := hbody a (by simp)
      have htail : Ends (l.forM body) (l.flatMap g) (.ok ⟨⟩) :=
        ih fun b hb => hbody b (by simp [hb])
      rw [List.flatMap_cons]
      exact hhead.bind htail

end Handling

end RoqBitmex
