import Mathlib.Data.List.TakeWhile

/-! # Templates

A template has a piece of its own after each argument. Where no argument contains the first element
of the piece after it, the arguments can be read back from the text, so different arguments make
different texts. -/

namespace RoqBitmex

namespace Template

variable {α : Type} [DecidableEq α]

/-- Arguments and the pieces after them, in order. -/
def fill : List (List α × List α) → List α
  | [] => []
  | (argument, piece) :: rest => argument ++ (piece ++ fill rest)

/-- The arguments of a filled template: each ends where its piece begins. -/
def extract : List (List α) → List α → Option (List (List α))
  | [], text => if text = [] then some [] else none
  | piece :: pieces, text =>
      let argument := text.takeWhile fun c => decide (piece.head? ≠ some c)
      let rest := text.dropWhile fun c => decide (piece.head? ≠ some c)
      if piece <+: rest then
        (extract pieces (rest.drop piece.length)).map (argument :: ·)
      else none

/-- A piece ends the argument before it: its first element is none of the argument's. -/
def Ends (piece argument : List α) : Prop := ∃ c, piece.head? = some c ∧ c ∉ argument

/-- The arguments of a filled template are read back. -/
theorem extract_fill {parts : List (List α × List α)} (h : ∀ p ∈ parts, Ends p.2 p.1) :
    extract (parts.map Prod.snd) (fill parts) = some (parts.map Prod.fst) := by
  induction parts with
  | nil => rfl
  | cons part parts ih =>
      obtain ⟨argument, piece⟩ := part
      obtain ⟨hpart, hparts⟩ := List.forall_mem_cons.mp h
      obtain ⟨c, hc, hargument⟩ := hpart
      obtain ⟨piece', rfl⟩ : ∃ piece', piece = c :: piece' := List.head?_eq_some_iff.mp hc
      have hpos : ∀ a ∈ argument, decide ((c :: piece').head? ≠ some a) = true := by
        intro a ha
        have hne : c ≠ a := by
          rintro rfl
          exact hargument ha
        simpa using hne
      have htake : (argument ++ ((c :: piece') ++ fill parts)).takeWhile
          (fun a => decide ((c :: piece').head? ≠ some a)) = argument := by
        rw [List.takeWhile_append_of_pos hpos]
        simp
      have hdrop : (argument ++ ((c :: piece') ++ fill parts)).dropWhile
          (fun a => decide ((c :: piece').head? ≠ some a)) = (c :: piece') ++ fill parts := by
        rw [List.dropWhile_append_of_pos hpos]
        simp
      rw [List.map_cons, extract, fill]
      simp only [htake, hdrop, List.prefix_append, if_true, List.drop_left, ih hparts,
        Option.map_some, List.map_cons]

/-- Different arguments make different texts. -/
theorem fst_eq_of_fill_eq {parts parts' : List (List α × List α)}
    (hpieces : parts.map Prod.snd = parts'.map Prod.snd) (h : ∀ p ∈ parts, Ends p.2 p.1)
    (h' : ∀ p ∈ parts', Ends p.2 p.1) (hfill : fill parts = fill parts') :
    parts.map Prod.fst = parts'.map Prod.fst := by
  apply Option.some.inj
  rw [← extract_fill h, ← extract_fill h', hpieces, hfill]

end Template

end RoqBitmex
