import Mathlib.Data.List.TakeWhile
import Mathlib.Data.Nat.Notation

/-! # Header blocks

The headers of a request are lines with a name, a colon, a space and a value. A block whose names
have no colon and whose values do not break the line is read back header by header. -/

namespace RoqBitmex

/-- A header: its name and its value. -/
structure Header where
  name : List Char
  value : List Char
  deriving DecidableEq, Repr

namespace Header

/-- A header as it is written before `rest`. -/
def written (h : Header) (rest : List Char) : List Char :=
  h.name ++ ':' :: ' ' :: (h.value ++ '\r' :: '\n' :: rest)

/-- A block of headers. -/
def block : List Header → List Char
  | [] => []
  | h :: hs => h.written (block hs)

/-- A header, and what follows its line. -/
def line (text : List Char) : Option (Header × List Char) :=
  match text.dropWhile (· != ':') with
  | ':' :: ' ' :: rest =>
      match rest.dropWhile (· != '\r') with
      | '\r' :: '\n' :: after =>
          some (⟨text.takeWhile (· != ':'), rest.takeWhile (· != '\r')⟩, after)
      | _ => none
  | _ => none

/-- The headers of a block. Each line has characters, so the length of the text is fuel enough. -/
def lines : ℕ → List Char → Option (List Header)
  | _, [] => some []
  | 0, _ => none
  | fuel + 1, text => (line text).bind fun p => (lines fuel p.2).map (p.1 :: ·)

/-- The headers a text is a block of, if it is one. -/
def parse (text : List Char) : Option (List Header) := lines text.length text

/-- The value of the first header with a name. -/
def field (name : String) (hs : List Header) : Option (List Char) :=
  (hs.find? fun h => h.name = name.toList).map (·.value)

/-- The name has no colon, and the value stays on its line. -/
structure Plain (h : Header) : Prop where
  name : ':' ∉ h.name
  value : '\r' ∉ h.value

/-- A text is cut where it is told apart from what follows. -/
theorem span_append {c : Char} {text : List Char} (htext : c ∉ text) (rest : List Char) :
    (text ++ c :: rest).takeWhile (· != c) = text ∧
      (text ++ c :: rest).dropWhile (· != c) = c :: rest := by
  have hpos : ∀ a ∈ text, (a != c) = true := by
    intro a ha
    rw [bne_iff_ne]
    rintro rfl
    exact htext ha
  rw [List.takeWhile_append_of_pos hpos, List.dropWhile_append_of_pos hpos]
  simp

/-- A plain header is read back from its line. -/
theorem line_written {h : Header} (hplain : h.Plain) (rest : List Char) :
    line (h.written rest) = some (h, rest) := by
  obtain ⟨hname, hdrop⟩ := span_append hplain.name (' ' :: (h.value ++ '\r' :: '\n' :: rest))
  obtain ⟨hvalue, hdrop'⟩ := span_append hplain.value ('\n' :: rest)
  unfold line written
  rw [hdrop, hname]
  simp only [hdrop', hvalue]

/-- Plain headers are read back from their block. -/
theorem lines_block {hs : List Header} (h : ∀ x ∈ hs, x.Plain) {fuel : ℕ}
    (hfuel : hs.length ≤ fuel) : lines fuel (block hs) = some hs := by
  induction hs generalizing fuel with
  | nil => cases fuel <;> rfl
  | cons x hs ih =>
      obtain ⟨hx, htail⟩ := List.forall_mem_cons.mp h
      obtain ⟨fuel, rfl⟩ : ∃ n, fuel = n + 1 := ⟨fuel - 1, by simp at hfuel; omega⟩
      have hne : block (x :: hs) ≠ [] := by simp [block, written]
      -- a line is read as long as there is text, and a line that is written is some
      have hlines : lines (fuel + 1) (block (x :: hs)) =
          (line (block (x :: hs))).bind fun p => (lines fuel p.2).map (p.1 :: ·) := by
        cases hb : block (x :: hs) with
        | nil => exact absurd hb hne
        | cons c rest => rfl
      have hrest := ih htail (Nat.le_of_succ_le_succ hfuel)
      rw [hlines, block, line_written hx, Option.bind_some, hrest]
      rfl

/-- Each header takes at least one character. -/
theorem length_le_length_block (hs : List Header) : hs.length ≤ (block hs).length := by
  induction hs with
  | nil => simp
  | cons x hs ih =>
      simp only [block, written, List.length_cons, List.length_append]
      omega

/-- **A block reads back.** -/
theorem parse_block {hs : List Header} (h : ∀ x ∈ hs, x.Plain) : parse (block hs) = some hs :=
  lines_block h (length_le_length_block hs)

end Header

end RoqBitmex
