import Mathlib.Data.List.TakeWhile
import Mathlib.Data.Nat.Notation
import RoqBitmex.Library.Decimal

/-! # JSON texts

A reader of JSON texts, and the rules for what it makes of a text that is put together from parts.
Numbers and the contents of strings are kept as they are written, so a text that needs no escape is
its own content. -/

namespace RoqBitmex

namespace JsonText

/-- A JSON value. -/
inductive Value where
  | null
  | bool (value : Bool)
  | number (text : String)
  | string (text : String)
  | array (elements : List Value)
  | object (members : List (String × Value))

/-! ## Tokens -/

/-- Whitespace. -/
def isSpace (c : Char) : Bool := c == ' ' || c == '\t' || c == '\n' || c == '\r'

/-- A text without its leading whitespace. -/
def skip (text : List Char) : List Char := text.dropWhile isSpace

/-- A character that stands for itself in a string. -/
def isPlain (c : Char) : Bool := c != '"' && c != '\\' && decide (32 ≤ c.toNat)

/-- A hexadecimal digit. -/
def isHex (c : Char) : Bool :=
  c.isDigit || (decide ('a' ≤ c) && decide (c ≤ 'f')) || (decide ('A' ≤ c) && decide (c ≤ 'F'))

/-- A string up to its closing quote, and what follows. -/
def string : List Char → Option (List Char × List Char)
  | [] => none
  | '"' :: rest => some ([], rest)
  | '\\' :: 'u' :: a :: b :: c :: d :: rest =>
      if [a, b, c, d].all isHex then
        (string rest).map fun p => ('\\' :: 'u' :: a :: b :: c :: d :: p.1, p.2)
      else none
  | '\\' :: c :: rest =>
      if c ∈ ['"', '\\', '/', 'b', 'f', 'n', 'r', 't'] then
        (string rest).map fun p => ('\\' :: c :: p.1, p.2)
      else none
  | c :: rest => if isPlain c then (string rest).map fun p => (c :: p.1, p.2) else none

/-- One digit or more. -/
def isDigits (text : List Char) : Bool := !text.isEmpty && text.all Char.isDigit

/-- A text without its first character if that is one of some signs. -/
def dropSign (signs : List Char) : List Char → List Char
  | [] => []
  | c :: rest => if c ∈ signs then rest else c :: rest

/-- The exponent of a number, if any. -/
def isExponent : List Char → Bool
  | [] => true
  | c :: rest => (c == 'e' || c == 'E') && isDigits (dropSign ['+', '-'] rest)

/-- The fraction of a number, if any, and its exponent. -/
def isFraction : List Char → Bool
  | '.' :: rest =>
      !(rest.takeWhile Char.isDigit).isEmpty && isExponent (rest.dropWhile Char.isDigit)
  | rest => isExponent rest

/-- A number without its sign: no digit follows a leading zero. -/
def isUnsigned : List Char → Bool
  | [] => false
  | '0' :: rest => isFraction rest
  | c :: rest => c.isDigit && isFraction (rest.dropWhile Char.isDigit)

/-- A number. -/
def isNumber (text : List Char) : Bool := isUnsigned (dropSign ['-'] text)

/-- A character a number may have. -/
def isNumeric (c : Char) : Bool := c.isDigit || c ∈ ['+', '-', '.', 'e', 'E']

/-- A number, and what follows. No character that may follow one is numeric. -/
def number (text : List Char) : Option (Value × List Char) :=
  if isNumber (text.takeWhile isNumeric) then
    some (.number (String.ofList (text.takeWhile isNumeric)), text.dropWhile isNumeric)
  else none

/-! ## Values -/

mutual

/-- A value, and what follows. -/
def value : ℕ → List Char → Option (Value × List Char)
  | 0, _ => none
  | fuel + 1, text =>
    match skip text with
    | '"' :: rest => (string rest).map fun p => (.string (String.ofList p.1), p.2)
    | '{' :: rest =>
      match skip rest with
      | '}' :: rest => some (.object [], rest)
      | rest => (members fuel rest).map fun p => (.object p.1, p.2)
    | '[' :: rest =>
      match skip rest with
      | ']' :: rest => some (.array [], rest)
      | rest => (elements fuel rest).map fun p => (.array p.1, p.2)
    | 't' :: 'r' :: 'u' :: 'e' :: rest => some (.bool true, rest)
    | 'f' :: 'a' :: 'l' :: 's' :: 'e' :: rest => some (.bool false, rest)
    | 'n' :: 'u' :: 'l' :: 'l' :: rest => some (.null, rest)
    | rest => number rest

/-- The members of an object up to its closing brace, and what follows. -/
def members : ℕ → List Char → Option (List (String × Value) × List Char)
  | 0, _ => none
  | fuel + 1, text =>
    match skip text with
    | '"' :: rest =>
      (string rest).bind fun name =>
        match skip name.2 with
        | ':' :: rest =>
          (value fuel rest).bind fun v =>
            match skip v.2 with
            | ',' :: rest =>
              (members fuel rest).map fun p => ((String.ofList name.1, v.1) :: p.1, p.2)
            | '}' :: rest => some ([(String.ofList name.1, v.1)], rest)
            | _ => none
        | _ => none
    | _ => none

/-- The elements of an array up to its closing bracket, and what follows. -/
def elements : ℕ → List Char → Option (List Value × List Char)
  | 0, _ => none
  | fuel + 1, text =>
    (value fuel text).bind fun v =>
      match skip v.2 with
      | ',' :: rest => (elements fuel rest).map fun p => (v.1 :: p.1, p.2)
      | ']' :: rest => some ([v.1], rest)
      | _ => none

end

/-- The value a text is. Each step of the reader consumes a character, so the length of the text is
fuel enough. -/
def parse (text : String) : Option Value :=
  (value (text.toList.length + 1) text.toList).bind fun p =>
    if skip p.2 = [] then some p.1 else none

/-! ## Rules for tokens -/

/-- No whitespace is skipped before a character that is none. -/
theorem skip_cons {c : Char} (h : isSpace c = false) (rest : List Char) :
    skip (c :: rest) = c :: rest :=
  List.dropWhile_cons_of_neg (by simp [h])

/-- A plain character of a string is read as itself. -/
theorem string_cons {c : Char} (h : isPlain c = true) (rest : List Char) :
    string (c :: rest) = (string rest).map fun p => (c :: p.1, p.2) := by
  have hc : c ≠ '"' ∧ c ≠ '\\' := by
    simp only [isPlain, Bool.and_eq_true, bne_iff_ne] at h
    exact h.1
  rw [string]
  · rw [if_pos h]
  · exact hc.1
  · rintro a b c d rest rfl
    exact absurd rfl hc.2
  · rintro a rest rfl
    exact absurd rfl hc.2

/-- A text without special characters is read up to the quote after it. -/
theorem string_append {text : List Char} (h : text.all isPlain = true) (rest : List Char) :
    string (text ++ '"' :: rest) = some (text, rest) := by
  induction text with
  | nil => rfl
  | cons c text ih =>
      rw [List.all_cons, Bool.and_eq_true] at h
      rw [List.cons_append, string_cons h.1, ih h.2]
      rfl

/-- A text is numeric if its sign is and what follows the sign. -/
theorem isNumeric_of_dropSign {text : List Char} (signs : List Char)
    (hsigns : ∀ c ∈ signs, isNumeric c = true)
    (h : ∀ c ∈ dropSign signs text, isNumeric c = true) : ∀ c ∈ text, isNumeric c = true := by
  cases text with
  | nil => exact h
  | cons c rest =>
      rw [dropSign] at h
      split at h
      · rename_i hc
        exact List.forall_mem_cons.mpr ⟨hsigns c hc, h⟩
      · exact h

/-- An exponent is numeric throughout. -/
theorem isNumeric_of_isExponent {text : List Char} (h : isExponent text = true) :
    ∀ c ∈ text, isNumeric c = true := by
  cases text with
  | nil => simp
  | cons c rest =>
      simp only [isExponent, isDigits, Bool.and_eq_true, Bool.or_eq_true, beq_iff_eq,
        List.all_eq_true] at h
      have hc : isNumeric c = true := by
        rcases h.1 with rfl | rfl <;> rfl
      have hrest : ∀ c ∈ rest, isNumeric c = true := by
        apply isNumeric_of_dropSign ['+', '-'] (by simp [isNumeric])
        intro c hc
        simp [isNumeric, h.2.2 c hc]
      exact List.forall_mem_cons.mpr ⟨hc, hrest⟩

/-- The digits at the head of a text are numeric if the rest of it is. -/
theorem isNumeric_of_dropWhile {text : List Char}
    (h : ∀ c ∈ text.dropWhile Char.isDigit, isNumeric c = true) :
    ∀ c ∈ text, isNumeric c = true := by
  intro c hc
  rw [← List.takeWhile_append_dropWhile (p := Char.isDigit) (l := text), List.mem_append] at hc
  rcases hc with hc | hc
  · have hdigit : c.isDigit = true := List.mem_takeWhile_imp hc
    simp [isNumeric, hdigit]
  · exact h c hc

/-- A fraction is numeric throughout. -/
theorem isNumeric_of_isFraction {text : List Char} (h : isFraction text = true) :
    ∀ c ∈ text, isNumeric c = true := by
  revert h
  fun_cases isFraction text with
  | case1 rest =>
      intro h
      rw [Bool.and_eq_true] at h
      have hrest := isNumeric_of_dropWhile (isNumeric_of_isExponent h.2)
      exact List.forall_mem_cons.mpr ⟨rfl, hrest⟩
  | case2 => exact isNumeric_of_isExponent

/-- A number without a sign is numeric throughout. -/
theorem isNumeric_of_isUnsigned {text : List Char} (h : isUnsigned text = true) :
    ∀ c ∈ text, isNumeric c = true := by
  revert h
  fun_cases isUnsigned text with
  | case1 => simp
  | case2 rest =>
      intro h
      exact List.forall_mem_cons.mpr ⟨rfl, isNumeric_of_isFraction h⟩
  | case3 c rest =>
      intro h
      rw [Bool.and_eq_true] at h
      have hc : isNumeric c = true := by simp [isNumeric, h.1]
      have hrest := isNumeric_of_dropWhile (isNumeric_of_isFraction h.2)
      exact List.forall_mem_cons.mpr ⟨hc, hrest⟩

/-- Every character of a number is numeric. -/
theorem isNumeric_of_isNumber {text : List Char} (h : isNumber text = true) :
    ∀ c ∈ text, isNumeric c = true :=
  isNumeric_of_dropSign ['-'] (by simp [isNumeric]) (isNumeric_of_isUnsigned h)

/-- A character a number begins with. -/
def startsNumber (c : Char) : Bool := c == '-' || c.isDigit

/-- A number has a first character, and numbers start with it. -/
theorem exists_cons_of_isNumber {text : List Char} (h : isNumber text = true) :
    ∃ c rest, text = c :: rest ∧ startsNumber c = true := by
  cases text with
  | nil => exact absurd h (by decide)
  | cons c rest =>
      refine ⟨c, rest, rfl, ?_⟩
      by_cases hminus : c = '-'
      · simp [startsNumber, hminus]
      · have hunsigned : isUnsigned (c :: rest) = true := by
          simpa [isNumber, dropSign, hminus] using h
        by_cases hzero : c = '0'
        · simp [startsNumber, hzero]
        · rw [isUnsigned, Bool.and_eq_true] at hunsigned
          · simp [startsNumber, hunsigned.1]
          · exact hzero

/-- A text that no number runs on into. -/
def Closed (rest : List Char) : Prop := ∀ c, rest.head? = some c → isNumeric c = false

/-- A character that is not numeric closes a number. -/
theorem closed_cons {c : Char} (h : isNumeric c = false) (rest : List Char) :
    Closed (c :: rest) := by
  intro c' hc'
  obtain rfl := Option.some.inj hc'
  exact h

/-- A numeric text that is closed is split off whole. -/
theorem span_append {text rest : List Char} (htext : ∀ c ∈ text, isNumeric c = true)
    (hrest : Closed rest) :
    (text ++ rest).takeWhile isNumeric = text ∧ (text ++ rest).dropWhile isNumeric = rest := by
  rw [List.takeWhile_append_of_pos htext, List.dropWhile_append_of_pos htext]
  cases rest with
  | nil => simp
  | cons c rest => simp [hrest c rfl]

/-- A number is read up to a text that it does not run on into. -/
theorem number_append {text rest : List Char} (h : isNumber text = true) (hrest : Closed rest) :
    number (text ++ rest) = some (.number (String.ofList text), rest) := by
  obtain ⟨htake, hdrop⟩ := span_append (isNumeric_of_isNumber h) hrest
  rw [number, htake, hdrop, if_pos h]

/-- The digits of a whole number are a number, since a zero stands at their head only if it stands
alone. -/
theorem isUnsigned_repr (n : ℕ) : isUnsigned n.repr.toList = true := by
  have hfraction : ∀ rest : List Char, (∀ c ∈ rest, c.isDigit = true) →
      isFraction (rest.dropWhile Char.isDigit) = true := by
    intro rest hrest
    rw [List.dropWhile_eq_nil_iff.mpr hrest]
    rfl
  obtain ⟨c, rest, hlist, hdigit⟩ := Decimal.exists_cons_repr n
  have hrest : ∀ d ∈ rest, d.isDigit = true := fun d hd =>
    Decimal.isDigit_of_mem_repr (hlist ▸ List.mem_cons_of_mem c hd)
  by_cases hzero : c = '0'
  · have hn : n = 0 := by
      by_contra hne
      have hhead := Decimal.head_repr_ne_zero (Nat.pos_of_ne_zero hne)
      rw [hlist, hzero] at hhead
      exact hhead rfl
    rw [hn]
    rfl
  · rw [hlist, isUnsigned, hdigit, hfraction rest hrest]
    · rfl
    · exact hzero

/-- A decimal is a number. -/
theorem isNumber_toString (z : ℤ) : isNumber (toString z).toList = true := by
  rw [Decimal.toList_toString, isNumber]
  split
  · obtain ⟨c, rest, hlist, hdigit⟩ := Decimal.exists_cons_repr z.toNat
    have hminus : c ∉ ['-'] := by
      rw [List.mem_singleton]
      rintro rfl
      exact absurd hdigit (by decide)
    have hunsigned := isUnsigned_repr z.toNat
    rw [hlist] at hunsigned ⊢
    rw [dropSign, if_neg hminus]
    exact hunsigned
  · exact isUnsigned_repr _

/-! ## Rules for values -/

/-- Read as a value, a text gives `outcome`, whatever follows it. -/
def Denotes (text : List Char) (outcome : Option Value) : Prop :=
  ∀ fuel rest, Closed rest → value (fuel + 1) (text ++ rest) = outcome.map fun v => (v, rest)

/-- A text without special characters is a string when it is quoted. -/
theorem denotes_string {text : List Char} (h : text.all isPlain = true) :
    Denotes ('"' :: (text ++ ['"'])) (some (.string (String.ofList text))) := by
  intro fuel rest _
  have hread := string_append h rest
  rw [List.cons_append, List.append_assoc, List.singleton_append, value, skip_cons rfl]
  simp only [hread, Option.map_some]

/-- A number is a value. -/
theorem denotes_number {text : List Char} (h : isNumber text = true) :
    Denotes text (some (.number (String.ofList text))) := by
  intro fuel rest hrest
  obtain ⟨c, tail, rfl, hc⟩ := exists_cons_of_isNumber h
  have hread := number_append h hrest
  rw [List.cons_append] at hread ⊢
  -- what a number begins with begins nothing else
  have hne : ∀ d, startsNumber d = false → c ≠ d := by
    rintro d hd rfl
    exact Bool.false_ne_true (hd.symm.trans hc)
  have hspace : isSpace c = false := by
    simp [isSpace, hne ' ' rfl, hne '\t' rfl, hne '\n' rfl, hne '\r' rfl]
  rw [value, skip_cons hspace]
  split
  case h_7 => exact hread
  all_goals
    rename_i heq
    exact absurd (List.cons.inj heq).1 (hne _ rfl)

/-- The token `nan` is no value. -/
theorem denotes_nan : Denotes ['n', 'a', 'n'] none := by
  intro fuel rest _
  rfl

/-! ### Objects -/

/-- A member of an object as it is written: its name and the text of its value, which reads as
`outcome`. -/
structure Member where
  name : List Char
  text : List Char
  outcome : Option Value

/-- A member as it is written before `rest`. -/
def Member.written (m : Member) (rest : List Char) : List Char :=
  '"' :: (m.name ++ '"' :: ':' :: (m.text ++ rest))

/-- The members of an object and its closing brace, written without whitespace. -/
def written : List Member → List Char
  | [] => ['}']
  | [m] => m.written ['}']
  | m :: ms => m.written (',' :: written ms)

/-- The name is plain, and the text reads as the outcome. -/
def Member.Reads (m : Member) : Prop := m.name.all isPlain = true ∧ Denotes m.text m.outcome

/-- A member with its value, if its text has one. -/
def Member.value? (m : Member) : Option (String × Value) :=
  m.outcome.map fun v => (String.ofList m.name, v)

/-- The members with their values, if every text has one. -/
def values : List Member → Option (List (String × Value))
  | [] => some []
  | m :: ms => m.value?.bind fun v => (values ms).map (v :: ·)

/-- Members have values if the first has one and the others have theirs. -/
theorem values_cons (m : Member) (ms : List Member) :
    values (m :: ms) = m.value?.bind fun v => (values ms).map (v :: ·) := rfl

/-- A member without a value spoils the object. -/
theorem values_eq_none {ms : List Member} {m : Member} (hm : m ∈ ms) (h : m.outcome = none) :
    values ms = none := by
  induction ms with
  | nil => cases hm
  | cons m' ms ih =>
      rw [values]
      rcases List.mem_cons.mp hm with rfl | hm
      · simp [Member.value?, h]
      · simp [ih hm]

/-- Members are written one after another, with commas between them. -/
theorem written_cons (m m' : Member) (ms : List Member) :
    written (m :: m' :: ms) = m.written (',' :: written (m' :: ms)) := rfl

/-- What comes after a member comes after what follows it. -/
theorem Member.written_append (m : Member) (rest after : List Char) :
    m.written rest ++ after = m.written (rest ++ after) := by
  simp [Member.written]

/-- What the reader makes of one member and what follows its value. -/
theorem members_member {m : Member} (h : m.Reads) {rest : List Char} (hrest : Closed rest)
    (fuel : ℕ) :
    members (fuel + 2) (m.written rest) =
      m.value?.bind fun v =>
        match skip rest with
        | ',' :: rest => (members (fuel + 1) rest).map fun p => (v :: p.1, p.2)
        | '}' :: rest => some ([v], rest)
        | _ => none := by
  have hname := string_append h.1 (':' :: (m.text ++ rest))
  have hvalue := h.2 fuel rest hrest
  have hcolon : skip (':' :: (m.text ++ rest)) = ':' :: (m.text ++ rest) := skip_cons rfl _
  rw [Member.written, members, skip_cons rfl]
  simp only [hname, hcolon, hvalue, Option.bind_some, Member.value?]
  cases m.outcome with
  | none => rfl
  | some v => rfl

/-- The last member of an object is read with the brace that closes it. -/
theorem members_last {m : Member} (h : m.Reads) (rest : List Char) (fuel : ℕ) :
    members (fuel + 2) (m.written ('}' :: rest)) = m.value?.map fun v => ([v], rest) := by
  rw [members_member h (closed_cons rfl rest), skip_cons rfl]
  cases m.value? <;> rfl

/-- A member before a comma is read, and then the others. -/
theorem members_next {m : Member} (h : m.Reads) (rest : List Char) (fuel : ℕ) :
    members (fuel + 2) (m.written (',' :: rest)) =
      m.value?.bind fun v => (members (fuel + 1) rest).map fun p => (v :: p.1, p.2) := by
  rw [members_member h (closed_cons rfl rest), skip_cons rfl]
  rfl

/-- The members of an object are read if each of their values is. -/
theorem members_written {ms : List Member} (h : ∀ m ∈ ms, m.Reads) (hms : ms ≠ [])
    (rest : List Char) {fuel : ℕ} (hfuel : ms.length < fuel) :
    members fuel (written ms ++ rest) = (values ms).map fun vs => (vs, rest) := by
  induction ms generalizing fuel with
  | nil => exact absurd rfl hms
  | cons m ms ih =>
      obtain ⟨hm, htail⟩ := List.forall_mem_cons.mp h
      rw [List.length_cons] at hfuel
      obtain ⟨fuel, rfl⟩ : ∃ n, fuel = n + 2 := ⟨fuel - 2, by omega⟩
      cases ms with
      | nil =>
          have hlast := members_last hm rest fuel
          rw [written, Member.written_append, List.singleton_append, hlast, values, values]
          cases m.value? <;> rfl
      | cons m' ms =>
          have hnext := members_next hm (written (m' :: ms) ++ rest) fuel
          have htail' := ih htail (List.cons_ne_nil _ _) (by omega : _ < fuel + 1)
          rw [written_cons, Member.written_append, List.cons_append, hnext, htail', values_cons m]
          cases m.value? with
          | none => rfl
          | some v => cases values (m' :: ms) <;> rfl

/-- Members that are written begin with a quotation mark. -/
theorem exists_written (m : Member) (ms : List Member) :
    ∃ rest, written (m :: ms) = '"' :: rest := by
  cases ms with
  | nil => exact ⟨_, rfl⟩
  | cons m' ms => exact ⟨_, rfl⟩

/-- Each member takes at least one character. -/
theorem length_le_length_written (ms : List Member) : ms.length ≤ (written ms).length := by
  induction ms with
  | nil => simp
  | cons m ms ih =>
      cases ms with
      | nil => simp [written, Member.written]
      | cons m' ms =>
          rw [written_cons]
          simp only [Member.written, List.length_cons, List.length_append] at ih ⊢
          omega

/-- A brace before a quotation mark opens an object with members. -/
theorem value_object (fuel : ℕ) (rest : List Char) :
    value (fuel + 1) ('{' :: '"' :: rest) =
      (members fuel ('"' :: rest)).map fun p => (.object p.1, p.2) := by
  rw [value, skip_cons rfl]
  rfl

/-- An object written without whitespace is the object of its values, and no value at all if one of
them is none. -/
theorem parse_written {ms : List Member} (h : ∀ m ∈ ms, m.Reads) (hms : ms ≠ [])
    {text : String} (htext : text.toList = '{' :: written ms) :
    parse text = (values ms).map .object := by
  obtain ⟨m, ms, rfl⟩ := List.exists_cons_of_ne_nil hms
  obtain ⟨rest, hrest⟩ := exists_written m ms
  have hlength := length_le_length_written (m :: ms)
  have hmembers := members_written h hms [] (Nat.lt_add_one_of_le hlength)
  rw [List.append_nil, hrest] at hmembers
  rw [parse, htext, List.length_cons, hrest, value_object, hmembers]
  cases values (m :: ms) <;> rfl

/-! ### Arrays of strings -/

/-- Strings as they are written in an array, with its closing bracket, without whitespace. -/
def writtenStrings : List (List Char) → List Char
  | [] => [']']
  | [text] => '"' :: (text ++ ['"', ']'])
  | text :: texts => '"' :: (text ++ '"' :: ',' :: writtenStrings texts)

/-- Texts are written one after another, with commas between them. -/
theorem writtenStrings_cons (text text' : List Char) (texts : List (List Char)) :
    writtenStrings (text :: text' :: texts) =
      '"' :: (text ++ '"' :: ',' :: writtenStrings (text' :: texts)) := rfl

/-- The strings of an array are read. -/
theorem elements_written {texts : List (List Char)} (h : ∀ text ∈ texts, text.all isPlain = true)
    (htexts : texts ≠ []) (rest : List Char) {fuel : ℕ} (hfuel : texts.length < fuel) :
    elements fuel (writtenStrings texts ++ rest) =
      some (texts.map fun text => .string (String.ofList text), rest) := by
  induction texts generalizing fuel with
  | nil => exact absurd rfl htexts
  | cons text texts ih =>
      obtain ⟨htext, htail⟩ := List.forall_mem_cons.mp h
      rw [List.length_cons] at hfuel
      obtain ⟨fuel, rfl⟩ : ∃ n, fuel = n + 2 := ⟨fuel - 2, by omega⟩
      cases texts with
      | nil =>
          have hvalue := denotes_string htext fuel (']' :: rest) (closed_cons rfl rest)
          have hwritten : writtenStrings [text] ++ rest =
              '"' :: (text ++ ['"']) ++ ']' :: rest := by simp [writtenStrings]
          rw [hwritten, elements, hvalue]
          rfl
      | cons text' texts =>
          have hvalue := denotes_string htext fuel
            (',' :: (writtenStrings (text' :: texts) ++ rest)) (closed_cons rfl _)
          have hwritten : writtenStrings (text :: text' :: texts) ++ rest =
              '"' :: (text ++ ['"']) ++ ',' :: (writtenStrings (text' :: texts) ++ rest) := by
            simp [writtenStrings]
          have hrest := ih htail (List.cons_ne_nil _ _) (by omega : _ < fuel + 1)
          have hcomma : skip (',' :: (writtenStrings (text' :: texts) ++ rest)) =
              ',' :: (writtenStrings (text' :: texts) ++ rest) := skip_cons rfl _
          rw [hwritten, elements, hvalue]
          simp only [Option.map_some, Option.bind_some, hcomma, hrest, List.map_cons]

/-- Texts that are written begin with a quotation mark. -/
theorem exists_writtenStrings (text : List Char) (texts : List (List Char)) :
    ∃ rest, writtenStrings (text :: texts) = '"' :: rest := by
  cases texts with
  | nil => exact ⟨_, rfl⟩
  | cons text' texts => exact ⟨_, rfl⟩

/-- A bracket before a quotation mark opens an array with elements. -/
theorem value_elements (fuel : ℕ) (rest : List Char) :
    value (fuel + 1) ('[' :: '"' :: rest) =
      (elements fuel ('"' :: rest)).map fun p => (.array p.1, p.2) := by
  rw [value, skip_cons rfl]
  rfl

/-- An array of strings is a value, with fuel enough for its elements. -/
theorem value_array {texts : List (List Char)} (h : ∀ text ∈ texts, text.all isPlain = true)
    (htexts : texts ≠ []) (rest : List Char) {fuel : ℕ} (hfuel : texts.length < fuel) :
    value (fuel + 1) ('[' :: (writtenStrings texts ++ rest)) =
      some (.array (texts.map fun text => .string (String.ofList text)), rest) := by
  have helements := elements_written h htexts rest hfuel
  obtain ⟨text, texts, rfl⟩ := List.exists_cons_of_ne_nil htexts
  obtain ⟨tail, htail⟩ := exists_writtenStrings text texts
  rw [htail, List.cons_append] at helements ⊢
  rw [value_elements, helements]
  rfl

/-- Each text takes at least one character. -/
theorem length_le_length_writtenStrings (texts : List (List Char)) :
    texts.length ≤ (writtenStrings texts).length := by
  induction texts with
  | nil => simp
  | cons text texts ih =>
      cases texts with
      | nil => simp [writtenStrings]
      | cons text' texts =>
          rw [writtenStrings_cons]
          simp only [List.length_cons, List.length_append] at ih ⊢
          omega

/-- The last member of an object, whose value is read with the fuel that is left. -/
theorem members_of_value {name text rest : List Char} {v : Value} {fuel : ℕ}
    (hname : name.all isPlain = true)
    (hvalue : value fuel (text ++ '}' :: rest) = some (v, '}' :: rest)) :
    members (fuel + 1) ('"' :: (name ++ '"' :: ':' :: (text ++ '}' :: rest))) =
      some ([(String.ofList name, v)], rest) := by
  have hread := string_append hname (':' :: (text ++ '}' :: rest))
  have hcolon : skip (':' :: (text ++ '}' :: rest)) = ':' :: (text ++ '}' :: rest) :=
    skip_cons rfl _
  rw [members, skip_cons rfl]
  simp only [hread, hcolon, hvalue, Option.bind_some, skip_cons (show isSpace '}' = false from rfl)]

/-- An object of a member and an array of strings after it. -/
theorem parse_array {m : Member} (hm : m.Reads) {v : String × Value} (hv : m.value? = some v)
    {name : List Char} (hname : name.all isPlain = true) {texts : List (List Char)}
    (h : ∀ text ∈ texts, text.all isPlain = true) (htexts : texts ≠ []) {text : String}
    (htext : text.toList = '{' :: m.written (',' :: '"' ::
      (name ++ '"' :: ':' :: '[' :: (writtenStrings texts ++ ['}'])))) :
    parse text = some (.object [v, (String.ofList name,
      .array (texts.map fun text => .string (String.ofList text)))]) := by
  have hlength := length_le_length_writtenStrings texts
  -- the fuel for the array is what is left after the braces and the names
  obtain ⟨fuel, hfuel, hmore⟩ : ∃ fuel, text.toList.length = fuel + 3 ∧ texts.length < fuel := by
    refine ⟨text.toList.length - 3, ?_, ?_⟩
    all_goals
      rw [htext, Member.written]
      simp only [List.length_cons, List.length_append]
      omega
  have hvalue := value_array h htexts ('}' :: []) hmore
  have hlast : members (fuel + 2) ('"' :: (name ++ '"' :: ':' ::
      ('[' :: writtenStrings texts ++ ['}']))) = _ := members_of_value hname hvalue
  have hnext := members_next hm
    ('"' :: (name ++ '"' :: ':' :: ('[' :: writtenStrings texts ++ ['}']))) (fuel + 1)
  rw [hlast, hv] at hnext
  rw [parse, hfuel, htext]
  obtain ⟨tail, htail⟩ : ∃ tail, m.written (',' :: '"' :: (name ++ '"' :: ':' :: '[' ::
      (writtenStrings texts ++ ['}']))) = '"' :: tail := ⟨_, rfl⟩
  simp only [List.cons_append] at hnext
  rw [htail, value_object, ← htail, hnext]
  rfl

end JsonText

end RoqBitmex
