import RoqBitmex.Protocol.Errors
import Mathlib.Data.List.MinMax

/-! # Which messages are recognised

`guess_error` is meant to find the text a message begins with, as messages go on with amounts and
times. Its `compare` cuts the text to the length of the message and not the message to the length of
the text, so what it finds is a text that begins with the message. `guessed_iff` says for which
messages the two come to the same. -/

namespace RoqBitmex

namespace Json

/-- A text without its case. -/
def folded (text : String) : List Char := text.toList.map Char.toLower

/-- A message begins with a text, ignoring case. -/
def Begins (text message : String) : Prop := folded text <+: folded message

instance (text message : String) : Decidable (Begins text message) :=
  inferInstanceAs (Decidable (_ <+: _))

/-- Texts that begin alike begin with each other. -/
theorem Begins.trans {a b c : String} (h : Begins a b) (h' : Begins b c) : Begins a c :=
  List.IsPrefix.trans h h'

/-- Folding keeps the length of a text. -/
theorem length_folded (text : String) : (folded text).length = text.length := by
  rw [folded, List.length_map, String.length_toList]

/-- A text in lower case is the folded text. -/
theorem toList_toLower (text : String) : text.toLower.toList = folded text :=
  String.toList_map

/-- What `compare` compares: the message is the beginning of the text. -/
theorem compareEq_iff (message text : String) :
    compareEq message text = true ↔ Begins message text := by
  have hfolded : compareEq message text = true ↔
      folded message = (folded text).take (min message.length text.length) := by
    rw [compareEq, decide_eq_true_iff, ← String.toList_inj, toList_toLower, toList_toLower]
    simp only [folded, String.toList_ofList, List.map_take]
  rw [hfolded, Begins, List.prefix_iff_eq_take, length_folded]
  by_cases hlength : message.length ≤ text.length
  · rw [min_eq_left hlength]
  · -- a message that is longer than the text is not compared equal
    have hshort : ∀ n, folded message ≠ (folded text).take n := by
      intro n heq
      have hle := congrArg List.length heq
      rw [length_folded, List.length_take, length_folded] at hle
      omega
    exact iff_of_false (hshort _) (hshort _)

/-! ## The table -/

/-- The texts that are the beginning of another text of the table. -/
def overlaps : List (String × String) :=
  [("Invalid displayQty", "Invalid displayQty for execInst"),
    ("Invalid orderQty", "Invalid orderQty or simpleOrderQty"),
    ("Invalid price", "Invalid price tickSize"),
    ("Invalid leavesQty", "Invalid leavesQty for lotSize")]

/-- No other two texts of the table begin with each other. -/
theorem eq_or_mem_overlaps : ∀ x ∈ errorTexts, ∀ y ∈ errorTexts, Begins x.1 y.1 →
    x = y ∨ (x.1, y.1) ∈ overlaps := by
  decide +kernel

/-- Every text of the table has an error of its own. -/
theorem errorTexts_known : ∀ x ∈ errorTexts, x.2 ≠ .undefined ∧ x.2 ≠ .unknown := by decide

/-- Where one text of the table begins another they have one error, but for the two about
`displayQty`. -/
theorem error_eq_of_overlaps : ∀ x ∈ errorTexts, ∀ y ∈ errorTexts, (x.1, y.1) ∈ overlaps →
    x.2 = y.2 ∨
      x.1 = "Invalid displayQty" ∧ y.1 = "Invalid displayQty for execInst" := by
  decide +kernel

/-! ## Guessing -/

/-- No message but the empty one is without an error. -/
theorem guessError_eq_undefined_iff (message : String) :
    guessError message = .undefined ↔ message = "" := by
  rw [guessError]
  by_cases hempty : message = ""
  · simp [hempty]
  · rw [if_neg hempty]
    refine iff_of_false ?_ hempty
    cases hfind : errorTexts.find? fun entry => compareEq message entry.1 with
    | none => simp
    | some x => exact (errorTexts_known x (List.mem_of_find?_eq_some hfind)).1

/-- A text of the table that begins the message, and none that does is longer. -/
def Longest (message : String) (x : String × RoqBitmex.Error) : Prop :=
  x ∈ errorTexts ∧ Begins x.1 message ∧
    ∀ y ∈ errorTexts, Begins y.1 message → y.1.length ≤ x.1.length

/-- An error is guessed by prefix: it is that of the longest text the message begins with, and an
unknown one if there is none. -/
def GuessedByPrefix (message : String) (error : RoqBitmex.Error) : Prop :=
  (∀ x, Longest message x → error = x.2) ∧
    ((∀ x ∈ errorTexts, ¬ Begins x.1 message) → error = .unknown)

/-- The message is one of the beginnings of the longer text about `displayQty` that the shorter one
begins. -/
def CutDisplayQty (message : String) : Prop :=
  Begins "Invalid displayQty" message ∧ Begins message "Invalid displayQty for execInst" ∧
    message.length < "Invalid displayQty for execInst".length

/-- The message begins with a text of the table exactly if it is the beginning of one, and it does
not end inside the longer text about `displayQty`. -/
def WholeText (message : String) : Prop :=
  ((∃ x ∈ errorTexts, Begins x.1 message) ↔ ∃ x ∈ errorTexts, Begins message x.1) ∧
    ¬ CutDisplayQty message

/-- Of the elements of a list with a property one is the largest. -/
theorem exists_largest {α : Type*} (f : α → Nat) (p : α → Prop) [DecidablePred p] {l : List α}
    (h : ∃ x ∈ l, p x) : ∃ x ∈ l, p x ∧ ∀ y ∈ l, p y → f y ≤ f x := by
  obtain ⟨x, hx, hp⟩ := h
  have hmem : x ∈ l.filter p := List.mem_filter.mpr ⟨hx, decide_eq_true hp⟩
  cases hmax : (l.filter p).argmax f with
  | none =>
      rw [List.argmax_eq_none.mp hmax] at hmem
      cases hmem
  | some y =>
      obtain ⟨hy, hp'⟩ := List.mem_filter.mp (List.argmax_mem hmax)
      refine ⟨y, hy, of_decide_eq_true hp', fun z hz hp'' => ?_⟩
      exact List.le_of_mem_argmax (List.mem_filter.mpr ⟨hz, decide_eq_true hp''⟩) hmax

/-- A message that begins with some text begins with a longest one. -/
theorem exists_longest {message : String} (h : ∃ x ∈ errorTexts, Begins x.1 message) :
    ∃ x, Longest message x :=
  exists_largest (fun x : String × RoqBitmex.Error => x.1.length) (fun x => Begins x.1 message) h

/-- The table has the text about the displayed quantity. -/
theorem displayQty_mem : ("Invalid displayQty", RoqBitmex.Error.invalidQuantity) ∈ errorTexts := by
  decide +kernel

/-- A message that ends inside the longer text about `displayQty` is taken for it. -/
theorem guessError_of_cutDisplayQty {message : String} (h : CutDisplayQty message) :
    guessError message = .invalidExecutionInstruction := by
  have hempty : message ≠ "" := by
    rintro rfl
    exact absurd h.1 (by decide)
  -- none of the texts before it begins with the shorter one
  have hbefore : (errorTexts.take 10).find? (fun entry => compareEq message entry.1) = none := by
    rw [List.find?_eq_none]
    intro x hx hcompare
    have hshort : Begins "Invalid displayQty" x.1 := h.1.trans ((compareEq_iff _ _).mp hcompare)
    have hmem := List.mem_of_mem_take hx
    rcases eq_or_mem_overlaps _ displayQty_mem x hmem hshort with rfl | hoverlap
    · exact absurd hx (by decide)
    · have hlater : ∀ x ∈ errorTexts.take 10, ("Invalid displayQty", x.1) ∉ overlaps := by
        decide +kernel
      exact hlater x hx hoverlap
  have hsplit : errorTexts = errorTexts.take 10 ++
      ("Invalid displayQty for execInst", .invalidExecutionInstruction) :: errorTexts.drop 11 := rfl
  rw [guessError, if_neg hempty, hsplit, List.find?_append, hbefore, Option.none_or,
    List.find?_cons_of_pos]
  · rfl
  · exact (compareEq_iff _ _).mpr h.2.1

/-- What a message that ends inside the longer text begins with at most is the shorter one. -/
theorem longest_of_cutDisplayQty {message : String} (h : CutDisplayQty message) :
    Longest message ("Invalid displayQty", .invalidQuantity) := by
  refine ⟨displayQty_mem, h.1, fun y hy hbegins => ?_⟩
  have hlong : ("Invalid displayQty for execInst", RoqBitmex.Error.invalidExecutionInstruction) ∈
      errorTexts := by decide +kernel
  rcases eq_or_mem_overlaps y hy _ hlong (hbegins.trans h.2.1) with rfl | hoverlap
  · -- the longer text does not begin a shorter message
    have hle := hbegins.length_le
    rw [length_folded, length_folded] at hle
    exact absurd h.2.2 (not_lt.mpr hle)
  · have hshort : ∀ y ∈ errorTexts, (y.1, "Invalid displayQty for execInst") ∈ overlaps →
        y.1.length ≤ "Invalid displayQty".length := by decide +kernel
    exact hshort y hy hoverlap

/-- Where a message begins with a text of the table, an unknown error is not guessed by prefix. -/
theorem not_guessed_unknown {message : String} (hsome : ∃ x ∈ errorTexts, Begins x.1 message) :
    ¬ GuessedByPrefix message .unknown := by
  intro h
  obtain ⟨x, hx⟩ := exists_longest hsome
  exact (errorTexts_known x hx.1).2 (h.1 x hx).symm

/-- A message that is the beginning of no text is an unknown error. -/
theorem guessError_eq_unknown {message : String} (hempty : message ≠ "")
    (hno : ∀ x ∈ errorTexts, ¬ Begins message x.1) : guessError message = .unknown := by
  have hfind : errorTexts.find? (fun entry => compareEq message entry.1) = none := by
    rw [List.find?_eq_none]
    intro x hx hcompare
    exact hno x hx ((compareEq_iff _ _).mp hcompare)
  rw [guessError, if_neg hempty, hfind]
  rfl

/-- The longest text a message begins with and a text the message is the beginning of have one
error, unless the message ends inside the longer text about `displayQty`. -/
theorem error_eq_of_longest {message : String} (hcut : ¬ CutDisplayQty message)
    {x y : String × RoqBitmex.Error} (hx : Longest message x) (hy : y ∈ errorTexts)
    (hbegins : Begins message y.1) : y.2 = x.2 := by
  obtain ⟨hmem, hbegins', hmost⟩ := hx
  rcases eq_or_mem_overlaps x hmem y hy (hbegins'.trans hbegins) with rfl | hoverlap
  · rfl
  rcases error_eq_of_overlaps x hmem y hy hoverlap with hsame | ⟨hshort, hlong⟩
  · exact hsame.symm
  · rw [hshort] at hbegins' hmost
    rw [hlong] at hbegins
    -- the message is the longer text, so the shorter one is not the longest
    have hle : "Invalid displayQty for execInst".length ≤ message.length :=
      not_lt.mp fun hlt => hcut ⟨hbegins', hbegins, hlt⟩
    have hsame : folded message = folded "Invalid displayQty for execInst" := by
      refine hbegins.eq_of_length_le ?_
      rw [length_folded, length_folded]
      exact hle
    have hwhole : Begins y.1 message := by
      unfold Begins
      simp [hlong, hsame]
    have hmore := hmost y hy hwhole
    rw [hlong] at hmore
    exact absurd hmore (by decide)

/-- **Exact guessing.** A message that is not empty is guessed by prefix exactly when it begins with
a text of the table if and only if it is the beginning of one, and does not end inside the longer
text about `displayQty`. -/
theorem guessed_iff {message : String} (hempty : message ≠ "") :
    GuessedByPrefix message (guessError message) ↔ WholeText message := by
  by_cases hcut : CutDisplayQty message
  · refine iff_of_false (fun h => ?_) fun h => h.2 hcut
    have herror := h.1 _ (longest_of_cutDisplayQty hcut)
    rw [guessError_of_cutDisplayQty hcut] at herror
    cases herror
  · rw [WholeText, and_iff_left hcut]
    cases hfind : errorTexts.find? fun entry => compareEq message entry.1 with
    | none =>
        have hno : ∀ x ∈ errorTexts, ¬ Begins message x.1 := fun x hx hbegins =>
          List.find?_eq_none.mp hfind x hx ((compareEq_iff _ _).mpr hbegins)
        have hnone : ¬ ∃ x ∈ errorTexts, Begins message x.1 := by
          rintro ⟨x, hx, hbegins⟩
          exact hno x hx hbegins
        rw [guessError_eq_unknown hempty hno]
        constructor
        · intro h
          exact iff_of_false (fun hsome => not_guessed_unknown hsome h) hnone
        · intro h
          exact ⟨fun x hx => absurd (h.mp ⟨x, hx.1, hx.2.1⟩) hnone, fun _ => rfl⟩
    | some y =>
        have hy := List.mem_of_find?_eq_some hfind
        have hcompare : compareEq message y.1 = true := by simpa using List.find?_some hfind
        have hbegins : Begins message y.1 := (compareEq_iff _ _).mp hcompare
        have hsome : ∃ x ∈ errorTexts, Begins message x.1 := ⟨y, hy, hbegins⟩
        have herror : guessError message = y.2 := by
          rw [guessError, if_neg hempty, hfind]
          rfl
        rw [herror]
        constructor
        · intro h
          refine iff_of_true ?_ hsome
          by_contra hno
          have hunknown := h.2 fun x hx hbegins' => hno ⟨x, hx, hbegins'⟩
          exact (errorTexts_known y hy).2 hunknown
        · intro h
          refine ⟨fun x hx => error_eq_of_longest hcut hx hy hbegins, fun hno => ?_⟩
          obtain ⟨x, hx, hbegins'⟩ := h.mpr hsome
          exact absurd hbegins' (hno x hx)

/-- A text of the table on its own is guessed. -/
theorem guessed_iff_leavesQty :
    GuessedByPrefix "Invalid leavesQty" (guessError "Invalid leavesQty") := by
  have hmem : ("Invalid leavesQty", RoqBitmex.Error.invalidQuantity) ∈ errorTexts := by
    decide +kernel
  refine (guessed_iff (by decide)).mpr ⟨?_, ?_⟩
  · exact iff_of_true ⟨_, hmem, List.prefix_rfl⟩ ⟨_, hmem, List.prefix_rfl⟩
  · rintro ⟨h, -⟩
    exact absurd h (by decide)

/-- A message that goes on after a text of the table. -/
def insufficientBalance : String :=
  "Account has insufficient Available Balance, 5929700 XBt required"

/-- It is not guessed. -/
theorem insufficientBalance_not_guessed :
    ¬ GuessedByPrefix insufficientBalance (guessError insufficientBalance) := by
  have hmem : ("Account has insufficient Available Balance", RoqBitmex.Error.insufficientFunds) ∈
      errorTexts := by decide +kernel
  have hbegins : Begins "Account has insufficient Available Balance" insufficientBalance := by
    decide +kernel
  have hno : ∀ x ∈ errorTexts, ¬ Begins insufficientBalance x.1 := by
    intro x hx hbegins'
    rcases eq_or_mem_overlaps _ hmem x hx (hbegins.trans hbegins') with rfl | hoverlap
    · -- the text is shorter than the message
      exact absurd hbegins'.length_le (by decide +kernel)
    · simp [overlaps] at hoverlap
  rw [guessError_eq_unknown (by decide) hno]
  exact not_guessed_unknown ⟨_, hmem, hbegins⟩

end Json

end RoqBitmex
