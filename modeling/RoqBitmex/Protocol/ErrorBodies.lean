import Mathlib.Data.List.Nodup
import RoqBitmex.Protocol.Errors

/-! # The members of an error body

`ErrorParser::dispatch` decides at the first member of an object, and what its parser of an error
response throws leaves it. `extracts_ofObject_iff` and `orderless_iff_errorAlone` say for which
objects the callback is given the member named `error`, and for which it makes no difference in
which order the members stand. -/

namespace RoqBitmex

namespace Json

variable (parsers : Parsers)

/-- What `ErrorParser::dispatch` does with a text that parses to an object. -/
def ErrorParser.ofObject (members : List (String × Value)) : Except String (Option ErrorResponse) :=
  ErrorParser.dispatch { parsers with root := fun _ => .ok (.object members) } ""

/-- The callback is called once, with the error response that the value of the member named `error`
is, if there is such a member, and is not called otherwise. -/
structure Extracts (members : List (String × Value))
    (result : Except String (Option ErrorResponse)) : Prop where
  finds : ∀ value, ("error", value) ∈ members →
    ∃ response, parsers.errorResponse value = .ok response ∧ result = .ok (some response)
  absent : (∀ value, ("error", value) ∉ members) → result = .ok none

/-- The order of the members makes no difference. -/
def Orderless (members : List (String × Value)) : Prop :=
  ∀ members', members'.Perm members →
    ErrorParser.ofObject parsers members' = ErrorParser.ofObject parsers members

/-- The member named `error` is the first one, if there is one. -/
def ErrorFirst (members : List (String × Value)) : Prop :=
  ∀ value, ("error", value) ∈ members → members.head? = some ("error", value)

/-- The member named `error` parses as an error response, if there is one. -/
def ErrorParses (members : List (String × Value)) : Prop :=
  ∀ value, ("error", value) ∈ members → ∃ response, parsers.errorResponse value = .ok response

/-- The member named `error` is the only one, if there is one. -/
def ErrorAlone (members : List (String × Value)) : Prop :=
  ∀ value, ("error", value) ∈ members → members = [("error", value)]

variable {parsers} {members : List (String × Value)} {message : String}

/-- A text is dispatched as the object it parses to. -/
theorem ErrorParser.dispatch_eq_ofObject (h : parsers.root message = .ok (.object members)) :
    ErrorParser.dispatch parsers message = ErrorParser.ofObject parsers members := by
  unfold ErrorParser.ofObject ErrorParser.dispatch
  rw [h]

/-! ## The first member decides -/

@[simp] theorem ErrorParser.ofObject_nil : ErrorParser.ofObject parsers [] = .ok none := rfl

/-- A first member named `error` is handed to the callback. -/
@[simp] theorem ErrorParser.ofObject_error (value : Value) :
    ErrorParser.ofObject parsers (("error", value) :: members) =
      (parsers.errorResponse value).map some := by
  unfold ErrorParser.ofObject ErrorParser.dispatch
  cases h : parsers.errorResponse value with
  | error what => simp [h, bind, Except.bind, Except.map]
  | ok response => simp [h, bind, Except.bind, Except.map, pure, Except.pure]

/-- A first member of another name ends the search. -/
theorem ErrorParser.ofObject_of_ne {x : String × Value} (h : x.1 ≠ "error") :
    ErrorParser.ofObject parsers (x :: members) = .ok none := by
  obtain ⟨key, value⟩ := x
  unfold ErrorParser.ofObject ErrorParser.dispatch
  exact if_neg h

/-- What is handed to the callback is not nothing. -/
theorem map_some_ne_none (result : Except String ErrorResponse) :
    result.map some ≠ .ok none := by
  cases result <;> rintro ⟨⟩

/-- Distinct keys have one member named `error` at most. -/
theorem eq_of_mem_error (hkeys : (members.map Prod.fst).Nodup) {value value' : Value}
    (h : ("error", value) ∈ members) (h' : ("error", value') ∈ members) : value = value' := by
  have hinj := List.inj_on_of_nodup_map hkeys h h' rfl
  exact congrArg Prod.snd hinj

/-! ## Exact extraction -/

/-- An object without a member named `error` is dispatched to nothing. -/
theorem ErrorParser.ofObject_absent (h : ∀ value, ("error", value) ∉ members) :
    ErrorParser.ofObject parsers members = .ok none := by
  cases members with
  | nil => rfl
  | cons x members =>
      obtain ⟨key, value⟩ := x
      apply ErrorParser.ofObject_of_ne
      rintro rfl
      exact h value (by simp)

/-- A first member named `error` that parses is handed to the callback as it parses. -/
theorem ErrorParser.ofObject_error_of_parses {value : Value} {response : ErrorResponse}
    (h : parsers.errorResponse value = .ok response) :
    ErrorParser.ofObject parsers (("error", value) :: members) = .ok (some response) := by
  rw [ErrorParser.ofObject_error, h]
  rfl

/-- **Exact extraction.** With distinct keys, dispatching an object extracts its member named
`error` exactly when that is the first member and parses as an error response. -/
theorem extracts_ofObject_iff (hkeys : (members.map Prod.fst).Nodup) :
    Extracts parsers members (ErrorParser.ofObject parsers members) ↔
      ErrorFirst members ∧ ErrorParses parsers members := by
  constructor
  · intro h
    refine ⟨fun value hmem => ?_, fun value hmem => ?_⟩
    · obtain ⟨response, -, hfinds⟩ := h.finds value hmem
      cases members with
      | nil => cases hmem
      | cons x members =>
          -- the loop returns at the first member, whatever its name
          by_cases hx : x.1 = "error"
          · obtain ⟨key, value'⟩ := x
            obtain rfl : key = "error" := hx
            rw [eq_of_mem_error hkeys hmem (by simp : ("error", value') ∈ _)]
            rfl
          · rw [ErrorParser.ofObject_of_ne hx] at hfinds
            cases hfinds
    · obtain ⟨response, hresponse, -⟩ := h.finds value hmem
      exact ⟨response, hresponse⟩
  · rintro ⟨hfirst, hparses⟩
    refine ⟨fun value hmem => ?_, ErrorParser.ofObject_absent⟩
    obtain ⟨response, hresponse⟩ := hparses value hmem
    refine ⟨response, hresponse, ?_⟩
    cases members with
    | nil => cases hmem
    | cons x members =>
        obtain rfl : x = ("error", value) := Option.some.inj (hfirst value hmem)
        exact ErrorParser.ofObject_error_of_parses hresponse

/-- **Exact independence.** With distinct keys, the order of the members makes no difference exactly
when the member named `error` is alone. -/
theorem orderless_iff_errorAlone (hkeys : (members.map Prod.fst).Nodup) :
    Orderless parsers members ↔ ErrorAlone members := by
  constructor
  · intro h value hmem
    obtain ⟨front, back, rfl⟩ := List.append_of_mem hmem
    have hperm : (("error", value) :: (front ++ back)).Perm
        (front ++ ("error", value) :: back) := List.perm_middle.symm
    have hfirst := h _ hperm
    rw [ErrorParser.ofObject_error] at hfirst
    cases hrest : front ++ back with
    | nil =>
        obtain ⟨rfl, rfl⟩ := List.append_eq_nil_iff.mp hrest
        rfl
    | cons x rest =>
        -- another member may be the first one
        rw [hrest] at hperm
        have hswap := (List.Perm.swap ("error", value) x rest).trans hperm
        have hnodup := ((hperm.map Prod.fst).nodup_iff).mpr hkeys
        have hx : x.1 ≠ "error" := by
          intro hx
          simp [hx] at hnodup
        have hother := h _ hswap
        rw [ErrorParser.ofObject_of_ne hx] at hother
        exact absurd (hfirst.trans hother.symm) (map_some_ne_none _)
  · intro h members' hperm
    -- alone the member has one order only, and without it nothing is found in any
    by_cases hmem : ∃ value, ("error", value) ∈ members
    · obtain ⟨value, hmem⟩ := hmem
      have halone := h value hmem
      subst halone
      rw [List.perm_singleton.mp hperm]
    · have habsent : ∀ value, ("error", value) ∉ members := fun value hv => hmem ⟨value, hv⟩
      have habsent' : ∀ value, ("error", value) ∉ members' :=
        fun value hv => habsent value (hperm.mem_iff.mp hv)
      rw [ErrorParser.ofObject_absent habsent, ErrorParser.ofObject_absent habsent']

/-- **Exact dispatch.** A text that parses to an object with distinct keys is dispatched to its
member named `error` exactly when that is the first one and parses as an error response, and to the
same in every order of the members exactly when that is the only one. -/
theorem dispatch_extracts_iff (hobject : parsers.root message = .ok (.object members))
    (hkeys : (members.map Prod.fst).Nodup) :
    (Extracts parsers members (ErrorParser.dispatch parsers message) ↔
        ErrorFirst members ∧ ErrorParses parsers members) ∧
      (Orderless parsers members ↔ ErrorAlone members) := by
  rw [ErrorParser.dispatch_eq_ofObject hobject]
  exact ⟨extracts_ofObject_iff hkeys, orderless_iff_errorAlone hkeys⟩

/-! ## A refused order -/

/-- The `error` member of the bodies below. -/
def invalidPrice : Value := .object [("message", .string "Invalid price")]

/-- A body with another member before its `error`. -/
def codeFirst : String := "\x7b\"code\":400,\"error\":\x7b\"message\":\"Invalid price\"\x7d\x7d"

/-- A body with its `error` alone. -/
def errorOnly : String := "\x7b\"error\":\x7b\"message\":\"Invalid price\"\x7d\x7d"

/-- Parsers that know the two bodies. -/
def bodyParsers : Parsers where
  root := fun body =>
    if body = codeFirst then .ok (.object [("code", .int 400), ("error", invalidPrice)])
    else if body = errorOnly then .ok (.object [("error", invalidPrice)])
    else .error "unexpected end of input"
  badVariantAccess := "std::get: wrong index for variant"
  errorResponse := fun
    | .object [("message", .string message)] => .ok ⟨message⟩
    | _ => .error "std::bad_cast"
  orderDataItem := fun _ => .error "std::bad_cast"
  orderDataItems := fun _ => .error "std::bad_cast"

/-- An `error` that is alone is extracted. -/
theorem dispatch_extracts_errorOnly :
    Extracts bodyParsers [("error", invalidPrice)] (ErrorParser.dispatch bodyParsers errorOnly) ∧
      Orderless bodyParsers [("error", invalidPrice)] := by
  have hobject : bodyParsers.root errorOnly = .ok (.object [("error", invalidPrice)]) := by rfl
  obtain ⟨hextracts, horderless⟩ := dispatch_extracts_iff hobject (by simp)
  refine ⟨hextracts.mpr ⟨fun value hmem => ?_, fun value hmem => ?_⟩,
    horderless.mpr fun value hmem => ?_⟩
  · rw [List.mem_singleton.mp hmem]
    rfl
  · obtain rfl : value = invalidPrice := congrArg Prod.snd (List.mem_singleton.mp hmem)
    exact ⟨⟨"Invalid price"⟩, rfl⟩
  · rw [List.mem_singleton.mp hmem]

/-- An `error` after another member is missed, and found in the other order of the members. -/
theorem codeFirst_not_extracted :
    ¬ Extracts bodyParsers [("code", .int 400), ("error", invalidPrice)]
        (ErrorParser.dispatch bodyParsers codeFirst) ∧
      ¬ Orderless bodyParsers [("code", .int 400), ("error", invalidPrice)] := by
  have hobject : bodyParsers.root codeFirst =
      .ok (.object [("code", .int 400), ("error", invalidPrice)]) := by rfl
  have hkeys : ([("code", .int 400), ("error", invalidPrice)].map
      (Prod.fst : String × Value → String)).Nodup := by simp
  constructor
  · rw [ErrorParser.dispatch_eq_ofObject hobject, extracts_ofObject_iff hkeys]
    intro h
    have hfirst := h.1 invalidPrice (by simp)
    simp at hfirst
  · rw [orderless_iff_errorAlone hkeys]
    intro h
    have halone := h invalidPrice (by simp)
    simp at halone

end Json

end RoqBitmex
