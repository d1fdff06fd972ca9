import RoqBitmex.Gateway.OrderEntry
import RoqBitmex.Protocol.ErrorBodies
import RoqBitmex.Protocol.ErrorTexts

/-! # Refused requests

A client error (4xx) is meant to reject the request. `process_response` reads the reason from the
body with a parser that may throw into its own catch clauses; `rejected_iff` says for which bodies
the request is rejected with an error. -/

namespace RoqBitmex

namespace OrderEntry

variable (parsers : Json.Parsers)

/-- `process_response` calls its error handler once, with the given arguments: whatever the
handlers, it does what that call does and nothing else. -/
def CallsErrorHandler (response : RestResponse) (failure : Failure) : Prop :=
  ∀ (successHandler : String → Handler Unit) (errorHandler : Failure → Handler Unit)
    (events : List OmsEvent), Handling.Ends (errorHandler failure) events (.ok ()) →
      Handling.Ends (processResponse parsers response successHandler errorHandler) events (.ok ())

/-- The error handler is called once, with a rejection by the exchange and an error. -/
def Rejected (response : RestResponse) : Prop :=
  ∃ failure, CallsErrorHandler parsers response failure ∧
    failure.origin = .exchange ∧ failure.status = .rejected ∧ failure.error ≠ .undefined

/-- A client error with a body. -/
def clientError (status body : String) (expect : Exception) : RestResponse where
  result := .ok ⟨status, .clientError, body⟩
  expect := expect

/-- The body of a refusal: an object, and if its first member is named `error`, that has a
message. -/
def IsRefusal (body : String) : Prop :=
  ∃ members, parsers.root body = .ok (.object members) ∧
    ∀ value rest, members = ("error", value) :: rest →
      ∃ response, parsers.errorResponse value = .ok response ∧ response.message ≠ ""

/-- What a client error is reported as, exceptions of the parser included. -/
def clientFailure (body : String) : Failure :=
  match Json.ErrorParser.dispatch parsers body with
  | .ok error => .ofClientError error
  | .error what => .ofException (.std what)

variable {parsers} {response : RestResponse} {failure failure' : Failure}

/-- The error handler is called with one list of arguments. -/
theorem CallsErrorHandler.unique (h : CallsErrorHandler parsers response failure)
    (h' : CallsErrorHandler parsers response failure') : failure = failure' := by
  -- a handler that puts its arguments out
  let record : Failure → OmsEvent := rejection ⟨0, "", ""⟩ .createOrder ⟨0, 0, 0, ""⟩
  have hfirst := h (fun _ => pure ()) (fun f => Handling.dispatch (record f)) [record failure]
    (Handling.ends_dispatch _)
  have hsecond := h' (fun _ => pure ()) (fun f => Handling.dispatch (record f)) [record failure']
    (Handling.ends_dispatch _)
  have hrecord : record failure = record failure' := by
    have hsame := hfirst.dispatched.symm.trans hsecond.dispatched
    exact (List.cons.inj hsame).1
  obtain ⟨origin, status, error, text⟩ := failure
  obtain ⟨origin', status', error', text'⟩ := failure'
  simp only [record, rejection, OmsEvent.response.injEq, Oms.Response.mk.injEq] at hrecord
  simp only [Failure.mk.injEq]
  tauto

/-- **A client error is reported once**, whatever its body. -/
theorem callsErrorHandler_clientError (status body : String) (expect : Exception) :
    CallsErrorHandler parsers (clientError status body expect) (clientFailure parsers body) := by
  intro successHandler errorHandler events hevents
  have hresult := Handling.ends_ofExcept (ε := OmsEvent) (clientError status body expect).result
  unfold processResponse
  unfold clientFailure at hevents
  cases hparse : Json.ErrorParser.dispatch parsers body with
  | ok error =>
      rw [hparse] at hevents
      -- the branch for client errors calls the handler, and no clause catches anything
      have htry := hresult.bind (f := processCategory parsers (clientError status body expect)
        successHandler errorHandler) ((ends_parse_ok hparse).bind hevents)
      exact htry.catch_ok
  | error what =>
      rw [hparse] at hevents
      -- the parser throws before the branch calls the handler, so the catch clause does
      have htry := hresult.bind (f := processCategory parsers (clientError status body expect)
        successHandler errorHandler) (ends_parse_error hparse).bind_error
      exact htry.catch_error hevents

/-- A client error is rejected exactly when it is reported so. -/
theorem rejected_clientError_iff (status body : String) (expect : Exception) :
    Rejected parsers (clientError status body expect) ↔
      (clientFailure parsers body).origin = .exchange ∧
        (clientFailure parsers body).status = .rejected ∧
        (clientFailure parsers body).error ≠ .undefined := by
  constructor
  · rintro ⟨failure, hcalls, h⟩
    rw [← hcalls.unique (callsErrorHandler_clientError status body expect)]
    exact h
  · intro h
    exact ⟨_, callsErrorHandler_clientError status body expect, h⟩

/-- The `error` member rejects with an error exactly when its message is not empty. -/
theorem ofClientError_some_iff (error : Json.ErrorResponse) :
    (Failure.ofClientError (some error)).error ≠ .undefined ↔ error.message ≠ "" :=
  not_congr (Json.guessError_eq_undefined_iff error.message)

/-- Without an `error` member the error is unknown. -/
theorem ofClientError_none : (Failure.ofClientError none).error ≠ .undefined :=
  (not_congr (Json.guessError_eq_undefined_iff "Unknown")).mpr (by decide)

/-- A body that is not parsed to the end is reported as an error of the exchange. -/
theorem status_clientFailure_of_error {body what : String}
    (h : Json.ErrorParser.dispatch parsers body = .error what) :
    (clientFailure parsers body).status = .error := by
  unfold clientFailure
  rw [h]
  rfl

/-- A body that is parsed is reported as a rejection. -/
theorem clientFailure_of_ok {body : String} {error : Option Json.ErrorResponse}
    (h : Json.ErrorParser.dispatch parsers body = .ok error) :
    clientFailure parsers body = .ofClientError error := by
  unfold clientFailure
  rw [h]

/-- A body is parsed to the end only if it is an object. -/
theorem exists_object_of_dispatch {body : String} {error : Option Json.ErrorResponse}
    (h : Json.ErrorParser.dispatch parsers body = .ok error) :
    ∃ members, parsers.root body = .ok (.object members) := by
  unfold Json.ErrorParser.dispatch at h
  cases hroot : parsers.root body with
  | error what =>
      rw [hroot] at h
      cases h
  | ok value =>
      rw [hroot] at h
      cases value with
      | object members => exact ⟨members, rfl⟩
      | _ => cases h

/-- An object is the body of a refusal exactly when it is parsed to the end, to no message or to one
that is not empty. -/
theorem isRefusal_object_iff {body : String} {members : List (String × Json.Value)}
    (hobject : parsers.root body = .ok (.object members)) :
    IsRefusal parsers body ↔ ∃ error, Json.ErrorParser.dispatch parsers body = .ok error ∧
      ∀ response, error = some response → response.message ≠ "" := by
  have hrefusal : IsRefusal parsers body ↔ ∀ value rest, members = ("error", value) :: rest →
      ∃ response, parsers.errorResponse value = .ok response ∧ response.message ≠ "" := by
    constructor
    · rintro ⟨members', hobject', h⟩
      obtain rfl : members = members' := by
        rw [hobject] at hobject'
        cases hobject'
        rfl
      exact h
    · intro h
      exact ⟨members, hobject, h⟩
  rw [hrefusal, Json.ErrorParser.dispatch_eq_ofObject hobject]
  cases members with
  | nil => simp
  | cons x members =>
      obtain ⟨key, value⟩ := x
      by_cases hkey : key = "error"
      · subst hkey
        rw [Json.ErrorParser.ofObject_error]
        cases hresponse : parsers.errorResponse value with
        | error what => simp [hresponse, Except.map]
        | ok response => simp [hresponse, Except.map]
      · rw [Json.ErrorParser.ofObject_of_ne hkey]
        simp [hkey]

/-- A client error is reported as a rejection with an error exactly when its body is that of a
refusal. -/
theorem clientFailure_iff (body : String) :
    ((clientFailure parsers body).origin = .exchange ∧
        (clientFailure parsers body).status = .rejected ∧
        (clientFailure parsers body).error ≠ .undefined) ↔ IsRefusal parsers body := by
  cases hparse : Json.ErrorParser.dispatch parsers body with
  | error what =>
      -- the catch clause reports an error
      have hstatus := status_clientFailure_of_error hparse
      refine iff_of_false (fun h => ?_) fun h => ?_
      · rw [hstatus] at h
        cases h.2.1
      · obtain ⟨members, hobject, -⟩ := id h
        obtain ⟨error, hok, -⟩ := (isRefusal_object_iff hobject).mp h
        rw [hparse] at hok
        cases hok
  | ok error =>
      obtain ⟨members, hobject⟩ := exists_object_of_dispatch hparse
      rw [isRefusal_object_iff hobject, hparse, clientFailure_of_ok hparse]
      cases error with
      | none =>
          refine iff_of_true ⟨rfl, rfl, ofClientError_none⟩ ⟨none, rfl, ?_⟩
          rintro response ⟨⟩
      | some response =>
          constructor
          · rintro ⟨-, -, herror⟩
            refine ⟨some response, rfl, ?_⟩
            rintro response' ⟨⟩
            exact (ofClientError_some_iff response).mp herror
          · rintro ⟨error, hok, hmessage⟩
            cases hok
            exact ⟨rfl, rfl, (ofClientError_some_iff response).mpr (hmessage response rfl)⟩

/-- **Exact rejection.** A client error is rejected with an error, by one call of the error handler,
exactly when its body is an object whose first member, if it is named `error`, has a message. -/
theorem rejected_iff (status body : String) (expect : Exception) :
    Rejected parsers (clientError status body expect) ↔ IsRefusal parsers body :=
  (rejected_clientError_iff status body expect).trans (clientFailure_iff body)

/-- The page of a proxy. -/
def htmlPage : String := "<html>403 Forbidden</html>"

/-- A body whose message is empty. -/
def emptyMessage : String := "\x7b\"error\":\x7b\"message\":\"\"\x7d\x7d"

/-- Parsers that know the two bodies. -/
def refusalParsers : Json.Parsers where
  root := fun body =>
    if body = emptyMessage then .ok (.object [("error", .object [("message", .string "")])])
    else .error "unexpected token"
  badVariantAccess := "std::get: wrong index for variant"
  errorResponse := fun
    | .object [("message", .string message)] => .ok ⟨message⟩
    | _ => .error "std::bad_cast"
  orderDataItem := fun _ => .error "std::bad_cast"
  orderDataItems := fun _ => .error "std::bad_cast"

/-- A page that is no JSON is not a rejection, and an empty message is one without an error. -/
theorem htmlPage_not_rejected :
    ¬ Rejected refusalParsers (clientError "403" htmlPage (.std "bad status")) ∧
      ¬ Rejected refusalParsers (clientError "400" emptyMessage (.std "bad status")) := by
  constructor
  · rw [rejected_clientError_iff]
    rintro ⟨-, hstatus, -⟩
    exact absurd hstatus (by decide +kernel)
  · rw [rejected_clientError_iff]
    rintro ⟨-, -, herror⟩
    exact herror (by decide +kernel)

end OrderEntry

end RoqBitmex
