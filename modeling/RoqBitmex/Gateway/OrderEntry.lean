import RoqBitmex.Gateway.OrderUpdate
import RoqBitmex.Library.Handling

/-! # REST answers to order requests

The ack callbacks of `OrderEntry` run `process_response`, which hands the body of a success to a
success handler and everything else, exceptions included, to an error handler. What a handler has
dispatched stays dispatched when it throws. `settlesOnce_iff` says exactly when a callback
dispatches one final result for its request. -/

namespace RoqBitmex

open Json (guessError)

/-! ## Responses -/

/-- The exceptions `process_response` tells apart. -/
inductive Exception where
  /-- A `server::oms::Exception`. -/
  | oms (origin : Origin) (status : RequestStatus) (error : Error) (what : String)
  /-- A `NetworkError`. -/
  | network (requestStatus : RequestStatus) (error : Error) (what : String)
  /-- Any other `std::exception`. -/
  | std (what : String)
  deriving DecidableEq, Repr

/-- The category of an HTTP status. -/
inductive Category where
  | success
  | clientError
  | serverError
  /-- Informational, redirection or unknown. -/
  | other
  deriving DecidableEq, Repr

/-- The result of an HTTP call: the status as text, its category and the body. -/
structure RestResult where
  status : String
  category : Category
  body : String
  deriving DecidableEq, Repr

/-- A `web::rest::Response`: its result, or the exception `result` raises, and the exception
`expect(OK)` raises for a status that is not a success. -/
structure RestResponse where
  result : Except Exception RestResult
  expect : Exception

/-- An answer is a success whose body parses to a value. -/
def RestResponse.Succeeds {β : Type} (response : RestResponse)
    (parser : String → Except String β) (x : β) : Prop :=
  ∃ result, response.result = .ok result ∧ result.category = .success ∧
    parser result.body = .ok x

/-- A body parses to one value. -/
theorem RestResponse.Succeeds.unique {β : Type} {response : RestResponse}
    {parser : String → Except String β} {x x' : β} (hx : response.Succeeds parser x)
    (hx' : response.Succeeds parser x') : x = x' := by
  obtain ⟨result, hok, -, hparse⟩ := hx
  obtain ⟨result', hok', -, hparse'⟩ := hx'
  obtain rfl : result = result' := Except.ok.inj (hok.symm.trans hok')
  exact Except.ok.inj (hparse.symm.trans hparse')

namespace OrderEntry

variable (parsers : Json.Parsers) (session : Session)

/-- The handlers of the callbacks. -/
abbrev Handler := Handling OmsEvent Exception

/-- The value of a parser, or the `std::exception` it throws. -/
def parse {β : Type} (result : Except String β) : Handler β :=
  Handling.ofExcept (result.mapError Exception.std)

/-- The arguments of an error handler. -/
structure Failure where
  origin : Origin
  status : RequestStatus
  error : Error
  text : String

/-- What the catch clauses of `process_response` make of an exception. -/
def Failure.ofException : Exception → Failure
  | .oms origin status error what => ⟨origin, status, error, what⟩
  | .network requestStatus error what => ⟨.gateway, requestStatus, error, what⟩
  | .std what => ⟨.exchange, .error, .unknown, what⟩

/-- What a client error is reported as: the text of the body's `error` member, if it has one. -/
def Failure.ofClientError (error : Option Json.ErrorResponse) : Failure :=
  let text := (error.map (·.message)).getD "Unknown"
  ⟨.exchange, .rejected, guessError text, text⟩

/-- The `switch` of `process_response`. -/
def processCategory (response : RestResponse) (successHandler : String → Handler Unit)
    (errorHandler : Failure → Handler Unit) (result : RestResult) : Handler Unit :=
  match result.category with
  | .success => successHandler result.body
  -- the body of a client error is searched for the exchange's message
  | .clientError => do
      let error ← parse (Json.ErrorParser.dispatch parsers result.body)
      errorHandler (.ofClientError error)
  | .serverError => errorHandler ⟨.exchange, .rejected, .unknown, result.status⟩
  -- `expect(OK)` throws for every other category
  | .other => throw response.expect

/-- `OrderEntry::process_response`. -/
def processResponse (response : RestResponse) (successHandler : String → Handler Unit)
    (errorHandler : Failure → Handler Unit) : Handler Unit :=
  tryCatch
    (do
      let result ← Handling.ofExcept response.result
      processCategory parsers response successHandler errorHandler result)
    fun e => errorHandler (.ofException e)

/-! ## The four callbacks -/

/-- The request an answer is for: what the callback captured. -/
structure Request where
  userId : UInt8
  orderId : UInt64
  version : UInt32
  requestId : String

/-- The response an error handler dispatches for a request about one order. -/
def rejection (requestType : RequestType) (request : Request) (failure : Failure) : OmsEvent :=
  .response
    { requestType := requestType
      origin := failure.origin
      requestStatus := failure.status
      error := failure.error
      text := failure.text
      version := request.version }
    session.streamId request.userId request.orderId

/-- The error handler of the callbacks for one order. -/
def handleError (requestType : RequestType) (request : Request) (failure : Failure) :
    Handler Unit :=
  Handling.dispatch (rejection session requestType request failure)

/-- The success handler of the create and modify callbacks: the body is one order item. -/
def handleOrder (requestType : RequestType) (request : Request) (body : String) :
    Handler Unit := do
  let orderItem ← parse (parsers.orderDataItem body)
  Handling.dispatch (OrderUpdate.orderEntry session orderItem requestType request.version)

/-- `OrderEntry::create_order_ack`. -/
def createOrderAck (request : Request) (response : RestResponse) : Handler Unit :=
  processResponse parsers response (handleOrder parsers session .createOrder request)
    (handleError session .createOrder request)

/-- `OrderEntry::modify_order_ack`. -/
def modifyOrderAck (request : Request) (response : RestResponse) : Handler Unit :=
  processResponse parsers response (handleOrder parsers session .modifyOrder request)
    (handleError session .modifyOrder request)

/-- The success handler of `cancel_order_ack`: the body is an array, and each of its items is
answered with a response of its own. -/
def handleCancel (request : Request) (body : String) : Handler Unit := do
  let cancelOrderAck ← parse (parsers.orderDataItems body)
  cancelOrderAck.forM fun item =>
    Handling.dispatch (OrderUpdate.orderEntry session item .cancelOrder request.version)

/-- `OrderEntry::cancel_order_ack`. -/
def cancelOrderAck (request : Request) (response : RestResponse) : Handler Unit :=
  processResponse parsers response (handleCancel parsers session request)
    (handleError session .cancelOrder request)

/-- The acknowledgement of `cancel_all_orders_ack`. -/
def cancelAllAck (request : Request) (failure : Failure) : OmsEvent :=
  .cancelAllOrdersAck
    { streamId := session.streamId
      account := session.account
      origin := failure.origin
      requestStatus := failure.status
      error := failure.error
      text := failure.text
      requestId := request.requestId }

/-- `send_ack` of `cancel_all_orders_ack`. -/
def sendAck (request : Request) (failure : Failure) : Handler Unit :=
  Handling.dispatch (cancelAllAck session request failure)

/-- The success handler of `cancel_all_orders_ack`: the items go to the drop-copy overload, outside
a download, and one acknowledgement follows. -/
def handleCancelAll (request : Request) (body : String) : Handler Unit := do
  let cancelAllOrdersAck ← parse (parsers.orderDataItems body)
  cancelAllOrdersAck.forM fun item =>
    (OrderUpdate.dropCopy session item false).forM Handling.dispatch
  sendAck session request ⟨.exchange, .accepted, .undefined, ""⟩

/-- `OrderEntry::cancel_all_orders_ack`. -/
def cancelAllOrdersAck (request : Request) (response : RestResponse) : Handler Unit :=
  processResponse parsers response (handleCancelAll parsers session request)
    (sendAck session request)

/-- The request flows. -/
inductive Flow where
  | createOrder
  | modifyOrder
  | cancelOrder
  | cancelAllOrders
  deriving DecidableEq, Repr

/-- The ack callback of a flow. -/
def Flow.ack : Flow → Request → RestResponse → Handler Unit
  | .createOrder => createOrderAck parsers session
  | .modifyOrder => modifyOrderAck parsers session
  | .cancelOrder => cancelOrderAck parsers session
  | .cancelAllOrders => cancelAllOrdersAck parsers session

/-! ## Final results -/

/-- The events that settle a request: a response for the flows that concern one order, an
acknowledgement for a request to cancel all orders. -/
def Flow.settles : Flow → OmsEvent → Bool
  | .cancelAllOrders, .cancelAllOrdersAck _ => true
  | .cancelAllOrders, _ => false
  | _, .orderUpdate .. => true
  | _, .response .. => true
  | _, _ => false

/-- A callback dispatches exactly one final result. -/
def SettlesOnce (flow : Flow) (request : Request) (response : RestResponse) : Prop :=
  ((flow.ack parsers session request response).dispatched.filter flow.settles).length = 1

instance (flow : Flow) (request : Request) (response : RestResponse) :
    Decidable (SettlesOnce parsers session flow request response) :=
  inferInstanceAs (Decidable (_ = 1))

/-- A cancel request that succeeds is answered with an array of one item, if with an array. -/
def CancelsOne (flow : Flow) (response : RestResponse) : Prop :=
  flow = .cancelOrder → ∀ items, response.Succeeds parsers.orderDataItems items → items.length = 1

variable {parsers session}

/-- A body that is parsed is handed on. -/
theorem ends_parse_ok {β : Type} {result : Except String β} {x : β} (h : result = .ok x) :
    Handling.Ends (parse result) [] (.ok x) := by
  rw [h]
  exact Handling.ends_ofExcept _

/-- A body that is not parsed throws. -/
theorem ends_parse_error {β : Type} {result : Except String β} {what : String}
    (h : result = .error what) : Handling.Ends (parse result) [] (.error (.std what)) := by
  rw [h]
  exact Handling.ends_ofExcept _

/-- A success handler that parses the body and then puts out `events` of what it parsed. -/
def Answers {β : Type} (handler : String → Handler Unit) (parser : String → Except String β)
    (events : β → List OmsEvent) : Prop :=
  (∀ body x, parser body = .ok x → Handling.Ends (handler body) (events x) (.ok ())) ∧
    ∀ body what, parser body = .error what →
      Handling.Ends (handler body) [] (.error (.std what))

section Process

variable {β : Type} {handler : String → Handler Unit} {parser : String → Except String β}
  {events : β → List OmsEvent} (parsers) (response : RestResponse) (errorEvent : Failure → OmsEvent)

/-- The branches of the `switch` that are not a success end with one error event, or throw with
nothing dispatched. -/
theorem ends_processCategory {result : RestResult} (hcategory : result.category ≠ .success) :
    let handling := processCategory parsers response handler
      (fun failure => Handling.dispatch (errorEvent failure)) result
    (∃ failure, Handling.Ends handling [errorEvent failure] (.ok ())) ∨
      ∃ e, Handling.Ends handling [] (.error e) := by
  unfold processCategory
  cases hc : result.category with
  | success => exact absurd hc hcategory
  | clientError =>
      cases hparse : Json.ErrorParser.dispatch parsers result.body with
      | error what => exact Or.inr ⟨.std what, (ends_parse_error rfl).bind_error⟩
      | ok error =>
          exact Or.inl ⟨.ofClientError error, (ends_parse_ok rfl).bind (Handling.ends_dispatch _)⟩
  | serverError => exact Or.inl ⟨_, Handling.ends_dispatch _⟩
  | other => exact Or.inr ⟨response.expect, Handling.ends_throw _⟩

/-- Either an answer is a success whose body parses, and the `try` block puts out its events; or it
is not, and the `try` block puts out one error event or throws before putting out anything. -/
theorem ends_try (h : Answers handler parser events) :
    let handling : Handler Unit := do
      let result ← Handling.ofExcept response.result
      processCategory parsers response handler
        (fun failure => Handling.dispatch (errorEvent failure)) result
    (∃ x, response.Succeeds parser x ∧ Handling.Ends handling (events x) (.ok ())) ∨
      (∀ x, ¬ response.Succeeds parser x) ∧
        ((∃ failure, Handling.Ends handling [errorEvent failure] (.ok ())) ∨
          ∃ e, Handling.Ends handling [] (.error e)) := by
  have hhead := Handling.ends_ofExcept (ε := OmsEvent) response.result
  cases hresult : response.result with
  | error e =>
      -- `result` raises, before anything is put out
      rw [hresult] at hhead
      refine Or.inr ⟨?_, Or.inr ⟨e, hhead.bind_error⟩⟩
      rintro x ⟨result, hok, -⟩
      rw [hresult] at hok
      cases hok
  | ok result =>
      rw [hresult] at hhead
      by_cases hcategory : result.category = .success
      · have hsuccess : ∀ {es r}, Handling.Ends (handler result.body) es r →
            Handling.Ends (processCategory parsers response handler
              (fun failure => Handling.dispatch (errorEvent failure)) result) es r := by
          intro es r hends
          unfold processCategory
          rw [hcategory]
          exact hends
        cases hparse : parser result.body with
        | ok x =>
            exact Or.inl ⟨x, ⟨result, hresult, hcategory, hparse⟩,
              hhead.bind (hsuccess (h.1 _ x hparse))⟩
        | error what =>
            -- the body does not parse, and the handler throws
            refine Or.inr ⟨?_, Or.inr ⟨.std what, hhead.bind (hsuccess (h.2 _ what hparse))⟩⟩
            rintro x ⟨result', hok, -, hx⟩
            obtain rfl : result = result' := Except.ok.inj (hresult.symm.trans hok)
            rw [hparse] at hx
            cases hx
      · -- no success: the success handler is not looked at
        refine Or.inr ⟨?_, ?_⟩
        · rintro x ⟨result', hok, hsuccess, -⟩
          obtain rfl : result = result' := Except.ok.inj (hresult.symm.trans hok)
          exact hcategory hsuccess
        · rcases ends_processCategory parsers response errorEvent hcategory with
            ⟨failure, hends⟩ | ⟨e, hends⟩
          · exact Or.inl ⟨failure, hhead.bind hends⟩
          · exact Or.inr ⟨e, hhead.bind hends⟩

/-- **What a callback dispatches.** A success whose body parses is answered with its events, every
other outcome with exactly one error event. -/
theorem dispatched_processResponse (h : Answers handler parser events) :
    let handling := processResponse parsers response handler
      fun failure => Handling.dispatch (errorEvent failure)
    (∃ x, response.Succeeds parser x ∧ handling.dispatched = events x) ∨
      (∀ x, ¬ response.Succeeds parser x) ∧
        ∃ failure, handling.dispatched = [errorEvent failure] := by
  rcases ends_try parsers response errorEvent h with
    ⟨x, hx, hends⟩ | ⟨hfail, ⟨failure, hends⟩ | ⟨e, hends⟩⟩
  · exact Or.inl ⟨x, hx, hends.catch_ok.dispatched⟩
  · exact Or.inr ⟨hfail, failure, hends.catch_ok.dispatched⟩
  · exact Or.inr ⟨hfail, _, (hends.catch_error (Handling.ends_dispatch _)).dispatched⟩

/-- A callback whose error event settles the request settles it once exactly when the events of a
success do. -/
theorem settles_iff (h : Answers handler parser events) {settles : OmsEvent → Bool}
    (herror : ∀ failure, settles (errorEvent failure) = true) :
    ((processResponse parsers response handler fun failure =>
        Handling.dispatch (errorEvent failure)).dispatched.filter settles).length = 1 ↔
      ∀ x, response.Succeeds parser x → ((events x).filter settles).length = 1 := by
  rcases dispatched_processResponse parsers response errorEvent h with
    ⟨x, hx, hevents⟩ | ⟨hfail, failure, hevents⟩
  · rw [hevents]
    constructor
    · intro hone x' hx'
      obtain rfl : x = x' := hx.unique hx'
      exact hone
    · intro hall
      exact hall x hx
  · rw [hevents]
    constructor
    · intro _ x hx
      exact absurd hx (hfail x)
    · intro _
      simp [herror]

end Process

/-! ## The success handlers -/

variable (parsers session)

/-- The handler of an order answers with one report. -/
theorem answers_handleOrder (requestType : RequestType) (request : Request) :
    Answers (handleOrder parsers session requestType request) parsers.orderDataItem fun item =>
      [OrderUpdate.orderEntry session item requestType request.version] :=
  ⟨fun _ _ h => (ends_parse_ok h).bind (Handling.ends_dispatch _),
    fun _ _ h => (ends_parse_error h).bind_error⟩

/-- The handler of a cancelled order answers with one report for each item. -/
theorem answers_handleCancel (request : Request) :
    Answers (handleCancel parsers session request) parsers.orderDataItems fun items =>
      items.flatMap fun item =>
        [OrderUpdate.orderEntry session item .cancelOrder request.version] :=
  ⟨fun _ items h => (ends_parse_ok h).bind
      (Handling.ends_forM items fun _ _ => Handling.ends_dispatch _),
    fun _ _ h => (ends_parse_error h).bind_error⟩

/-- Outside a download the drop-copy overload dispatches nothing, so one acknowledgement is all. -/
theorem answers_handleCancelAll (request : Request) :
    Answers (handleCancelAll parsers session request) parsers.orderDataItems fun _ =>
      [cancelAllAck session request ⟨.exchange, .accepted, .undefined, ""⟩] := by
  refine ⟨fun body items h => ?_, fun _ _ h => (ends_parse_error h).bind_error⟩
  -- the loop over the items puts out nothing
  have hloop : Handling.Ends (items.forM fun item =>
      ((OrderUpdate.dropCopy session item false).forM Handling.dispatch : Handler Unit))
      (items.flatMap fun _ => []) (.ok ()) :=
    Handling.ends_forM items fun item _ => Handling.ends_pure ()
  have hall : Handling.Ends (handleCancelAll parsers session request body)
      ([] ++ ((items.flatMap fun _ => []) ++
        [cancelAllAck session request ⟨.exchange, .accepted, .undefined, ""⟩])) (.ok ()) :=
    (ends_parse_ok h).bind (hloop.bind (Handling.ends_dispatch _))
  rw [List.flatMap_eq_nil_iff.mpr fun _ _ => rfl] at hall
  exact hall

/-- The create and modify callbacks settle their request once, whatever the outcome. -/
theorem settlesOnce_order (requestType : RequestType) (request : Request) (response : RestResponse)
    {settles : OmsEvent → Bool} (horder : ∀ r u n, settles (.orderUpdate r u n) = true)
    (hresponse : ∀ r n u o, settles (.response r n u o) = true) :
    ((processResponse parsers response (handleOrder parsers session requestType request)
      (handleError session requestType request)).dispatched.filter settles).length = 1 := by
  refine (settles_iff parsers response (rejection session requestType request)
    (answers_handleOrder parsers session requestType request)
    fun failure => hresponse _ _ _ _).mpr fun item _ => ?_
  simp [OrderUpdate.orderEntry, horder]

/-- **Exact settlement.** The ack callback of a flow dispatches exactly one final result, unless the
request is to cancel an order and succeeds with an array of other than one item. -/
theorem settlesOnce_iff (flow : Flow) (request : Request) (response : RestResponse) :
    SettlesOnce parsers session flow request response ↔ CancelsOne parsers flow response := by
  cases flow with
  | createOrder =>
      have hone : SettlesOnce parsers session .createOrder request response :=
        settlesOnce_order parsers session .createOrder request response (fun _ _ _ => rfl)
          fun _ _ _ _ => rfl
      exact iff_of_true hone fun h => by cases h
  | modifyOrder =>
      have hone : SettlesOnce parsers session .modifyOrder request response :=
        settlesOnce_order parsers session .modifyOrder request response (fun _ _ _ => rfl)
          fun _ _ _ _ => rfl
      exact iff_of_true hone fun h => by cases h
  | cancelOrder =>
      -- every item of the array is answered with a response of its own
      have hcount : ∀ items : List Json.OrderDataItem,
          ((items.flatMap fun item =>
            [OrderUpdate.orderEntry session item .cancelOrder request.version]).filter
              (Flow.settles .cancelOrder)).length = items.length := by
        intro items
        induction items with
        | nil => rfl
        | cons item items ih =>
            rw [List.flatMap_cons, List.singleton_append, List.filter_cons_of_pos rfl,
              List.length_cons, ih, List.length_cons]
      refine (settles_iff parsers response (rejection session .cancelOrder request)
        (answers_handleCancel parsers session request) fun _ => rfl).trans ?_
      constructor
      · intro h _ items hitems
        rw [← hcount items]
        exact h items hitems
      · intro h items hitems
        rw [hcount items]
        exact h rfl items hitems
  | cancelAllOrders =>
      -- one acknowledgement follows the items
      have hone : SettlesOnce parsers session .cancelAllOrders request response :=
        (settles_iff parsers response (cancelAllAck session request)
          (answers_handleCancelAll parsers session request) fun _ => rfl).mpr fun _ _ => rfl
      exact iff_of_true hone fun h => by cases h

/-! ## An empty and a double answer -/

/-- Parsers that know the two answers below. -/
def arrayParsers : Json.Parsers where
  root := fun _ => .error "unexpected end of input"
  badVariantAccess := "std::get: wrong index for variant"
  errorResponse := fun _ => .error "std::bad_cast"
  orderDataItem := fun _ => .error "std::bad_cast"
  orderDataItems := fun body =>
    if body = "[]" then .ok []
    else if body = "[\x7b\x7d,\x7b\x7d]" then .ok [{}, {}]
    else .error "unexpected end of input"

/-- A success with the given body. -/
def success (body : String) : RestResponse where
  result := .ok ⟨"200", .success, body⟩
  expect := .std "bad status"

/-- A cancel request that succeeds with an empty array is never settled, and one that succeeds with
two items is settled twice. -/
theorem cancel_not_settlesOnce :
    ¬ SettlesOnce arrayParsers ⟨0, "A1", "bitmex"⟩ .cancelOrder ⟨1, 1, 2, "r2"⟩ (success "[]") ∧
      ¬ SettlesOnce arrayParsers ⟨0, "A1", "bitmex"⟩ .cancelOrder ⟨1, 1, 2, "r2"⟩
        (success "[\x7b\x7d,\x7b\x7d]") := by
  constructor
  · decide
  · decide

end OrderEntry

end RoqBitmex
