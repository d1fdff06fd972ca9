import RoqBitmex.Gateway.OrderRequests

/-! # The ledger of order requests

What the gateway owes its users, in whatever order requests, answers and changes of the connections
come. A request is refused, or it is sent once, over a connection of its account that has announced
itself ready (`routed_of_run`); what has been sent is what has been answered and what has not, and
what an answer comes to is about the request it answers (`answered_of_run`). Each answer comes to
one final result exactly when no cancel request is answered with an array of other than one order
(`finals_iff`). -/

namespace RoqBitmex

universe u

namespace OrderEntry

/-! ## What a callback dispatches -/

/-- The request type of the responses of a flow, if it concerns one order. -/
def Flow.requestType? : Flow → Option RequestType
  | .createOrder => some .createOrder
  | .modifyOrder => some .modifyOrder
  | .cancelOrder => some .cancelOrder
  | .cancelAllOrders => none

/-- What the callback of a flow can dispatch for an answer. -/
inductive Flow.Dispatches (parsers : Json.Parsers) (session : Session) (flow : Flow)
    (request : Request) (response : RestResponse) (events : List OmsEvent) : Prop where
  /-- A report on each order of the answer: one, unless orders have been cancelled. -/
  | orders (requestType : RequestType) (items : List Json.OrderDataItem)
      (htype : flow.requestType? = some requestType)
      (hcancel : flow = .cancelOrder → response.Succeeds parsers.orderDataItems items)
      (hone : flow ≠ .cancelOrder → items.length = 1)
      (hevents : events = items.map fun item =>
        OrderUpdate.orderEntry session item requestType request.version)
  /-- A failure. -/
  | failure (requestType : RequestType) (failure : Failure)
      (htype : flow.requestType? = some requestType)
      (hcancel : flow = .cancelOrder → ∀ items, ¬ response.Succeeds parsers.orderDataItems items)
      (hevents : events = [rejection session requestType request failure])
  /-- The acknowledgement that all orders have been cancelled, or not. -/
  | ack (failure : Failure) (hflow : flow = .cancelAllOrders)
      (hevents : events = [cancelAllAck session request failure])

section Dispatches

variable (parsers : Json.Parsers) (session : Session) (request : Request) (response : RestResponse)

/-- The create and modify callbacks report on one order, or a failure. -/
theorem dispatches_order {flow : Flow} {requestType : RequestType}
    (htype : flow.requestType? = some requestType) (hne : flow ≠ .cancelOrder) :
    flow.Dispatches parsers session request response
      (processResponse parsers response (handleOrder parsers session requestType request)
        (handleError session requestType request)).dispatched := by
  rcases dispatched_processResponse parsers response (rejection session requestType request)
    (answers_handleOrder parsers session requestType request) with
    ⟨item, -, hitem⟩ | ⟨-, failure, hfailure⟩
  · exact .orders requestType [item] htype (fun h => absurd h hne) (fun _ => rfl) hitem
  · exact .failure requestType failure htype (fun h => absurd h hne) hfailure

/-- **What the callbacks dispatch.** -/
theorem Flow.dispatches (flow : Flow) :
    flow.Dispatches parsers session request response
      (flow.ack parsers session request response).dispatched := by
  cases flow with
  | createOrder => exact dispatches_order parsers session request response rfl (by decide)
  | modifyOrder => exact dispatches_order parsers session request response rfl (by decide)
  | cancelOrder =>
      rcases dispatched_processResponse parsers response (rejection session .cancelOrder request)
        (answers_handleCancel parsers session request) with
        ⟨items, hitems, hevents⟩ | ⟨hfail, failure, hevents⟩
      · rw [← List.map_eq_flatMap] at hevents
        exact .orders .cancelOrder items rfl (fun _ => hitems) (fun h => absurd rfl h) hevents
      · exact .failure .cancelOrder failure rfl (fun _ => hfail) hevents
  | cancelAllOrders =>
      rcases dispatched_processResponse parsers response (cancelAllAck session request)
        (answers_handleCancelAll parsers session request) with
        ⟨-, -, hevents⟩ | ⟨-, failure, hevents⟩
      · exact .ack _ rfl hevents
      · exact .ack failure rfl hevents

variable {parsers session request response} {flow : Flow} {events : List OmsEvent}

/-- One event is dispatched unless a cancel request succeeds with other than one order. -/
theorem Flow.Dispatches.length_eq_one_iff
    (h : flow.Dispatches parsers session request response events) :
    events.length = 1 ↔ CancelsOne parsers flow response := by
  cases h with
  | orders requestType items htype hcancel hone hevents =>
      rw [hevents, List.length_map]
      constructor
      · intro hlength hflow items' hitems'
        rw [hitems'.unique (hcancel hflow)]
        exact hlength
      -- only the callback of a cancel request takes what is in the array, whatever its length
      · intro hcancels
        by_cases hflow : flow = .cancelOrder
        · exact hcancels hflow items (hcancel hflow)
        · exact hone hflow
  | failure requestType failure htype hcancel hevents =>
      rw [hevents]
      exact iff_of_true rfl fun hflow items hitems => absurd hitems (hcancel hflow items)
  | ack failure hflow hevents =>
      rw [hevents, hflow]
      exact iff_of_true rfl fun h => by cases h

end Dispatches

end OrderEntry

namespace OrderRequests

open Controller (OrderEntryRR)

/-! ## What has happened -/

/-- What has happened, as far as the users and the exchange can tell. -/
structure History where
  /-- What each stream of an account has announced last. -/
  announced : String → ℕ → Option ConnectionStatus := fun _ _ => none
  /-- The request that is being taken. -/
  request : Option OrderRequest := none
  /-- The call that is being answered. -/
  answering : Option (ℕ × Pending) := none
  /-- How many requests have been made, and how many of them were refused. -/
  requests : ℕ := 0
  refused : ℕ := 0
  /-- The calls that have been sent, each with its number. -/
  sent : List (ℕ × Pending) := []
  /-- The calls that have been answered. -/
  answered : List (ℕ × Pending) := []
  /-- The call of each final result. -/
  finals : List (ℕ × Pending) := []
  /-- The call of each acknowledgement that a request has been forwarded. -/
  forwarded : List (ℕ × Pending) := []

variable {M : Type u}

/-- An input begins: a request is taken or a call is answered. -/
def History.begin (a : History) (s : State M) : Input → History
  | .request _ r => { a with request := some r, answering := none, requests := a.requests + 1 }
  | .answer ticket _ =>
      let answering := (s.pending.find ticket).map fun p => (ticket, p)
      { a with
        request := none
        answering := answering
        answered := a.answered ++ answering.toList }
  | _ => { a with request := none, answering := none }

/-- The history of a run. -/
def ledger : Monitor (State M) Input Output History where
  input s a i := a.begin s i
  output a
    | .streamStatus account value =>
        { a with
          announced := Function.update a.announced account
            (Function.update (a.announced account) value.streamId (some value.connectionStatus)) }
    | .send ticket pending _ _ => { a with sent := a.sent ++ [(ticket, pending)] }
    | .forwarded _ _ => { a with forwarded := a.forwarded ++ a.sent.getLast?.toList }
    | .dispatch _ => { a with finals := a.finals ++ a.answering.toList }
    | .thrown _ => { a with refused := a.refused + 1 }
    | _ => a

variable (env : Environment M) (credentials : String → Option (String × String)) (connections : ℕ)

/-- A connection has announced itself ready, and nothing else since. -/
def History.Ready (a : History) (account : String) (index : ℕ) : Prop :=
  a.announced account (env.streamId account index) = some .ready

/-- **Requests are routed.** A call is the call of the request that is being taken, under a new
number, over a connection of its account that is ready. The stream that is returned is the one of
that connection. A request is refused because the account is not known or none of its connections is
ready. -/
def Routed (a : History) : Output → Prop
  | .send ticket p requestId _ =>
      ticket = a.sent.length ∧ p.index < connections ∧ a.Ready env p.account p.index ∧
        ∃ r, a.request = some r ∧ p = ⟨r.account, p.index, r.flow, r.callback⟩ ∧
          requestId = r.requestId ∧ credentials r.account ≠ none
  | .returned streamId =>
      ∃ call, a.sent.getLast? = some call ∧ streamId = env.streamId call.2.account call.2.index
  | .thrown (.unknownAccount account) =>
      ∃ r, a.request = some r ∧ account = r.account ∧ credentials account = none
  | .thrown (.notReady _) =>
      ∃ r, a.request = some r ∧ credentials r.account ≠ none ∧
        ∀ i < connections, ¬ a.Ready env r.account i
  | _ => True

/-- An event is about a request: it is published under the stream and the account of the connection
that sent the call, and names the user, the order and the version of the request, or the request
itself. -/
def Concerns (p : Pending) : OmsEvent → Prop
  | .orderUpdate response update streamId =>
      p.flow.requestType? = some response.requestType ∧ response.version = p.request.version ∧
        update.account = p.account ∧ streamId = env.streamId p.account p.index
  | .response response streamId userId orderId =>
      p.flow.requestType? = some response.requestType ∧ response.version = p.request.version ∧
        userId = p.request.userId ∧ orderId = p.request.orderId ∧
          streamId = env.streamId p.account p.index
  | .cancelAllOrdersAck ack =>
      p.flow = .cancelAllOrders ∧ ack.requestId = p.request.requestId ∧ ack.account = p.account ∧
        ack.streamId = env.streamId p.account p.index
  | .tradeUpdate _ => False

/-- **Answers are matched with their requests.** What is dispatched is about the call that is being
answered. What is acknowledged as forwarded is the call that was just sent, to cancel all orders. -/
def Matched (a : History) : Output → Prop
  | .dispatch event => ∃ call ∈ a.sent, a.answering = some call ∧ Concerns env call.2 event
  | .forwarded ack _ =>
      ∃ call, a.sent.getLast? = some call ∧ ack.requestStatus = .forwarded ∧
        Concerns env call.2 (.cancelAllOrdersAck ack)
  | _ => True

/-- **The ledger is balanced.** What has been sent is what has been answered and what has not, each
under a number of its own. A request has been sent or refused. Each request to cancel all orders has
been acknowledged as forwarded, and each call but those to cancel an order that has been answered
has come to one final result. -/
structure Ledger (s : State M) (a : History) : Prop where
  perm : a.sent.Perm (a.answered ++ s.pending.held)
  nodup : (a.sent.map Prod.fst).Nodup
  requests : a.requests = a.refused + a.sent.length
  forwarded : a.forwarded = a.sent.filter (·.2.flow = .cancelAllOrders)
  finals : a.finals.filter (·.2.flow ≠ .cancelOrder) = a.answered.filter (·.2.flow ≠ .cancelOrder)

/-- An answer to a call to cancel an order, if it succeeds, has one order. -/
def OneOrder (s : State M) : Input → Prop
  | .answer ticket response =>
      ∀ p, s.pending.find ticket = some p → OrderEntry.CancelsOne env.parsers p.flow response
  | _ => True

/-! ## Steps -/

/-- The connections of an account have streams of their own. -/
def Environment.Distinct : Prop :=
  ∀ account, credentials account ≠ none → Set.InjOn (env.streamId account) (Set.Iio connections)

/-- What holds of the gateway, given what has happened. -/
structure Books (s : State M) (a : History) : Prop where
  known : ∀ account, s.accounts account = none ↔ credentials account = none
  length : ∀ account value, s.accounts account = some value →
    value.orderEntry.orderEntry.length = connections
  index : ∀ account value, s.accounts account = some value → 0 < connections →
    value.orderEntry.index < connections
  announced : ∀ account value, s.accounts account = some value → ∀ i < connections,
    value.orderEntry.ready i ↔ a.Ready env account i
  balanced : s.pending.Balanced a.sent a.answered
  requests : a.requests = a.refused + a.sent.length
  forwarded : a.forwarded = a.sent.filter (·.2.flow = .cancelAllOrders)
  finals : a.finals.filter (·.2.flow ≠ .cancelOrder) = a.answered.filter (·.2.flow ≠ .cancelOrder)

variable {env credentials connections} {s : State M} {a : History}

/-- The books are a ledger. -/
theorem Books.ledger (h : Books env credentials connections s a) : Ledger s a where
  perm := h.balanced.perm
  nodup := h.balanced.nodup_issued
  requests := h.requests
  forwarded := h.forwarded
  finals := h.finals

/-- Before the first request the books are empty. -/
theorem books_init : Books env credentials connections (init env credentials connections) {} where
  known account := by simp [init]
  length account value hvalue := by
    obtain ⟨c, -, rfl⟩ := Option.map_eq_some_iff.mp hvalue
    exact List.length_replicate
  index account value hvalue hpos := by
    obtain ⟨c, -, rfl⟩ := Option.map_eq_some_iff.mp hvalue
    exact hpos
  announced account value hvalue i hi := by
    obtain ⟨c, -, rfl⟩ := Option.map_eq_some_iff.mp hvalue
    simp [OrderEntryRR.ready, History.Ready, hi]
  balanced := Tickets.balanced_none
  requests := rfl
  forwarded := rfl
  finals := rfl

/-- An account goes on with as many connections, of which those are ready that have announced it. -/
theorem Books.put (h : Books env credentials connections s a) {account : String}
    {value : Account M} (hsome : s.accounts account = some value) (value' : Account M)
    (hlength : value'.orderEntry.orderEntry.length = connections)
    (hindex : 0 < connections → value'.orderEntry.index < connections)
    {announced : String → ℕ → Option ConnectionStatus}
    (hother : ∀ account', account' ≠ account → announced account' = a.announced account')
    (hready : ∀ i < connections, value'.orderEntry.ready i ↔
      announced account (env.streamId account i) = some .ready) :
    Books env credentials connections
      { s with accounts := Function.update s.accounts account (some value') }
      { a with announced := announced } where
  known account' := by
    by_cases heq : account' = account
    · subst heq
      have hne : credentials account' ≠ none := by
        rw [ne_eq, ← h.known account', hsome]
        exact Option.some_ne_none value
      simp [hne]
    · simp only [Function.update_of_ne heq]
      exact h.known account'
  length account' w hw := by
    rcases eq_some_of_update hw with ⟨rfl, rfl⟩ | ⟨-, hw⟩
    · exact hlength
    · exact h.length account' w hw
  index account' w hw := by
    rcases eq_some_of_update hw with ⟨rfl, rfl⟩ | ⟨-, hw⟩
    · exact hindex
    · exact h.index account' w hw
  announced account' w hw i hi := by
    rcases eq_some_of_update hw with ⟨rfl, rfl⟩ | ⟨heq, hw⟩
    · exact hready i hi
    · show w.orderEntry.ready i ↔ announced account' (env.streamId account' i) = some .ready
      rw [hother account' heq]
      exact h.announced account' w hw i hi
  balanced := h.balanced
  requests := h.requests
  forwarded := h.forwarded
  finals := h.finals

/-- An account may go on with its connections as they are. -/
theorem Books.update (h : Books env credentials connections s a) {account : String}
    {value : Account M} (hsome : s.accounts account = some value) (value' : Account M)
    (hsame : value'.orderEntry.orderEntry = value.orderEntry.orderEntry)
    (hindex : 0 < connections → value'.orderEntry.index < connections) :
    Books env credentials connections
      { s with accounts := Function.update s.accounts account (some value') } a := by
  have hlength := (congrArg List.length hsame).trans (h.length account value hsome)
  refine h.put hsome value' hlength hindex (fun _ _ => rfl) fun i hi => ?_
  have hready := h.announced account value hsome i hi
  unfold OrderEntryRR.ready at hready ⊢
  rw [hsame]
  exact hready

/-- A connection announces its status. -/
theorem Books.announce (hstreams : env.Distinct credentials connections)
    (h : Books env credentials connections s a) {account : String} {value : Account M}
    (hsome : s.accounts account = some value) {index : ℕ} (hindex : index < connections)
    (status : ConnectionStatus) :
    Books env credentials connections
      { s with
        accounts := Function.update s.accounts account
          (some { value with
            orderEntry := { value.orderEntry with
              orderEntry := value.orderEntry.orderEntry.set index status } }) }
      { a with
        announced := Function.update a.announced account
          (Function.update (a.announced account) (env.streamId account index) (some status)) } := by
  have hlength := h.length account value hsome
  have hother : ∀ account', account' ≠ account →
      Function.update a.announced account
        (Function.update (a.announced account) (env.streamId account index) (some status))
        account' = a.announced account' := fun _ hne => Function.update_of_ne hne _ _
  let orderEntry :=
    { value.orderEntry with orderEntry := value.orderEntry.orderEntry.set index status }
  have hset : orderEntry.orderEntry.length = connections := List.length_set.trans hlength
  refine h.put hsome { value with orderEntry := orderEntry } hset (h.index account value hsome)
    hother fun i hi => ?_
  rw [Function.update_self]
  by_cases heq : i = index
  · subst heq
    rw [Function.update_self, OrderEntryRR.ready,
      List.getElem?_set_self (hlength.symm ▸ hi)]
    simp
  · -- another connection has another stream
    have hknown : credentials account ≠ none := by
      rw [ne_eq, ← h.known account, hsome]
      exact Option.some_ne_none value
    have hne : env.streamId account i ≠ env.streamId account index :=
      fun hsame => heq (hstreams account hknown hi hindex hsame)
    rw [Function.update_of_ne hne, OrderEntryRR.ready, List.getElem?_set_ne (Ne.symm heq)]
    exact h.announced account value hsome i hi

/-- What every output meets. -/
def Fits (env : Environment M) (credentials : String → Option (String × String)) (connections : ℕ)
    (a : History) (o : Output) : Prop :=
  Routed env credentials connections a o ∧ Matched env a o

/-- No request is being taken and no call is being answered. -/
def History.idle (a : History) : History := { a with request := none, answering := none }

/-- Books that are right stay so when nothing is being taken or answered any more. -/
theorem Books.idle (h : Books env credentials connections s a) :
    Books env credentials connections s a.idle :=
  ⟨h.known, h.length, h.index, h.announced, h.balanced, h.requests, h.forwarded, h.finals⟩

/-- The status of a connection is no entry of the books. -/
theorem keeps_setStatus (hstreams : env.Distinct credentials connections)
    (h : Books env credentials connections s a) (account : String) (index : ℕ)
    (status : ConnectionStatus) :
    ledger.Keeps (Fits env credentials connections) (Books env credentials connections) a
      (setStatus env s account index status) := by
  unfold setStatus
  split
  · exact ⟨trivial, h⟩
  · next value hvalue =>
      split
      · next hindex =>
          rw [h.length account value hvalue] at hindex
          exact ⟨⟨⟨trivial, trivial⟩, trivial⟩, h.announce hstreams hvalue hindex status⟩
      · exact ⟨trivial, h⟩

/-- The headers of a drop copy are no entry of the books. -/
theorem keeps_upgrade (h : Books env credentials connections s a) (account : String) (now : ℤ) :
    ledger.Keeps (Fits env credentials connections) (Books env credentials connections) a
      (upgrade env s account now) := by
  unfold upgrade
  split
  · exact ⟨trivial, h⟩
  · next value hvalue =>
      exact ⟨⟨⟨trivial, trivial⟩, trivial⟩,
        h.update hvalue ⟨_, value.orderEntry⟩ rfl (h.index account value hvalue)⟩

/-- The assertions say nothing of the history. -/
theorem passes_assertions (r : OrderRequest) :
    ∀ o ∈ assertions r, (ledger (M := M)).Passes (Fits env credentials connections) a o := by
  intro o ho
  obtain ⟨site, rfl⟩ := eq_assertion_of_mem ho
  exact ⟨⟨trivial, trivial⟩, rfl⟩

/-- What the request being taken is refused with leaves one more refused. -/
theorem keeps_refused (h : Books env credentials connections s a) (r : OrderRequest)
    {e : Controller.Exception}
    (he : Routed env credentials connections { a with request := some r } (.thrown e)) :
    ledger.Keeps (Fits env credentials connections) (Books env credentials connections)
      { a with request := some r, answering := none, requests := a.requests + 1 }
      (s, assertions r ++ [.thrown e]) := by
  have hrequests : a.requests + 1 = a.refused + 1 + a.sent.length := by
    have hcount := h.requests
    omega
  refine Monitor.Keeps.prepend (r := (s, [.thrown e])) (passes_assertions r) ⟨?_, ?_⟩
  · refine ⟨⟨?_, trivial⟩, trivial⟩
    cases e <;> exact he
  · exact ⟨h.known, h.length, h.index, h.announced, h.balanced, hrequests, h.forwarded, h.finals⟩

variable (env credentials connections) in
/-- A request to cancel all orders is acknowledged as forwarded, for the call that was just sent. -/
theorem holds_forwardedAck {b : History} (r : OrderRequest) (index : ℕ) {call : ℕ × Pending}
    (hlast : b.sent.getLast? = some call)
    (hcall : call.2 = ⟨r.account, index, r.flow, r.callback⟩) :
    (ledger (M := M)).Holds (Fits env credentials connections) b
        (forwardedAck (env.session r.account index) r) ∧
      (ledger (M := M)).outputs b (forwardedAck (env.session r.account index) r) =
        { b with
          forwarded := b.forwarded ++ [call].filter (·.2.flow = .cancelAllOrders) } := by
  have hflow : call.2.flow = r.flow := congrArg Pending.flow hcall
  cases r with
  | cancelAllOrders account value requestId =>
      refine ⟨⟨⟨trivial, call, hlast, rfl, hflow, ?_, ?_, ?_⟩, trivial⟩, ?_⟩
      · exact (congrArg (·.request.requestId) hcall).symm
      · exact (congrArg Pending.account hcall).symm
      · rw [hcall]
        rfl
      · rw [List.filter_cons_of_pos (by simp [hflow, OrderRequest.flow])]
        show ({ b with forwarded := b.forwarded ++ b.sent.getLast?.toList } : History) = _
        rw [hlast]
        rfl
  | _ =>
      refine ⟨trivial, ?_⟩
      rw [List.filter_cons_of_neg (by simp [hflow, OrderRequest.flow]), List.filter_nil,
        List.append_nil]
      rfl

/-- A request is entered in the books, whether it is sent or refused. -/
theorem keeps_request (h : Books env credentials connections s a) (now : ℤ) (r : OrderRequest) :
    ledger.Keeps (Fits env credentials connections) (Books env credentials connections)
      (a.begin s (.request now r)) (request env s now r) := by
  rcases request_cases env s now r with ⟨hnone, hstep⟩ | ⟨value, hvalue, hnext, hstep⟩ |
    ⟨value, index, hvalue, hnext, hready, hstep⟩
  · rw [hstep]
    exact keeps_refused h r ⟨r, rfl, rfl, (h.known r.account).mp hnone⟩
  · rw [hstep]
    refine keeps_refused h r ⟨r, rfl, ?_, fun i hi hready => ?_⟩
    · rw [ne_eq, ← h.known r.account, hvalue]
      exact Option.some_ne_none value
    · -- a connection that is ready would have been taken
      have hsafe := OrderEntryRR.safe_getNext (h.length _ _ hvalue) (h.index _ _ hvalue)
      have hnot := hsafe.throws_iff.mp hnext i hi
      rw [(h.announced _ _ hvalue i hi).mpr hready] at hnot
      cases hnot
  · rw [hstep]
    refine Monitor.Keeps.prepend (passes_assertions r) ?_
    have hindex : index < connections := (h.length _ _ hvalue) ▸ lt_of_ready hready
    have hknown : credentials r.account ≠ none := by
      rw [ne_eq, ← h.known r.account, hvalue]
      exact Option.some_ne_none value
    -- the calls are numbered in the order in which they have been sent
    have hissued : s.pending.issued = a.sent.length := by
      have hnumbers := congrArg List.length h.balanced.numbers
      rw [List.length_map, List.length_range] at hnumbers
      exact hnumbers.symm
    let call : ℕ × Pending := (s.pending.issued, ⟨r.account, index, r.flow, r.callback⟩)
    let b : History :=
      { a.begin s (.request now r) with sent := a.sent ++ [call] }
    have hlast : b.sent.getLast? = some call := List.getLast?_concat
    obtain ⟨hholds, houtputs⟩ := holds_forwardedAck env credentials connections r index hlast rfl
    have hcount := h.requests
    refine ⟨⟨⟨⟨hissued, hindex, ?_, r, rfl, rfl, rfl, hknown⟩, trivial⟩, ?_⟩, ?_⟩
    -- the connection that is ready has announced it
    · exact (h.announced _ _ hvalue index hindex).mp hready
    -- and the acknowledgement leaves the call the last one that has been sent
    · rw [Monitor.holds_append]
      refine ⟨hholds, ⟨⟨call, ?_, rfl⟩, trivial⟩, trivial⟩
      refine Eq.trans ?_ hlast
      exact congrArg (·.sent.getLast?) houtputs
    · -- one more call has been sent, and its account goes on with the next connection
      have hoverall : (ledger (M := M)).outputs (a.begin s (.request now r))
          (sent env s value index now r).2 =
          { b with
            forwarded := a.forwarded ++ [call].filter (·.2.flow = .cancelAllOrders) } := by
        show (ledger (M := M)).outputs b
          (forwardedAck (env.session r.account index) r ++ [.returned _]) = _
        rw [Monitor.outputs_append, houtputs]
        rfl
      rw [hoverall]
      have hupdate := h.update hvalue
        ⟨(signed env value.crypto now r).1, value.orderEntry.getNext.1⟩
        value.orderEntry.getNext_orderEntry
        (index_getNext (h.length _ _ hvalue) (h.index _ _ hvalue))
      refine ⟨hupdate.known, hupdate.length, hupdate.index, hupdate.announced,
        h.balanced.issue _, ?_, ?_, h.finals⟩
      · show a.requests + 1 = a.refused + (a.sent ++ [call]).length
        rw [List.length_append, List.length_singleton]
        omega
      · show a.forwarded ++ _ = (a.sent ++ [call]).filter _
        rw [List.filter_append, ← h.forwarded]

/-- What an answer comes to is about the call it answers. -/
theorem concerns_of_dispatches {p : Pending} {response : RestResponse} {events : List OmsEvent}
    (h : p.flow.Dispatches env.parsers (env.session p.account p.index) p.request response events) :
    ∀ event ∈ events, Concerns env p event := by
  cases h with
  | orders requestType items htype hcancel hone hevents =>
      rw [hevents, List.forall_mem_map]
      exact fun item _ => ⟨htype, rfl, rfl, rfl⟩
  | failure requestType failure htype hcancel hevents =>
      rw [hevents, List.forall_mem_singleton]
      exact ⟨htype, rfl, rfl, rfl, rfl⟩
  | ack failure hflow hevents =>
      rw [hevents, List.forall_mem_singleton]
      exact ⟨hflow, rfl, rfl, rfl⟩

/-- Each event of an answer is a final result of its call. -/
theorem outputs_dispatch {b : History} {call : ℕ × Pending} (h : b.answering = some call)
    (events : List OmsEvent) :
    (ledger (M := M)).outputs b (events.map .dispatch) =
      { b with finals := b.finals ++ List.replicate events.length call } := by
  induction events generalizing b with
  | nil => simp
  | cons event events ih =>
      rw [List.map_cons, Monitor.outputs_cons, List.length_cons, List.replicate_succ]
      show (ledger (M := M)).outputs { b with finals := b.finals ++ b.answering.toList } _ = _
      rw [@ih { b with finals := b.finals ++ b.answering.toList } h, h]
      simp

/-- Events about a call are matched while it is answered. -/
theorem holds_dispatch {b : History} (call : ℕ × Pending) (h : b.answering = some call)
    (hsent : call ∈ b.sent) {events : List OmsEvent}
    (hevents : ∀ event ∈ events, Concerns env call.2 event) :
    (ledger (M := M)).Holds (Fits env credentials connections) b (events.map .dispatch) := by
  induction events generalizing b with
  | nil => trivial
  | cons event events ih =>
      refine ⟨⟨trivial, call, hsent, h, hevents event List.mem_cons_self⟩, ?_⟩
      exact @ih { b with finals := b.finals ++ b.answering.toList } h hsent
        fun event' hmem => hevents event' (List.mem_cons_of_mem _ hmem)

/-- A call has come to one final result for each event of its answer. -/
theorem filter_finals (call : ℕ × Pending) {response : RestResponse} {events : List OmsEvent}
    (h : call.2.flow.Dispatches env.parsers (env.session call.2.account call.2.index)
      call.2.request response events) :
    (List.replicate events.length call).filter (·.2.flow ≠ .cancelOrder) =
      [call].filter (·.2.flow ≠ .cancelOrder) := by
  by_cases hflow : call.2.flow = .cancelOrder
  -- a call to cancel an order is not counted, however many orders have been cancelled
  · have hnot : ∀ calls : List (ℕ × Pending), (∀ x ∈ calls, x = call) →
        calls.filter (·.2.flow ≠ .cancelOrder) = [] := by
      intro calls hcalls
      rw [List.filter_eq_nil_iff]
      intro x hx
      simp [hcalls x hx, hflow]
    rw [hnot _ fun x hx => (List.mem_replicate.mp hx).2,
      hnot _ fun x hx => List.mem_singleton.mp hx]
  · have hone : events.length = 1 := h.length_eq_one_iff.mpr fun h => absurd h hflow
    rw [hone]
    rfl

variable (env) in
/-- The client runs no callback but those it holds. -/
theorem answer_eq_of_none {ticket : ℕ} (h : s.pending.find ticket = none) (a : History)
    (response : RestResponse) :
    answer env s ticket response = (s, []) ∧ a.begin s (.answer ticket response) = a.idle := by
  refine ⟨?_, ?_⟩
  · unfold answer
    rw [h]
  · unfold History.begin History.idle
    simp [h]

variable (env) in
/-- What an input that answers a call does to the history. -/
theorem answer_eq {ticket : ℕ} {p : Pending} (hp : s.pending.find ticket = some p)
    (a : History) (response : RestResponse) :
    let events := (p.flow.ack env.parsers (env.session p.account p.index) p.request
      response).dispatched
    answer env s ticket response =
        ({ s with pending := s.pending.settle ticket }, events.map .dispatch) ∧
      a.begin s (.answer ticket response) =
        { a with
          request := none
          answering := some (ticket, p)
          answered := a.answered ++ [(ticket, p)] } := by
  refine ⟨?_, ?_⟩
  · unfold answer
    rw [hp]
  · unfold History.begin
    simp [hp]

/-- An answer settles the call it is for. -/
theorem keeps_answer (h : Books env credentials connections s a) (ticket : ℕ)
    (response : RestResponse) :
    ledger.Keeps (Fits env credentials connections) (Books env credentials connections)
      (a.begin s (.answer ticket response)) (answer env s ticket response) := by
  cases hfind : s.pending.find ticket with
  | none =>
      obtain ⟨hstep, hbegin⟩ := answer_eq_of_none env hfind a response
      rw [hstep, hbegin]
      exact ⟨trivial, h.idle⟩
  | some p =>
      obtain ⟨hstep, hbegin⟩ := answer_eq env hfind a response
      have hdispatches := OrderEntry.Flow.dispatches env.parsers (env.session p.account p.index)
        p.request response p.flow
      rw [hstep, hbegin]
      refine ⟨?_, ?_⟩
      -- the call that is answered is one of those that have been sent
      · have hsent : (ticket, p) ∈ a.sent := h.balanced.mem_issued (Tickets.mem_of_find hfind)
        refine holds_dispatch (ticket, p) ?_ ?_ (concerns_of_dispatches hdispatches)
        · rfl
        · exact hsent
      -- and it goes from the calls that are held to those that have been answered
      · rw [outputs_dispatch rfl]
        refine ⟨h.known, h.length, h.index, h.announced, h.balanced.settle hfind, h.requests,
          h.forwarded, ?_⟩
        show (a.finals ++ _).filter _ = (a.answered ++ [(ticket, p)]).filter _
        rw [List.filter_append, List.filter_append, h.finals,
          filter_finals (ticket, p) hdispatches]

/-- **Every input keeps the books.** -/
theorem keeps_step (hstreams : env.Distinct credentials connections)
    (h : Books env credentials connections s a) (i : Input) :
    ledger.Keeps (Fits env credentials connections) (Books env credentials connections)
      (a.begin s i) (step env s i) := by
  cases i with
  | connected account index => exact keeps_setStatus hstreams h.idle account index .ready
  | disconnected account index =>
      exact keeps_setStatus hstreams h.idle account index .disconnected
  | upgrade account now => exact keeps_upgrade h.idle account now
  | request now r => exact keeps_request h now r
  | answer ticket response => exact keeps_answer h ticket response

/-! ### Final results -/

/-- What an output dispatches. -/
def Output.events : Output → List OmsEvent
  | .dispatch event => [event]
  | _ => []

/-- The assertions about a request are no events. -/
theorem events_assertions (r : OrderRequest) : (assertions r).flatMap Output.events = [] := by
  rw [List.flatMap_eq_nil_iff]
  intro o ho
  obtain ⟨site, rfl⟩ := eq_assertion_of_mem ho
  rfl

/-- A request that is sent dispatches no event. -/
theorem events_sent (s : State M) (value : Account M) (index : ℕ) (now : ℤ) (r : OrderRequest) :
    (sent env s value index now r).2.flatMap Output.events = [] := by
  cases r <;> rfl

/-- A request dispatches nothing. -/
theorem events_request (s : State M) (now : ℤ) (r : OrderRequest) :
    (request env s now r).2.flatMap Output.events = [] := by
  rcases request_cases env s now r with ⟨-, hstep⟩ | ⟨_, -, -, hstep⟩ |
    ⟨value, index, -, -, -, hstep⟩
  · rw [hstep, List.flatMap_append, events_assertions]
    rfl
  · rw [hstep, List.flatMap_append, events_assertions]
    rfl
  · rw [hstep, List.flatMap_append, events_assertions, events_sent]
    rfl

/-- Neither does a connection. -/
theorem events_setStatus (s : State M) (account : String) (index : ℕ) (status : ConnectionStatus) :
    (setStatus env s account index status).2.flatMap Output.events = [] := by
  unfold setStatus
  split
  · rfl
  · split <;> rfl

/-- The headers of a drop copy are no event. -/
theorem events_upgrade (s : State M) (account : String) (now : ℤ) :
    (upgrade env s account now).2.flatMap Output.events = [] := by
  unfold upgrade
  split <;> rfl

/-- Each event is a final result of the call that is being answered. -/
theorem finals_outputs (b : History) (os : List Output) :
    ((ledger (M := M)).outputs b os).finals =
        b.finals ++ (os.flatMap Output.events).flatMap (fun _ => b.answering.toList) ∧
      ((ledger (M := M)).outputs b os).answered = b.answered := by
  induction os generalizing b with
  | nil => simp
  | cons o os ih =>
      obtain ⟨hfinals, hanswered⟩ := ih ((ledger (M := M)).output b o)
      rw [Monitor.outputs_cons, hfinals, hanswered]
      cases o <;> simp [ledger, Output.events]

variable (env) in
/-- Where the results are those of the calls that have been answered, they stay so exactly when a
call to cancel an order is not answered with an array of other than one. -/
theorem finals_after_iff (h : a.finals = a.answered) (i : Input) :
    ((orderRequests env).stops s i = false →
        ((orderRequests env).after ledger s a i).finals =
          ((orderRequests env).after ledger s a i).answered) ↔ OneOrder env s i := by
  have hafter : (orderRequests env).stops s i = false →
      (orderRequests env).after ledger s a i =
        (ledger (M := M)).outputs (a.begin s i) (step env s i).2 := by
    intro hs
    rw [Machine.after, Machine.out_of_stops_eq_false hs]
    rfl
  -- an input that dispatches nothing leaves both as they are
  have hnone : ((step env s i).2.flatMap Output.events = []) → (a.begin s i).finals = a.finals →
      (a.begin s i).answered = a.answered → (orderRequests env).stops s i = false →
        ((orderRequests env).after ledger s a i).finals =
          ((orderRequests env).after ledger s a i).answered := by
    intro hevents hfinals hanswered hs
    rw [hafter hs, (finals_outputs _ _).1, (finals_outputs _ _).2, hevents, hfinals, hanswered, h]
    exact List.append_nil _
  cases i with
  | connected account index =>
      exact iff_of_true (hnone (events_setStatus s account index .ready) rfl rfl) trivial
  | disconnected account index =>
      exact iff_of_true (hnone (events_setStatus s account index .disconnected) rfl rfl) trivial
  | upgrade account now => exact iff_of_true (hnone (events_upgrade s account now) rfl rfl) trivial
  | request now r => exact iff_of_true (hnone (events_request s now r) rfl rfl) trivial
  | answer ticket response =>
      cases hfind : s.pending.find ticket with
      | none =>
          obtain ⟨hstep, hbegin⟩ := answer_eq_of_none env hfind a response
          refine iff_of_true (hnone (congrArg (·.2.flatMap Output.events) hstep) ?_ ?_)
            fun p hp => ?_
          · rw [hbegin]
            rfl
          · rw [hbegin]
            rfl
          · rw [hfind] at hp
            cases hp
      | some p =>
          obtain ⟨hstep, hbegin⟩ := answer_eq env hfind a response
          have hstops : (orderRequests env).stops s (.answer ticket response) = false := by
            show (answer env s ticket response).2.any env.halts = false
            rw [hstep, List.any_map, List.any_eq_false]
            exact fun _ _ => Bool.false_ne_true
          have hdispatches := OrderEntry.Flow.dispatches env.parsers
            (env.session p.account p.index) p.request response p.flow
          have hone : OneOrder env s (.answer ticket response) ↔
              OrderEntry.CancelsOne env.parsers p.flow response := by
            constructor
            · exact fun h => h p hfind
            · rintro h p' hp'
              rw [hfind, Option.some.injEq] at hp'
              exact hp' ▸ h
          rw [hone, ← hdispatches.length_eq_one_iff, imp_iff_right hstops, hafter hstops, hbegin]
          -- as many results as events, so one exactly if the answer is one event
          show ((ledger (M := M)).outputs _ (answer env s ticket response).2).finals =
            ((ledger (M := M)).outputs _ (answer env s ticket response).2).answered ↔ _
          rw [hstep, outputs_dispatch rfl]
          show a.finals ++ List.replicate _ (ticket, p) = a.answered ++ [(ticket, p)] ↔ _
          rw [h, List.append_cancel_left_eq, ← List.replicate_one, List.replicate_left_inj]

/-! ## Runs -/

variable (env credentials connections) in
/-- The run of every output and every state, given a step for each. -/
theorem sat_of_books {P : History → Output → Prop} {Q : State M → History → Prop}
    (hstreams : env.Distinct credentials connections)
    (hP : ∀ a o, Fits env credentials connections a o → P a o)
    (hQ : ∀ s a, Books env credentials connections s a → Q s a) (is : List Input) :
    (orderRequests env).Sat ledger (fun _ => P) Q (init env credentials connections) {} is := by
  have hall : (orderRequests env).Along ledger (fun _ _ _ => True)
      (init env credentials connections) {} is :=
    Machine.along_of_forall (fun _ _ _ => trivial) _ _ is
  refine Machine.sat_of_along (Books env credentials connections) (fun s a i h _ => ?_) books_init
    hall
  obtain ⟨hholds, hbooks⟩ := keeps_step hstreams h i
  exact Machine.stepSat_of_keeps hQ ⟨Monitor.holds_mono hP hholds, hbooks⟩

/-- **Every answer is matched with its request**, and the ledger is balanced, in every run. -/
theorem answered_of_run (hstreams : env.Distinct credentials connections) (is : List Input) :
    (orderRequests env).Sat ledger (fun _ => Matched env) Ledger
      (init env credentials connections) {} is :=
  sat_of_books env credentials connections hstreams (fun _ _ h => h.2) (fun _ _ h => h.ledger) is

/-- One account, two connections. -/
theorem answered_of_run_cancelsAll :
    (orderRequests oneAccount).Sat ledger (fun _ => Matched oneAccount) Ledger
      (init oneAccount oneAccountCredentials 2) {} cancelsAll :=
  answered_of_run
    (fun _ _ => Set.injOn_of_injective fun _ _ h => Nat.add_right_cancel h) cancelsAll

/-- **Exactly one final result.** In a run every call that is answered comes to one final result,
and nothing else does, exactly when no call to cancel an order succeeds with an array of other than
one order. -/
theorem finals_iff (is : List Input) :
    (orderRequests env).Sat ledger (fun _ _ _ => True) (fun _ a => a.finals = a.answered)
        (init env credentials connections) {} is ↔
      (orderRequests env).Along ledger (fun s _ i => OneOrder env s i)
        (init env credentials connections) {} is := by
  have hall : (orderRequests env).Along ledger (fun _ _ _ => True)
      (init env credentials connections) {} is :=
    Machine.along_of_forall (fun _ _ _ => trivial) _ _ is
  refine Machine.sat_iff_along (fun _ a => a.finals = a.answered) (fun s a i h _ => ?_)
    (fun s a i h _ hok => (finals_after_iff env h i).mpr hok) rfl hall
  rw [← finals_after_iff env h i]
  exact and_iff_right (Monitor.holds_of_forall (fun _ _ _ => trivial) _)

end OrderRequests

end RoqBitmex
