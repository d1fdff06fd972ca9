import RoqBitmex.Gateway.OrderUpdate
import RoqBitmex.Library.Machine
import RoqBitmex.Protocol.Encoder

/-! # Cancel requests

Creates, the exchange's reports and cancels of several orders interleave: an order is known to the
exchange by an identifier that a report brings, and a cancel request names its order by the
identifier the order manager has at that time. `names_iff` says in which interleavings every cancel
request names its order. The order manager and the exchange are not part of the repository: the one
remembers what a report brings (`Remembers`), the other gives every order an identifier of its own
(`Plausible`). -/

namespace RoqBitmex

/-- `io::QualityOfService`, as far as it is used. -/
inductive QualityOfService where
  | immediate
  | critical
  deriving DecidableEq, Repr

namespace OrderEntry

open Json (OrderDataItem ExecutionDataItem)

/-- `get_quality_of_service`, given `settings.rest.allow_order_request_pipeline`. -/
def getQualityOfService (allowOrderRequestPipeline : Bool) : QualityOfService :=
  if allowOrderRequestPipeline then .immediate else .critical

/-- `OrderEntry::cancel_order`: the body that is sent and its quality of service, unless the session
is not ready. -/
def cancelOrder (allowOrderRequestPipeline ready : Bool)
    (externalOrderId requestId previousRequestId : String) :
    Except String (String × QualityOfService) :=
  if ready = false then .error "not ready"
  else .ok (Json.Encoder.cancelOrder externalOrderId requestId previousRequestId,
    getQualityOfService allowOrderRequestPipeline)

end OrderEntry

/-! ## Creates, reports and cancels -/

namespace CancelRequests

open Json (OrderDataItem ExecutionDataItem)

/-- What the exchange says about an order. -/
inductive Report where
  /-- The answer to a request, as `OrderEntry` parses it. -/
  | ack (item : OrderDataItem) (requestType : RequestType) (version : UInt32)
  /-- A row of the `order` table, which is part of a download or not. -/
  | order (item : OrderDataItem) (download : Bool)
  /-- A row of the `execution` table. -/
  | execution (item : ExecutionDataItem)
  deriving DecidableEq

/-- The client order id a report is about. -/
def Report.clOrdId : Report → String
  | .ack item _ _ => item.clOrdId
  | .order item _ => item.clOrdId
  | .execution item => item.clOrdId

/-- The exchange's identifier of the order. -/
def Report.orderId : Report → String
  | .ack item _ _ => item.orderId
  | .order item _ => item.orderId
  | .execution item => item.orderId

/-- What the sessions dispatch for a report. -/
def Report.events (session : Session) (lookup : Oms.OrderUpdate → Option OrderRef) :
    Report → List OmsEvent
  | .ack item requestType version => [OrderUpdate.orderEntry session item requestType version]
  | .order item download => OrderUpdate.dropCopy session item download
  | .execution item => DropCopy.executionItem session lookup item

/-- A report that is dispatched: a row of the `order` table is only in a download. -/
def Report.Dispatched : Report → Prop
  | .order _ download => download = true
  | _ => True

instance : ∀ report, Decidable (Report.Dispatched report)
  | .order _ _ => inferInstanceAs (Decidable (_ = _))
  | .ack _ _ _ | .execution _ => isTrue trivial

/-- The orders, by the client order id each is created with. -/
structure Orders where
  /-- The `external_order_id` the order manager has, of the orders it has created. -/
  order : String → Option String := fun _ => none
  /-- The identifier the exchange knows an order by, of the orders it has accepted. -/
  exchange : String → Option String := fun _ => none
  /-- What the exchange has sent, which arrives in any order. -/
  sent : List Report := []

/-- What happens. -/
inductive Input where
  /-- An order is created. -/
  | create (clOrdId : String)
  /-- The exchange accepts an order. -/
  | accept (clOrdId orderId : String)
  /-- The exchange reports on an order. -/
  | send (report : Report)
  /-- A report arrives. -/
  | deliver (report : Report)
  /-- An order is to be cancelled, through a connection that is ready or not. -/
  | cancel (clOrdId requestId previousRequestId : String) (ready : Bool)
  deriving DecidableEq

/-- A cancel request: the order it is for and its body. -/
structure Request where
  clOrdId : String
  body : String
  qualityOfService : QualityOfService
  deriving DecidableEq, Repr

/-- What is not part of the repository or belongs to its settings. -/
structure Environment where
  session : Session
  /-- The order the dispatcher matches with an update. -/
  lookup : Oms.OrderUpdate → Option OrderRef
  /-- The `external_order_id` of an order after an update that brings one. -/
  store : String → String → String
  /-- `settings.rest.allow_order_request_pipeline`. -/
  allowOrderRequestPipeline : Bool

/-- The order manager remembers the identifier an update brings. -/
def Environment.Remembers (env : Environment) : Prop :=
  ∀ known reported, reported ≠ "" → env.store known reported = reported

variable (env : Environment)

/-- What the order manager does with an event. -/
def absorb (order : String → Option String) : OmsEvent → (String → Option String)
  | .orderUpdate _ update _ =>
      Function.update order update.clientOrderId
        ((order update.clientOrderId).map (env.store · update.externalOrderId))
  | _ => order

/-- A request to cancel an order, if the order manager has it, through a connection that is ready or
not. -/
def cancel (s : Orders) (clOrdId requestId previousRequestId : String) (ready : Bool) :
    Orders × List Request :=
  match s.order clOrdId with
  | none => (s, [])
  | some externalOrderId =>
      match OrderEntry.cancelOrder env.allowOrderRequestPipeline ready externalOrderId requestId
          previousRequestId with
      | .error _ => (s, [])
      | .ok (body, qualityOfService) => (s, [⟨clOrdId, body, qualityOfService⟩])

/-- One input. -/
def step (s : Orders) : Input → Orders × List Request
  | .create clOrdId => ({ s with order := Function.update s.order clOrdId (some "") }, [])
  | .accept clOrdId orderId =>
      ({ s with exchange := Function.update s.exchange clOrdId (some orderId) }, [])
  | .send report => ({ s with sent := s.sent ++ [report] }, [])
  | .deliver report =>
      ({ s with order := (report.events env.session env.lookup).foldl (absorb env) s.order }, [])
  | .cancel clOrdId requestId previousRequestId ready =>
      cancel env s clOrdId requestId previousRequestId ready

end CancelRequests

/-- The orders as a machine. -/
def cancelRequests (env : CancelRequests.Environment) :
    Machine CancelRequests.Orders CancelRequests.Input CancelRequests.Request where
  step := CancelRequests.step env
  halts _ := false

namespace CancelRequests

variable {env : Environment} {s : Orders}

/-- What has happened: whose identifier has arrived, and the cancel requests sent. -/
structure History where
  delivered : List String := []
  requests : List Request := []
  deriving DecidableEq

/-- What has happened, along a run. -/
def history : Monitor Orders Input Request History where
  input _ a
    | .deliver report =>
        { a with
          delivered := if report.Dispatched then report.clOrdId :: a.delivered else a.delivered }
    | _ => a
  output a request := { a with requests := request :: a.requests }

/-- What may happen: client order ids are distinct, the exchange accepts what was created and gives
each order an identifier of its own, reports on orders with theirs, and what arrives was sent. -/
def Plausible (s : Orders) (_ : History) : Input → Prop
  | .create clOrdId => s.order clOrdId = none
  | .accept clOrdId orderId =>
      s.order clOrdId ≠ none ∧ s.exchange clOrdId = none ∧ orderId ≠ "" ∧
        ∀ other, s.exchange other ≠ some orderId
  | .send report => s.exchange report.clOrdId = some report.orderId
  | .deliver report => report ∈ s.sent
  | .cancel .. => True

/-- A body with one identifier. -/
def bodyOf (key id : String) : String :=
  "\x7b\"" ++ key ++ "\":\"" ++ id ++ "\"\x7d"

/-- The exchange knows exactly one order by an identifier: by its own, or by the client's. -/
def Identifies (s : Orders) (clOrdId key id : String) : Prop :=
  (key = "orderID" ∧ s.exchange clOrdId = some id ∧
      ∀ other, s.exchange other = some id → other = clOrdId) ∨
    (key = "clOrdID" ∧ id = clOrdId ∧ s.exchange clOrdId ≠ none)

/-- A cancel request names its order: its body has an identifier that is not empty and by which the
exchange knows that order and no other, and the requests for other orders have other bodies. -/
def Names (s : Orders) (a : History) (request : Request) : Prop :=
  (∃ key id, request.body = bodyOf key id ∧ id ≠ "" ∧ Identifies s request.clOrdId key id) ∧
    ∀ earlier ∈ a.requests, earlier.clOrdId ≠ request.clOrdId → earlier.body ≠ request.body

/-- An order is cancelled, through a connection that is ready, only after a report has brought its
identifier. -/
def AfterReport (s : Orders) (a : History) : Input → Prop
  | .cancel clOrdId _ _ ready => ready = true → s.order clOrdId ≠ none → clOrdId ∈ a.delivered
  | _ => True

instance (s : Orders) (a : History) : ∀ i, Decidable (AfterReport s a i)
  | .cancel .. => inferInstanceAs (Decidable (_ → _ → _))
  | .create _ | .accept _ _ | .send _ | .deliver _ => isTrue trivial

/-! ## Bodies -/

/-- Bodies with the same key are told apart by their identifiers. -/
theorem bodyOf_inj {key id id' : String} (h : bodyOf key id = bodyOf key id') : id = id' := by
  have hlist := congrArg String.toList h
  simp only [bodyOf, String.toList_append, List.append_assoc, List.append_cancel_left_eq,
    List.append_cancel_right_eq] at hlist
  exact String.toList_inj.mp hlist

/-- An identifier of the exchange is not taken for one of the client. -/
theorem bodyOf_orderID_ne (id id' : String) : bodyOf "orderID" id ≠ bodyOf "clOrdID" id' := by
  intro h
  have hlist := congrArg String.toList h
  simp [bodyOf, String.toList_append] at hlist

/-- A cancel request has the exchange's identifier, as far as it is known. -/
theorem cancelOrder_eq_bodyOf (id requestId previousRequestId : String) :
    Json.Encoder.cancelOrder id requestId previousRequestId = bodyOf "orderID" id := by
  have hopening : "\x7b\"" ++ "orderID" ++ "\":\"" = "\x7b\"orderID\":\"" := by decide
  rw [bodyOf, hopening]
  rfl

/-! ## Steps -/

/-- What the order manager knows after a report. -/
theorem absorb_events (order : String → Option String) (report : Report) :
    (report.events env.session env.lookup).foldl (absorb env) order =
      if report.Dispatched then
        Function.update order report.clOrdId
          ((order report.clOrdId).map (env.store · report.orderId))
      else order := by
  cases report with
  | ack item requestType version => exact (if_pos trivial).symm
  | order item download => cases download <;> rfl
  | execution item =>
      refine Eq.trans ?_ (if_pos trivial).symm
      -- a trade brings nothing more
      show (DropCopy.executionItem env.session env.lookup item).foldl (absorb env) order = _
      unfold DropCopy.executionItem
      split <;> rfl

/-- What a cancel sends. -/
theorem cancel_eq (clOrdId requestId previousRequestId : String) (ready : Bool) :
    cancel env s clOrdId requestId previousRequestId ready =
      (s, if ready then
          ((s.order clOrdId).map fun id => ⟨clOrdId, bodyOf "orderID" id,
            OrderEntry.getQualityOfService env.allowOrderRequestPipeline⟩).toList
        else []) := by
  unfold cancel OrderEntry.cancelOrder
  cases s.order clOrdId with
  | none => simp
  | some id => cases ready <;> simp [cancelOrder_eq_bodyOf]

/-- What holds of the orders, the exchange and the reports under way, given what has happened. -/
structure Coherent (order exchange : String → Option String) (sent : List Report) (a : History) :
    Prop where
  created : ∀ c, exchange c ≠ none → order c ≠ none
  ids : ∀ c id, exchange c = some id → id ≠ ""
  distinct : ∀ c c' id, exchange c = some id → exchange c' = some id → c' = c
  sent : ∀ report ∈ sent, exchange report.clOrdId = some report.orderId
  accepted : ∀ c ∈ a.delivered, exchange c ≠ none
  known : ∀ c id, order c = some id →
    if c ∈ a.delivered then exchange c = some id else id = ""
  requests : ∀ request ∈ a.requests, ∃ id, exchange request.clOrdId = some id ∧
    request.body = bodyOf "orderID" id

variable {order exchange : String → Option String} {sent : List Report} {a : History}

/-- Before the first order everything is coherent. -/
theorem coherent_init : Coherent (fun _ => none) (fun _ => none) [] {} := by
  constructor <;> simp

/-- A new order is coherent with all that has happened. -/
theorem Coherent.create (h : Coherent order exchange sent a) {c : String}
    (hfresh : order c = none) :
    Coherent (Function.update order c (some "")) exchange sent a where
  created c' hc' := by
    by_cases hcc : c' = c
    · subst hcc
      simp
    · rw [Function.update_of_ne hcc]
      exact h.created c' hc'
  ids := h.ids
  distinct := h.distinct
  sent := h.sent
  accepted := h.accepted
  known c' id hid := by
    by_cases hcc : c' = c
    · subst hcc
      rw [Function.update_self, Option.some.injEq] at hid
      -- nothing can have been delivered of an order that was not there
      rw [if_neg fun hmem => h.created c' (h.accepted c' hmem) hfresh]
      exact hid.symm
    · rw [Function.update_of_ne hcc] at hid
      exact h.known c' id hid
  requests := h.requests

/-- What the exchange knows stays when it accepts another order. -/
theorem exchange_update {c c' orderId : String} {id : String} (hnew : exchange c = none)
    (h : exchange c' = some id) :
    Function.update exchange c (some orderId) c' = some id := by
  have hne : c' ≠ c := by
    rintro rfl
    rw [hnew] at h
    cases h
  rw [Function.update_of_ne hne]
  exact h

/-- An order that is accepted under an identifier of its own is coherent with all that has happened.
-/
theorem Coherent.accept (h : Coherent order exchange sent a) {c orderId : String}
    (hcreated : order c ≠ none) (hnew : exchange c = none) (hne : orderId ≠ "")
    (hown : ∀ other, exchange other ≠ some orderId) :
    Coherent order (Function.update exchange c (some orderId)) sent a where
  created c' hc' := by
    by_cases hcc : c' = c
    · exact hcc ▸ hcreated
    · rw [Function.update_of_ne hcc] at hc'
      exact h.created c' hc'
  ids c' id hid := by
    by_cases hcc : c' = c
    · subst hcc
      rw [Function.update_self, Option.some.injEq] at hid
      exact hid ▸ hne
    · rw [Function.update_of_ne hcc] at hid
      exact h.ids c' id hid
  distinct c' c'' id hid hid' := by
    -- the new identifier is no other order's, and the others were distinct before
    by_cases hc' : c' = c <;> by_cases hc'' : c'' = c
    · rw [hc', hc'']
    · rw [hc', Function.update_self] at hid
      rw [Function.update_of_ne hc''] at hid'
      exact absurd (hid'.trans hid.symm) (hown c'')
    · rw [Function.update_of_ne hc'] at hid
      rw [hc'', Function.update_self] at hid'
      exact absurd (hid.trans hid'.symm) (hown c')
    · rw [Function.update_of_ne hc'] at hid
      rw [Function.update_of_ne hc''] at hid'
      exact h.distinct c' c'' id hid hid'
  sent report hreport := exchange_update hnew (h.sent report hreport)
  accepted c' hc' := by
    by_cases hcc : c' = c
    · subst hcc
      simp
    · rw [Function.update_of_ne hcc]
      exact h.accepted c' hc'
  known c' id hid := by
    have hknown := h.known c' id hid
    by_cases hmem : c' ∈ a.delivered
    · rw [if_pos hmem] at hknown ⊢
      exact exchange_update hnew hknown
    · rw [if_neg hmem] at hknown ⊢
      exact hknown
  requests request hrequest := by
    obtain ⟨id, hid, hbody⟩ := h.requests request hrequest
    exact ⟨id, exchange_update hnew hid, hbody⟩

/-- A report of what the exchange has accepted is coherent with all that has happened. -/
theorem Coherent.send (h : Coherent order exchange sent a) {report : Report}
    (hreport : exchange report.clOrdId = some report.orderId) :
    Coherent order exchange (sent ++ [report]) a where
  created := h.created
  ids := h.ids
  distinct := h.distinct
  sent report' hreport' := by
    rcases List.mem_append.mp hreport' with hmem | hmem
    · exact h.sent report' hmem
    · rw [List.mem_singleton.mp hmem]
      exact hreport
  accepted := h.accepted
  known := h.known
  requests := h.requests

/-- A report that is dispatched brings the identifier. -/
theorem Coherent.deliver (henv : env.Remembers) (h : Coherent order exchange sent a)
    {report : Report} (hsent : report ∈ sent) :
    Coherent
      (Function.update order report.clOrdId
        ((order report.clOrdId).map (env.store · report.orderId))) exchange sent
      { a with delivered := report.clOrdId :: a.delivered } where
  created c hc := by
    by_cases hcc : c = report.clOrdId
    · subst hcc
      have horder := h.created _ hc
      rw [Function.update_self]
      simpa using horder
    · rw [Function.update_of_ne hcc]
      exact h.created c hc
  ids := h.ids
  distinct := h.distinct
  sent := h.sent
  accepted c hc := by
    rcases List.mem_cons.mp hc with rfl | hc
    · rw [h.sent report hsent]
      exact Option.some_ne_none _
    · exact h.accepted c hc
  known c id hid := by
    have hexchange := h.sent report hsent
    by_cases hcc : c = report.clOrdId
    · subst hcc
      rw [if_pos List.mem_cons_self, hexchange]
      rw [Function.update_self] at hid
      obtain ⟨known, -, hstore⟩ := Option.map_eq_some_iff.mp hid
      -- the report has the exchange's identifier, which is not empty, so it is stored
      rw [henv known _ (h.ids _ _ hexchange)] at hstore
      rw [hstore]
    · rw [Function.update_of_ne hcc] at hid
      have hknown := h.known c id hid
      simp only [List.mem_cons, hcc, false_or]
      exact hknown
  requests := h.requests

/-- A cancel that names its order is among those that do. -/
theorem Coherent.request (h : Coherent order exchange sent a) {request : Request} {id : String}
    (hid : exchange request.clOrdId = some id) (hbody : request.body = bodyOf "orderID" id) :
    Coherent order exchange sent { a with requests := request :: a.requests } where
  created := h.created
  ids := h.ids
  distinct := h.distinct
  sent := h.sent
  accepted := h.accepted
  known := h.known
  requests request' hrequest' := by
    rcases List.mem_cons.mp hrequest' with rfl | hmem
    · exact ⟨id, hid, hbody⟩
    · exact h.requests request' hmem

/-! ## Which requests name their order -/

/-- A request with the identifier the exchange has given names its order. -/
theorem names_of_exchange (h : Coherent s.order s.exchange s.sent a) {request : Request}
    {id : String} (hid : s.exchange request.clOrdId = some id)
    (hbody : request.body = bodyOf "orderID" id) : Names s a request := by
  refine ⟨⟨"orderID", id, hbody, h.ids _ _ hid, Or.inl ⟨rfl, hid, ?_⟩⟩, ?_⟩
  · intro other hother
    exact h.distinct _ _ _ hid hother
  · intro earlier hearlier hne hsame
    obtain ⟨id', hid', hbody'⟩ := h.requests earlier hearlier
    rw [hbody', hbody] at hsame
    rw [bodyOf_inj hsame] at hid'
    exact hne (h.distinct _ _ _ hid hid')

/-- A request without an identifier does not. -/
theorem not_names_of_empty {request : Request} (hbody : request.body = bodyOf "orderID" "") :
    ¬ Names s a request := by
  rintro ⟨⟨key, id, hbody', hne, hkey⟩, -⟩
  rw [hbody] at hbody'
  rcases hkey with ⟨rfl, -, -⟩ | ⟨rfl, -, -⟩
  · exact hne (bodyOf_inj hbody').symm
  · exact bodyOf_orderID_ne _ _ hbody'

/-- Nothing halts, so everything is seen. -/
theorem out_eq (i : Input) : (cancelRequests env).out s i = ((cancelRequests env).step s i).2 :=
  Machine.out_of_stops_eq_false (Machine.stops_of_halts (fun _ => rfl) s i)

/-- A step is judged by its outputs. -/
theorem stepSat_iff {P : Orders → History → Request → Prop} {i : Input} :
    (cancelRequests env).StepSat history P (fun _ _ => True) s a i ↔
      history.Holds (P ((cancelRequests env).next s i)) (history.input s a i)
        ((cancelRequests env).step s i).2 := by
  unfold Machine.StepSat
  rw [out_eq]
  exact and_iff_left fun _ => trivial

/-- **A cancel names its order exactly after a report.** -/
theorem names_cancel_iff (h : Coherent s.order s.exchange s.sent a)
    (clOrdId requestId previousRequestId : String) (ready : Bool) :
    history.Holds (Names s) a (cancel env s clOrdId requestId previousRequestId ready).2 ↔
      AfterReport s a (.cancel clOrdId requestId previousRequestId ready) := by
  rw [cancel_eq]
  unfold AfterReport
  cases ready with
  | false => simp
  | true =>
      cases horder : s.order clOrdId with
      | none => simp [horder]
      | some id =>
          have hknown := h.known clOrdId id horder
          have hexists : s.order clOrdId ≠ none := by
            rw [horder]
            exact Option.some_ne_none id
          simp only [if_true, Option.map_some, Option.toList_some, Monitor.holds_cons,
            Monitor.holds_nil, and_true]
          -- the order manager has the identifier if a report has brought it, and else an empty one
          by_cases hmem : clOrdId ∈ a.delivered
          · rw [if_pos hmem] at hknown
            exact iff_of_true (names_of_exchange h hknown rfl) fun _ _ => hmem
          · rw [if_neg hmem] at hknown
            refine iff_of_false (not_names_of_empty ?_) fun hafter => ?_
            · rw [hknown]
            · exact hmem (hafter trivial hexists)

/-- **One input is good exactly when it meets the condition.** -/
theorem stepSat_names_iff (h : Coherent s.order s.exchange s.sent a) (i : Input) :
    (cancelRequests env).StepSat history Names (fun _ _ => True) s a i ↔ AfterReport s a i := by
  rw [stepSat_iff]
  cases i with
  | cancel clOrdId requestId previousRequestId ready =>
      have hsame : (cancelRequests env).next s
          (.cancel clOrdId requestId previousRequestId ready) = s :=
        congrArg Prod.fst (cancel_eq clOrdId requestId previousRequestId ready)
      rw [hsame]
      exact names_cancel_iff h clOrdId requestId previousRequestId ready
  | create clOrdId => exact iff_of_true trivial trivial
  | accept clOrdId orderId => exact iff_of_true trivial trivial
  | send report => exact iff_of_true trivial trivial
  | deliver report => exact iff_of_true trivial trivial

/-- A report that arrives keeps what holds, whether it is dispatched or not. -/
theorem coherent_deliver (henv : env.Remembers) (h : Coherent s.order s.exchange s.sent a)
    {report : Report} (hsent : report ∈ s.sent) :
    Coherent ((cancelRequests env).next s (.deliver report)).order s.exchange s.sent
      ((cancelRequests env).after history s a (.deliver report)) := by
  have horder : ((cancelRequests env).next s (.deliver report)).order = _ :=
    absorb_events s.order report
  have hhistory : (cancelRequests env).after history s a (.deliver report) =
      { a with
        delivered := if report.Dispatched then report.clOrdId :: a.delivered
          else a.delivered } := rfl
  rw [horder, hhistory]
  by_cases hdispatched : report.Dispatched
  · rw [if_pos hdispatched, if_pos hdispatched]
    exact h.deliver henv hsent
  · rw [if_neg hdispatched, if_neg hdispatched]
    exact h

/-- A cancel after a report keeps what holds. -/
theorem coherent_cancel (h : Coherent s.order s.exchange s.sent a)
    {clOrdId requestId previousRequestId : String} {ready : Bool}
    (hafter : AfterReport s a (.cancel clOrdId requestId previousRequestId ready)) :
    Coherent s.order s.exchange s.sent
      (history.outputs a (cancel env s clOrdId requestId previousRequestId ready).2) := by
  rw [cancel_eq]
  cases ready with
  | false => exact h
  | true =>
      cases horder : s.order clOrdId with
      | none => exact h
      | some id =>
          have hexists : s.order clOrdId ≠ none := by
            rw [horder]
            exact Option.some_ne_none id
          have hknown := h.known clOrdId id horder
          rw [if_pos (hafter rfl hexists)] at hknown
          exact h.request hknown rfl

/-- **One input that meets the condition keeps what holds.** -/
theorem coherent_step (henv : env.Remembers) (h : Coherent s.order s.exchange s.sent a) {i : Input}
    (hevent : Plausible s a i) (hafter : AfterReport s a i) :
    Coherent ((cancelRequests env).next s i).order ((cancelRequests env).next s i).exchange
      ((cancelRequests env).next s i).sent ((cancelRequests env).after history s a i) := by
  cases i with
  | create clOrdId => exact h.create hevent
  | accept clOrdId orderId =>
      obtain ⟨hcreated, hnew, hne, hown⟩ := hevent
      exact h.accept hcreated hnew hne hown
  | send report => exact h.send hevent
  | deliver report => exact coherent_deliver henv h hevent
  | cancel clOrdId requestId previousRequestId ready =>
      have hsame : (cancelRequests env).next s
          (.cancel clOrdId requestId previousRequestId ready) = s :=
        congrArg Prod.fst (cancel_eq clOrdId requestId previousRequestId ready)
      unfold Machine.after
      rw [hsame, out_eq]
      exact coherent_cancel h hafter

/-- **Cancel requests, exactly.** In every interleaving of creates, reports and cancels, every
cancel request names its order exactly when each order is cancelled only after a report has brought
its identifier. -/
theorem names_iff (henv : env.Remembers) (inputs : List Input)
    (h : (cancelRequests env).Along history Plausible {} {} inputs) :
    (cancelRequests env).Sat history Names (fun _ _ => True) {} {} inputs ↔
      (cancelRequests env).Along history AfterReport {} {} inputs := by
  refine Machine.sat_iff_along (fun s a => Coherent s.order s.exchange s.sent a) ?_ ?_
    coherent_init h
  · intro s a i hcoherent _
    exact stepSat_names_iff hcoherent i
  · intro s a i hcoherent hevent hafter _
    exact coherent_step henv hcoherent hevent hafter

/-- An order manager that remembers, with requests pipelined. -/
def pipelined : Environment where
  session := ⟨0, "A1", "BITMEX"⟩
  lookup _ := none
  store known reported := if reported = "" then known else reported
  allowOrderRequestPipeline := true

/-- The order manager of the example remembers what is reported. -/
theorem remembers_pipelined : pipelined.Remembers :=
  fun known reported h => by simp [pipelined, h]

/-- The answer to a create request. -/
def created (clOrdId orderId : String) : Report :=
  .ack { clOrdId := clOrdId, orderId := orderId } .createOrder 1

/-- Two orders are created and accepted, and cancelled after their answers, which arrive in the
other order. -/
def afterAcks : List Input :=
  [.create "c1", .create "c2", .accept "c1" "o1", .accept "c2" "o2", .send (created "c1" "o1"),
    .send (created "c2" "o2"), .deliver (created "c2" "o2"), .cancel "c2" "r2" "c2" true,
    .deliver (created "c1" "o1"), .cancel "c1" "r1" "c1" true]

/-- Both cancel requests name their orders. -/
theorem names_afterAcks :
    (cancelRequests pipelined).Sat history Names (fun _ _ => True) {} {} afterAcks := by
  refine (names_iff remembers_pipelined afterAcks ?_).mpr ?_
  · -- the second identifier is not the first one's
    have hother : ∀ other, Function.update (fun _ : String => (none : Option String)) "c1"
        (some "o1") other ≠ some "o2" := by
      intro other
      by_cases h : other = "c1"
      · simp [h]
      · simp [Function.update_of_ne h]
    refine ⟨rfl, fun _ => ⟨rfl, fun _ => ⟨⟨by decide, rfl, by decide, by rintro other ⟨⟩⟩,
      fun _ => ⟨⟨by decide, by decide, by decide, hother⟩, fun _ => ?_⟩⟩⟩⟩
    exact ⟨rfl, fun _ => ⟨rfl, fun _ => ⟨.tail _ (.head _), fun _ => ⟨trivial, fun _ =>
      ⟨.head _, fun _ => ⟨trivial, fun _ => trivial⟩⟩⟩⟩⟩⟩
  · decide

/-- Two orders are created and cancelled before they are accepted. -/
def beforeAcks : List Input :=
  [.create "c1", .create "c2", .cancel "c1" "r1" "c1" true, .cancel "c2" "r2" "c2" true]

/-- Neither cancel request names its order. -/
theorem beforeAcks_not_names :
    (cancelRequests pipelined).Along history Plausible {} {} beforeAcks ∧
      ¬ (cancelRequests pipelined).Sat history Names (fun _ _ => True) {} {} beforeAcks := by
  refine ⟨?_, fun h => ?_⟩
  · exact ⟨rfl, fun _ => ⟨rfl, fun _ => ⟨trivial, fun _ => ⟨trivial, fun _ => trivial⟩⟩⟩⟩
  · obtain ⟨-, h⟩ := h
    obtain ⟨-, h⟩ := h rfl
    have hnames := (h rfl).1.1.1
    exact not_names_of_empty rfl hnames

end CancelRequests

end RoqBitmex
