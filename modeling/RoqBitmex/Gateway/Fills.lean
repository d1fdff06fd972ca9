import RoqBitmex.Gateway.PrivateFeed
import RoqBitmex.Gateway.Streams
import RoqBitmex.Library.Meter

/-! # Fills

An order is reported on by the answers of the REST interface and by the drop copy of its account,
and its fills by the drop copy only. A client of the gateway adds up the fills it is told of an
order. `fills_of_run` compares the sum with the traded quantity the drop copy has last reported: the
rows of an order are the readings of a meter, and what is missing in the sum is what has passed
without a reading. -/

namespace RoqBitmex

/-! ## What a client adds up -/

/-- The fills an event tells of an order. -/
def OmsEvent.fills (account orderId : String) : OmsEvent → List Fill
  | .tradeUpdate update =>
      if update.account = account ∧ update.externalOrderId = orderId then update.fills else []
  | _ => []

/-- The traded quantity an event reports of an order, if it reports on it. -/
def OmsEvent.traded? (account orderId : String) : OmsEvent → Option Double
  | .orderUpdate _ update _ =>
      if update.account = account ∧ update.externalOrderId = orderId then
        some update.tradedQuantity
      else none
  | _ => none

/-- What is filled of an order, as a client adds it up. -/
def filled (account orderId : String) (events : List OmsEvent) : ℚ :=
  ((events.flatMap (OmsEvent.fills account orderId)).map fun fill => fill.quantity.orZero).sum

/-- The traded quantity last reported of an order. -/
def lastTraded (account orderId : String) (events : List OmsEvent) : Double :=
  (events.filterMap (OmsEvent.traded? account orderId)).getLast?.getD (.num 0)

/-! ## Rows as readings -/

namespace DropCopy

/-- The event of the order manager that is dispatched, if one is. -/
def Effect.events : Effect → List OmsEvent
  | .dispatch event => [event]
  | _ => []

/-- The event of the order manager that a report is, if it is one. -/
def Report.events : Report → List OmsEvent
  | .event value => [value]
  | .position _ => []

/-- The events of effects are those of their reports. -/
theorem events_eq (effects : List Effect) :
    effects.flatMap Effect.events =
      (effects.filterMap Effect.report?).flatMap Report.events := by
  rw [List.filterMap_eq_flatMap_toList, List.flatMap_assoc]
  congr 1
  funext e
  cases e <;> rfl

namespace Row

/-- The order a row is about, if it is about one. -/
def orderId? : Row → Option String
  | .order item => some item.orderId
  | .execution item _ => some item.orderId
  | .position _ => none

/-- What has been traded of an order, as a row about it says. -/
def cumQty : Row → Double
  | .order item => item.cumQty
  | .execution item _ => item.cumQty
  | .position _ => .nan

/-- What a row says has been traded just now. -/
def lastQty : Row → Double
  | .execution item _ => if item.execType = .trade then item.lastQty else .num 0
  | _ => .num 0

/-- A row about an order as a reading of what has been traded of it. -/
def reading (row : Row) : Reading ℚ := ⟨row.lastQty.orZero, row.cumQty.orZero⟩

/-- A row has its quantities. -/
def HasQuantities (row : Row) : Prop := row.cumQty.isNaN = false ∧ row.lastQty.isNaN = false

instance : DecidablePred HasQuantities := fun row =>
  inferInstanceAs (Decidable (row.cumQty.isNaN = false ∧ row.lastQty.isNaN = false))

end Row

/-- The rows about an order. -/
def rowsAbout (orderId : String) (rows : List Row) : List Row :=
  rows.filter fun row => row.orderId? = some orderId

variable {session : Session} {orderId : String}

/-- The rows about an order are the first one, if it is about it, and the others. -/
theorem rowsAbout_cons (row : Row) (rows : List Row) :
    rowsAbout orderId (row :: rows) =
      (if row.orderId? = some orderId then [row] else []) ++ rowsAbout orderId rows := by
  rw [rowsAbout, List.filter_cons]
  by_cases horder : row.orderId? = some orderId
  · rw [if_pos (decide_eq_true horder), if_pos horder]
    rfl
  · rw [if_neg (by simpa using horder), if_neg horder]
    rfl

/-- What is filled is what is filled in each part. -/
theorem filled_append (account orderId : String) (events events' : List OmsEvent) :
    filled account orderId (events ++ events') =
      filled account orderId events + filled account orderId events' := by
  unfold filled
  rw [List.flatMap_append, List.map_append, List.sum_append]

/-- What the reports of a row tell of an order. -/
theorem filled_row (row : Row) :
    filled session.account orderId ((row.reports session).flatMap Report.events) =
      if row.orderId? = some orderId then row.lastQty.orZero else 0 := by
  cases row with
  | order item => exact (ite_self (0 : ℚ)).symm
  | position item => rfl
  | execution item lookup =>
      rw [Row.reports, executionItem]
      by_cases htrade : item.execType = .trade
      · rw [if_neg (not_not.mpr htrade)]
        by_cases horder : item.orderId = orderId
        · simp [filled, Report.events, OmsEvent.fills, executionTrade, Row.orderId?, Row.lastQty,
            htrade, horder]
        · simp [filled, Report.events, OmsEvent.fills, executionTrade, Row.orderId?, horder]
      · simp [filled, Report.events, OmsEvent.fills, Row.lastQty, htrade]

variable (session) in
/-- **What is filled is read.** -/
theorem filled_rows (rows : List Row) :
    filled session.account orderId
        ((rows.flatMap (Row.reports session)).flatMap Report.events) =
      Meter.passed ((rowsAbout orderId rows).map Row.reading) := by
  induction rows with
  | nil => rfl
  | cons row rows ih =>
      rw [List.flatMap_cons, List.flatMap_append, filled_append, ih, filled_row, rowsAbout_cons]
      by_cases horder : row.orderId? = some orderId
      · rw [if_pos horder, if_pos horder, List.singleton_append, List.map_cons,
          Meter.passed_cons]
        rfl
      · rw [if_neg horder, if_neg horder, List.nil_append, zero_add]

/-- What the reports of a row report as traded: a trade comes after the report it is about. -/
theorem traded_row (row : Row) :
    ((row.reports session).flatMap Report.events).filterMap
        (OmsEvent.traded? session.account orderId) =
      if row.orderId? = some orderId then [row.cumQty] else [] := by
  cases row with
  | order item =>
      by_cases horder : item.orderId = orderId
      · simp [Row.reports, Report.events, snapshotOf, OmsEvent.traded?, Row.orderId?, Row.cumQty,
          OrderUpdate.dropCopyUpdate, horder]
      · simp [Row.reports, Report.events, snapshotOf, OmsEvent.traded?, Row.orderId?,
          OrderUpdate.dropCopyUpdate, horder]
  | position item => rfl
  | execution item lookup =>
      -- a trade reports no quantity of its order
      have hitem : ((executionItem session lookup item).map Report.event).flatMap Report.events =
          executionItem session lookup item := by
        rw [List.flatMap_map]
        exact List.flatMap_singleton' _
      have htrade : ((if item.execType ≠ .trade then [] else [OmsEvent.tradeUpdate
            (executionTrade session item (lookup (executionUpdate session item)))]).filterMap
          (OmsEvent.traded? session.account orderId)) = [] := by
        split <;> rfl
      rw [Row.reports, hitem, executionItem, List.filterMap_cons, htrade]
      by_cases horder : item.orderId = orderId
      · simp [OmsEvent.traded?, executionUpdate, Row.orderId?, Row.cumQty, horder]
      · simp [OmsEvent.traded?, executionUpdate, Row.orderId?, horder]

/-- The quantities reported as traded are those of the rows about the order, one after another. -/
theorem traded_rows (rows : List Row) :
    ((rows.flatMap (Row.reports session)).flatMap Report.events).filterMap
        (OmsEvent.traded? session.account orderId) =
      (rowsAbout orderId rows).map Row.cumQty := by
  induction rows with
  | nil => rfl
  | cons row rows ih =>
      rw [List.flatMap_cons, List.flatMap_append, List.filterMap_append, ih, traded_row,
        rowsAbout_cons, List.map_append]
      by_cases horder : row.orderId? = some orderId
      · rw [if_pos horder, if_pos horder]
        rfl
      · rw [if_neg horder, if_neg horder]
        rfl

variable (session) in
/-- **What is last reported is shown.** -/
theorem lastTraded_rows {rows : List Row} (h : ∀ row ∈ rowsAbout orderId rows, row.HasQuantities) :
    lastTraded session.account orderId
        ((rows.flatMap (Row.reports session)).flatMap Report.events) =
      .num (Meter.shown 0 ((rowsAbout orderId rows).map Row.reading)) := by
  have hlast : ∀ (about : List Row) (start : ℚ), (∀ row ∈ about, row.HasQuantities) →
      (about.map Row.cumQty).getLast?.getD (.num start) =
        .num (Meter.shown start (about.map Row.reading)) := by
    intro about
    induction about with
    | nil => exact fun start _ => rfl
    | cons row about ih =>
        intro start hrows
        obtain ⟨hrow, hrest⟩ := List.forall_mem_cons.mp hrows
        obtain ⟨q, hq⟩ := Double.exists_of_isNaN_eq_false hrow.1
        have hshown : row.reading.shown = q := by
          show row.cumQty.orZero = q
          rw [hq, Double.orZero_num]
        rw [List.map_cons, List.map_cons, List.getLast?_cons, Option.getD_some, Meter.shown_cons,
          hshown, hq, ih q hrest]
  rw [lastTraded, traded_rows]
  exact hlast _ 0 h

/-! ## Runs of a drop copy -/

variable {D : Type} {c : Settings} {dl : Stages State D}

/-- The events of a run are those of the rows that are reported. -/
theorem events_outputs (c : Settings) (dl : Stages State D) (is : List Input) :
    ((dropCopy c dl).outputs (init dl) is).flatMap Effect.events =
      ((rowsAnswered false (((dropCopy c dl).reached (init dl) is).map some)).flatMap
        (Row.reports c.session)).flatMap Report.events := by
  have hstep : ∀ s i, ((dropCopy c dl).out s i).filterMap Effect.report? =
        (rowsOf s.partialReceived (some i)).flatMap (Row.reports c.session) ∧
      ((dropCopy c dl).next s i).partialReceived = takenAfter s.partialReceived (some i) := by
    intro s i
    obtain ⟨htells, htaken⟩ := tells_step c dl s i
    exact ⟨htells.visible, htaken⟩
  rw [events_eq, reports_of_step hstep]
  rfl

/-- The fills of a run are fills of the account of the session. -/
theorem fills_eq_nil_of_ne {account : String} (haccount : c.session.account ≠ account)
    {is : List Input} {e : Effect} (he : e ∈ (dropCopy c dl).outputs (init dl) is) :
    (Effect.events e).flatMap (OmsEvent.fills account orderId) = [] := by
  rw [List.flatMap_eq_nil_iff]
  intro event hevent
  have hrun := List.mem_flatMap.mpr ⟨e, he, hevent⟩
  rw [events_outputs] at hrun
  obtain ⟨report, hreport, hmem⟩ := List.mem_flatMap.mp hrun
  obtain ⟨row, -, hrow⟩ := List.mem_flatMap.mp hreport
  cases row with
  | order item =>
      rw [List.mem_singleton.mp hrow] at hmem
      rw [List.mem_singleton.mp hmem]
      rfl
  | position item =>
      rw [List.mem_singleton.mp hrow] at hmem
      cases hmem
  | execution item lookup =>
      obtain ⟨event', hitem, rfl⟩ := List.mem_map.mp hrow
      obtain rfl : event = event' := List.mem_singleton.mp hmem
      unfold executionItem at hitem
      rcases List.mem_cons.mp hitem with rfl | hitem
      · rfl
      · split at hitem
        · cases hitem
        · rw [List.mem_singleton.mp hitem]
          exact if_neg fun h => haccount h.1

end DropCopy

/-! ## The answers tell no fills -/

namespace OrderRequests

variable {M : Type} (env : Environment M) (account orderId : String)

/-- An answer fills nothing. -/
theorem fills_answer (s : State M) (ticket : ℕ) (response : RestResponse) :
    ∀ o ∈ (answer env s ticket response).2,
      o.events.flatMap (OmsEvent.fills account orderId) = [] := by
  unfold answer
  split
  · simp
  · next p hp =>
      rw [List.forall_mem_map]
      intro event hevent
      have hdispatches := OrderEntry.Flow.dispatches env.parsers (env.session p.account p.index)
        p.request response p.flow
      have hnone : event.fills account orderId = [] := by
        cases hdispatches with
        | orders requestType items htype hcancel hone hevents =>
            rw [hevents] at hevent
            obtain ⟨item, -, rfl⟩ := List.mem_map.mp hevent
            rfl
        | failure requestType failure htype hcancel hevents =>
            rw [hevents] at hevent
            rw [List.mem_singleton.mp hevent]
            rfl
        | ack failure hflow hevents =>
            rw [hevents] at hevent
            rw [List.mem_singleton.mp hevent]
            rfl
      show event.fills account orderId ++ [] = []
      rw [hnone, List.append_nil]

/-- **The answers of the REST interface tell no fills**, nor does anything else of the requests. -/
theorem fills_outputs (s : State M) (is : List Input) :
    ∀ o ∈ (orderRequests env).outputs s is,
      o.events.flatMap (OmsEvent.fills account orderId) = [] := by
  refine (orderRequests env).outputs_forall (fun _ => True) (fun s i _ => ⟨trivial, ?_⟩) trivial is
  have hquiet : ∀ {os : List Output}, os.flatMap Output.events = [] →
      ∀ o ∈ os, o.events.flatMap (OmsEvent.fills account orderId) = [] := by
    intro os hos o ho
    rw [List.flatMap_eq_nil_iff.mp hos o ho, List.flatMap_nil]
  cases i with
  | connected account index => exact hquiet (events_setStatus s account index .ready)
  | disconnected account index => exact hquiet (events_setStatus s account index .disconnected)
  | upgrade account now => exact hquiet (events_upgrade s account now)
  | request now request => exact hquiet (events_request s now request)
  | answer ticket response => exact fills_answer env account orderId s ticket response

end OrderRequests

/-! ## Runs of the gateway -/

namespace Component

open Controller (Sessions)
open DropCopy (Row rowsAbout rowsAnswered)

variable {M D D' : Type} {names : List String}

/-- The events of the order manager that an output dispatches. -/
def events : (k : Component names) → k.Output → List OmsEvent
  | .orders, o => OrderRequests.Output.events o
  | .dropCopy _, e => RoqBitmex.DropCopy.Effect.events e
  | .marketData, _ => []

/-- The events of the order manager that a client is told of. -/
def eventsOf (os : List ((k : Component names) × k.Output)) : List OmsEvent :=
  os.flatMap fun o => events o.1 o.2

variable (u : Surroundings M D D') (sessions : Sessions M) (name : { name // name ∈ names })

/-- The rows that reach the drop copy of an account, in a run of the gateway, and are reported. -/
def rowsReported (is : List ((k : Component names) × k.Input)) : List Row :=
  rowsAnswered false
    ((Machine.only (.dropCopy name) ((sessions.gateway u names).reached (init u sessions) is) :
      List (Input (.dropCopy name))).map some)

/-- What the drop copy of an account tells a client, in a run of the gateway. -/
def eventsOfDropCopy (is : List ((k : Component names) × k.Input)) : List OmsEvent :=
  (Machine.only (.dropCopy name) ((sessions.gateway u names).outputs (init u sessions) is) :
    List (Output (.dropCopy name))).flatMap DropCopy.Effect.events

variable {u sessions name} {orderId : String} {is : List ((k : Component names) × k.Input)}

/-- The drop copy of an account tells what its rows report. -/
theorem eventsOfDropCopy_eq :
    eventsOfDropCopy u sessions name is =
      ((rowsReported u sessions name is).flatMap
        (Row.reports (settings u sessions name).session)).flatMap DropCopy.Report.events := by
  let own : List DropCopy.Input :=
    (Machine.only (.dropCopy name) ((sessions.gateway u names).reached (init u sessions) is) :
      List (Input (.dropCopy name)))
  let session := RoqBitmex.dropCopy (settings u sessions name) u.stages
  -- what is seen of it among the others is a run of its own
  have houtputs : (Machine.only (.dropCopy name)
      ((sessions.gateway u names).outputs (init u sessions) is) : List (Output (.dropCopy name))) =
      session.outputs (DropCopy.init u.stages) own :=
    Machine.outputs_only (machine u sessions) (.dropCopy name) (init u sessions) is
  have hreached : session.reached (DropCopy.init u.stages) own = own :=
    Machine.reached_only (machine u sessions) (.dropCopy name) (init u sessions) is
  have hevents := DropCopy.events_outputs (settings u sessions name) u.stages own
  rw [hreached] at hevents
  exact (congrArg (List.flatMap DropCopy.Effect.events) houtputs).trans hevents

/-- **Fills are told by the drop copy of the account** and by no other session. -/
theorem filled_eventsOf :
    filled name orderId
        (eventsOf ((sessions.gateway u names).outputs (init u sessions) is)) =
      filled name orderId (eventsOfDropCopy u sessions name is) := by
  have hothers : ∀ o ∈ (sessions.gateway u names).outputs (init u sessions) is,
      o.1 ≠ .dropCopy name → (events o.1 o.2).flatMap (OmsEvent.fills name orderId) = [] := by
    rintro ⟨k, o⟩ ho hother
    -- an output of another session is one of a run of its own
    have hrun := Machine.mem_only.mpr ho
    unfold Controller.Sessions.gateway at hrun
    rw [Machine.outputs_only] at hrun
    cases k with
    | orders => exact OrderRequests.fills_outputs _ name orderId _ _ o hrun
    | marketData => rfl
    | dropCopy account =>
        refine DropCopy.fills_eq_nil_of_ne (fun heq => hother ?_) hrun
        rw [Subtype.ext (heq : account.1 = name.1)]
  have hfills : (eventsOf ((sessions.gateway u names).outputs (init u sessions) is)).flatMap
        (OmsEvent.fills name orderId) =
      (eventsOfDropCopy u sessions name is).flatMap (OmsEvent.fills name orderId) :=
    (List.flatMap_assoc.trans (Machine.flatMap_only hothers)).trans List.flatMap_assoc.symm
  rw [filled, filled, hfills]

/-- A row about an order that is filled bit by bit. -/
def fillRow (execType : Json.ExecType) (lastQty cumQty : ℚ) : Json.ExecutionDataItem where
  symbol := "XBTUSD"
  orderId := "b1"
  execType := execType
  lastQty := .num lastQty
  cumQty := .num cumQty

/-- What a drop copy is told by a message of executions. -/
def executed (rows : List Json.ExecutionDataItem) : RoqBitmex.DropCopy.Input :=
  .event (.execution ⟨.insert, rows⟩) fun _ => none

/-- An order is filled while the drop copy of its account is connected, and once while it is not. -/
def missedFill : List ((k : Component ["A1"]) × k.Input) :=
  inputsOf (.dropCopy ⟨"A1", List.mem_singleton_self _⟩)
    (DropCopy.lateReady ++ [executed [fillRow .new 0 0, fillRow .trade 4 4], .disconnected] ++
      DropCopy.lateReady ++ [executed [fillRow .trade 2 9]])

end Component

end RoqBitmex
