import RoqBitmex.Gateway.DropCopy
import RoqBitmex.Gateway.MarketDataReady

/-! # When the sessions are ready

The drop copy announces that it is ready after the items of the first order snapshot. `readiness`
puts it beside the market data session. -/

namespace RoqBitmex

universe u v

/-! ## Drop copy -/

namespace DropCopy

open Json (OrderDataItem)

variable {D : Type v}

/-- What has happened on a connection. -/
structure Connection where
  standing : Standing := {}
  /-- The exchange has greeted. -/
  welcomed : Bool := false
  /-- The items of the first order snapshot. -/
  order : Option (List OrderDataItem) := none
  /-- The order reports dispatched as snapshots. -/
  snapshots : List OmsEvent := []
  deriving DecidableEq

/-- What has happened on a connection, along a run. -/
def connection : Monitor (DropCopy D) Input Effect Connection where
  input _ a
    | .ready => { a with standing := a.standing.socketReady }
    | .disconnected => {}
    | .event (.welcome _) _ => { a with welcomed := true }
    | .event (.order message) _ =>
        { a with
          order := a.order.or (if message.action = .partial_ then some message.data else none) }
    | _ => a
  output a
    | .streamStatus value => { a with standing := a.standing.announce value.connectionStatus }
    | .dispatch (.orderUpdate response update streamId) =>
        if update.updateType = .snapshot then
          { a with snapshots := a.snapshots ++ [.orderUpdate response update streamId] }
        else a
    | _ => a

/-- The exchange greets once on a connection. -/
def WelcomedOnce (_ : DropCopy D) (a : Connection) : Input → Prop
  | .event (.welcome _) _ => a.welcomed = false
  | _ => True

instance (s : DropCopy D) (a : Connection) : ∀ i, Decidable (WelcomedOnce s a i)
  | .event (.welcome _) _ => inferInstanceAs (Decidable (_ = _))
  | .event (.error _) _ | .event (.subscribe _) _ | .event (.unsubscribe _) _
  | .event (.instrument _) _ | .event (.quote _) _ | .event (.orderBookL2 _) _
  | .event (.trade _) _ | .event (.funding _) _ | .event .liquidation _ | .event .settlement _
  | .event (.cancelAllAfter _) _ | .event (.order _) _ | .event (.execution _) _
  | .event .margin _ | .event (.position _) _ | .ready | .disconnected | .timer _ _ =>
      isTrue trivial

/-- The report of an order item in a download. -/
def snapshotOf (session : Session) (item : OrderDataItem) : OmsEvent :=
  .orderUpdate (OrderUpdate.dropCopyResponse item) (OrderUpdate.dropCopyUpdate session item true)
    session.streamId

/-- What an effect may come after: it is announced that the session is ready after every item of the
first order snapshot has been dispatched, and once. No assertion of the download fails. -/
def InTurn (session : Session) (a : Connection) : Effect → Prop
  | .streamStatus value =>
      value.connectionStatus = .ready →
        (∃ items, a.order = some items ∧ a.snapshots = items.map (snapshotOf session)) ∧
          a.standing.published = false
  | .assertion .downloadState => False
  | .assertion .downloadReady => False
  | _ => True

variable {c : Settings} {dl : Stages State D} {stage : D → State × ℕ}

/-- What the session relies on of its download. -/
abbrev Follows (dl : Stages State D) (stage : D → State × ℕ) : Prop :=
  dl.Follows State.count .undefined State.after stage

/-- Where the session stands, given what has happened on the connection. -/
structure InStage (session : Session) (stage : D → State × ℕ) (s : DropCopy D) (a : Connection) :
    Prop where
  agrees : a.standing.Agrees s.ready s.connectionStatus
  fresh : a.welcomed = false → (stage s.download).1 = .undefined
  ready : s.ready = true ↔ (stage s.download).1 = .done
  stage : (stage s.download).1 = .undefined ∨ stage s.download = (.subscribe, 1) ∨
    (stage s.download).1 = .done
  received : s.partialReceived = a.order.isSome
  snapshots : a.snapshots = (a.order.getD []).map (snapshotOf session)

/-- A greeting leaves the stage of the download as it is. -/
theorem InStage.welcome {session : Session} {s : DropCopy D} {a : Connection}
    (h : InStage session stage s a) : InStage session stage s { a with welcomed := true } where
  agrees := h.agrees
  fresh hfresh := by cases hfresh
  ready := h.ready
  stage := h.stage
  received := h.received
  snapshots := h.snapshots

/-- A session that is not ready is in a stage before the last. -/
theorem InStage.ready_eq_false {session : Session} {s : DropCopy D} {a : Connection}
    (h : InStage session stage s a) (hstage : (stage s.download).1 ≠ .done) : s.ready = false :=
  Bool.eq_false_iff.mpr fun hready => hstage (h.ready.mp hready)

/-- Effects that have no part in the download. -/
def Aside : Effect → Prop
  | .streamStatus _ => False
  | .dispatch (.orderUpdate _ update _) => update.updateType ≠ .snapshot
  | .assertion .downloadState => False
  | .assertion .downloadReady => False
  | _ => True

/-- An effect beside the download keeps the turns. -/
theorem passes_of_aside (session : Session) (a : Connection) {e : Effect} (h : Aside e) :
    (connection (D := D)).Passes (InTurn session) a e := by
  constructor
  · cases e with
    | streamStatus value => exact h.elim
    | assertion site => cases site <;> trivial
    | _ => trivial
  · cases e with
    | streamStatus value => exact h.elim
    | dispatch event =>
        cases event with
        | orderUpdate response update streamId => exact if_neg h
        | _ => rfl
    | _ => rfl

/-- The outputs of a handler are in turn and keep the session where it stands. -/
abbrev Keeps (session : Session) (stage : D → State × ℕ) (a : Connection)
    (r : DropCopy D × List Effect) : Prop :=
  connection.Keeps (InTurn session) (InStage session stage) a r

/-- A step whose effects are beside the download keeps the stage and the turns. -/
theorem keeps_of_aside {a : Connection} {r : DropCopy D × List Effect}
    (h : InStage c.session stage r.1 a) (haside : ∀ e ∈ r.2, Aside e) :
    Keeps c.session stage a r :=
  Monitor.Keeps.of_passes h fun e he => passes_of_aside c.session a (haside e he)

/-! ### Calls of the download -/

/-- A download that has not begun goes on to the subscriptions. -/
theorem begin_eq (hdl : Follows dl stage) {s : DropCopy D}
    (hstage : (stage s.download).1 = .undefined) :
    ∃ d, stage d = (.subscribe, 1) ∧
      s.begin c dl = ({ s with download := d, connectionStatus := .downloading },
        [.streamStatus ⟨c.session.streamId, .downloading, "subscribe"⟩,
          .subscribe [.execution, .order, .margin, .position]]) := by
  obtain ⟨hnext, hentered⟩ := Prod.mk.inj (hdl.begin s.download hstage)
  have hdl' : (dl.begin State.count s.download).2 = [.subscribe] := hentered
  refine ⟨(dl.begin State.count s.download).1, hnext, ?_⟩
  simp [begin, hdl', enterAll, enter, setStatus]

/-- An answer for another stage is not waited for. -/
theorem checkRelaxed_other (hdl : Follows dl stage) {s : DropCopy D} {state : State}
    (hstage : (stage s.download).1 ≠ state) :
    ∃ d, stage d = stage s.download ∧
      s.checkRelaxed c dl state = ({ s with download := d }, []) := by
  obtain ⟨hnext, hentered⟩ := Prod.mk.inj (hdl.other s.download state hstage)
  have hdl' : (dl.checkRelaxed State.count s.download state).2 = [] := hentered
  refine ⟨(dl.checkRelaxed State.count s.download state).1, hnext, ?_⟩
  simp [checkRelaxed, hdl', enterAll]

/-- The answer for the subscriptions ends the download. -/
theorem checkRelaxed_subscribe (hdl : Follows dl stage) {s : DropCopy D}
    (hstage : stage s.download = (.subscribe, 1)) :
    ∃ d, (stage d).1 = .done ∧
      s.checkRelaxed c dl .subscribe =
        ({ s with download := d, connectionStatus := .ready, ready := true },
          .streamStatus ⟨c.session.streamId, .ready, ""⟩ ::
            assertEffect (!s.ready) .downloadReady) := by
  obtain ⟨hnext, hentered⟩ := Prod.mk.inj (hdl.last s.download .subscribe hstage)
  have hdl' : (dl.checkRelaxed State.count s.download .subscribe).2 = [.done] := hentered
  refine ⟨(dl.checkRelaxed State.count s.download .subscribe).1, congrArg Prod.fst hnext, ?_⟩
  simp [checkRelaxed, hdl', enterAll, enter, setStatus]

/-- The greeting begins the download. -/
theorem keeps_begin (hdl : Follows dl stage) {s : DropCopy D} {a : Connection}
    (h : InStage c.session stage s a) (hstage : (stage s.download).1 = .undefined)
    (hwelcomed : a.welcomed = true) : Keeps c.session stage a (s.begin c dl) := by
  obtain ⟨d, hd, hbegin⟩ := begin_eq (c := c) hdl hstage
  have hready : s.ready = false := h.ready_eq_false (by simp [hstage])
  have hagrees : a.standing.Agrees false s.connectionStatus := hready ▸ h.agrees
  rw [hbegin]
  refine ⟨by simp [InTurn], ?_, ?_, ?_, Or.inr (Or.inl hd), h.received, h.snapshots⟩
  · have hnow := hagrees.downloading
    rw [← hready] at hnow
    exact hnow
  · intro hfresh
    rw [show a.welcomed = false from hfresh] at hwelcomed
    cases hwelcomed
  · simp [hd, hready]

/-- The order snapshot makes the session ready, or is not waited for. -/
theorem keeps_subscribe (hdl : Follows dl stage) {s : DropCopy D} {a : Connection}
    (h : InStage c.session stage s a) (horder : a.order.isSome = true) :
    Keeps c.session stage a (s.checkRelaxed c dl .subscribe) := by
  by_cases hstage : (stage s.download).1 = .subscribe
  · have hone : stage s.download = (.subscribe, 1) := by
      rcases h.stage with hd | hd | hd
      · rw [hd] at hstage; cases hstage
      · exact hd
      · rw [hd] at hstage; cases hstage
    obtain ⟨d, hd, hcall⟩ := checkRelaxed_subscribe (c := c) hdl hone
    have hready : s.ready = false := h.ready_eq_false (by simp [hstage])
    have hagrees : a.standing.Agrees false s.connectionStatus := hready ▸ h.agrees
    have hpublished : a.standing.published = false := hagrees.published
    -- every item has been dispatched
    obtain ⟨items, hitems⟩ := Option.isSome_iff_exists.mp horder
    have hsnapshots : a.snapshots = items.map (snapshotOf c.session) := by
      rw [h.snapshots, hitems]
      rfl
    rw [hcall, hready]
    refine ⟨?_, hagrees.done, ?_, ?_, Or.inr (Or.inr hd), h.received, h.snapshots⟩
    · exact ⟨fun _ => ⟨⟨items, hitems, hsnapshots⟩, hpublished⟩, trivial⟩
    · intro hfresh
      have hundefined := h.fresh hfresh
      rw [hstage] at hundefined
      cases hundefined
    · simp [hd]
  · obtain ⟨d, hd, hcall⟩ := checkRelaxed_other (c := c) hdl hstage
    rw [hcall]
    refine keeps_of_aside ⟨h.agrees, ?_, ?_, ?_, h.received, h.snapshots⟩ (by simp)
    · rw [hd]
      exact h.fresh
    · rw [hd]
      exact h.ready
    · rw [hd]
      exact h.stage

/-! ### Messages -/

/-- What an order message dispatches. -/
theorem dropCopy_eq (session : Session) (item : OrderDataItem) (download : Bool) :
    OrderUpdate.dropCopy session item download =
      if download then [snapshotOf session item] else [] := by
  cases download with
  | true => rfl
  | false => rfl

/-- Reports of items add to the snapshots dispatched. -/
theorem outputs_snapshots (session : Session) (a : Connection) (items : List OrderDataItem) :
    (connection (D := D)).Holds (InTurn session) a
        (items.map fun item => .dispatch (snapshotOf session item)) ∧
      (connection (D := D)).outputs a (items.map fun item => .dispatch (snapshotOf session item)) =
        { a with snapshots := a.snapshots ++ items.map (snapshotOf session) } := by
  induction items generalizing a with
  | nil => exact ⟨trivial, by simp⟩
  | cons item items ih =>
      obtain ⟨hholds, houtputs⟩ :=
        ih { a with snapshots := a.snapshots ++ [snapshotOf session item] }
      have hsame : (connection (D := D)).output a (.dispatch (snapshotOf session item)) =
          { a with snapshots := a.snapshots ++ [snapshotOf session item] } := rfl
      rw [List.map_cons, Monitor.holds_cons, Monitor.outputs_cons, hsame, houtputs]
      exact ⟨⟨trivial, hholds⟩, by simp⟩

/-- The first order snapshot is dispatched, and then answers the download; nothing comes of another
order message. -/
theorem order_eq (s : DropCopy D) (message : Json.Order) :
    s.order c dl message =
      if s.partialReceived = false ∧ message.action = .partial_ then
        ((checkRelaxed c dl { s with partialReceived := true } .subscribe).1,
          (message.data.map fun item => .dispatch (snapshotOf c.session item)) ++
            (checkRelaxed c dl { s with partialReceived := true } .subscribe).2)
      else (s, []) := by
  by_cases hdownload : s.partialReceived = false ∧ message.action = .partial_
  · simp [order, hdownload, dropCopy_eq, ← List.map_eq_flatMap, Function.comp_def]
  · have hfalse : (!s.partialReceived && decide (message.action = .partial_)) = false := by
      simpa using hdownload
    rw [order, if_neg hdownload]
    simp [hfalse, dropCopy_eq]

/-- Orders answer in turn. -/
theorem keeps_order (hdl : Follows dl stage) {s : DropCopy D} {a : Connection}
    (h : InStage c.session stage s a) (message : Json.Order)
    (lookup : Oms.OrderUpdate → Option OrderRef) :
    Keeps c.session stage (connection.input s a (.event (.order message) lookup))
      (s.order c dl message) := by
  rw [order_eq]
  by_cases hdownload : s.partialReceived = false ∧ message.action = .partial_
  · obtain ⟨hreceived, haction⟩ := hdownload
    have hnone : a.order = none := by
      have hsome : a.order.isSome = false := h.received ▸ hreceived
      simpa using hsome
    have hsnapshots : a.snapshots = [] := by simpa [hnone] using h.snapshots
    have hinput : connection.input s a (.event (.order message) lookup) =
        { a with order := some message.data } := by simp [connection, haction, hnone]
    rw [if_pos ⟨hreceived, haction⟩, hinput]
    obtain ⟨hholds, houtputs⟩ := outputs_snapshots (D := D) c.session
      { a with order := some message.data } message.data
    have hnow : InStage c.session stage { s with partialReceived := true }
        { a with
          order := some message.data
          snapshots := a.snapshots ++ message.data.map (snapshotOf c.session) } :=
      ⟨h.agrees, h.fresh, h.ready, h.stage, rfl, by simp [hsnapshots]⟩
    apply Monitor.Keeps.after hholds
    rw [houtputs]
    exact keeps_subscribe hdl hnow rfl
  · have hsame : connection.input s a (.event (.order message) lookup) = a := by
      have hor : a.order.or (if message.action = .partial_ then some message.data else none) =
          a.order := by
        rcases not_and_or.mp hdownload with hreceived | haction
        · have hsome : a.order.isSome = true := by
            rw [← h.received]
            simpa using hreceived
          obtain ⟨items, hitems⟩ := Option.isSome_iff_exists.mp hsome
          rw [hitems, Option.some_or]
        · rw [if_neg haction, Option.or_none]
      simp [connection, hor]
    rw [if_neg hdownload, hsame]
    exact keeps_of_aside h (by simp)

/-- Reports of executions are no snapshots. -/
theorem aside_execution (session : Session) (lookup : Oms.OrderUpdate → Option OrderRef)
    (message : Json.Execution) :
    ∀ e ∈ (execution session lookup message).map Effect.dispatch, Aside e := by
  intro e he
  obtain ⟨event, hevent, rfl⟩ := List.mem_map.mp he
  obtain ⟨item, -, hitem⟩ := List.mem_flatMap.mp hevent
  rw [executionItem] at hitem
  rcases List.mem_cons.mp hitem with rfl | hitem
  · exact fun h => by cases h
  · split at hitem
    · cases hitem
    · rw [List.mem_singleton.mp hitem]
      trivial

/-- What a position message publishes is beside the download. -/
theorem aside_position (session : Session) (message : Json.Position) :
    ∀ e ∈ (position session message).map Effect.position, Aside e := by
  intro e he
  obtain ⟨update, -, rfl⟩ := List.mem_map.mp he
  trivial

/-- An acknowledgement may end the process, but not for the download. -/
theorem aside_unsubscribe (message : Json.Unsubscribe) : ∀ e ∈ unsubscribe message, Aside e := by
  intro e he
  unfold unsubscribe assertEffect at he
  split at he
  · split at he
    · cases he
    · rw [List.mem_singleton.mp he]
      trivial
  · split at he
    · cases he
    · rw [List.mem_singleton.mp he]
      trivial

/-- An input is answered in turn. -/
theorem keeps_step (hdl : Follows dl stage) {s : DropCopy D} {a : Connection} {i : Input}
    (h : InStage c.session stage s a) (hok : WelcomedOnce s a i) :
    Keeps c.session stage (connection.input s a i) (s.step c dl i) := by
  cases i with
  | ready =>
      refine ⟨by simp [step, socketReady, setStatus, InTurn], ?_, h.fresh, h.ready, h.stage,
        h.received, h.snapshots⟩
      simpa [step, socketReady, setStatus, connection, Standing.announce] using
        h.agrees.socketReady
  | disconnected =>
      have hreset : (stage (dl.reset s.download)).1 = .undefined := hdl.reset s.download
      refine ⟨by simp [step, socketDisconnected, setStatus, InTurn],
        Standing.agrees_disconnected, fun _ => hreset, ?_, Or.inl hreset, rfl, rfl⟩
      simp [step, socketDisconnected, setStatus, hreset]
  | timer now refreshed =>
      rw [step, timer]
      split
      · exact keeps_of_aside h (by simp)
      · split
        · exact keeps_of_aside
            ⟨h.agrees, h.fresh, h.ready, h.stage, h.received, h.snapshots⟩
            (by simp [sendCancelAllAfter, Aside])
        · exact keeps_of_aside h (by simp)
  | event event lookup =>
      cases event with
      | welcome value =>
          have hwelcomed : a.welcomed = false := hok
          have hbegin : Keeps c.session stage { a with welcomed := true } (s.begin c dl) :=
            keeps_begin hdl h.welcome (h.fresh hwelcomed) rfl
          refine hbegin.append fun e he => passes_of_aside _ _ ?_
          split at he
          · rw [List.mem_singleton.mp he]
            trivial
          · cases he
      | order message => exact keeps_order hdl h message lookup
      | execution message => exact keeps_of_aside h (aside_execution _ _ _)
      | unsubscribe message => exact keeps_of_aside h (aside_unsubscribe message)
      | position message => exact keeps_of_aside h (aside_position _ message)
      | _ => exact keeps_of_aside h (by simp [step, handle, Aside])

/-- What holds along every run of the session. -/
def Announces (c : Settings) (dl : Stages State D) (is : List Input) : Prop :=
  (dropCopy c dl).Sat connection (fun _ => InTurn c.session)
    (fun s a => a.standing.Agrees s.ready s.connectionStatus) (init dl) {} is

/-- In every run in which the exchange greets at most once on a connection, what is announced is in
turn. -/
theorem announces (hdl : Follows dl stage) (is : List Input)
    (h : (dropCopy c dl).Along connection WelcomedOnce (init dl) {} is) : Announces c dl is := by
  have hidle : (stage dl.idle).1 = .undefined := hdl.idle
  refine Machine.sat_of_along (InStage c.session stage) (fun s a i hin hok => ?_) ?_ h
  · exact Machine.stepSat_of_keeps (fun _ _ h => h.agrees) (keeps_step hdl hin hok)
  · refine ⟨Standing.agrees_undefined, fun _ => hidle, ?_, Or.inl hidle, rfl, rfl⟩
    simp [init, hidle]

end DropCopy

/-! ## Both sessions -/

section Both

variable {D : Type u} {D' : Type v} {g : Gateway} {c : DropCopy.Settings} {dl : Download D}
  {dl' : Stages DropCopy.State D'} {stage : D → DownloadState × ℕ}
  {stage' : D' → DropCopy.State × ℕ}

/-- **Readiness.** In every run in which the exchange greets once on a connection, each session
announces that it is ready once on a connection and after its download, and shows it until the
connection is lost: its flag always, its status unless the socket reports itself ready late. -/
theorem readiness (hdl : dl.Follows stage) (hdl' : DropCopy.Follows dl' stage')
    (is : List MarketData.Input) (is' : List DropCopy.Input)
    (h : (marketData g dl).Along (MarketData.connection g) MarketData.WelcomedOnce
      (MarketData.init dl) {} is)
    (h' : (dropCopy c dl').Along DropCopy.connection DropCopy.WelcomedOnce
      (DropCopy.init dl') {} is') :
    MarketData.Announces g dl is ∧ DropCopy.Announces c dl' is' :=
  ⟨MarketData.announces hdl is h, DropCopy.announces hdl' is' h'⟩

end Both

/-- The greeting of a connection. -/
def MarketData.welcomed : MarketData.Input := .event (.welcome ⟨"Welcome"⟩) []

/-- Both snapshots arrive, and the socket reports itself ready after them. -/
def MarketData.lateReady : List MarketData.Input :=
  [.ready, welcomed, .event (.instrument ⟨.partial_, []⟩) [],
    .event (.orderBookL2 ⟨.partial_, []⟩) [], .ready]

/-- A book snapshot arrives before the instruments', and is refused. -/
def MarketData.earlyBook : List MarketData.Input :=
  [.ready, welcomed,
    .event (.orderBookL2 ⟨.partial_, [⟨"XBTUSD", 1, .buy, .num 10, .num 5, 0⟩]⟩) [true]]

/-- An account that does not ask for its orders to be cancelled. -/
def DropCopy.keepOrders : DropCopy.Settings where
  session := ⟨2, "A1", "BITMEX"⟩
  cancelOnDisconnect := false
  cancelAllAfter := 0
  asserts := true

/-- The order snapshot arrives, and the socket reports itself ready after it. -/
def DropCopy.lateReady : List DropCopy.Input :=
  [.ready, .event (.welcome ⟨"Welcome"⟩) fun _ => none,
    .event (.order ⟨.partial_, [{ symbol := "XBTUSD", orderId := "o1" }]⟩) fun _ => none, .ready]

/-- Counted stages for the drop copy. -/
abbrev DropCopy.inOrder : Stages DropCopy.State (DropCopy.State × ℕ) :=
  Stages.inOrder .undefined DropCopy.State.after

/-- Sessions that are ready late announce it in turn. -/
theorem readiness_lateReady :
    MarketData.Announces .keepAll .inOrder MarketData.lateReady ∧
      DropCopy.Announces DropCopy.keepOrders DropCopy.inOrder DropCopy.lateReady := by
  refine readiness Download.follows_inOrder (Stages.follows_inOrder _ _ _) _ _ ?_ ?_
  all_goals decide +kernel

/-- A status may be lost where the flag stays, and the books may be asked for again before the
instruments' snapshot. -/
theorem flag_outlives_status :
    ((marketData .keepAll .inOrder).Along (MarketData.connection .keepAll) MarketData.WelcomedOnce
        (MarketData.init .inOrder) {} MarketData.lateReady ∧
      ¬ (marketData .keepAll .inOrder).Sat (MarketData.connection .keepAll) (fun _ _ _ => True)
        (fun s _ => s.ready = true ↔ s.connectionStatus = .ready)
        (MarketData.init .inOrder) {} MarketData.lateReady) ∧
    ((dropCopy DropCopy.keepOrders DropCopy.inOrder).Along DropCopy.connection
        DropCopy.WelcomedOnce (DropCopy.init DropCopy.inOrder) {} DropCopy.lateReady ∧
      ¬ (dropCopy DropCopy.keepOrders DropCopy.inOrder).Sat DropCopy.connection
        (fun _ _ _ => True) (fun s _ => s.ready = true ↔ s.connectionStatus = .ready)
        (DropCopy.init DropCopy.inOrder) {} DropCopy.lateReady) ∧
    (marketData .keepAll .inOrder).Along (MarketData.connection .keepAll) MarketData.WelcomedOnce
        (MarketData.init .inOrder) {} MarketData.earlyBook ∧
      .subscribe [.orderBookL2] ∈
        (marketData .keepAll .inOrder).outputs (MarketData.init .inOrder) MarketData.earlyBook := by
  decide +kernel

end RoqBitmex
