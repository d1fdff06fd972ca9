import RoqBitmex.Gateway.Lifecycle
import RoqBitmex.Library.Interleaving

/-! # The private feed

A drop copy as its socket sees it: a text goes through `Parser::dispatch` to a handler, or ends the
process there, also by not parsing. `privateFeed_survives_iff` says which texts end it, and
`reports_of_run` which reports come of them. -/

namespace RoqBitmex

universe u

/-! ## The socket -/

namespace DropCopy

/-- What the socket and the timer hand to a session: a text comes with the order the dispatcher
matches with each update it leads to. -/
inductive FeedInput where
  | ready
  | disconnected
  | text (text : Json.Text) (lookup : Oms.OrderUpdate → Option OrderRef)
  | timer (now : Int) (refreshed : Bool)

/-- What comes of it. -/
inductive FeedEffect where
  /-- An effect of a handler. -/
  | effect (e : Effect)
  /-- `log::fatal` in the parser: the process ends. -/
  | unexpected
  /-- `Unhandled::terminate` after an exception: the process ends. -/
  | unhandled
  deriving DecidableEq, Repr

variable {D : Type u} (c : Settings) (dl : Stages State D) (allowUnknownEventTypes : Bool)

/-- `DropCopy::parse`: the overloads the parser invokes, and the end of the process when it returns
from none or throws. -/
def parse (s : DropCopy D) (text : Json.Text) (lookup : Oms.OrderUpdate → Option OrderRef) :
    DropCopy D × List FeedEffect :=
  match text with
  | .ok frame =>
      let dispatch := Json.Parser.dispatch frame allowUnknownEventTypes
      let (s, effects) :=
        (dropCopy c dl).batch s (dispatch.invoked.map fun event => .event event lookup)
      -- what the handlers have done is done before the process ends
      match dispatch.returned with
      | some _ => (s, effects.map .effect)
      | none => (s, effects.map .effect ++ [.unexpected])
  -- `catch (...)`
  | .error _ => (s, [.unhandled])

/-- One input from the socket or the timer. -/
def receive (s : DropCopy D) : FeedInput → DropCopy D × List FeedEffect
  | .ready => ((s.socketReady c).1, (s.socketReady c).2.map .effect)
  | .disconnected => ((s.socketDisconnected c dl).1, (s.socketDisconnected c dl).2.map .effect)
  | .text text lookup => s.parse c dl allowUnknownEventTypes text lookup
  | .timer now refreshed =>
      ((s.timer c now refreshed).1, (s.timer c now refreshed).2.map .effect)

/-- The effects that end the process. -/
def FeedEffect.halts (c : Settings) : FeedEffect → Bool
  | .effect e => c.halts e
  | .unexpected => true
  | .unhandled => true

end DropCopy

/-- A drop copy on its socket as a machine. -/
def privateFeed (c : DropCopy.Settings) {D : Type u} (dl : Stages DropCopy.State D)
    (allowUnknownEventTypes : Bool) :
    Machine (DropCopy D) DropCopy.FeedInput DropCopy.FeedEffect where
  step := DropCopy.receive c dl allowUnknownEventTypes
  halts := DropCopy.FeedEffect.halts c

namespace DropCopy

variable {D : Type u} {c : Settings} {dl : Stages State D} {stage : D → State × ℕ} {allow : Bool}

/-- The input a session answers. -/
def FeedInput.input? (allow : Bool) : FeedInput → Option Input
  | .ready => some .ready
  | .disconnected => some .disconnected
  | .text parsed lookup => (parsed.event? allow).map fun event => .event event lookup
  | .timer now refreshed => some (.timer now refreshed)

/-! ### Texts -/

/-- An input that a session answers is answered by its handler. -/
theorem receive_of_some {i : FeedInput} {j : Input} (h : i.input? allow = some j)
    (s : DropCopy D) :
    s.receive c dl allow i = ((s.step c dl j).1, (s.step c dl j).2.map .effect) := by
  cases i with
  | ready => exact (Option.some.inj h) ▸ rfl
  | disconnected => exact (Option.some.inj h) ▸ rfl
  | timer now refreshed => exact (Option.some.inj h) ▸ rfl
  | text text lookup =>
      -- a text is given to one handler or to none
      obtain ⟨event, hevent, rfl⟩ := Option.map_eq_some_iff.mp h
      cases text with
      | error what => cases hevent
      | ok frame =>
          unfold Json.Text.event? Json.Parser.event? at hevent
          rcases Json.Parser.dispatch_cases frame allow with ⟨event', hhelper⟩ | hleft | hfatal
          · obtain rfl : event' = event := by simpa [hhelper, Json.Dispatch.helper] using hevent
            show s.parse c dl allow (.ok frame) lookup = _
            simp [parse, hhelper, Json.Dispatch.helper, Machine.batch_cons, Machine.next, dropCopy]
          · simp [hleft] at hevent
          · simp [hfatal] at hevent

variable (c dl) in
/-- An input that a session does not answer leaves it as it is, and may end the process. -/
theorem receive_of_none {i : FeedInput} (h : i.input? allow = none) (s : DropCopy D) :
    s.receive c dl allow i = (s, []) ∨ s.receive c dl allow i = (s, [.unexpected]) ∨
      s.receive c dl allow i = (s, [.unhandled]) := by
  cases i with
  | ready => cases h
  | disconnected => cases h
  | timer now refreshed => cases h
  | text text lookup =>
      cases text with
      | error what => exact Or.inr (Or.inr rfl)
      | ok frame =>
          have hevent : Json.Parser.event? frame allow = none := Option.map_eq_none_iff.mp h
          have hreceive : s.receive c dl allow (.text (.ok frame) lookup) =
              s.parse c dl allow (.ok frame) lookup := rfl
          rw [hreceive]
          unfold Json.Parser.event? at hevent
          rcases Json.Parser.dispatch_cases frame allow with ⟨event, hhelper⟩ | hleft | hfatal
          · simp [hhelper, Json.Dispatch.helper] at hevent
          · exact Or.inl (by simp [parse, hleft])
          · exact Or.inr (Or.inl (by simp [parse, hfatal]))

/-! ## Reports -/

/-- What a session reports. -/
inductive Report where
  /-- An order or a trade. -/
  | event (value : OmsEvent)
  | position (value : PositionUpdate)
  deriving DecidableEq, Repr

/-- The report that is dispatched, if one is. -/
def Effect.report? : Effect → Option Report
  | .dispatch value => some (.event value)
  | .position value => some (.position value)
  | _ => none

/-- The report that comes of an input, if one does. -/
def FeedEffect.report? : FeedEffect → Option Report
  | .effect e => e.report?
  | .unexpected => none
  | .unhandled => none

/-- The trade of a report, if it is one. -/
def Report.trade? : Report → Option TradeUpdate
  | .event (.tradeUpdate value) => some value
  | _ => none

/-- A row that is reported. -/
inductive Row where
  /-- A row of the first order snapshot of a connection. -/
  | order (item : Json.OrderDataItem)
  /-- A row of the executions, with the dispatcher's matches. -/
  | execution (item : Json.ExecutionDataItem) (lookup : Oms.OrderUpdate → Option OrderRef)
  /-- A row of the positions. -/
  | position (item : Json.PositionDataItem)

/-- The reports of a row. -/
def Row.reports (session : Session) : Row → List Report
  | .order item => [.event (snapshotOf session item)]
  | .execution item lookup => (executionItem session lookup item).map .event
  | .position item => [.position (positionUpdate session item)]

/-- The trade of a row, if it is about one: it is of the order that was found for the row. -/
def Row.trade? (session : Session) : Row → Option TradeUpdate
  | .execution item lookup =>
      if item.execType = .trade then
        some (executionTrade session item (lookup (executionUpdate session item)))
      else none
  | _ => none

/-- The rows that are reported of an input. Of the orders these are the rows of the first snapshot
of a connection, whichever table the others are of. -/
def rowsOf (taken : Bool) : Option Input → List Row
  | some (.event (.order message) _) =>
      if taken = false ∧ message.action = .partial_ then message.data.map .order else []
  | some (.event (.execution message) lookup) =>
      message.data.map fun item => .execution item lookup
  | some (.event (.position message) _) => message.data.map .position
  | _ => []

/-- Whether the first order snapshot of a connection has been taken. -/
def takenAfter (taken : Bool) : Option Input → Bool
  | some .disconnected => false
  | some (.event (.order message) _) => taken || message.action = .partial_
  | _ => taken

/-- The rows that are reported of some inputs. -/
def rows (allow : Bool) : Bool → List FeedInput → List Row
  | _, [] => []
  | taken, i :: is =>
      rowsOf taken (i.input? allow) ++ rows allow (takenAfter taken (i.input? allow)) is

/-! ### Steps -/

/-- What comes of an input reports some rows: nothing ends the process before the reports. -/
structure Tells (session : Session) (halts : Effect → Bool) (reported : List Row)
    (effects : List Effect) : Prop where
  split : ∃ reports others, effects = reports ++ others ∧ (∀ e ∈ reports, halts e = false) ∧
    (∀ e ∈ others, e.report? = none) ∧
    reports.filterMap Effect.report? = reported.flatMap (Row.reports session)

/-- Effects that report nothing report no rows. -/
theorem tells_nil {effects : List Effect} (h : ∀ e ∈ effects, e.report? = none) :
    Tells c.session c.halts [] effects :=
  ⟨[], effects, rfl, by simp, h, rfl⟩

/-- The reports of an input come before those of nothing. -/
theorem Tells.append {reported : List Row} {effects others : List Effect}
    (h : Tells c.session c.halts reported effects) (hothers : ∀ e ∈ others, e.report? = none) :
    Tells c.session c.halts reported (effects ++ others) := by
  obtain ⟨xs, ys, rfl, hxs, hys, hreports⟩ := h
  exact ⟨xs, ys ++ others, List.append_assoc xs ys others, hxs,
    List.forall_mem_append.mpr ⟨hys, hothers⟩, hreports⟩

/-- The effect that hands over a report. -/
def Report.effect : Report → Effect
  | .event value => .dispatch value
  | .position value => .position value

/-- The effect that hands over a report reports it. -/
theorem report_effect (r : Report) : r.effect.report? = some r := by cases r <;> rfl

/-- Handing over a report does not end the process. -/
theorem halts_effect (r : Report) : c.halts r.effect = false := by cases r <;> rfl

/-- The reports of rows, handed over one by one. -/
theorem tells_reports (reported : List Row) :
    Tells c.session c.halts reported
      ((reported.flatMap (Row.reports c.session)).map Report.effect) := by
  refine ⟨_, [], (List.append_nil _).symm, ?_, by simp, ?_⟩
  · rw [List.forall_mem_map]
    exact fun r _ => halts_effect r
  · have hall : Effect.report? ∘ Report.effect = some := funext report_effect
    rw [List.filterMap_map, hall, List.filterMap_some]

/-- A failed assertion reports nothing. -/
theorem report_assertEffect (condition : Bool) (site : Site) :
    ∀ e ∈ assertEffect condition site, e.report? = none := by
  unfold assertEffect
  split
  · simp
  · exact List.forall_mem_singleton.mpr rfl

/-- Entering states reports nothing, and leaves the snapshot as it is. -/
theorem enterAll_unreported (s : DropCopy D) (states : List State) :
    (s.enterAll c states).1.partialReceived = s.partialReceived ∧
      ∀ e ∈ (s.enterAll c states).2, e.report? = none := by
  induction states generalizing s with
  | nil => exact ⟨rfl, by simp [enterAll]⟩
  | cons state rest ih =>
      have henter : (s.enter c state).1.partialReceived = s.partialReceived ∧
          ∀ e ∈ (s.enter c state).2, e.report? = none := by
        cases state with
        | undefined => exact ⟨rfl, List.forall_mem_singleton.mpr rfl⟩
        | subscribe => exact ⟨rfl, by simp [enter, setStatus, Effect.report?]⟩
        | done =>
            refine ⟨rfl, List.forall_mem_append.mpr ⟨?_, report_assertEffect _ _⟩⟩
            exact List.forall_mem_singleton.mpr rfl
      obtain ⟨htaken, hnone⟩ := ih (s.enter c state).1
      exact ⟨htaken.trans henter.1, List.forall_mem_append.mpr ⟨henter.2, hnone⟩⟩

/-- An order message reports the rows of the first snapshot of a connection. -/
theorem tells_order (s : DropCopy D) (message : Json.Order)
    (lookup : Oms.OrderUpdate → Option OrderRef) :
    Tells c.session c.halts (rowsOf s.partialReceived (some (.event (.order message) lookup)))
        (s.order c dl message).2 ∧
      (s.order c dl message).1.partialReceived =
        takenAfter s.partialReceived (some (.event (.order message) lookup)) := by
  rw [order_eq, rowsOf, takenAfter]
  by_cases hfirst : s.partialReceived = false ∧ message.action = .partial_
  -- the rows of the snapshot come before what the download does
  · rw [if_pos hfirst, if_pos hfirst]
    obtain ⟨htaken, hnone⟩ := enterAll_unreported (c := c)
      { s with
        partialReceived := true
        download := (dl.checkRelaxed State.count s.download .subscribe).1 }
      (dl.checkRelaxed State.count s.download .subscribe).2
    have hitems : (message.data.map fun item => Effect.dispatch (snapshotOf c.session item)) =
        ((message.data.map Row.order).flatMap (Row.reports c.session)).map Report.effect := by
      rw [List.flatMap_map, List.map_flatMap]
      exact List.map_eq_flatMap
    refine ⟨?_, ?_⟩
    · rw [hitems]
      exact (tells_reports _).append hnone
    · have hnow : (s.partialReceived || decide (message.action = .partial_)) = true := by
        rw [hfirst.2]
        exact Bool.or_true _
      exact htaken.trans hnow.symm
  -- other order messages are left to the executions
  · rw [if_neg hfirst, if_neg hfirst]
    refine ⟨tells_nil (by simp), ?_⟩
    cases htaken : s.partialReceived with
    | true => rfl
    | false =>
        have haction : message.action ≠ .partial_ := fun h => hfirst ⟨htaken, h⟩
        simp [haction]

variable (c dl) in
/-- **Every input is reported row by row**, and the session knows whether the snapshot has been
taken. -/
theorem tells_step (s : DropCopy D) (j : Input) :
    Tells c.session c.halts (rowsOf s.partialReceived (some j)) (s.step c dl j).2 ∧
      (s.step c dl j).1.partialReceived = takenAfter s.partialReceived (some j) := by
  cases j with
  | ready => exact ⟨tells_nil (List.forall_mem_singleton.mpr rfl), rfl⟩
  | disconnected => exact ⟨tells_nil (List.forall_mem_singleton.mpr rfl), rfl⟩
  | timer now refreshed =>
      show Tells _ _ _ (s.timer c now refreshed).2 ∧
        (s.timer c now refreshed).1.partialReceived = _
      unfold timer
      split
      · exact ⟨tells_nil (by simp), rfl⟩
      · split
        · exact ⟨tells_nil (List.forall_mem_singleton.mpr rfl), rfl⟩
        · exact ⟨tells_nil (by simp), rfl⟩
  | event event lookup =>
      cases event with
      -- a greeting asks for snapshots, and what it disarms is no report
      | welcome value =>
          obtain ⟨htaken, hnone⟩ := enterAll_unreported (c := c)
            { s with download := (dl.begin State.count s.download).1 }
            (dl.begin State.count s.download).2
          refine ⟨tells_nil (List.forall_mem_append.mpr ⟨hnone, ?_⟩), htaken⟩
          split
          · exact List.forall_mem_singleton.mpr rfl
          · simp
      | order message => exact tells_order s message lookup
      | execution message =>
          have hrows : (execution c.session lookup message).map Effect.dispatch =
              ((message.data.map fun item => Row.execution item lookup).flatMap
                (Row.reports c.session)).map Report.effect := by
            rw [execution, List.flatMap_map, List.map_flatMap, List.map_flatMap]
            refine List.flatMap_congr fun item _ => ?_
            rw [Row.reports, List.map_map]
            rfl
          refine ⟨?_, rfl⟩
          show Tells _ _ _ ((execution c.session lookup message).map Effect.dispatch)
          rw [hrows]
          exact tells_reports _
      | position message =>
          have hrows : (position c.session message).map Effect.position =
              ((message.data.map Row.position).flatMap
                (Row.reports c.session)).map Report.effect := by
            rw [position, List.flatMap_map, List.map_flatMap, List.map_map]
            exact List.map_eq_flatMap
          refine ⟨?_, rfl⟩
          show Tells _ _ _ ((position c.session message).map Effect.position)
          rw [hrows]
          exact tells_reports _
      | unsubscribe message =>
          refine ⟨tells_nil ?_, rfl⟩
          show ∀ e ∈ unsubscribe message, e.report? = none
          unfold unsubscribe
          split
          · exact report_assertEffect _ _
          · split
            · simp
            · exact List.forall_mem_singleton.mpr rfl
      | error message => exact ⟨tells_nil (List.forall_mem_singleton.mpr rfl), rfl⟩
      | subscribe message => exact ⟨tells_nil (by simp [step, handle]), rfl⟩
      | cancelAllAfter message => exact ⟨tells_nil (by simp [step, handle]), rfl⟩
      | margin => exact ⟨tells_nil (by simp [step, handle]), rfl⟩
      | _ => exact ⟨tells_nil (List.forall_mem_singleton.mpr rfl), rfl⟩

/-! ### Runs -/

/-- Of what comes of a handler, the reports are seen. -/
theorem Tells.visible {reported : List Row} {effects : List Effect}
    (h : Tells c.session c.halts reported effects) :
    ((dropCopy c dl).visible effects).filterMap Effect.report? =
      reported.flatMap (Row.reports c.session) := by
  obtain ⟨xs, ys, rfl, hxs, hys, hreports⟩ := h
  -- nothing halts before the reports have been seen, and what comes after is none
  have hseen : xs.any (dropCopy c dl).halts = false := by
    rw [List.any_eq_false]
    intro e he
    exact Bool.eq_false_iff.mp (hxs e he)
  have hrest : ((dropCopy c dl).visible ys).filterMap Effect.report? = [] :=
    List.filterMap_eq_nil_iff.mpr fun e he => hys e (Machine.mem_of_mem_visible he)
  rw [Machine.visible_append, Machine.visible_of_any_eq_false hseen, hseen, List.filterMap_append]
  show xs.filterMap Effect.report? ++ ((dropCopy c dl).visible ys).filterMap _ = _
  rw [hrest, List.append_nil, hreports]

/-- What a handler does is seen on the socket as it is. -/
theorem visible_effect (effects : List Effect) :
    (privateFeed c dl allow).visible (effects.map .effect) =
      ((dropCopy c dl).visible effects).map .effect := by
  induction effects with
  | nil => rfl
  | cons e effects ih =>
      rw [List.map_cons, Machine.visible, Machine.visible, ih]
      show (if (dropCopy c dl).halts e then _ else _) = _
      split <;> rfl

variable (c dl allow) in
/-- What is seen of an input. -/
theorem reports_out (s : DropCopy D) (i : FeedInput) :
    ((privateFeed c dl allow).out s i).filterMap FeedEffect.report? =
        (rowsOf s.partialReceived (i.input? allow)).flatMap (Row.reports c.session) ∧
      ((privateFeed c dl allow).next s i).partialReceived =
        takenAfter s.partialReceived (i.input? allow) := by
  unfold Machine.out Machine.next
  show ((privateFeed c dl allow).visible (s.receive c dl allow i).2).filterMap _ = _ ∧
    (s.receive c dl allow i).1.partialReceived = _
  cases hinput : i.input? allow with
  | some j =>
      rw [receive_of_some hinput]
      obtain ⟨htells, htaken⟩ := tells_step c dl s j
      refine ⟨?_, htaken⟩
      rw [visible_effect, List.filterMap_map]
      exact htells.visible
  | none =>
      rcases receive_of_none c dl hinput s with h | h | h
      all_goals
        rw [h]
        exact ⟨rfl, rfl⟩

/-- The rows that are reported of what a session answers. -/
def rowsAnswered : Bool → List (Option Input) → List Row
  | _, [] => []
  | taken, j :: js => rowsOf taken j ++ rowsAnswered (takenAfter taken j) js

/-- The rows of texts are those of the messages they are taken for. -/
theorem rows_eq (taken : Bool) (is : List FeedInput) :
    rows allow taken is = rowsAnswered taken (is.map (FeedInput.input? allow)) := by
  induction is generalizing taken with
  | nil => rfl
  | cons i is ih => rw [rows, ih, List.map_cons, rowsAnswered]

/-- What reports the rows of every input reports those of a run. -/
theorem reports_of_step {ι ο : Type*} {m : Machine (DropCopy D) ι ο} {report : ο → Option Report}
    {input : ι → Option Input} {session : Session}
    (h : ∀ s i, (m.out s i).filterMap report =
        (rowsOf s.partialReceived (input i)).flatMap (Row.reports session) ∧
      (m.next s i).partialReceived = takenAfter s.partialReceived (input i))
    (s : DropCopy D) (is : List ι) :
    (m.outputs s is).filterMap report =
      (rowsAnswered s.partialReceived ((m.reached s is).map input)).flatMap
        (Row.reports session) := by
  induction is generalizing s with
  | nil => rfl
  | cons i is ih =>
      obtain ⟨hout, hnext⟩ := h s i
      rw [Machine.outputs, Machine.reached_cons, List.map_cons, List.filterMap_append, hout,
        rowsAnswered, List.flatMap_append]
      cases m.stops s i with
      | true => simp [rowsAnswered]
      | false =>
          have hrest := ih (m.next s i)
          rw [hnext] at hrest
          exact congrArg _ hrest

variable (c dl allow) in
/-- In every run what is reported are the rows of the texts that are reached, one after another. -/
theorem reports_outputs (s : DropCopy D) (is : List FeedInput) :
    ((privateFeed c dl allow).outputs s is).filterMap FeedEffect.report? =
      (rows allow s.partialReceived ((privateFeed c dl allow).reached s is)).flatMap
        (Row.reports c.session) := by
  rw [rows_eq]
  exact reports_of_step (reports_out c dl allow) s is

/-- The trade of a row is among its reports. -/
theorem trades_reports (session : Session) (row : Row) :
    (row.reports session).filterMap Report.trade? = (row.trade? session).toList := by
  cases row with
  | order item => rfl
  | position item => rfl
  | execution item lookup =>
      rw [Row.reports, Row.trade?, executionItem]
      -- the report comes first, and the trade is of the order that was found for it
      by_cases htrade : item.execType = .trade
      · rw [if_neg (not_not.mpr htrade), if_pos htrade]
        rfl
      · rw [if_pos htrade, if_neg htrade]
        rfl

/-- **A drop copy reports row by row.** In every run of any texts, the reports are, in order, those
of the rows of the executions and the positions that reach a handler and of the first order snapshot
of each connection, and of nothing else; and the trades are those of the rows about a trade, each
once and of the order that was found for the report of its row. -/
theorem reports_of_run (c : Settings) (dl : Stages State D) (allow : Bool) (is : List FeedInput) :
    let reports := ((privateFeed c dl allow).outputs (init dl) is).filterMap FeedEffect.report?
    let reported := rows allow false ((privateFeed c dl allow).reached (init dl) is)
    reports = reported.flatMap (Row.reports c.session) ∧
      reports.filterMap Report.trade? = reported.filterMap (Row.trade? c.session) := by
  have hreports := reports_outputs c dl allow (init dl) is
  refine ⟨hreports, ?_⟩
  rw [hreports, List.filterMap_flatMap, List.filterMap_eq_flatMap_toList]
  exact List.flatMap_congr fun row _ => trades_reports c.session row

/-! ## Ends of the process -/

/-- An effect that neither ends the process nor fails an assertion. -/
def FeedEffect.Survives : FeedEffect → Prop
  | .unexpected => False
  | .unhandled => False
  | .effect (.fatal _) => False
  | .effect (.assertion _) => False
  | _ => True

/-- The tables of a private session. -/
def IsPrivate : Json.Table → Prop
  | .order | .execution | .margin | .position => True
  | _ => False

/-- A message that a private session knows: it has a member that marks a greeting, an
acknowledgement or a refusal, or is about a private table, or about one that is not known where
these are allowed. -/
def Known (allow : Bool) (frame : Json.Frame) : Prop :=
  frame.info.getD "" ≠ "" ∨ frame.subscribe.getD "" ≠ "" ∨ frame.error.getD "" ≠ "" ∨
    frame.now.getD 0 ≠ 0 ∨
    ∃ table, frame.table = some table ∧
      (IsPrivate table ∨ table = .unknownInternal ∧ allow = true)

/-- Every text parses, to a message that a private session knows. -/
def KnownTexts (allow : Bool) (_ : DropCopy D) (_ : Bool) : FeedInput → Prop
  | .text text _ => ∃ frame, text = .ok frame ∧ Known allow frame
  | _ => True

/-- Whether the exchange has greeted a connection, along a run. -/
def greeted : Monitor (DropCopy D) FeedInput FeedEffect Bool where
  input _ a
    | .disconnected => false
    | .text (.ok frame) _ => a || frame.info.getD "" ≠ ""
    | _ => a
  output a _ := a

/-- The exchange greets a connection once. -/
def GreetsTextOnce (_ : DropCopy D) (a : Bool) : FeedInput → Prop
  | .text (.ok frame) _ => frame.info.getD "" ≠ "" → a = false
  | _ => True

instance (s : DropCopy D) (a : Bool) : ∀ i, Decidable (GreetsTextOnce s a i)
  | .text (.ok _) _ => inferInstanceAs (Decidable (_ → _))
  | .text (.error _) _ | .ready | .disconnected | .timer _ _ => isTrue trivial

/-- The events that a private session expects. -/
def Expected : Json.Event → Prop
  | .welcome _ | .subscribe _ | .cancelAllAfter _ | .order _ | .execution _ | .margin
  | .position _ => True
  | _ => False

/-- A message that is known is given to a handler that expects it, or left aside. -/
theorem dispatch_of_known {frame : Json.Frame} (h : Known allow frame) :
    (∃ event, Json.Parser.dispatch frame allow = .helper event ∧ Expected event ∧
        ((∃ value, event = .welcome value) → frame.info.getD "" ≠ "")) ∨
      Json.Parser.dispatch frame allow = ⟨[], some false⟩ := by
  unfold Json.Parser.dispatch Json.Message.ofFrame
  dsimp only
  -- the members are looked at in the order in which the parser does
  by_cases hinfo : frame.info.getD "" = ""
  · rw [if_neg (not_not.mpr hinfo)]
    by_cases hack : frame.subscribe.getD "" = "" ∧ frame.error.getD "" = ""
    · rw [if_neg (not_not.mpr hack)]
      by_cases hnow : frame.now.getD 0 = 0
      · rw [if_neg (not_not.mpr hnow)]
        -- nothing but the table is left
        obtain h | h | h | h | ⟨table, htable, hprivate | ⟨rfl, hallow⟩⟩ := h
        · exact absurd hinfo h
        · exact absurd hack.1 h
        · exact absurd hack.2 h
        · exact absurd hnow h
        · rw [htable]
          cases table with
          | order => exact Or.inl ⟨_, rfl, trivial, by simp⟩
          | execution => exact Or.inl ⟨_, rfl, trivial, by simp⟩
          | margin => exact Or.inl ⟨_, rfl, trivial, by simp⟩
          | position => exact Or.inl ⟨_, rfl, trivial, by simp⟩
          | _ => exact hprivate.elim
        · rw [htable, hallow]
          exact Or.inr rfl
      · rw [if_pos hnow]
        exact Or.inl ⟨_, rfl, trivial, by simp⟩
    · rw [if_pos hack]
      exact Or.inl ⟨_, rfl, trivial, by simp⟩
  · rw [if_pos hinfo]
    exact Or.inl ⟨_, rfl, trivial, fun _ => hinfo⟩

/-- The events of the public tables. -/
def IsPublicEvent : Json.Event → Prop
  | .instrument _ | .quote _ | .orderBookL2 _ | .trade _ | .funding _ | .liquidation
  | .settlement => True
  | _ => False

/-- Every other message is given to a handler of a public table, or is not expected. -/
theorem dispatch_of_not_known {frame : Json.Frame} (h : ¬ Known allow frame) :
    (∃ event, Json.Parser.dispatch frame allow = .helper event ∧ IsPublicEvent event) ∨
      Json.Parser.dispatch frame allow = ⟨[], none⟩ := by
  unfold Known at h
  simp only [not_or, not_exists, not_and, not_not] at h
  obtain ⟨hinfo, hsubscribe, herror, hnow, htable⟩ := h
  unfold Json.Parser.dispatch Json.Message.ofFrame
  dsimp only
  rw [if_neg (not_not.mpr hinfo), if_neg (not_not.mpr ⟨hsubscribe, herror⟩),
    if_neg (not_not.mpr hnow)]
  cases hmember : frame.table with
  | none => exact Or.inr rfl
  | some table =>
      obtain ⟨hprivate, hunknown⟩ := htable table hmember
      cases table with
      | undefinedInternal => exact Or.inr rfl
      | unknownInternal =>
          rw [Bool.eq_false_iff.mpr (hunknown rfl)]
          exact Or.inr rfl
      | order => exact absurd trivial hprivate
      | execution => exact absurd trivial hprivate
      | margin => exact absurd trivial hprivate
      | position => exact absurd trivial hprivate
      | _ => exact Or.inl ⟨_, rfl, trivial⟩

/-- What a session relies on: the download is where the script is, and has not begun before the
exchange greets. -/
def Stands (stage : D → State × ℕ) (s : DropCopy D) (a : Bool) : Prop :=
  ∃ p, InPhase stage s p ∧ (a = false → p.state = .undefined)

/-- An input that a private session expects. -/
def ExpectedInput (p : Phase) : Input → Prop
  | .event event _ => Expected event ∧ ((∃ value, event = .welcome value) → p.state = .undefined)
  | _ => True

/-- An effect of a handler that neither ends the process nor fails an assertion. -/
abbrev Effect.Survives (e : Effect) : Prop := (FeedEffect.effect e).Survives

/-- A snapshot that is waited for makes the session ready, and no assertion fails. -/
theorem survives_checkRelaxed (hdl : Follows dl stage) {s : DropCopy D} {p : Phase}
    (h : InPhase stage s p) (hspent : p.spent = false) :
    ∀ e ∈ (checkRelaxed c dl { s with partialReceived := true } .subscribe).2, e.Survives := by
  cases p with
  | idle spent =>
      have hother : (stage s.download).1 ≠ .subscribe := by
        rw [h.state]
        exact fun heq => by cases heq
      obtain ⟨d, -, hcall⟩ := checkRelaxed_other (c := c)
        (s := { s with partialReceived := true }) hdl hother
      rw [hcall]
      simp
  | subscribe spent =>
      obtain ⟨d, -, hcall⟩ := checkRelaxed_subscribe (c := c)
        (s := { s with partialReceived := true }) hdl (h.count rfl)
      have hready : s.ready = false := h.ready
      rw [hcall, hready]
      exact List.forall_mem_singleton.mpr trivial
  | done => cases hspent

/-- **What is expected is survived.** -/
theorem survives_step (hdl : Follows dl stage) {s : DropCopy D} {p : Phase}
    (h : InPhase stage s p) {j : Input} (hj : ExpectedInput p j) :
    ∀ e ∈ (s.step c dl j).2, e.Survives := by
  cases j with
  | ready => exact List.forall_mem_singleton.mpr trivial
  | disconnected => exact List.forall_mem_singleton.mpr trivial
  | timer now refreshed =>
      show ∀ e ∈ (s.timer c now refreshed).2, e.Survives
      unfold timer
      split
      · simp
      · split
        · exact List.forall_mem_singleton.mpr trivial
        · simp
  | event event lookup =>
      obtain ⟨hexpected, hwelcome⟩ := hj
      cases event with
      | welcome value =>
          obtain ⟨d, -, hbegin⟩ := begin_eq (c := c) hdl (h.state.trans (hwelcome ⟨value, rfl⟩))
          show ∀ e ∈ (s.begin c dl).2 ++ _, e.Survives
          rw [hbegin]
          refine List.forall_mem_append.mpr ⟨?_, ?_⟩
          · exact List.forall_mem_cons.mpr ⟨trivial, List.forall_mem_singleton.mpr trivial⟩
          · split
            · exact List.forall_mem_singleton.mpr trivial
            · simp
      | order message =>
          show ∀ e ∈ (s.order c dl message).2, e.Survives
          rw [order_eq]
          split
          · rename_i hfirst
            refine List.forall_mem_append.mpr ⟨?_, ?_⟩
            · exact List.forall_mem_map.mpr fun _ _ => trivial
            · exact survives_checkRelaxed hdl h (h.spent.symm.trans hfirst.1)
          · simp
      | execution message => exact List.forall_mem_map.mpr fun _ _ => trivial
      | position message => exact List.forall_mem_map.mpr fun _ _ => trivial
      | subscribe message => simp [step, handle]
      | cancelAllAfter message => simp [step, handle]
      | margin => simp [step, handle]
      | _ => exact hexpected.elim

/-- Only a greeting begins the download. -/
theorem state_script {s : DropCopy D} {p : Phase} {j : Input} (hp : p.state = .undefined)
    (hj : ∀ value lookup, j ≠ .event (.welcome value) lookup) :
    (script s p j).1.state = .undefined := by
  cases p with
  | subscribe spent => cases hp
  | done => cases hp
  | idle spent =>
      cases j with
      | event event lookup =>
          cases event with
          | welcome value => exact absurd rfl (hj value lookup)
          | order message =>
              rw [script]
              split
              · rfl
              · rfl
          | _ => rfl
      | _ => rfl

/-- A handler keeps the session where the script is. -/
theorem inPhase_step (hdl : Follows dl stage) {s : DropCopy D} {p : Phase}
    (h : InPhase stage s p) {j : Input} (hj : ExpectedInput p j) :
    InPhase stage (s.step c dl j).1 (script s p j).1 := by
  have hgreets : GreetsOnce s (⟨p, []⟩ : Script Phase Control) j := by
    cases j with
    | event event lookup =>
        cases event with
        | welcome value => exact hj.2 ⟨value, rfl⟩
        | _ => trivial
    | _ => trivial
  exact (scripted_step (c := c) (a := ⟨p, []⟩) hdl h hgreets).2

/-- A text that is known is survived, and the session stands as before. -/
theorem keeps_known (hdl : Follows dl stage) {s : DropCopy D} {a : Bool}
    (h : Stands stage s a) {i : FeedInput} (hgreets : GreetsTextOnce s a i)
    (hknown : KnownTexts allow s a i) :
    greeted.Keeps (fun _ o => o.Survives) (Stands stage) (greeted.input s a i)
      (s.receive c dl allow i) := by
  obtain ⟨p, hphase, hidle⟩ := h
  -- what a handler answers
  have hanswer : ∀ j, i.input? allow = some j → ExpectedInput p j →
      (greeted.input s a i = false → (script s p j).1.state = .undefined) →
      greeted.Keeps (fun _ o => o.Survives) (Stands stage) (greeted.input s a i)
        (s.receive c dl allow i) := by
    intro j hinput hexpected hstate
    rw [receive_of_some hinput]
    refine Monitor.Keeps.of_passes ⟨_, inPhase_step (c := c) hdl hphase hexpected, hstate⟩ ?_
    exact List.forall_mem_map.mpr fun e he => ⟨survives_step hdl hphase hexpected e he, rfl⟩
  cases i with
  | ready => exact hanswer .ready rfl trivial fun ha => hidle ha
  | disconnected => exact hanswer .disconnected rfl trivial fun _ => rfl
  | timer now refreshed => exact hanswer (.timer now refreshed) rfl trivial fun ha => hidle ha
  | text text lookup =>
      obtain ⟨frame, rfl, hframe⟩ := hknown
      rcases dispatch_of_known hframe with ⟨event, hhelper, hexpected, hwelcome⟩ | hleft
      -- a greeting is the first one of its connection, so the download has not begun
      · have hinput :
            (FeedInput.text (.ok frame) lookup).input? allow = some (.event event lookup) := by
          simp [FeedInput.input?, Json.Text.event?, Json.Parser.event?, hhelper,
            Json.Dispatch.helper]
        refine hanswer _ hinput ⟨hexpected, fun hevent => ?_⟩ fun ha => ?_
        · exact hidle (hgreets (hwelcome hevent))
        · obtain ⟨hbefore, hinfo⟩ : a = false ∧ frame.info.getD "" = "" := by
            simpa [greeted] using ha
          refine state_script (hidle hbefore) ?_
          rintro value lookup' hevent
          cases hevent
          exact hwelcome ⟨value, rfl⟩ hinfo
      -- a text that is left aside has no greeting either, or it would have been one
      · have hreceive : s.receive c dl allow (.text (.ok frame) lookup) = (s, []) := by
          show s.parse c dl allow (.ok frame) lookup = _
          simp [parse, hleft]
        rw [hreceive]
        refine Monitor.Keeps.of_passes ⟨p, hphase, fun ha => hidle ?_⟩ (by simp)
        have hboth : a = false ∧ frame.info.getD "" = "" := by simpa [greeted] using ha
        exact hboth.1

variable (c dl) in
/-- A text that does not parse, or to a message that is not known, ends the process. -/
theorem ends_of_not_known (s : DropCopy D) {text : Json.Text}
    (lookup : Oms.OrderUpdate → Option OrderRef)
    (h : ¬ ∃ frame, text = .ok frame ∧ Known allow frame) :
    ∃ e, (s.receive c dl allow (.text text lookup)).2 = [e] ∧ ¬ e.Survives := by
  cases text with
  | error what => exact ⟨.unhandled, rfl, id⟩
  | ok frame =>
      have hframe : ¬ Known allow frame := fun hknown => h ⟨frame, rfl, hknown⟩
      rcases dispatch_of_not_known hframe with ⟨event, hhelper, hpublic⟩ | hnone
      · have hinput :
            (FeedInput.text (.ok frame) lookup).input? allow = some (.event event lookup) := by
          simp [FeedInput.input?, Json.Text.event?, Json.Parser.event?, hhelper,
            Json.Dispatch.helper]
        rw [receive_of_some hinput]
        refine ⟨.effect (.fatal .unexpectedTable), ?_, id⟩
        cases event with
        | instrument | quote | orderBookL2 | trade | funding | liquidation | settlement => rfl
        | _ => exact hpublic.elim
      · refine ⟨.unexpected, ?_, id⟩
        show (s.parse c dl allow (.ok frame) lookup).2 = _
        simp [parse, hnone]

/-- **Which texts end the process.** In a run of any texts in which the exchange greets once on a
connection, nothing ends the process of a drop copy and no assertion fails, exactly when every text
that is reached parses to a message that a private session knows. -/
theorem privateFeed_survives_iff (hdl : Follows dl stage) (is : List FeedInput)
    (h : (privateFeed c dl allow).Along greeted GreetsTextOnce (init dl) false is) :
    (privateFeed c dl allow).Sat greeted (fun _ _ o => o.Survives) (fun _ _ => True)
        (init dl) false is ↔
      (privateFeed c dl allow).Along greeted (KnownTexts allow) (init dl) false is := by
  have hkeep : ∀ s a i, Stands stage s a → GreetsTextOnce s a i → KnownTexts allow s a i →
      (privateFeed c dl allow).StepSat greeted (fun _ _ o => o.Survives) (fun _ _ => True) s a i ∧
        ((privateFeed c dl allow).stops s i = false →
          Stands stage ((privateFeed c dl allow).next s i)
            ((privateFeed c dl allow).after greeted s a i)) :=
    fun s a i hstands hgreets hknown =>
      Machine.stepSat_of_keeps (fun _ _ _ => trivial) (keeps_known hdl hstands hgreets hknown)
  refine Machine.sat_iff_along (Stands stage) (fun s a i hstands hgreets => ⟨fun hsat => ?_, ?_⟩)
    (fun s a i hstands hgreets hknown => (hkeep s a i hstands hgreets hknown).2) ?_ h
  -- of a text that is not known what ends the process is the first thing to be seen
  · cases i with
    | text text lookup =>
        by_contra hunknown
        obtain ⟨e, heffects, he⟩ := ends_of_not_known c dl s lookup hunknown
        have hout : (privateFeed c dl allow).out s (.text text lookup) = [e] := by
          show (privateFeed c dl allow).visible (s.receive c dl allow (.text text lookup)).2 = [e]
          rw [heffects, Machine.visible, Machine.visible_nil, ite_self]
        have hholds := hsat.1
        rw [hout] at hholds
        exact he hholds.1
    | _ => trivial
  · exact fun hknown => (hkeep s a i hstands hgreets hknown).1
  · refine ⟨.idle false, ⟨hdl.idle, ?_, rfl, rfl⟩, fun _ => rfl⟩
    rintro ⟨⟩

/-- A quote on a private connection, after the greeting and the orders. -/
def strayQuote : List FeedInput :=
  [.ready, .text (.ok { info := some "Welcome to the BitMEX Realtime API." }) fun _ => none,
    .text (.ok { table := some .order, action := some .partial_, data := .order [heldOrder] })
      fun _ => none,
    .text (.ok { table := some .quote, action := some .insert }) fun _ => none]

/-- A stray quote ends the process, and is no text a private session knows. -/
theorem privateFeed_survives_iff_strayQuote :
    (privateFeed keepOrders inOrder false).Sat greeted (fun _ _ o => o.Survives) (fun _ _ => True)
        (init inOrder) false strayQuote ↔
      (privateFeed keepOrders inOrder false).Along greeted (KnownTexts false) (init inOrder) false
        strayQuote :=
  privateFeed_survives_iff (Stages.follows_inOrder _ _ _) strayQuote (by decide +kernel)

end DropCopy

end RoqBitmex
