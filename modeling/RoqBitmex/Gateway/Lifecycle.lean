import RoqBitmex.Gateway.Readiness
import RoqBitmex.Library.Scripts

/-! # The life of a connection

What the two websocket sessions announce about their connections, and what they ask of the exchange,
follows a script of a few phases, whatever else arrives. A connection is greeted, its snapshots are
awaited in turn, and then it is ready; a first snapshot that comes before the greeting is used up,
so that the connection does not become ready. `marketData_runsOnScript` and `dropCopy_runsOnScript`
say that this is all that happens. `MarketData.sensible_iff` is about the topics that the exchange
is asked for. -/

namespace RoqBitmex

universe u

/-- What a session announces about its connection, or asks of the exchange. -/
inductive Control where
  /-- `StreamStatus`. -/
  | status (status : ConnectionStatus) (reason : String)
  | subscribe (topics : List Json.Table)
  | unsubscribe (topic : Json.Table)
  | close
  deriving DecidableEq, Repr

/-! ## Market data -/

/-- What an effect of the market data session announces or asks for. -/
def Effect.control? : Effect → Option Control
  | .dispatch (.streamStatus value) => some (.status value.connectionStatus value.reason)
  | .subscribe topics => some (.subscribe topics)
  | .unsubscribe topic => some (.unsubscribe topic)
  | .close => some .close
  | _ => none

namespace MarketData

variable {D : Type u} {g : Gateway} {dl : Download D} {stage : D → DownloadState × ℕ}

/-- The phases of a connection; in the first two, whether its first snapshot of the instruments has
been used up. -/
inductive Phase where
  | idle (spent : Bool)
  | instrument (spent : Bool)
  | orderBookL2
  | done
  deriving DecidableEq, Repr

namespace Phase

/-- The state the download is in. -/
def state : Phase → DownloadState
  | idle _ => .undefined
  | instrument _ => .instrument
  | orderBookL2 => .orderBookL2
  | done => .done

/-- The first snapshot of the instruments has been received. -/
def spent : Phase → Bool
  | idle spent => spent
  | instrument spent => spent
  | _ => true

/-- The greeting asks for the instruments. -/
def welcome : Phase → Phase × List Control
  | idle spent =>
      (.instrument spent,
        [.status .downloading "accounts", .status .downloading "instrument",
          .subscribe [.instrument]])
  | p => (p, [])

/-- The first snapshot of the instruments asks for everything else, if it is waited for. -/
def partialInstrument : Phase → Phase × List Control
  | idle _ => (idle true, [])
  | instrument false =>
      (orderBookL2,
        [.status .downloading "order-book-l2",
          .subscribe [.quote, .orderBookL2, .trade, .funding, .liquidation, .settlement]])
  | p => (p, [])

/-- A whole snapshot of the books makes the session ready, if it is waited for. -/
def partialOrderBookL2 : Phase → Phase × List Control
  | orderBookL2 => (done, [.status .ready ""])
  | p => (p, [])

end Phase

/-- Asking for the books again, a number of times. -/
def resubscriptions (n : ℕ) : List Control :=
  (List.replicate n [.unsubscribe .orderBookL2, .subscribe [.orderBookL2]]).flatten

/-- How many of some updates the dispatcher refuses. -/
def refusals (updates : List MarketByPriceUpdate) (badState : List Bool) : ℕ :=
  (badState.take updates.length).count true

/-- A book message is handled: it is a snapshot, or one has been received. -/
def Handled (s : MarketData D) (message : Json.OrderBookL2) : Prop :=
  message.action = .partial_ ∨ s.partialReceived.orderBookL2 = true

instance (s : MarketData D) (message : Json.OrderBookL2) : Decidable (s.Handled message) :=
  inferInstanceAs (Decidable (_ ∨ _))

/-- The script of a connection. -/
def script (g : Gateway) (s : MarketData D) (p : Phase) : Input → Phase × List Control
  | .ready => (p, [.status .loginSent ""])
  | .disconnected => (.idle false, [.status .disconnected ""])
  | .event (.welcome _) _ => p.welcome
  | .event (.error _) _ => (p, [.close])
  | .event (.instrument message) _ =>
      if message.action = .partial_ then p.partialInstrument else (p, [])
  | .event (.orderBookL2 message) badState =>
      if s.Handled message then
        let again := resubscriptions (refusals (s.bookResult g message).updates badState)
        match (s.bookResult g message).stop with
        -- the rest of the message is given up, and with it the end of the snapshot
        | some stop => (p, again ++ stop.control?.toList)
        | none =>
            if message.action = .partial_ then
              (p.partialOrderBookL2.1, again ++ p.partialOrderBookL2.2)
            else (p, again)
      else (p, [])
  | _ => (p, [])

/-- The session is in a phase. -/
structure InPhase (stage : D → DownloadState × ℕ) (s : MarketData D) (p : Phase) : Prop where
  state : (stage s.download).1 = p.state
  count : p.state.count = 1 → stage s.download = (p.state, 1)
  spent : s.partialReceived.instrument = p.spent
  ready : s.ready = decide (p = .done)

/-- The exchange greets a connection that it has not greeted. -/
def GreetsOnce (_ : MarketData D) (a : Script Phase Control) : Input → Prop
  | .event (.welcome _) _ => a.phase.state = .undefined
  | _ => True

instance (s : MarketData D) (a : Script Phase Control) : ∀ i, Decidable (GreetsOnce s a i)
  | .event (.welcome _) _ => inferInstanceAs (Decidable (_ = _))
  | .event (.error _) _ | .event (.subscribe _) _ | .event (.unsubscribe _) _
  | .event (.instrument _) _ | .event (.quote _) _ | .event (.orderBookL2 _) _
  | .event (.trade _) _ | .event (.funding _) _ | .event .liquidation _ | .event .settlement _
  | .event (.cancelAllAfter _) _ | .event (.order _) _ | .event (.execution _) _
  | .event .margin _ | .event (.position _) _ | .ready | .disconnected => isTrue trivial

/-! ### Effects that are not on the script -/

/-- What an instrument row publishes is no control of the session. -/
theorem control_of_isEffectOf {symbol : String} {e : Effect} (h : ProductRow.IsEffectOf symbol e) :
    e.control? = none := by
  cases e with
  | dispatch event =>
      cases event with
      | streamStatus value => exact h.elim
      | _ => rfl
  | assertion site => rfl
  | fatal site => rfl
  | _ => exact h.elim

/-- What instrument rows publish is no control of the session. -/
theorem controls_handleRows (s : MarketData D) (rows : List ProductRow) :
    (s.handleRows g rows).2.filterMap Effect.control? = [] := by
  rw [List.filterMap_eq_nil_iff]
  intro e he
  obtain ⟨symbol, h⟩ := isEffectOf_handleRows s rows e he
  exact control_of_isEffectOf h

/-- A failed assertion is no control of the session. -/
theorem controls_assertEffect (condition : Bool) (site : Site) :
    (assertEffect condition site).filterMap Effect.control? = [] := by
  rw [List.filterMap_eq_nil_iff]
  intro e he
  obtain ⟨-, rfl⟩ := eq_of_mem_assertEffect he
  rfl

/-- Handing over updates asks again for each that is refused. -/
theorem controls_dispatchEffects (us : List MarketByPriceUpdate) (badState : List Bool) :
    (dispatchEffects us badState).filterMap Effect.control? =
      resubscriptions (refusals us badState) := by
  induction us generalizing badState with
  | nil => simp [dispatchEffects, refusals, resubscriptions]
  | cons u us ih =>
      rw [dispatchEffects, List.filterMap_cons, List.filterMap_append, ih]
      cases badState with
      | nil => simp [refusals, Effect.control?, resubscriptions]
      | cons answer badState =>
          cases answer with
          | false => simp [refusals, Effect.control?]
          | true => simp [refusals, Effect.control?, resubscriptions, List.replicate_succ]

/-- The controls among what a book message publishes are its resubscriptions. -/
theorem controls_bookEffects (s : MarketData D) (message : Json.OrderBookL2)
    (badState : List Bool) :
    (s.bookEffects g message badState).filterMap Effect.control? =
      resubscriptions (refusals (s.bookResult g message).updates badState) := by
  rw [bookEffects, List.filterMap_append, controls_assertEffect, controls_dispatchEffects]
  rfl

/-! ### Calls of the download -/

/-- A session whose part in the download is as before is in the same phase. -/
theorem InPhase.of_same {s s' : MarketData D} {p : Phase} (h : InPhase stage s p)
    (hs : SameStage s s') (hspent : s'.partialReceived.instrument = s.partialReceived.instrument) :
    InPhase stage s' p where
  state := by
    rw [hs.download]
    exact h.state
  count := by
    rw [hs.download]
    exact h.count
  spent := hspent.trans h.spent
  ready := hs.ready.trans h.ready

/-- A download that goes nowhere. -/
theorem InPhase.of_stage {s : MarketData D} {p : Phase} (h : InPhase stage s p) {d : D}
    (hd : stage d = stage s.download) : InPhase stage { s with download := d } p where
  state := by
    rw [hd]
    exact h.state
  count := by
    rw [hd]
    exact h.count
  spent := h.spent
  ready := h.ready

/-- What an input comes to is on script, and leads to its phase. -/
def Scripted (stage : D → DownloadState × ℕ) (r : MarketData D × List Effect)
    (q : Phase × List Control) : Prop :=
  r.2.filterMap Effect.control? = q.2 ∧ InPhase stage r.1 q.1

/-- The greeting begins the download. -/
theorem begin_onScript (hdl : dl.Follows stage) {s : MarketData D} {p : Phase}
    (h : InPhase stage s p) (hidle : p.state = .undefined) :
    Scripted stage (s.begin g dl) p.welcome := by
  cases p with
  | idle spent =>
      obtain ⟨d, hd, hbegin⟩ := begin_eq (g := g) hdl (h.state.trans hidle)
      rw [hbegin]
      exact ⟨rfl, congrArg Prod.fst hd, fun _ => hd, h.spent, h.ready⟩
  | _ => cases hidle

/-- The snapshot of the instruments, once the flag has been set for it. -/
theorem checkRelaxed_instrument_onScript (hdl : dl.Follows stage) {s : MarketData D} {p : Phase}
    (hstate : (stage s.download).1 = p.state)
    (hcount : p.state.count = 1 → stage s.download = (p.state, 1)) (hspent : p.spent = false)
    (hreceived : s.partialReceived.instrument = true) (hready : s.ready = decide (p = .done)) :
    Scripted stage (s.checkRelaxed g dl .instrument) p.partialInstrument := by
  cases p with
  | idle spent =>
      have hother : (stage s.download).1 ≠ .instrument := by
        rw [hstate]
        exact fun h => by cases h
      -- nothing is waited for, so the snapshot is used up
      obtain ⟨d, hd, hcall⟩ := checkRelaxed_other (g := g) hdl hother
      rw [hcall]
      refine ⟨rfl, ?_, ?_, hreceived, hready⟩
      · exact (congrArg Prod.fst hd).trans hstate
      · rintro ⟨⟩
  | instrument spent =>
      obtain rfl : spent = false := hspent
      obtain ⟨d, hd, hcall⟩ := checkRelaxed_instrument (g := g) hdl (hcount rfl)
      rw [hcall]
      exact ⟨rfl, congrArg Prod.fst hd, fun _ => hd, hreceived, hready⟩
  | orderBookL2 => cases hspent
  | done => cases hspent

/-- A whole snapshot of the books. -/
theorem checkRelaxed_orderBookL2_onScript (hdl : dl.Follows stage) {s : MarketData D} {p : Phase}
    (h : InPhase stage s p) :
    Scripted stage (s.checkRelaxed g dl .orderBookL2) p.partialOrderBookL2 := by
  by_cases hbooks : p = .orderBookL2
  · subst hbooks
    obtain ⟨d, hd, hcall⟩ := checkRelaxed_orderBookL2 (g := g) hdl (h.count rfl)
    have hready : s.ready = false := h.ready
    rw [hcall, hready]
    refine ⟨rfl, hd, ?_, h.spent, rfl⟩
    rintro ⟨⟩
  · have hother : p.partialOrderBookL2 = (p, []) := by
      cases p with
      | orderBookL2 => exact absurd rfl hbooks
      | _ => rfl
    have hstage : (stage s.download).1 ≠ .orderBookL2 := by
      rw [h.state]
      cases p with
      | orderBookL2 => exact absurd rfl hbooks
      | _ => simp [Phase.state]
    obtain ⟨d, hd, hcall⟩ := checkRelaxed_other (g := g) hdl hstage
    rw [hcall, hother]
    exact ⟨rfl, h.of_stage hd⟩

/-! ### Messages -/

/-- The rows of an instrument message are not on the script. -/
theorem scripted_handleRows {s : MarketData D} {p : Phase} (h : InPhase stage s p)
    (rows : List ProductRow) : Scripted stage (s.handleRows g rows) (p, []) :=
  ⟨controls_handleRows s rows, h.of_same ⟨rfl, rfl, rfl⟩ rfl⟩

/-- A second snapshot of the instruments is not handled. -/
theorem partialInstrument_of_spent {p : Phase} (h : p.spent = true) :
    p.partialInstrument = (p, []) := by
  cases p with
  | idle spent =>
      obtain rfl : spent = true := h
      rfl
  | instrument spent =>
      obtain rfl : spent = true := h
      rfl
  | _ => rfl

/-- An instrument message does what the script says. -/
theorem scripted_instrument (hdl : dl.Follows stage) {s : MarketData D} {p : Phase}
    (h : InPhase stage s p) (message : Json.Instrument) :
    Scripted stage (s.instrument g dl message)
      (if message.action = .partial_ then p.partialInstrument else (p, [])) := by
  have hnone : ∀ e : Effect, e.control? = none → Scripted stage (s, [e]) (p, []) := by
    intro e he
    exact ⟨by simp [he], h⟩
  unfold instrument
  cases haction : message.action with
  | partial_ =>
      dsimp only
      rw [if_pos rfl]
      cases hreceived : s.partialReceived.instrument with
      -- `log::fatal`, which is not on the script
      | true =>
          rw [partialInstrument_of_spent (h.spent.symm.trans hreceived)]
          exact hnone _ rfl
      | false =>
          -- the rows are handled before the download is told
          let s₁ : MarketData D :=
            { s with partialReceived := { s.partialReceived with instrument := true } }
          let s₂ := (s₁.handleRows g (message.data.map .partial_)).1
          obtain ⟨hcontrols, hphase⟩ := checkRelaxed_instrument_onScript (g := g) (s := s₂) hdl
            h.state h.count (h.spent.symm.trans hreceived) rfl h.ready
          refine ⟨?_, hphase⟩
          show List.filterMap _ ((s₁.handleRows g _).2 ++ (s₂.checkRelaxed g dl _).2) = _
          rw [List.filterMap_append, controls_handleRows, hcontrols]
          rfl
  | update =>
      rw [if_neg (show Json.Action.update ≠ .partial_ by decide)]
      dsimp only
      split
      · exact scripted_handleRows h _
      · exact ⟨rfl, h⟩
  | delete => exact ⟨rfl, h⟩
  | insert => exact hnone _ rfl
  | _ => exact hnone _ rfl

/-- A book message does what the script says. -/
theorem scripted_orderBookL2 (hdl : dl.Follows stage) {s : MarketData D} {p : Phase}
    (h : InPhase stage s p) (message : Json.OrderBookL2) (badState : List Bool) :
    Scripted stage (s.orderBookL2 g dl message badState)
      (script g s p (.event (.orderBookL2 message) badState)) := by
  have hafter : InPhase stage (s.afterBook g message badState) p :=
    h.of_same ⟨rfl, rfl, rfl⟩ rfl
  have hbook := controls_bookEffects (g := g) s message badState
  by_cases hhandled : s.Handled message
  · rw [orderBookL2_eq g dl hhandled, script, if_pos hhandled]
    cases hstop : (s.bookResult g message).stop with
    | some stop =>
        have htail : [stop].filterMap Effect.control? = stop.control?.toList := by
          rw [List.filterMap_cons]
          cases stop.control? <;> rfl
        refine ⟨?_, hafter⟩
        rw [List.filterMap_append, hbook, htail]
    -- a snapshot that is handled to its end is what the download waits for
    | none =>
        dsimp only
        split
        · obtain ⟨hcontrols, hphase⟩ := checkRelaxed_orderBookL2_onScript (g := g) hdl hafter
          refine ⟨?_, hphase⟩
          rw [List.filterMap_append, hbook, hcontrols]
        · exact ⟨hbook, hafter⟩
  · rw [script, if_neg hhandled]
    rw [Handled, not_or, Bool.not_eq_true] at hhandled
    rw [orderBookL2_dropped hhandled.1 hhandled.2]
    exact ⟨controls_assertEffect _ _, h⟩

/-- **Every input is answered as the script has it.** -/
theorem scripted_step (hdl : dl.Follows stage) {s : MarketData D} {a : Script Phase Control}
    (h : InPhase stage s a.phase) {i : Input} (hok : GreetsOnce s a i) :
    Scripted stage (s.step g dl i) (script g s a.phase i) := by
  have hnone : ∀ es : List Effect, (∀ e ∈ es, e.control? = none) →
      Scripted stage (s, es) (a.phase, []) := by
    intro es hes
    exact ⟨List.filterMap_eq_nil_iff.mpr hes, h⟩
  cases i with
  | ready => exact ⟨rfl, h.state, h.count, h.spent, h.ready⟩
  -- a connection that is lost takes with it what has been received
  | disconnected =>
      refine ⟨rfl, hdl.reset s.download, ?_, rfl, rfl⟩
      rintro ⟨⟩
  | event event badState =>
      cases event with
      | welcome value => exact begin_onScript hdl h hok
      | error message => exact ⟨rfl, h⟩
      | instrument message => exact scripted_instrument hdl h message
      | orderBookL2 message => exact scripted_orderBookL2 hdl h message badState
      | quote message =>
          refine hnone _ fun e he => ?_
          obtain ⟨item, -, rfl⟩ := List.mem_map.mp he
          rfl
      | trade message =>
          refine hnone _ fun e he => ?_
          obtain ⟨value, isLast, rfl⟩ := exists_tradeSummary_of_mem_trade message e he
          rfl
      | funding message => exact scripted_handleRows h _
      | _ => exact ⟨rfl, h⟩

/-! ### Runs -/

/-- The session is in the phase of the script, and nothing is due. -/
def AtPhase (stage : D → DownloadState × ℕ) (s : MarketData D) (a : Script Phase Control) : Prop :=
  InPhase stage s a.phase ∧ a.due = []

/-- Every announcement and every request is on the script, and the session says that it is ready in
its last phase. -/
def RunsOnScript (g : Gateway) (dl : Download D) (is : List Input) : Prop :=
  (marketData g dl).Sat ((Script.monitor (script g)).ofMarks Effect.control?)
    (fun _ => Script.OnScript Effect.control?)
    (fun s a => a.due = [] ∧ s.ready = decide (a.phase = .done)) (init dl) ⟨.idle false, []⟩ is

/-- **The market data session runs on its script** in every run in which the exchange greets once on
a connection. -/
theorem marketData_runsOnScript (hdl : dl.Follows stage) (is : List Input)
    (h : (marketData g dl).Along ((Script.monitor (script g)).ofMarks Effect.control?) GreetsOnce
      (init dl) ⟨.idle false, []⟩ is) : RunsOnScript g dl is := by
  refine Machine.sat_of_along (AtPhase stage) (fun s a i hinv hok => ?_)
    ⟨⟨hdl.idle, ?_, rfl, rfl⟩, rfl⟩ h
  · obtain ⟨hcontrols, hphase⟩ := scripted_step (g := g) hdl hinv.1 hok
    refine Machine.stepSat_of_keeps (fun s a (h : AtPhase stage s a) => ⟨h.2, h.1.ready⟩) ?_
    exact Script.keeps_onScript hcontrols ⟨hphase, rfl⟩
  · rintro ⟨⟩

/-- A session that is ready late runs on its script. -/
theorem marketData_runsOnScript_lateReady : RunsOnScript .keepAll .inOrder lateReady :=
  marketData_runsOnScript Download.follows_inOrder lateReady (by decide +kernel)

/-! ### What the exchange is asked for -/

/-- What the exchange knows about a connection. -/
structure Exchange where
  greeted : Bool := false
  topics : List Json.Table := []
  deriving DecidableEq, Repr

/-- What the exchange knows about a connection, along a run. -/
def exchange : Monitor (MarketData D) Input Control Exchange where
  input _ a
    | .disconnected => {}
    | .event (.welcome _) _ => { a with greeted := true }
    | _ => a
  output a
    | .subscribe topics => { a with topics := a.topics ++ topics }
    | .unsubscribe topic => { a with topics := a.topics.erase topic }
    | _ => a

/-- No topic is asked for that has been asked for, and none is given up that has not. -/
def Sensible (a : Exchange) : Control → Prop
  | .subscribe topics => (a.topics ++ topics).Nodup
  | .unsubscribe topic => topic ∈ a.topics
  | _ => True

instance (a : Exchange) : ∀ c, Decidable (Sensible a c)
  | .subscribe _ => inferInstanceAs (Decidable (List.Nodup _))
  | .unsubscribe _ => inferInstanceAs (Decidable (_ ∈ _))
  | .status _ _ | .close => isTrue trivial

/-- The topics of a connection that is ready. -/
def allTopics : List Json.Table :=
  [.instrument, .quote, .orderBookL2, .trade, .funding, .liquidation, .settlement]

/-- The topics that have been asked for. -/
def Phase.topics : Phase → List Json.Table
  | idle _ => []
  | instrument _ => [.instrument]
  | _ => allTopics

/-- The exchange greets a connection once. -/
def GreetedOnce (_ : MarketData D) (a : Exchange) : Input → Prop
  | .event (.welcome _) _ => a.greeted = false
  | _ => True

instance (s : MarketData D) (a : Exchange) : ∀ i, Decidable (GreetedOnce s a i)
  | .event (.welcome _) _ => inferInstanceAs (Decidable (_ = _))
  | .event (.error _) _ | .event (.subscribe _) _ | .event (.unsubscribe _) _
  | .event (.instrument _) _ | .event (.quote _) _ | .event (.orderBookL2 _) _
  | .event (.trade _) _ | .event (.funding _) _ | .event .liquidation _ | .event .settlement _
  | .event (.cancelAllAfter _) _ | .event (.order _) _ | .event (.execution _) _
  | .event .margin _ | .event (.position _) _ | .ready | .disconnected => isTrue trivial

/-- An update of a book message is refused only once the books have been asked for. -/
def Asked (g : Gateway) (s : MarketData D) (a : Exchange) : Input → Prop
  | .event (.orderBookL2 message) badState =>
      s.Handled message → 0 < refusals (s.bookResult g message).updates badState →
        .orderBookL2 ∈ a.topics
  | _ => True

/-- The exchange knows the phase of the session. -/
def Knows (stage : D → DownloadState × ℕ) (s : MarketData D) (a : Exchange) : Prop :=
  ∃ p, InPhase stage s p ∧ (a.greeted = false → p.state = .undefined) ∧ a.topics.Perm p.topics

/-- Giving the books up and asking for them again leaves the topics as they are. -/
theorem perm_resubscribe {topics : List Json.Table} (h : topics.Perm allTopics) :
    List.Perm (topics.erase Json.Table.orderBookL2 ++ [Json.Table.orderBookL2]) allTopics := by
  have herase := (h.erase Json.Table.orderBookL2).append_right [Json.Table.orderBookL2]
  exact herase.trans (by decide)

/-- Resubscriptions are sensible while all topics are subscribed to, which they stay. -/
theorem sensible_resubscriptions (n : ℕ) {a : Exchange} (h : a.topics.Perm allTopics) :
    (exchange (D := D)).Holds Sensible a (resubscriptions n) ∧
      ((exchange (D := D)).outputs a (resubscriptions n)).topics.Perm allTopics ∧
      ((exchange (D := D)).outputs a (resubscriptions n)).greeted = a.greeted := by
  induction n generalizing a with
  | zero => exact ⟨trivial, h, rfl⟩
  | succ n ih =>
      have hagain := perm_resubscribe h
      obtain ⟨hholds, htopics, hgreeted⟩ :=
        @ih { a with topics := a.topics.erase .orderBookL2 ++ [.orderBookL2] } hagain
      refine ⟨⟨?_, ?_, hholds⟩, htopics, hgreeted⟩
      · exact h.mem_iff.mpr (by decide)
      · exact hagain.nodup_iff.mpr (by decide)

/-- What is announced and asked for is sensible, and leaves the exchange with the topics of a
phase. -/
structure Leads (D : Type u) (a : Exchange) (q : Phase × List Control) : Prop where
  holds : (exchange (D := D)).Holds Sensible a q.2
  topics : ((exchange (D := D)).outputs a q.2).topics.Perm q.1.topics
  greeted : ((exchange (D := D)).outputs a q.2).greeted = false → q.1.state = .undefined

/-- The snapshot of the instruments leads to sensible requests. -/
theorem leads_partialInstrument {p : Phase} {a : Exchange} (htopics : a.topics.Perm p.topics)
    (hgreeted : a.greeted = false → p.state = .undefined) : Leads D a p.partialInstrument := by
  cases p with
  | idle spent => exact ⟨trivial, htopics, fun _ => rfl⟩
  | instrument spent =>
      cases spent with
      | true => exact ⟨trivial, htopics, hgreeted⟩
      | false =>
          have heq : a.topics = [.instrument] := List.perm_singleton.mp htopics
          refine ⟨⟨trivial, ?_, trivial⟩, ?_, fun h => by cases hgreeted h⟩
          · show (a.topics ++ _).Nodup
            rw [heq]
            decide
          · show (a.topics ++ _).Perm _
            rw [heq]
            decide
  | orderBookL2 => exact ⟨trivial, htopics, hgreeted⟩
  | done => exact ⟨trivial, htopics, hgreeted⟩

/-- The books are asked for again where they have been asked for, and then the session may become
ready. -/
theorem leads_book {p q : Phase} (cs : List Control) {a : Exchange} {n : ℕ}
    (htopics : a.topics.Perm p.topics) (hgreeted : a.greeted = false → p.state = .undefined)
    (hasked : 0 < n → .orderBookL2 ∈ a.topics) (hq : q.topics = p.topics)
    (hstate : p.state = .undefined → q.state = .undefined)
    (hcs : ∀ c ∈ cs, (∃ status reason, c = .status status reason) ∨ c = .close) :
    Leads D a (q, resubscriptions n ++ cs) := by
  have hpasses : ∀ b : Exchange, ∀ c ∈ cs, (exchange (D := D)).Passes Sensible b c := by
    intro b c hc
    rcases hcs c hc with ⟨status, reason, rfl⟩ | rfl
    · exact ⟨trivial, rfl⟩
    · exact ⟨trivial, rfl⟩
  have hagain : (exchange (D := D)).Holds Sensible a (resubscriptions n) ∧
      ((exchange (D := D)).outputs a (resubscriptions n)).topics.Perm p.topics ∧
      ((exchange (D := D)).outputs a (resubscriptions n)).greeted = a.greeted := by
    cases n with
    | zero => exact ⟨trivial, htopics, rfl⟩
    | succ n =>
        -- only a connection that has asked for everything has asked for the books
        have hall : p.topics = allTopics := by
          have hmem := htopics.mem_iff.mp (hasked n.succ_pos)
          cases p with
          | idle spent => cases hmem
          | instrument spent => simp [Phase.topics] at hmem
          | _ => rfl
        rw [hall] at htopics ⊢
        exact sensible_resubscriptions _ htopics
  obtain ⟨hholds, hperm, hsame⟩ := hagain
  obtain ⟨hrest, hrest'⟩ := Monitor.holds_of_passes
    (hpasses ((exchange (D := D)).outputs a (resubscriptions n)))
  refine ⟨?_, ?_, ?_⟩
  · rw [Monitor.holds_append]
    exact ⟨hholds, hrest⟩
  · rw [Monitor.outputs_append, hrest', hq]
    exact hperm
  · rw [Monitor.outputs_append, hrest', hsame]
    exact fun h => hstate (hgreeted h)

/-- **The script is sensible**, if the books have been asked for where they are asked for again. -/
theorem leads_script {s : MarketData D} {p : Phase} {a : Exchange}
    (htopics : a.topics.Perm p.topics) (hgreeted : a.greeted = false → p.state = .undefined)
    {i : Input} (hok : GreetedOnce s a i) (hasked : Asked g s a i) :
    Leads D ((exchange (D := D)).input s a i) (script g s p i) := by
  cases i with
  | ready => exact ⟨⟨trivial, trivial⟩, htopics, hgreeted⟩
  | disconnected => exact ⟨⟨trivial, trivial⟩, List.Perm.refl _, fun _ => rfl⟩
  | event event badState =>
      cases event with
      -- a connection that has not been greeted has asked for nothing
      | welcome value =>
          have hidle := hgreeted hok
          cases p with
          | idle spent =>
              have heq : a.topics = [] := List.perm_nil.mp htopics
              refine ⟨⟨trivial, trivial, ?_, trivial⟩, ?_, fun h => by cases h⟩
              · show (a.topics ++ _).Nodup
                rw [heq]
                decide
              · show (a.topics ++ _).Perm _
                rw [heq]
                exact List.Perm.refl _
          | _ => cases hidle
      | error message => exact ⟨⟨trivial, trivial⟩, htopics, hgreeted⟩
      | instrument message =>
          rw [script]
          split
          · exact leads_partialInstrument htopics hgreeted
          · exact ⟨trivial, htopics, hgreeted⟩
      | orderBookL2 message =>
          rw [script]
          split
          · next hhandled =>
              have hbooks := hasked hhandled
              dsimp only
              split
              · next stop hstop =>
                  refine leads_book _ htopics hgreeted hbooks rfl id fun c hc => ?_
                  rcases stop_of_bookUpdates hstop with rfl | ⟨site, rfl⟩
                  · exact .inr (List.mem_singleton.mp hc)
                  · cases hc
              · split
                -- a snapshot may make the session ready, with the topics it has
                · refine leads_book _ htopics hgreeted hbooks ?_ ?_ fun c hc => ?_
                  · cases p <;> rfl
                  · cases p with
                    | orderBookL2 => exact fun h => by cases h
                    | _ => exact id
                  · cases p with
                    | orderBookL2 => exact .inl ⟨_, _, List.mem_singleton.mp hc⟩
                    | _ => cases hc
                · have hbook := leads_book (D := D) [] htopics hgreeted hbooks rfl id (by simp)
                  rw [List.append_nil] at hbook
                  exact hbook
          · exact ⟨trivial, htopics, hgreeted⟩
      | _ => exact ⟨trivial, htopics, hgreeted⟩

/-- The monitor of the exchange, with the effects of the session. -/
abbrev exchangeOf (D : Type u) : Monitor (MarketData D) Input Effect Exchange :=
  exchange.ofMarks Effect.control?

/-- A session that has got ready has all topics. -/
def AllAsked (s : MarketData D) (a : Exchange) : Prop := s.ready = true → a.topics.Perm allTopics

/-- A session whose phase the exchange knows has all topics once it is ready. -/
theorem Knows.allAsked {s : MarketData D} {a : Exchange} (h : Knows stage s a) : AllAsked s a := by
  obtain ⟨p, hphase, -, htopics⟩ := h
  intro hready
  rw [hphase.ready, decide_eq_true_eq] at hready
  subst hready
  exact htopics

/-- A step is sensible where the books have been asked for. -/
theorem keeps_sensible (hdl : dl.Follows stage) {s : MarketData D} {a : Exchange}
    (h : Knows stage s a) {i : Input} (hok : GreetedOnce s a i) (hasked : Asked g s a i) :
    (exchangeOf D).Keeps (Monitor.Marked Effect.control? Sensible) (Knows stage)
      ((exchangeOf D).input s a i) (s.step g dl i) := by
  obtain ⟨p, hphase, hgreeted, htopics⟩ := h
  have hgreets : GreetsOnce s ⟨p, []⟩ i := by
    cases i with
    | event event badState =>
        cases event with
        | welcome value => exact hgreeted hok
        | _ => trivial
    | _ => trivial
  obtain ⟨hcontrols, hnext⟩ := scripted_step (g := g) hdl (a := ⟨p, []⟩) hphase hgreets
  have hleads := leads_script (g := g) htopics hgreeted hok hasked
  refine ⟨?_, ?_⟩
  · rw [Monitor.holds_ofMarks, hcontrols]
    exact hleads.holds
  · rw [Monitor.outputs_ofMarks, hcontrols]
    exact ⟨_, hnext, hleads.greeted, hleads.topics⟩

variable (g dl) in
/-- Where a book message is refused before the books have been asked for, what is asked for is not
sensible. -/
theorem asked_of_stepSat {s : MarketData D} {a : Exchange} {i : Input}
    (h : (marketData g dl).StepSat (exchangeOf D)
      (fun _ => Monitor.Marked Effect.control? Sensible) AllAsked s a i) : Asked g s a i := by
  cases i with
  | event event badState =>
      cases event with
      | orderBookL2 message =>
          intro hhandled hrefused
          obtain ⟨tail, hstep⟩ := orderBookL2_handled g dl hhandled badState
          obtain ⟨tail', hvisible, -⟩ := hstep.visible
          have hholds : (exchange (D := D)).Holds Sensible a
              (((marketData g dl).visible (s.orderBookL2 g dl message badState).2).filterMap
                Effect.control?) := Monitor.holds_ofMarks.mp h.1
          rw [hvisible, List.filterMap_append, List.filterMap_append, controls_assertEffect,
            controls_dispatchEffects, List.nil_append, Monitor.holds_append] at hholds
          -- the first thing that is asked for is to give the books up
          obtain ⟨n, hn⟩ := Nat.exists_eq_add_of_lt hrefused
          rw [hn] at hholds
          exact hholds.1.1
      | _ => trivial
  | _ => trivial

/-- **The exchange is asked sensibly.** In a run in which it greets once on a connection, nothing is
asked for twice or given up that was not asked for, and a session that is ready has asked for
everything, exactly when no update of a book message is refused before the books have been asked
for. -/
theorem sensible_iff (hdl : dl.Follows stage) (is : List Input)
    (h : (marketData g dl).Along (exchangeOf D) GreetedOnce (init dl) {} is) :
    (marketData g dl).Sat (exchangeOf D) (fun _ => Monitor.Marked Effect.control? Sensible)
        AllAsked (init dl) {} is ↔
      (marketData g dl).Along (exchangeOf D) (Asked g) (init dl) {} is := by
  have hkeep : ∀ s a i, Knows stage s a → GreetedOnce s a i → Asked g s a i →
      (marketData g dl).StepSat (exchangeOf D)
          (fun _ => Monitor.Marked Effect.control? Sensible) AllAsked s a i ∧
        ((marketData g dl).stops s i = false →
          Knows stage ((marketData g dl).next s i)
            ((marketData g dl).after (exchangeOf D) s a i)) :=
    fun s a i hknows hok hasked =>
      Machine.stepSat_of_keeps (fun _ _ h => h.allAsked) (keeps_sensible hdl hknows hok hasked)
  refine Machine.sat_iff_along (Knows stage) (fun s a i hknows hok => ⟨asked_of_stepSat g dl, ?_⟩)
    (fun s a i hknows hok hasked => (hkeep s a i hknows hok hasked).2) ?_ h
  · exact fun hasked => (hkeep s a i hknows hok hasked).1
  · refine ⟨.idle false, ⟨hdl.idle, ?_, rfl, rfl⟩, fun _ => rfl, List.Perm.refl _⟩
    rintro ⟨⟩

/-- A book snapshot that comes before the instruments' is refused. -/
theorem sensible_iff_earlyBook :
    (marketData .keepAll .inOrder).Sat (exchangeOf DownloadState)
        (fun _ => Monitor.Marked Effect.control? Sensible) AllAsked (init .inOrder) {} earlyBook ↔
      (marketData .keepAll .inOrder).Along (exchangeOf DownloadState) (Asked .keepAll)
        (init .inOrder) {} earlyBook :=
  sensible_iff Download.follows_inOrder earlyBook (by decide +kernel)

end MarketData

/-! ## Drop copy -/

namespace DropCopy

variable {D : Type u} {c : Settings} {dl : Stages State D} {stage : D → State × ℕ}

/-- What an effect of a drop copy announces or asks for. -/
def Effect.control? : Effect → Option Control
  | .streamStatus value => some (.status value.connectionStatus value.reason)
  | .subscribe topics => some (.subscribe topics)
  | .close => some .close
  | _ => none

/-- The phases of a connection; in the first two, whether its first order snapshot has been used
up. -/
inductive Phase where
  | idle (spent : Bool)
  | subscribe (spent : Bool)
  | done
  deriving DecidableEq, Repr

namespace Phase

/-- The state the download is in. -/
def state : Phase → State
  | idle _ => .undefined
  | subscribe _ => .subscribe
  | done => .done

/-- The first order snapshot has been received. -/
def spent : Phase → Bool
  | idle spent => spent
  | subscribe spent => spent
  | done => true

/-- The greeting asks for everything. -/
def welcome : Phase → Phase × List Control
  | idle spent =>
      (subscribe spent,
        [.status .downloading "subscribe", .subscribe [.execution, .order, .margin, .position]])
  | p => (p, [])

/-- The first order snapshot makes the session ready, if it is waited for. -/
def partialOrder : Phase → Phase × List Control
  | idle _ => (idle true, [])
  | subscribe false => (done, [.status .ready ""])
  | p => (p, [])

end Phase

/-- The script of a connection. -/
def script (_ : DropCopy D) (p : Phase) : Input → Phase × List Control
  | .ready => (p, [.status .loginSent ""])
  | .disconnected => (.idle false, [.status .disconnected ""])
  | .event (.welcome _) _ => p.welcome
  | .event (.error _) _ => (p, [.close])
  | .event (.order message) _ => if message.action = .partial_ then p.partialOrder else (p, [])
  | _ => (p, [])

/-- The session is in a phase. -/
structure InPhase (stage : D → State × ℕ) (s : DropCopy D) (p : Phase) : Prop where
  state : (stage s.download).1 = p.state
  count : p.state.count = 1 → stage s.download = (p.state, 1)
  spent : s.partialReceived = p.spent
  ready : s.ready = decide (p = .done)

/-- The exchange greets a connection that it has not greeted. -/
def GreetsOnce (_ : DropCopy D) (a : Script Phase Control) : Input → Prop
  | .event (.welcome _) _ => a.phase.state = .undefined
  | _ => True

instance (s : DropCopy D) (a : Script Phase Control) : ∀ i, Decidable (GreetsOnce s a i)
  | .event (.welcome _) _ => inferInstanceAs (Decidable (_ = _))
  | .event (.error _) _ | .event (.subscribe _) _ | .event (.unsubscribe _) _
  | .event (.instrument _) _ | .event (.quote _) _ | .event (.orderBookL2 _) _
  | .event (.trade _) _ | .event (.funding _) _ | .event .liquidation _ | .event .settlement _
  | .event (.cancelAllAfter _) _ | .event (.order _) _ | .event (.execution _) _
  | .event .margin _ | .event (.position _) _ | .ready | .disconnected | .timer _ _ =>
      isTrue trivial

/-- What an input comes to is on script, and leads to its phase. -/
def Scripted (stage : D → State × ℕ) (r : DropCopy D × List Effect) (q : Phase × List Control) :
    Prop :=
  r.2.filterMap Effect.control? = q.2 ∧ InPhase stage r.1 q.1

/-- The greeting begins the download. -/
theorem begin_onScript (hdl : Follows dl stage) {s : DropCopy D} {p : Phase}
    (h : InPhase stage s p) (hidle : p.state = .undefined) :
    Scripted stage (s.begin c dl) p.welcome := by
  cases p with
  | idle spent =>
      obtain ⟨d, hd, hbegin⟩ := begin_eq (c := c) hdl (h.state.trans hidle)
      rw [hbegin]
      exact ⟨rfl, congrArg Prod.fst hd, fun _ => hd, h.spent, h.ready⟩
  | _ => cases hidle

/-- The order snapshot, once the flag has been set for it. -/
theorem scripted_checkRelaxed (hdl : Follows dl stage) {s : DropCopy D} {p : Phase}
    (hstate : (stage s.download).1 = p.state)
    (hcount : p.state.count = 1 → stage s.download = (p.state, 1)) (hspent : p.spent = false)
    (hreceived : s.partialReceived = true) (hready : s.ready = decide (p = .done)) :
    Scripted stage (s.checkRelaxed c dl .subscribe) p.partialOrder := by
  cases p with
  | idle spent =>
      have hother : (stage s.download).1 ≠ .subscribe := by
        rw [hstate]
        exact fun h => by cases h
      obtain ⟨d, hd, hcall⟩ := checkRelaxed_other (c := c) hdl hother
      rw [hcall]
      refine ⟨rfl, ?_, ?_, hreceived, hready⟩
      · exact (congrArg Prod.fst hd).trans hstate
      · rintro ⟨⟩
  | subscribe spent =>
      obtain rfl : spent = false := hspent
      obtain ⟨d, hd, hcall⟩ := checkRelaxed_subscribe (c := c) hdl (hcount rfl)
      rw [hcall, hready]
      refine ⟨rfl, hd, ?_, hreceived, rfl⟩
      rintro ⟨⟩
  | done => cases hspent

/-- A second order snapshot is not handled as one. -/
theorem partialOrder_of_spent {p : Phase} (h : p.spent = true) : p.partialOrder = (p, []) := by
  cases p with
  | idle spent =>
      obtain rfl : spent = true := h
      rfl
  | subscribe spent =>
      obtain rfl : spent = true := h
      rfl
  | done => rfl

/-- An order message does what the script says. -/
theorem scripted_order (hdl : Follows dl stage) {s : DropCopy D} {p : Phase}
    (h : InPhase stage s p) (message : Json.Order) :
    Scripted stage (s.order c dl message)
      (if message.action = .partial_ then p.partialOrder else (p, [])) := by
  rw [order_eq]
  by_cases haction : message.action = .partial_
  · rw [if_pos haction]
    cases hreceived : s.partialReceived with
    | true =>
        rw [if_neg (by simp), partialOrder_of_spent (h.spent.symm.trans hreceived)]
        exact ⟨rfl, h⟩
    | false =>
        rw [if_pos ⟨rfl, haction⟩]
        obtain ⟨hcontrols, hphase⟩ := scripted_checkRelaxed (c := c)
          (s := { s with partialReceived := true }) hdl h.state h.count
          (h.spent.symm.trans hreceived) rfl h.ready
        have hitems : (message.data.map fun item =>
            Effect.dispatch (snapshotOf c.session item)).filterMap Effect.control? = [] := by
          rw [List.filterMap_eq_nil_iff, List.forall_mem_map]
          exact fun _ _ => rfl
        refine ⟨?_, hphase⟩
        rw [List.filterMap_append, hcontrols, hitems]
        rfl
  · rw [if_neg haction, if_neg fun hboth => haction hboth.2]
    exact ⟨rfl, h⟩

/-- **Every input is answered as the script has it.** -/
theorem scripted_step (hdl : Follows dl stage) {s : DropCopy D} {a : Script Phase Control}
    (h : InPhase stage s a.phase) {i : Input} (hok : GreetsOnce s a i) :
    Scripted stage (s.step c dl i) (script s a.phase i) := by
  have hnone : ∀ es : List Effect, (∀ e ∈ es, e.control? = none) →
      Scripted stage (s, es) (a.phase, []) := by
    intro es hes
    exact ⟨List.filterMap_eq_nil_iff.mpr hes, h⟩
  cases i with
  | ready => exact ⟨rfl, h.state, h.count, h.spent, h.ready⟩
  | disconnected =>
      refine ⟨rfl, hdl.reset s.download, ?_, rfl, rfl⟩
      rintro ⟨⟩
  | timer now refreshed =>
      show Scripted stage (s.timer c now refreshed) (a.phase, [])
      unfold timer
      split
      · exact ⟨rfl, h⟩
      · split
        · exact ⟨rfl, h.state, h.count, h.spent, h.ready⟩
        · exact ⟨rfl, h⟩
  | event event lookup =>
      cases event with
      | welcome value =>
          obtain ⟨hcontrols, hphase⟩ := begin_onScript (c := c) hdl h hok
          refine ⟨?_, hphase⟩
          -- what disarms the switch comes after what the download asks for
          show ((s.begin c dl).2 ++ _).filterMap Effect.control? = _
          rw [List.filterMap_append, hcontrols]
          split
          · exact List.append_nil _
          · exact List.append_nil _
      | error message => exact ⟨rfl, h⟩
      | order message => exact scripted_order hdl h message
      | execution message =>
          refine hnone _ fun e he => ?_
          obtain ⟨event, -, rfl⟩ := List.mem_map.mp he
          rfl
      | position message =>
          refine hnone _ fun e he => ?_
          obtain ⟨update, -, rfl⟩ := List.mem_map.mp he
          rfl
      | unsubscribe message =>
          refine hnone _ fun e he => ?_
          unfold unsubscribe assertEffect at he
          grind [Effect.control?]
      | _ => exact ⟨rfl, h⟩

/-- The session is in the phase of the script, and nothing is due. -/
def AtPhase (stage : D → State × ℕ) (s : DropCopy D) (a : Script Phase Control) : Prop :=
  InPhase stage s a.phase ∧ a.due = []

/-- Every announcement and every request is on the script, and the session says that it is ready in
its last phase. -/
def RunsOnScript (c : Settings) (dl : Stages State D) (is : List Input) : Prop :=
  (dropCopy c dl).Sat ((Script.monitor script).ofMarks Effect.control?)
    (fun _ => Script.OnScript Effect.control?)
    (fun s a => a.due = [] ∧ s.ready = decide (a.phase = .done)) (init dl) ⟨.idle false, []⟩ is

end DropCopy

end RoqBitmex
