import RoqBitmex.Gateway.OrderBook
import RoqBitmex.Gateway.ProductRows
import RoqBitmex.Protocol.Parser

/-! # The market data session

`MarketData` as a machine: its inputs are the connection's events and the messages of the exchange,
its outputs the effects of the handlers. `core::Download` is not part of the repository, so a
session is given one: what the session relies on is which of its states are entered, in order. -/

namespace RoqBitmex

universe u

/-! ## The download -/

/-- `MarketData::State`: the states of the download. -/
inductive DownloadState where
  | undefined
  | accounts
  | instrument
  | orderBookL2
  | done
  deriving DecidableEq, Repr

/-- The value `MarketData::download` returns for a state: how many answers to wait for. -/
def DownloadState.count : DownloadState → Nat
  | .undefined => 0
  | .accounts => 0
  | .instrument => 1
  | .orderBookL2 => 1
  | .done => 0

/-- `core::Download`: its status, and the states its calls enter, in order, given how many answers
each state waits for. -/
structure Download (D : Type u) where
  /-- The status of a new download. -/
  idle : D
  /-- `reset`. -/
  reset : D → D
  /-- `begin`. -/
  begin : (DownloadState → Nat) → D → D × List DownloadState
  /-- `check_relaxed`. -/
  checkRelaxed : (DownloadState → Nat) → D → DownloadState → D × List DownloadState

/-- The states a download goes through after a state. -/
def DownloadState.after : DownloadState → List DownloadState
  | .undefined => [.accounts, .instrument, .orderBookL2, .done]
  | .accounts => [.instrument, .orderBookL2, .done]
  | .instrument => [.orderBookL2, .done]
  | .orderBookL2 => [.done]
  | .done => []

/-- Enter states up to the first one that waits for an answer. -/
def DownloadState.walk (count : DownloadState → Nat) :
    DownloadState → List DownloadState → DownloadState × List DownloadState
  | state, [] => (state, [])
  | _, next :: rest =>
      if count next = 0 then ((walk count next rest).1, next :: (walk count next rest).2)
      else (next, [next])

/-- A download that enters its states in order, and leaves a state that waits with the first
answer. -/
def Download.inOrder : Download DownloadState where
  idle := .undefined
  reset _ := .undefined
  begin count _ := DownloadState.walk count .undefined DownloadState.undefined.after
  checkRelaxed count current state :=
    if current = state then DownloadState.walk count state state.after else (current, [])

/-! ## The session -/

/-- `partial_received_`: the tables whose snapshot has been received on this connection. -/
structure PartialReceived where
  instrument : Bool := false
  orderBookL2 : Bool := false
  deriving DecidableEq, Repr

/-- The state of the session, with the price cache it shares. -/
structure MarketData (D : Type u) where
  ready : Bool := false
  connectionStatus : ConnectionStatus := .undefined
  download : D
  partialReceived : PartialReceived := {}
  productCache : ProductCache := fun _ => none
  priceCache : PriceCache := fun _ => none

variable {D : Type u} (g : Gateway) (dl : Download D)

namespace MarketData

/-- The session when it is constructed. -/
def init : MarketData D where
  download := dl.idle

/-- `MarketData::operator()(ConnectionStatus, reason)`. -/
def setStatus (s : MarketData D) (status : ConnectionStatus) (reason : String) :
    MarketData D × List Effect :=
  ({ s with connectionStatus := status },
    [.dispatch (.streamStatus ⟨g.streamId, status, reason⟩)])

/-- `MarketData::download`: what the session does when the download enters a state. -/
def enter (s : MarketData D) : DownloadState → MarketData D × List Effect
  | .undefined => (s, [.assertion .downloadState])
  | .accounts => s.setStatus g .downloading "accounts"
  | .instrument =>
      let (s, effects) := s.setStatus g .downloading "instrument"
      (s, effects ++ [.subscribe [.instrument]])
  | .orderBookL2 =>
      let (s, effects) := s.setStatus g .downloading "order-book-l2"
      (s, effects ++
        [.subscribe [.quote, .orderBookL2, .trade, .funding, .liquidation, .settlement]])
  | .done =>
      let (s, effects) := s.setStatus g .ready ""
      -- the assertion is about the flag before it is set
      ({ s with ready := true }, effects ++ assertEffect (!s.ready) .downloadReady)

/-- The states a call of the download enters, one after another. -/
def enterAll (s : MarketData D) : List DownloadState → MarketData D × List Effect
  | [] => (s, [])
  | state :: rest =>
      let (s, effects) := s.enter g state
      let (s, effects') := enterAll s rest
      (s, effects ++ effects')

/-- `download_.begin()`. -/
def begin (s : MarketData D) : MarketData D × List Effect :=
  let (download, entered) := dl.begin DownloadState.count s.download
  enterAll g { s with download := download } entered

/-- `download_.check_relaxed(state)`. -/
def checkRelaxed (s : MarketData D) (state : DownloadState) : MarketData D × List Effect :=
  let (download, entered) := dl.checkRelaxed DownloadState.count s.download state
  enterAll g { s with download := download } entered

/-! ## The handlers -/

/-- `MarketData::operator()(web::socket::Client::Ready)`. -/
def socketReady (s : MarketData D) : MarketData D × List Effect := s.setStatus g .loginSent ""

/-- `MarketData::operator()(web::socket::Client::Disconnected)`. -/
def socketDisconnected (s : MarketData D) : MarketData D × List Effect :=
  setStatus g
    { s with ready := false, partialReceived := {}, download := dl.reset s.download }
    .disconnected ""

/-- The rows of a message, handled one after another. -/
def handleRows (s : MarketData D) (rows : List ProductRow) : MarketData D × List Effect :=
  let (cache, effects) := (productRows g).batch s.productCache rows
  ({ s with productCache := cache }, effects)

/-- `MarketData::operator()(Trace<Instrument>)`. -/
def instrument (s : MarketData D) (message : Json.Instrument) : MarketData D × List Effect :=
  match message.action with
  | .undefinedInternal | .unknownInternal => (s, [.fatal .instrumentAction])
  -- the first snapshot of a connection; a second one is not expected
  | .partial_ =>
      if s.partialReceived.instrument then (s, [.assertion .instrumentPartial])
      else
        let s := { s with partialReceived := { s.partialReceived with instrument := true } }
        let (s, effects) := s.handleRows g (message.data.map .partial_)
        let (s, effects') := s.checkRelaxed g dl .instrument
        (s, effects ++ effects')
  | .insert => (s, [.assertion .instrumentInsert])
  -- updates are dropped until the snapshot has been received
  | .update =>
      if s.partialReceived.instrument then s.handleRows g (message.data.map .update) else (s, [])
  | .delete => (s, [])

/-- `MarketData::operator()(Trace<Quote>)`. -/
def quote (message : Json.Quote) : List Effect :=
  (message.data.filter fun item => !g.discardSymbol item.symbol).map fun item =>
    .dispatch (.topOfBook
      { streamId := g.streamId
        exchange := g.exchange
        symbol := item.symbol
        layer := ⟨item.bidPrice, item.bidSize, item.askPrice, item.askSize⟩
        updateType := .snapshot
        exchangeTimeUtc := nanoseconds item.timestamp })

/-- `MarketData::operator()(Trace<OrderBookL2>)`, given the dispatcher's answers to the updates. -/
def orderBookL2 (s : MarketData D) (message : Json.OrderBookL2) (badState : List Bool) :
    MarketData D × List Effect :=
  let assertion := assertEffect (message.action ≠ .unknownInternal) .bookAction
  let snapshot := message.action = .partial_
  -- everything but a snapshot is dropped until one has been received
  if ¬ snapshot ∧ ¬ s.partialReceived.orderBookL2 then (s, assertion)
  else
    let book : Book := ⟨s.priceCache, s.partialReceived.orderBookL2, badState, assertion⟩
    match book.run g message.action message.data with
    -- the handler returns early: the download is not told
    | .error book =>
        ({ s with
            priceCache := book.priceCache
            partialReceived := { s.partialReceived with orderBookL2 := book.partialReceived } },
          book.effects)
    -- a snapshot sets the flag, even if one of its updates was refused
    | .ok book =>
        let s := { s with
          priceCache := book.priceCache
          partialReceived :=
            { s.partialReceived with orderBookL2 := snapshot || book.partialReceived } }
        if snapshot then
          let (s, effects) := s.checkRelaxed g dl .orderBookL2
          (s, book.effects ++ effects)
        else (s, book.effects)

/-! ### Trades -/

/-- The variables of the loop over the rows of a trade message. -/
structure TradeLoop where
  effects : List Effect := []
  trades : List RoqBitmex.Trade := []
  timestamp : Int := 0
  previous : String := ""

/-- The `dispatch` of the loop, guarded as in the source. -/
def TradeLoop.dispatch (l : TradeLoop) (isLast : Bool) : List Effect :=
  if l.previous ≠ "" ∧ l.trades ≠ [] ∧ ¬ g.discardSymbol l.previous then
    [.dispatch (.tradeSummary
      { streamId := g.streamId
        exchange := g.exchange
        symbol := l.previous
        trades := l.trades
        exchangeTimeUtc := l.timestamp }
      isLast)]
  else []

/-- The loop body. -/
def TradeLoop.item (l : TradeLoop) (item : Json.TradeDataItem) : TradeLoop :=
  -- the time is taken first, and cleared again where the symbol changes
  let l := { l with timestamp := max l.timestamp (nanoseconds item.timestamp) }
  let l :=
    if item.symbol ≠ l.previous then
      { effects := l.effects ++ l.dispatch g false
        trades := []
        timestamp := 0
        previous := item.symbol }
    else l
  { l with trades := l.trades ++ [⟨item.side.map, item.price, item.size, item.trdMatchId⟩] }

/-- `MarketData::operator()(Trace<Trade>)`. -/
def trade (message : Json.Trade) : List Effect :=
  if message.action ≠ .insert then []
  else
    let l := message.data.foldl (TradeLoop.item g) {}
    l.effects ++ l.dispatch g true

/-! ### Dispatch -/

/-- The handler overloads of `MarketData`. -/
def handle (s : MarketData D) (event : Json.Event) (badState : List Bool) :
    MarketData D × List Effect :=
  match event with
  | .welcome _ => s.begin g dl
  | .error _ => (s, [.close])
  -- acknowledgements are only logged
  | .subscribe _ => (s, [])
  | .unsubscribe _ => (s, [])
  | .instrument message => s.instrument g dl message
  | .quote message => (s, quote g message)
  | .orderBookL2 message => s.orderBookL2 g dl message badState
  | .trade message => (s, trade g message)
  | .funding message => s.handleRows g (message.data.map .funding)
  | .liquidation => (s, [])
  | .settlement => (s, [])
  -- the private tables are not expected on this connection
  | .cancelAllAfter _ => (s, [.fatal .unexpectedTable])
  | .order _ => (s, [.fatal .unexpectedTable])
  | .execution _ => (s, [.fatal .unexpectedTable])
  | .margin => (s, [.fatal .unexpectedTable])
  | .position _ => (s, [.fatal .unexpectedTable])

/-- What happens to the session: the connection is ready or lost, or a message arrives, with the
dispatcher's answers to the book updates it leads to. -/
inductive Input where
  | ready
  | disconnected
  | event (event : Json.Event) (badState : List Bool)
  deriving DecidableEq

/-- One input. -/
def step (s : MarketData D) : Input → MarketData D × List Effect
  | .ready => s.socketReady g
  | .disconnected => s.socketDisconnected g dl
  | .event event badState => s.handle g dl event badState

end MarketData

/-- The session as a machine. -/
def marketData : Machine (MarketData D) MarketData.Input Effect where
  step := MarketData.step g dl
  halts := g.halts

namespace MarketData

variable {g dl}

/-! ## What a call of the download does -/

/-- The effects of entering the download's states. -/
def IsDownloadEffect : Effect → Prop
  | .dispatch (.streamStatus _) => True
  | .subscribe _ => True
  | .assertion .downloadState => True
  | .assertion .downloadReady => True
  | _ => False

/-- Entering states leaves the caches and the received snapshots alone. -/
theorem enterAll_frame (s : MarketData D) (states : List DownloadState) :
    (s.enterAll g states).1.partialReceived = s.partialReceived ∧
      (s.enterAll g states).1.productCache = s.productCache ∧
      (s.enterAll g states).1.priceCache = s.priceCache ∧
      ∀ e ∈ (s.enterAll g states).2, IsDownloadEffect e := by
  induction states generalizing s with
  | nil => exact ⟨rfl, rfl, rfl, by simp [enterAll]⟩
  | cons state rest ih =>
      obtain ⟨hp, hc, hb, he⟩ := ih (s.enter g state).1
      have henter : (s.enter g state).1.partialReceived = s.partialReceived ∧
          (s.enter g state).1.productCache = s.productCache ∧
          (s.enter g state).1.priceCache = s.priceCache ∧
          ∀ e ∈ (s.enter g state).2, IsDownloadEffect e := by
        cases state <;> cases hr : s.ready <;>
          simp [enter, setStatus, assertEffect, IsDownloadEffect, hr]
      obtain ⟨hp', hc', hb', he'⟩ := henter
      refine ⟨hp.trans hp', hc.trans hc', hb.trans hb', fun e hmem => ?_⟩
      rcases List.mem_append.mp hmem with h | h
      · exact he' e h
      · exact he e h

variable (g dl) in
/-- A call of `check_relaxed` leaves the caches and the received snapshots alone. -/
theorem checkRelaxed_frame (s : MarketData D) (state : DownloadState) :
    (s.checkRelaxed g dl state).1.partialReceived = s.partialReceived ∧
      (s.checkRelaxed g dl state).1.productCache = s.productCache ∧
      (s.checkRelaxed g dl state).1.priceCache = s.priceCache ∧
      ∀ e ∈ (s.checkRelaxed g dl state).2, IsDownloadEffect e :=
  enterAll_frame _ _

variable (g dl) in
/-- A call of `begin` leaves the caches and the received snapshots alone. -/
theorem begin_frame (s : MarketData D) :
    (s.begin g dl).1.partialReceived = s.partialReceived ∧
      (s.begin g dl).1.productCache = s.productCache ∧
      (s.begin g dl).1.priceCache = s.priceCache ∧
      ∀ e ∈ (s.begin g dl).2, IsDownloadEffect e :=
  enterAll_frame _ _

/-! ## What the other inputs do to the books -/

/-- The effects that concern the books: an update, or giving up the subscription. -/
def IsBookEffect : Effect → Prop
  | .dispatch (.marketByPriceUpdate _) => True
  | .unsubscribe _ => True
  | _ => False

/-- An effect of the download concerns no book. -/
theorem IsDownloadEffect.not_isBookEffect {e : Effect} (h : IsDownloadEffect e) :
    ¬ IsBookEffect e := by
  cases e with
  | dispatch event => cases event <;> simp_all [IsDownloadEffect, IsBookEffect]
  | unsubscribe topic => exact h.elim
  | _ => exact fun h' => h'

/-- What an instrument row publishes concerns no book. -/
theorem not_isBookEffect_of_isEffectOf {symbol : String} {e : Effect}
    (h : ProductRow.IsEffectOf symbol e) : ¬ IsBookEffect e := by
  cases e with
  | dispatch event => cases event <;> simp_all [ProductRow.IsEffectOf, IsBookEffect]
  | unsubscribe topic => exact h.elim
  | _ => exact fun h' => h'

/-- The effects of rows handled one after another are effects of rows. -/
theorem isEffectOf_handleRows (s : MarketData D) (rows : List ProductRow) :
    ∀ e ∈ (s.handleRows g rows).2, ∃ symbol, ProductRow.IsEffectOf symbol e := by
  have hbatch : ∀ e ∈ ((productRows g).batch s.productCache rows).2,
      ∃ symbol, ProductRow.IsEffectOf symbol e :=
    Machine.batch_forall
      (fun cache row e he => ⟨row.symbol, ProductRow.isEffectOf_handle cache row e he⟩) _ _
  exact hbatch

/-- The effects of a trade message are trade summaries. -/
theorem exists_tradeSummary_of_mem_trade (message : Json.Trade) :
    ∀ e ∈ trade g message, ∃ value isLast, e = .dispatch (.tradeSummary value isLast) := by
  have hdispatch : ∀ (l : TradeLoop) isLast, ∀ e ∈ l.dispatch g isLast,
      ∃ value isLast, e = .dispatch (.tradeSummary value isLast) := by
    intro l isLast e he
    rw [TradeLoop.dispatch] at he
    split at he
    · exact ⟨_, _, List.mem_singleton.mp he⟩
    · cases he
  -- the loop only ever appends summaries
  have hloop : ∀ (items : List Json.TradeDataItem) (l : TradeLoop),
      (∀ e ∈ l.effects, ∃ value isLast, e = .dispatch (.tradeSummary value isLast)) →
        ∀ e ∈ (items.foldl (TradeLoop.item g) l).effects,
          ∃ value isLast, e = .dispatch (.tradeSummary value isLast) := by
    intro items
    induction items with
    | nil => exact fun l h => h
    | cons item items ih =>
        intro l h
        refine ih _ fun e he => ?_
        simp only [TradeLoop.item] at he
        split at he
        · rcases List.mem_append.mp he with h' | h'
          · exact h e h'
          · exact hdispatch _ _ e h'
        · exact h e he
  intro e he
  rw [trade] at he
  split at he
  · cases he
  · rcases List.mem_append.mp he with h | h
    · exact hloop _ {} (by simp) e h
    · exact hdispatch _ _ e h

/-- An instrument message has the effects of its rows and of the download, or ends the process. -/
theorem mem_instrument {s : MarketData D} {message : Json.Instrument} {e : Effect}
    (he : e ∈ (s.instrument g dl message).2) :
    (∃ symbol, ProductRow.IsEffectOf symbol e) ∨ IsDownloadEffect e ∨
      e = .fatal .instrumentAction ∨ e = .assertion .instrumentPartial ∨
      e = .assertion .instrumentInsert := by
  cases haction : message.action with
  | undefinedInternal => simp_all [instrument]
  | unknownInternal => simp_all [instrument]
  | delete => simp [instrument, haction] at he
  | insert => simp_all [instrument]
  | partial_ =>
      simp only [instrument, haction] at he
      split at he
      · simp_all
      · rcases List.mem_append.mp he with h | h
        · exact Or.inl (isEffectOf_handleRows _ _ e h)
        · exact Or.inr (Or.inl ((checkRelaxed_frame g dl _ _).2.2.2 e h))
  | update =>
      simp only [instrument, haction] at he
      split at he
      · exact Or.inl (isEffectOf_handleRows _ _ e he)
      · cases he

/-- An instrument message leaves the price cache and the received book snapshot alone. -/
theorem instrument_frame (s : MarketData D) (message : Json.Instrument) :
    (s.instrument g dl message).1.priceCache = s.priceCache ∧
      (s.instrument g dl message).1.partialReceived.orderBookL2 =
        s.partialReceived.orderBookL2 := by
  cases haction : message.action with
  | partial_ =>
      simp only [instrument, haction]
      split
      · exact ⟨rfl, rfl⟩
      · let s₁ : MarketData D :=
          { s with partialReceived := { s.partialReceived with instrument := true } }
        obtain ⟨hreceived, -, hcache, -⟩ := checkRelaxed_frame g dl
          (s₁.handleRows g (message.data.map .partial_)).1 .instrument
        have hbook := congrArg PartialReceived.orderBookL2 hreceived
        exact ⟨hcache, hbook⟩
  | update =>
      simp only [instrument, haction]
      split
      · exact ⟨rfl, rfl⟩
      · exact ⟨rfl, rfl⟩
  | _ => simp [instrument, haction]

/-- An input that is no book message has no effect that concerns the books. -/
theorem not_isBookEffect_of_step (s : MarketData D) {i : Input}
    (hi : ∀ message badState, i ≠ .event (.orderBookL2 message) badState) :
    ∀ e ∈ (s.step g dl i).2, ¬ IsBookEffect e := by
  intro e he
  have hrows : ∀ rows, e ∈ (s.handleRows g rows).2 → ¬ IsBookEffect e := by
    intro rows h
    obtain ⟨symbol, hsymbol⟩ := isEffectOf_handleRows s rows e h
    exact not_isBookEffect_of_isEffectOf hsymbol
  cases i with
  | ready => simp_all [step, socketReady, setStatus, IsBookEffect]
  | disconnected => simp_all [step, socketDisconnected, setStatus, IsBookEffect]
  | event event badState =>
      cases event with
      | orderBookL2 message => exact absurd rfl (hi message badState)
      | welcome value => exact ((begin_frame g dl s).2.2.2 e he).not_isBookEffect
      | instrument message =>
          -- rows, the download, or the end of the process
          rcases mem_instrument he with ⟨symbol, h⟩ | h | rfl | rfl | rfl
          · exact not_isBookEffect_of_isEffectOf h
          · exact h.not_isBookEffect
          all_goals exact fun h => h
      | quote message =>
          obtain ⟨item, -, rfl⟩ := List.mem_map.mp he
          exact fun h => h
      | trade message =>
          obtain ⟨value, isLast, rfl⟩ := exists_tradeSummary_of_mem_trade message e he
          exact fun h => h
      | funding message => exact hrows _ he
      | _ => simp_all [step, handle, IsBookEffect]

/-- An input that is no book message and does not lose the connection leaves the price cache and the
received book snapshot alone. -/
theorem step_frame (s : MarketData D) {i : Input}
    (hi : ∀ message badState, i ≠ .event (.orderBookL2 message) badState)
    (hconnected : i ≠ .disconnected) :
    (s.step g dl i).1.priceCache = s.priceCache ∧
      (s.step g dl i).1.partialReceived.orderBookL2 = s.partialReceived.orderBookL2 := by
  cases i with
  | ready => exact ⟨rfl, rfl⟩
  | disconnected => exact absurd rfl hconnected
  | event event badState =>
      cases event with
      | orderBookL2 message => exact absurd rfl (hi message badState)
      | welcome value =>
          obtain ⟨hreceived, -, hcache, -⟩ := begin_frame g dl s
          exact ⟨hcache, congrArg PartialReceived.orderBookL2 hreceived⟩
      | instrument message => exact instrument_frame s message
      | _ => exact ⟨rfl, rfl⟩

end MarketData

end RoqBitmex
