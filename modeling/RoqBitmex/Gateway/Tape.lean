import RoqBitmex.Gateway.FeedSafety
import RoqBitmex.Gateway.Trades
import RoqBitmex.Library.Interleaving

/-! # The tape

Tops of books and trades are published as they come, whether or not the session is ready.
`tape_of_run` says what a run publishes of them: row by row those of the messages that reach a
handler, and nothing else. -/

namespace RoqBitmex

universe u

namespace MarketData

open Json (TradeDataItem)

variable {D : Type u} {g : Gateway} {dl : Download D}

/-- What the tape is made of: the top of a book, or a trade of a symbol. -/
inductive Tick where
  | top (value : TopOfBook)
  | trade (symbol : String) (value : RoqBitmex.Trade)
  deriving DecidableEq

/-- The ticks an effect publishes. -/
def ticks : Effect → List Tick
  | .dispatch (.topOfBook value) => [.top value]
  | .dispatch (.tradeSummary value _) => value.trades.map (.trade value.symbol)
  | _ => []

/-! ## Rows -/

variable (g) in
/-- The tick of a quote. -/
def tickOfQuote (item : Json.QuoteDataItem) : Tick :=
  .top
    { streamId := g.streamId
      exchange := g.exchange
      symbol := item.symbol
      layer := ⟨item.bidPrice, item.bidSize, item.askPrice, item.askSize⟩
      updateType := .snapshot
      exchangeTimeUtc := nanoseconds item.timestamp }

/-- The tick of a trade. -/
def tickOfTrade (item : TradeDataItem) : Tick := .trade item.symbol (tradeOf item)

variable (g) in
/-- Whether the trades of a symbol are published: it is named and kept. -/
def isTaped (symbol : String) : Bool := symbol ≠ "" && !g.discardSymbol symbol

variable (g) in
/-- The ticks of a message: of the quotes all that are kept, and of inserted trades also not those
without a symbol. -/
def ticksOfEvent : Json.Event → List Tick
  | .quote message =>
      (message.data.filter fun item => !g.discardSymbol item.symbol).map (tickOfQuote g)
  | .trade message =>
      if message.action = .insert then
        (message.data.filter fun item => isTaped g item.symbol).map tickOfTrade
      else []
  | _ => []

variable (g) in
/-- The ticks of an input. -/
def ticksOfInput : FeedInput → List Tick
  | .text text _ => (text.event? g.allowUnknownEventTypes).elim [] (ticksOfEvent g)
  | _ => []

/-! ## Handlers -/

/-- An effect that publishes no tick. -/
def IsSilent (e : Effect) : Prop := ticks e = []

/-- A failed assertion is not on the tape. -/
theorem isSilent_assertEffect {condition : Bool} {site : Site} :
    ∀ e ∈ assertEffect condition site, IsSilent e := by
  intro e he
  obtain ⟨-, rfl⟩ := eq_of_mem_assertEffect he
  rfl

/-- An effect of the download is not on the tape. -/
theorem IsDownloadEffect.isSilent {e : Effect} (h : IsDownloadEffect e) : IsSilent e := by
  cases e with
  | dispatch event => cases event <;> first | rfl | exact h.elim
  | _ => rfl

/-- What an instrument row publishes is not on the tape. -/
theorem isSilent_of_isEffectOf {symbol : String} {e : Effect}
    (h : ProductRow.IsEffectOf symbol e) : IsSilent e := by
  cases e with
  | dispatch event => cases event <;> first | rfl | exact h.elim
  | _ => rfl

/-- What an instrument message leads to is not on the tape. -/
theorem isSilent_instrument (s : MarketData D) (message : Json.Instrument) :
    ∀ e ∈ (s.instrument g dl message).2, IsSilent e := by
  intro e he
  rcases mem_instrument he with ⟨symbol, h⟩ | h | rfl | rfl | rfl
  · exact isSilent_of_isEffectOf h
  · exact h.isSilent
  all_goals rfl

/-- What a book message leads to is not on the tape. -/
theorem isSilent_orderBookL2 (s : MarketData D) (message : Json.OrderBookL2)
    (badState : List Bool) : ∀ e ∈ (s.orderBookL2 g dl message badState).2, IsSilent e := by
  have heffects : ∀ e ∈ s.bookEffects g message badState, IsSilent e := by
    refine List.forall_mem_append.mpr ⟨isSilent_assertEffect, fun e he => ?_⟩
    rcases mem_dispatchEffects he with ⟨u, -, rfl⟩ | rfl | rfl
    all_goals rfl
  -- a message that is given up ends with a refusal or an assertion, a whole one with a status
  by_cases hhandled : message.action = .partial_ ∨ s.partialReceived.orderBookL2 = true
  · rw [orderBookL2_eq g dl hhandled]
    split
    · next stop hstop =>
        refine List.forall_mem_append.mpr ⟨heffects, List.forall_mem_singleton.mpr ?_⟩
        rcases stop_of_bookUpdates hstop with rfl | ⟨site, rfl⟩
        · rfl
        · rfl
    · split
      · have hdownload := (checkRelaxed_frame g dl (s.afterBook g message badState)
          .orderBookL2).2.2.2
        exact List.forall_mem_append.mpr ⟨heffects, fun e he => (hdownload e he).isSilent⟩
      · exact heffects
  · rw [not_or, Bool.not_eq_true] at hhandled
    rw [orderBookL2_dropped hhandled.1 hhandled.2]
    exact isSilent_assertEffect

/-- The ticks of a quote message are those of its rows. -/
theorem ticks_quote (message : Json.Quote) :
    (quote g message).flatMap ticks = ticksOfEvent g (.quote message) := by
  rw [quote, List.flatMap_map, ticksOfEvent]
  exact List.map_eq_flatMap.symm

/-- The rows of the runs that are published are the rows that are taped. -/
theorem flatten_published (rows : List TradeDataItem) :
    ((keyRuns (·.symbol) rows).filter (isPublishedTrade g)).flatten =
      rows.filter fun item => isTaped g item.symbol := by
  refine Eq.trans (congrArg _ (List.filter_congr fun run hrun => ?_))
    (flatten_filter_keyRuns TradeDataItem.symbol (isTaped g) rows)
  obtain ⟨first, hfirst⟩ := exists_head_of_mem_run hrun
  simp [isPublishedTrade, isTaped, tradeSymbol, hfirst]

/-- The ticks of an inserted message are those of its rows: the walk over the rows puts them into
summaries, and taking these apart gives the rows back. -/
theorem ticks_trade (message : Json.Trade) :
    (trade g message).flatMap ticks = ticksOfEvent g (.trade message) := by
  rw [ticksOfEvent]
  by_cases haction : message.action = .insert
  -- a summary is a run of rows with one symbol, and the runs joined are the rows
  · have hruns := map_tradeSummariesOf (g := g) (keyRuns (·.symbol) message.data)
    have hticks : (tradeSummariesOf g (keyRuns (·.symbol) message.data)).flatMap
        (fun x => x.1.trades.map (Tick.trade x.1.symbol)) =
          ((keyRuns (·.symbol) message.data).filter (isPublishedTrade g)).flatMap
            (List.map tickOfTrade) := by
      have hpairs := congrArg
        (List.flatMap fun p : String × List RoqBitmex.Trade => p.2.map (Tick.trade p.1)) hruns
      rw [List.flatMap_map, List.flatMap_map] at hpairs
      refine hpairs.trans (List.flatMap_congr fun run hrun => ?_)
      rw [List.map_map]
      -- the symbol of a run is that of each of its rows
      refine List.map_congr_left fun item hitem => ?_
      have hsymbol := symbol_eq_of_mem_run (List.mem_of_mem_filter hrun) hitem
      exact congrArg (fun symbol => Tick.trade symbol (tradeOf item)) hsymbol.symm
    rw [trade_insert haction, if_pos haction, List.flatMap_map]
    refine hticks.trans ?_
    rw [List.flatMap_def, ← List.map_flatten, flatten_published]
  · rw [trade_of_ne_insert haction, if_neg haction]
    rfl

/-! ## Inputs -/

/-- Of silent effects no tick is seen. -/
theorem ticks_visible_of_silent {effects : List Effect} (h : ∀ e ∈ effects, IsSilent e) :
    ((marketFeed g dl).visible effects).flatMap ticks = [] :=
  List.flatMap_eq_nil_iff.mpr fun e he => h e (Machine.mem_of_mem_visible he)

variable (g dl) in
/-- Where everything is dispatched, all ticks are seen. -/
theorem ticks_visible_of_dispatched {effects : List Effect}
    (h : ∀ e ∈ effects, ∃ event, e = .dispatch event) :
    ((marketFeed g dl).visible effects).flatMap ticks = effects.flatMap ticks := by
  have hseen : effects.any (marketFeed g dl).halts = false := by
    rw [List.any_eq_false]
    intro e he
    obtain ⟨event, rfl⟩ := h e he
    exact Bool.false_ne_true
  rw [Machine.visible_of_any_eq_false hseen]

variable (g dl) in
/-- What is seen of a handler: the ticks of its message. -/
theorem ticks_visible_handle (s : MarketData D) (event : Json.Event) (badState : List Bool) :
    ((marketFeed g dl).visible (s.handle g dl event badState).2).flatMap ticks =
      ticksOfEvent g event := by
  cases event with
  | quote message =>
      have hdispatched : ∀ e ∈ quote g message, ∃ event, e = .dispatch event := by
        intro e he
        obtain ⟨item, -, rfl⟩ := List.mem_map.mp he
        exact ⟨_, rfl⟩
      exact (ticks_visible_of_dispatched g dl hdispatched).trans (ticks_quote message)
  | trade message =>
      have hdispatched : ∀ e ∈ trade g message, ∃ event, e = .dispatch event := by
        intro e he
        obtain ⟨value, isLast, rfl⟩ := exists_tradeSummary_of_mem_trade message e he
        exact ⟨_, rfl⟩
      exact (ticks_visible_of_dispatched g dl hdispatched).trans (ticks_trade message)
  | welcome value =>
      have hdownload := (begin_frame g dl s).2.2.2
      exact ticks_visible_of_silent fun e he => (hdownload e he).isSilent
  | instrument message => exact ticks_visible_of_silent (isSilent_instrument s message)
  | orderBookL2 message =>
      exact ticks_visible_of_silent (isSilent_orderBookL2 s message badState)
  | funding message =>
      refine ticks_visible_of_silent fun e he => ?_
      obtain ⟨symbol, hsymbol⟩ := isEffectOf_handleRows s _ e he
      exact isSilent_of_isEffectOf hsymbol
  | _ => rfl

variable (g dl) in
/-- What is seen of an input. -/
theorem ticks_out (s : MarketData D) (i : FeedInput) :
    ((marketFeed g dl).out s i).flatMap ticks = ticksOfInput g i := by
  cases i with
  | ready => rfl
  | disconnected => rfl
  | text text badState =>
      cases text with
      -- what ends the process is no tick
      | error what => rfl
      | ok frame =>
          show ((marketFeed g dl).visible (s.parse g dl (.ok frame) badState).2).flatMap ticks =
            (Json.Parser.dispatch frame g.allowUnknownEventTypes).invoked.head?.elim []
              (ticksOfEvent g)
          rcases Json.Parser.dispatch_cases frame g.allowUnknownEventTypes with
            ⟨event, hhelper⟩ | hleft | hfatal
          · rw [parse_of_helper hhelper, ticks_visible_handle, hhelper]
            rfl
          · rw [hleft]
            simp [parse, hleft]
          · rw [hfatal]
            simp [parse, hfatal, Machine.visible, ticks]

/-- **The tape.** In every run of any texts, parsed or not, from any state, the tops of books and
the trades that are published are, in order, those of the rows of the quote messages and of the
inserted trade messages that reach a handler: of every kept quote, and of every trade of a kept
symbol. -/
theorem tape_of_run (g : Gateway) (dl : Download D) (s : MarketData D) (is : List FeedInput) :
    ((marketFeed g dl).outputs s is).flatMap ticks =
      ((marketFeed g dl).reached s is).flatMap (ticksOfInput g) :=
  (marketFeed g dl).outputs_flatMap (ticks_out g dl) s is

end MarketData

end RoqBitmex
