import RoqBitmex.Gateway.ProductSession
import RoqBitmex.Gateway.Trades

/-! # Discarded symbols

Each handler asks the dispatcher whether to discard a symbol at a place of its own: before it looks
the product up, after it, for each row of a book message and again when it publishes, and when it
publishes trades. `filtering_complete` says that nothing gets past: a discarded symbol is announced
as discarded and never heard of again, its rows call no price cache, and none of them ends up in
what is dispatched for another symbol. -/

namespace RoqBitmex

universe u

open Json (OrderBookL2DataItem TradeDataItem)

/-! ## Rows without contents -/

section Blank

variable (g : Gateway) (action : Json.Action)

/-- A row of a book message without its contents, if its symbol is discarded. -/
def blankRow (row : OrderBookL2DataItem) : OrderBookL2DataItem :=
  if g.discardSymbol row.symbol then
    { symbol := row.symbol, id := 0, side := .undefinedInternal }
  else row

/-- The loop knows whether it discards the symbol it is in. -/
def BookLoop.Coherent (l : BookLoop) : Prop :=
  l.previous ≠ "" → l.discard = g.discardSymbol l.previous

variable {g action}

/-- A row that is blanked keeps its symbol. -/
theorem symbol_blankRow (row : OrderBookL2DataItem) : (blankRow g row).symbol = row.symbol := by
  rw [blankRow]
  split
  · rfl
  · rfl

/-- In the loop's second half the symbol is the row's, and is known to be discarded or kept. -/
theorem BookLoop.enter_coherent (action : Json.Action) {l : BookLoop} (h : l.Coherent g)
    (symbol : String) :
    (l.enter g action symbol).Coherent g ∧
      (l.enter g action symbol).discard = g.discardSymbol symbol := by
  rw [enter]
  split
  · exact ⟨fun _ => rfl, rfl⟩
  · rename_i hnamed
    split
    · exact ⟨fun _ => rfl, rfl⟩
    · rename_i hsame
      rw [not_ne_iff] at hsame
      exact ⟨h, hsame ▸ h hnamed⟩

/-- A row leaves the loop coherent. -/
theorem BookLoop.put_coherent {l l' : BookLoop} (h : l.Coherent g) {item : OrderBookL2DataItem}
    (hput : l.put action item = .ok l') : l'.Coherent g := by
  rw [put] at hput
  split at hput
  · cases hput
    exact h
  · split at hput
    · cases hput
    · cases hput
      exact h

/-- The contents of a row of a discarded symbol are not looked at. -/
theorem BookLoop.item_blankRow {l : BookLoop} (h : l.Coherent g) (item : OrderBookL2DataItem) :
    l.item g action (blankRow g item) = l.item g action item := by
  have hdiscard := (enter_coherent action h item.symbol).2
  rw [BookLoop.item, BookLoop.item, symbol_blankRow, blankRow]
  cases hkept : g.discardSymbol item.symbol with
  | false => rfl
  | true =>
      rw [hkept] at hdiscard
      rw [put, put, hdiscard]
      rfl

/-- The walk over the rows of a message does not look at the contents of discarded rows. -/
theorem Book.run_blankRow (b : Book) (items : List OrderBookL2DataItem) :
    b.run g action (items.map (blankRow g)) = b.run g action items := by
  have hloop : ∀ l : BookLoop, l.Coherent g →
      (items.map (blankRow g)).foldlM (BookLoop.item g action) l =
        items.foldlM (BookLoop.item g action) l := by
    induction items with
    | nil => exact fun _ _ => rfl
    | cons item items ih =>
        intro l hl
        rw [List.map_cons, List.foldlM_cons, List.foldlM_cons, BookLoop.item_blankRow hl]
        cases hitem : l.item g action item with
        | error b' => rfl
        | ok l' =>
            have henter := (BookLoop.enter_coherent action hl item.symbol).1
            exact ih l' (BookLoop.put_coherent henter hitem)
  rw [Book.run, Book.run, hloop]
  exact fun hnamed => absurd rfl hnamed

end Blank

namespace MarketData

variable {D : Type u} (g : Gateway) (dl : Download D)

/-! ## What filtering means -/

/-- The input an effect answers, and the price cache it was met with. -/
structure Cause where
  input : Input
  priceCache : PriceCache

/-- The cause of what is put out. -/
def cause : Monitor (MarketData D) Input Effect (Option Cause) where
  input s _ i := some ⟨i, s.priceCache⟩
  output c _ := c

/-- A book update is made of rows of the message it answers: of kept symbols, and of its own symbol
or none, each at the price the cache answers. -/
def LevelsOfKept (input : Input) (u : MarketByPriceUpdate) : Prop :=
  ∃ message badState, input = .event (.orderBookL2 message) badState ∧
    ∃ rows : List PricedRow, (rows.map (·.row)).Sublist message.data ∧
      (∀ x ∈ rows, g.discardSymbol x.row.symbol = false ∧
        (x.row.symbol = "" ∨ x.row.symbol = u.symbol)) ∧
      u.bids = (rows.filter fun x => x.row.side = .buy).map PricedRow.level ∧
      u.asks = (rows.filter fun x => x.row.side = .sell).map PricedRow.level

/-- A trade summary is made of consecutive rows of the message it answers, all of its own symbol. -/
def TradesOfKept (input : Input) (value : TradeSummary) : Prop :=
  ∃ message badState, input = .event (.trade message) badState ∧
    ∃ rows, rows <:+: message.data ∧ (∀ row ∈ rows, row.symbol = value.symbol) ∧
      value.trades = rows.map tradeOf

/-- What an input may dispatch: of a discarded symbol its reference data, marked as discarded, and
of a kept one also what comes of its own rows. -/
def Filtered (input : Input) : Effect → Prop
  | .dispatch (.referenceData value) => value.discard = g.discardSymbol value.symbol
  | .dispatch (.marketStatus value) => g.discardSymbol value.symbol = false
  | .dispatch (.statisticsUpdate value) => g.discardSymbol value.symbol = false
  | .dispatch (.topOfBook value) => g.discardSymbol value.symbol = false
  | .dispatch (.marketByPriceUpdate u) =>
      g.discardSymbol u.symbol = false ∧ LevelsOfKept g input u
  | .dispatch (.tradeSummary value _) =>
      g.discardSymbol value.symbol = false ∧ TradesOfKept input value
  | _ => True

/-- The cache after the calls for rows. -/
def calledFor (action : Json.Action) (cache : PriceCache) (rows : List OrderBookL2DataItem) :
    PriceCache :=
  rows.foldl (fun cache row => cache.after action row.id row.price) cache

/-- An input changes the price cache by the calls for rows of kept symbols only. -/
def CacheFiltered (c : Cause) (cache' : PriceCache) : Prop :=
  match c.input with
  | .event (.orderBookL2 message) _ =>
      ∃ first, first <+: message.data ∧
        cache' = calledFor message.action c.priceCache
          (first.filter fun row => !g.discardSymbol row.symbol)
  | _ => cache' = c.priceCache

/-- An input without the contents of book rows of discarded symbols. -/
def blank : Input → Input
  | .event (.orderBookL2 message) badState =>
      .event (.orderBookL2 { message with data := message.data.map (blankRow g) }) badState
  | i => i

/-- The session does the same in every run whose inputs differ in nothing but the contents of book
rows of discarded symbols. -/
def IgnoresDiscarded (s : MarketData D) (is : List Input) : Prop :=
  ∀ is' : List Input, is'.map (blank g) = is.map (blank g) →
    (marketData g dl).collect (marketData g dl).step s is' =
      (marketData g dl).collect (marketData g dl).step s is

variable {g dl}

/-! ## Book messages -/

/-- The cache after rows is what the calls for the rows that are kept leave. -/
theorem cacheAfter_eq (action : Json.Action) (cache : PriceCache)
    (rows : List OrderBookL2DataItem) :
    cacheAfter g action cache rows =
      calledFor action cache (rows.filter fun row => !g.discardSymbol row.symbol) := by
  induction rows generalizing cache with
  | nil => rfl
  | cons row rows ih =>
      cases hdiscard : g.discardSymbol row.symbol with
      | true => simpa [cacheAfter, hdiscard] using ih cache
      | false =>
          have hrest := ih (cache.after action row.id row.price)
          simpa [cacheAfter, calledFor, hdiscard] using hrest

/-- The rows of a run are of its symbol, or of none. -/
theorem symbol_of_mem_run {rows : List OrderBookL2DataItem}
    (hchain : rows.IsChain fun x y => Book.continues x y = true) :
    ∀ row ∈ rows, row.symbol = "" ∨ row.symbol = runSymbol rows := by
  induction rows with
  | nil => simp
  | cons first rows ih =>
      cases rows with
      | nil => simp [runSymbol]
      | cons second rows =>
          obtain ⟨hfirst, hrest⟩ := List.isChain_cons_cons.mp hchain
          have hsymbol : runSymbol (first :: second :: rows) = runSymbol (second :: rows) := by
            simp [runSymbol]
          have hrows := ih hrest
          rw [hsymbol]
          intro row hrow
          rcases List.mem_cons.mp hrow with rfl | hrow
          · -- the first row has no symbol, or the symbol of the second
            simp only [Book.continues, Bool.or_eq_true, decide_eq_true_eq] at hfirst
            rcases hfirst with hnone | hsame
            · exact .inl hnone
            · rw [hsame]
              exact hrows second List.mem_cons_self
          · exact hrows row hrow

/-- The updates of a message are made of rows of kept symbols. -/
theorem levelsOfKept_of_mem {cache : PriceCache} {message : Json.OrderBookL2}
    {u : MarketByPriceUpdate} (badState : List Bool)
    (hu : u ∈ (bookUpdates g message.action cache (message.data.splitBy Book.continues)).updates) :
    g.discardSymbol u.symbol = false ∧
      LevelsOfKept g (.event (.orderBookL2 message) badState) u := by
  obtain ⟨run, hrun, cache', -, hkept, rfl⟩ := exists_run_of_mem_bookUpdates hu
  refine ⟨hkept, message, badState, rfl, pricedRows g message.action cache' run, ?_, ?_, ?_, ?_⟩
  · rw [map_row_pricedRows]
    have hsublist : run.Sublist message.data := by
      rw [← List.flatten_splitBy Book.continues message.data]
      exact List.sublist_flatten_of_mem hrun
    exact List.filter_sublist.trans hsublist
  · intro x hx
    obtain ⟨hmem, hkept'⟩ := row_mem_of_mem_pricedRows hx
    exact ⟨hkept', symbol_of_mem_run (List.isChain_of_mem_splitBy hrun) _ hmem⟩
  · simp [Book.update, Levels.collect]
  · simp [Book.update, Levels.collect]

/-- The effects that are no market data. -/
def IsPlain : Effect → Prop
  | .dispatch (.streamStatus _) => True
  | .dispatch _ => False
  | _ => True

/-- An effect that is no market data passes the filter. -/
theorem IsPlain.filtered {e : Effect} (h : IsPlain e) (input : Input) : Filtered g input e := by
  cases e with
  | dispatch event =>
      cases event with
      | streamStatus value => trivial
      | _ => exact h.elim
  | _ => trivial

/-- An effect of the download is no market data. -/
theorem IsDownloadEffect.isPlain {e : Effect} (h : IsDownloadEffect e) : IsPlain e := by
  cases e with
  | dispatch event =>
      cases event with
      | streamStatus value => trivial
      | _ => exact h.elim
  | _ => trivial

/-- A failed assertion is no market data. -/
theorem isPlain_assertEffect {condition : Bool} {site : Site} :
    ∀ e ∈ assertEffect condition site, IsPlain e := by
  intro e he
  obtain ⟨-, rfl⟩ := eq_of_mem_assertEffect he
  trivial

/-- A book message puts out updates of kept symbols, and effects that are no market data. -/
theorem filtered_orderBookL2 (s : MarketData D) (message : Json.OrderBookL2)
    (badState : List Bool) :
    ∀ e ∈ (s.orderBookL2 g dl message badState).2,
      Filtered g (.event (.orderBookL2 message) badState) e := by
  intro e he
  by_cases hhandled : message.action = .partial_ ∨ s.partialReceived.orderBookL2 = true
  · obtain ⟨tail, hstep⟩ := orderBookL2_handled g dl hhandled badState
    rw [hstep.effects] at he
    rcases List.mem_append.mp he with h | he
    · exact (isPlain_assertEffect e h).filtered _
    rcases List.mem_append.mp he with h | h
    · rcases mem_dispatchEffects h with ⟨u, hu, rfl⟩ | rfl | rfl
      · exact levelsOfKept_of_mem badState hu
      · trivial
      · trivial
    · cases hstop : (s.bookResult g message).stop with
      | none => exact (hstep.isDownloadEffect_of_end hstop e h).isPlain.filtered _
      | some stop =>
          rw [hstep.tail_of_stop stop hstop, List.mem_singleton] at h
          rcases stop_of_bookUpdates hstop with rfl | ⟨site, rfl⟩
          · rw [h]
            trivial
          · rw [h]
            trivial
  · rw [not_or, Bool.not_eq_true] at hhandled
    rw [orderBookL2_dropped hhandled.1 hhandled.2] at he
    exact (isPlain_assertEffect e he).filtered _

/-- A book message changes the price cache by the calls for rows of kept symbols. -/
theorem cacheFiltered_orderBookL2 (s : MarketData D) (message : Json.OrderBookL2)
    (badState : List Bool) :
    CacheFiltered g ⟨.event (.orderBookL2 message) badState, s.priceCache⟩
      (s.orderBookL2 g dl message badState).1.priceCache := by
  by_cases hhandled : message.action = .partial_ ∨ s.partialReceived.orderBookL2 = true
  · obtain ⟨tail, hstep⟩ := orderBookL2_handled g dl hhandled badState
    obtain ⟨first, hfirst, hcache⟩ : ∃ first,
        first <+: (message.data.splitBy Book.continues).flatten ∧
          (s.bookResult g message).priceCache = cacheAfter g message.action s.priceCache first :=
      priceCache_of_bookUpdates _ _
    rw [List.flatten_splitBy] at hfirst
    refine ⟨first, hfirst, ?_⟩
    rw [hstep.priceCache, hcache, cacheAfter_eq]
  · rw [not_or, Bool.not_eq_true] at hhandled
    rw [orderBookL2_dropped hhandled.1 hhandled.2]
    exact ⟨[], List.nil_prefix, rfl⟩

/-- A book message does not look at the contents of discarded rows. -/
theorem orderBookL2_blank (s : MarketData D) (message : Json.OrderBookL2) (badState : List Bool) :
    s.orderBookL2 g dl { message with data := message.data.map (blankRow g) } badState =
      s.orderBookL2 g dl message badState := by
  simp only [orderBookL2, Book.run_blankRow]

/-! ## The other messages -/

/-- A row of a discarded symbol publishes its reference data, marked as discarded, or nothing. -/
theorem filtered_handle (cache : ProductCache) (row : ProductRow) (input : Input) :
    ∀ e ∈ (ProductRow.handle g cache row).2, Filtered g input e := by
  intro e he
  cases ProductRow.output_of_mem_handle he with
  | unnamed hsymbol => trivial
  | referenceData product => rfl
  | marketStatus product hkept => exact hkept
  | statistics product timestamp hkept => exact hkept

/-- What instrument rows publish passes the filter. -/
theorem filtered_handleRows (s : MarketData D) (rows : List ProductRow) (input : Input) :
    ∀ e ∈ (s.handleRows g rows).2, Filtered g input e := by
  have hbatch : ∀ e ∈ ((productRows g).batch s.productCache rows).2, Filtered g input e :=
    Machine.batch_forall (fun cache row => filtered_handle cache row input) _ _
  exact hbatch

/-- What an instrument message publishes passes the filter. -/
theorem filtered_instrument (s : MarketData D) (message : Json.Instrument) (input : Input) :
    ∀ e ∈ (s.instrument g dl message).2, Filtered g input e := by
  intro e he
  cases haction : message.action with
  | partial_ =>
      simp only [instrument, haction] at he
      split at he
      · rw [List.mem_singleton.mp he]
        trivial
      · rcases List.mem_append.mp he with h | h
        · exact filtered_handleRows _ _ _ e h
        · exact ((checkRelaxed_frame g dl _ _).2.2.2 e h).isPlain.filtered _
  | update =>
      simp only [instrument, haction] at he
      split at he
      · exact filtered_handleRows _ _ _ e he
      · cases he
  | delete =>
      simp only [instrument, haction] at he
      cases he
  | _ =>
      simp only [instrument, haction] at he
      rw [List.mem_singleton.mp he]
      trivial

/-- A summary is made of a run that is published. -/
theorem exists_run_of_mem_tradeSummariesOf {runs : List (List TradeDataItem)}
    {x : TradeSummary × Bool} (hx : x ∈ tradeSummariesOf g runs) :
    ∃ run ∈ runs, isPublishedTrade g run = true ∧ ∃ next, x.1 = tradeSummaryOf g run next := by
  induction runs with
  | nil => cases hx
  | cons run rest ih =>
      rw [tradeSummariesOf] at hx
      rcases List.mem_append.mp hx with h | h
      · split at h
        · rename_i hpublished
          exact ⟨run, by simp, hpublished, _, congrArg Prod.fst (List.mem_singleton.mp h)⟩
        · cases h
      · obtain ⟨run', hrun', hsummary⟩ := ih h
        exact ⟨run', by simp [hrun'], hsummary⟩

/-- The summaries of a trade message are of kept symbols, each made of rows of its own. -/
theorem filtered_trade (message : Json.Trade) (badState : List Bool) :
    ∀ e ∈ trade g message, Filtered g (.event (.trade message) badState) e := by
  intro e he
  by_cases haction : message.action = .insert
  · rw [trade_insert haction] at he
    obtain ⟨⟨value, isLast⟩, hx, rfl⟩ := List.mem_map.mp he
    obtain ⟨run, hrun, hpublished, next, rfl⟩ := exists_run_of_mem_tradeSummariesOf hx
    have hkept : g.discardSymbol (tradeSymbol run) = false := by
      simp only [isPublishedTrade, decide_eq_true_eq] at hpublished
      exact Bool.eq_false_iff.mpr hpublished.2
    refine ⟨hkept, message, badState, rfl, run, ?_, ?_, rfl⟩
    · have hinfix := List.infix_of_mem_flatten hrun
      rwa [flatten_keyRuns] at hinfix
    · exact fun row hrow => symbol_eq_of_mem_run hrun hrow
  · rw [trade_of_ne_insert haction] at he
    cases he

/-! ## Any input -/

variable (g dl) in
/-- An input puts out what it may. -/
theorem filtered_step (s : MarketData D) (i : Input) :
    ∀ e ∈ (s.step g dl i).2, Filtered g i e := by
  intro e he
  cases i with
  | ready => rw [List.mem_singleton.mp he]; trivial
  | disconnected => rw [List.mem_singleton.mp he]; trivial
  | event event badState =>
      cases event with
      | welcome value => exact ((begin_frame g dl s).2.2.2 e he).isPlain.filtered _
      | instrument message => exact filtered_instrument s message _ e he
      | quote message =>
          obtain ⟨item, hitem, rfl⟩ := List.mem_map.mp he
          have hkept := (List.mem_filter.mp hitem).2
          simpa [Filtered] using hkept
      | orderBookL2 message => exact filtered_orderBookL2 s message badState e he
      | trade message => exact filtered_trade message badState e he
      | funding message => exact filtered_handleRows s _ _ e he
      | _ => simp_all [step, handle, Filtered]

variable (g dl) in
/-- An input changes the price cache as it may. -/
theorem cacheFiltered_step (s : MarketData D) (i : Input) :
    CacheFiltered g ⟨i, s.priceCache⟩ (s.step g dl i).1.priceCache := by
  cases i with
  | ready => rfl
  | disconnected => rfl
  | event event badState =>
      cases event with
      | welcome value => exact (begin_frame g dl s).2.2.1
      | instrument message => exact (instrument_frame s message).1
      | orderBookL2 message => exact cacheFiltered_orderBookL2 s message badState
      | _ => rfl

variable (g dl) in
/-- An input is answered whatever the contents of the book rows of discarded symbols. -/
theorem step_blank (s : MarketData D) (i : Input) :
    s.step g dl (blank g i) = s.step g dl i := by
  cases i with
  | ready => rfl
  | disconnected => rfl
  | event event badState =>
      cases event with
      | orderBookL2 message => exact orderBookL2_blank s message badState
      | _ => rfl

/-- **Filtering is complete.** In every run, whatever its messages contain, what is dispatched is of
kept symbols and made of their own rows, but for reference data marked as discarded; the price cache
changes by the calls for rows of kept symbols only; and the contents of book rows of discarded
symbols make no difference to the session. -/
theorem filtering_complete (g : Gateway) (dl : Download D) (s : MarketData D) (is : List Input) :
    (marketData g dl).Sat cause (fun _ c e => ∀ c' ∈ c, Filtered g c'.input e)
        (fun s' c => ∀ c' ∈ c, CacheFiltered g c' s'.priceCache) s none is ∧
      IgnoresDiscarded g dl s is := by
  constructor
  · apply Machine.along_of_forall
    intro s c i
    have hafter : (marketData g dl).after cause s c i = some ⟨i, s.priceCache⟩ :=
      cause.outputs_of_forall (fun _ _ _ => rfl) _
    refine ⟨Monitor.holds_of_mem (fun _ _ => rfl) ?_, ?_⟩
    · intro e he c' hc'
      obtain rfl := Option.some.inj hc'
      exact filtered_step g dl s i e (Machine.mem_of_mem_visible he)
    · intro _ c' hc'
      rw [hafter] at hc'
      obtain rfl := Option.some.inj hc'
      exact cacheFiltered_step g dl s i
  · intro is' hblank
    have hstep : ∀ s i, (marketData g dl).step s (blank g i) = (marketData g dl).step s i :=
      step_blank g dl
    rw [← Machine.collect_step_map hstep s is', hblank, Machine.collect_step_map hstep s is]

end MarketData

end RoqBitmex
