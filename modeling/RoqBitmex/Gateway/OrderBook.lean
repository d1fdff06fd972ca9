import RoqBitmex.Gateway.PriceCache
import RoqBitmex.Library.Runs

/-! # Order book messages

`MarketData::operator()(Trace<OrderBookL2>)` walks over the rows of a message, collects the levels
of a symbol, and publishes them when the symbol changes and at the end. The dispatcher may refuse an
update with `BadState`, which is answered by subscribing again and clearing a flag, while the loop
goes on. `Book.run_eq` separates what the message publishes (`bookUpdates`, a function of the price
cache and the rows) from what the refusals do. -/

namespace RoqBitmex

open Json (OrderBookL2DataItem Action)

/-! ## Levels -/

/-- The scratch variables of a run of rows: the latest time and the levels collected so far. -/
structure Levels where
  timestamp : Int := 0
  bids : List MBPUpdate := []
  asks : List MBPUpdate := []
  deriving DecidableEq, Repr

/-- Whether no level has been collected. -/
def Levels.isEmpty (l : Levels) : Bool := l.bids.isEmpty && l.asks.isEmpty

/-- Append a level to the side of a row, or end the process when the row has no side. -/
def Levels.add (l : Levels) (side : Json.Side) (level : MBPUpdate) : Except Effect Levels :=
  match side with
  | .buy => .ok { l with bids := l.bids ++ [level] }
  | .sell => .ok { l with asks := l.asks ++ [level] }
  | .undefinedInternal | .unknownInternal => .error (.fatal .bookSide)

/-- A row without a side ends the process. -/
theorem Levels.add_error {l : Levels} {side : Json.Side} {level : MBPUpdate} {effect : Effect}
    (h : l.add side level = .error effect) : effect = .fatal .bookSide := by
  cases side with
  | buy => cases h
  | sell => cases h
  | undefinedInternal => exact (Except.error.inj h).symm
  | unknownInternal => exact (Except.error.inj h).symm

/-- What the loop does with a row of a symbol that is kept: the price cache and the levels after it,
or the cache and the effect the message ends with. -/
def bookLevel (action : Action) (cache : PriceCache) (levels : Levels)
    (item : OrderBookL2DataItem) : Except (PriceCache × Effect) (PriceCache × Levels) :=
  -- `update_max`: the time of a run is its latest row's
  let levels := { levels with timestamp := max levels.timestamp (nanoseconds item.timestamp) }
  match cache.call action item.id item.price item.size with
  | .error site => .error (cache, .fatal site)
  -- without a price the connection is closed and the message left where it is
  | .ok (cache, .nan, _) => .error (cache, .close)
  | .ok (cache, .num price, size) =>
      match levels.add item.side ⟨price, size⟩ with
      | .error effect => .error (cache, effect)
      | .ok levels => .ok (cache, levels)

/-! ## The loop -/

/-- What a book message works on: the price cache, the flag that a snapshot has been received, the
dispatcher's answers to the updates to come (whether it refuses them) and the effects so far. -/
structure Book where
  priceCache : PriceCache
  partialReceived : Bool
  badState : List Bool
  effects : List Effect

namespace Book

variable (g : Gateway) (action : Action)

/-- `MarketData::resubscribe_order_book_l2`. -/
def resubscribe (b : Book) : Book :=
  { b with
    partialReceived := false
    effects := b.effects ++ [.unsubscribe .orderBookL2, .subscribe [.orderBookL2]] }

/-- The update published for a symbol. -/
def update (symbol : String) (levels : Levels) : MarketByPriceUpdate where
  streamId := g.streamId
  exchange := g.exchange
  symbol := symbol
  bids := levels.bids
  asks := levels.asks
  updateType := if action = .partial_ then .snapshot else .incremental
  exchangeTimeUtc := levels.timestamp

/-- Hand an update to the dispatcher, which may refuse it with `BadState`. -/
def dispatch (b : Book) (u : MarketByPriceUpdate) : Book :=
  let b' := { b with
    badState := b.badState.tail
    effects := b.effects ++ [.dispatch (.marketByPriceUpdate u)] }
  if b.badState.headD false then b'.resubscribe else b'

/-- `MarketData::publish_market_by_price`. -/
def publishMarketByPrice (b : Book) (symbol : String) (levels : Levels) : Book :=
  let b := { b with effects := b.effects ++ assertEffect (!levels.isEmpty) .bookEmpty }
  if g.discardSymbol symbol then b else b.dispatch (update g action symbol levels)

/-- The `publish` of the loop: nothing without a symbol or without levels. -/
def publish (b : Book) (previous : String) (levels : Levels) : Book :=
  if previous ≠ "" ∧ ¬ levels.isEmpty then b.publishMarketByPrice g action previous levels else b

end Book

/-- The variables of the loop. -/
structure BookLoop where
  book : Book
  previous : String := ""
  discard : Bool := true
  levels : Levels := {}

namespace BookLoop

variable (g : Gateway) (action : Action)

/-- The first half of the loop body: where the symbol changes, the levels are published. -/
def enter (l : BookLoop) (symbol : String) : BookLoop :=
  if l.previous = "" then { l with previous := symbol, discard := g.discardSymbol symbol }
  else if l.previous ≠ symbol then
    { book := l.book.publish g action l.previous l.levels
      previous := symbol
      discard := g.discardSymbol symbol
      levels := {} }
  else l

/-- The second half of the loop body: the row's level is collected, unless its symbol is
discarded. -/
def put (l : BookLoop) (item : OrderBookL2DataItem) : Except Book BookLoop :=
  if l.discard then .ok l
  else
    match bookLevel action l.book.priceCache l.levels item with
    | .error (cache, effect) =>
        .error { l.book with priceCache := cache, effects := l.book.effects ++ [effect] }
    | .ok (cache, levels) =>
        .ok { l with book := { l.book with priceCache := cache }, levels := levels }

/-- The loop body. -/
def item (l : BookLoop) (item : OrderBookL2DataItem) : Except Book BookLoop :=
  (l.enter g action item.symbol).put action item

/-- The end of the loop. -/
def finish (l : BookLoop) : Book := l.book.publish g action l.previous l.levels

end BookLoop

namespace Book

variable (g : Gateway) (action : Action)

/-- The walk over the rows of a message, which may end early. -/
def run (b : Book) (items : List OrderBookL2DataItem) : Except Book Book :=
  BookLoop.finish g action <$> items.foldlM (BookLoop.item g action) { book := b }

/-! ## Run by run -/

/-- A row continues the run of the row before it: they are of one symbol, or the row before it has
no symbol, which starts nothing. -/
def continues (x y : OrderBookL2DataItem) : Bool := x.symbol = "" || x.symbol = y.symbol

/-- The second half of the loop body on the book and the levels. -/
def level (x : Book × Levels) (item : OrderBookL2DataItem) : Except Book (Book × Levels) :=
  if g.discardSymbol item.symbol then .ok x
  else
    match bookLevel action x.1.priceCache x.2 item with
    | .error (cache, effect) =>
        .error { x.1 with priceCache := cache, effects := x.1.effects ++ [effect] }
    | .ok (cache, levels) => .ok ({ x.1 with priceCache := cache }, levels)

/-- The walk as a loop over runs. -/
def runLoop : RunLoop (Except Book) OrderBookL2DataItem Book (Book × Levels) where
  related := continues
  start b := (b, {})
  body := level g action
  close x last := x.1.publish g action last.symbol x.2
  stop := Prod.fst
  stop_start _ := rfl

/-- The loop's variables: the symbol of the last row and whether it is discarded. -/
def toLoop (x : (Book × Levels) × Option OrderBookL2DataItem) : BookLoop where
  book := x.1.1
  previous := (x.2.map (·.symbol)).getD ""
  discard := (x.2.map fun last => g.discardSymbol last.symbol).getD true
  levels := x.1.2

variable {g action}

variable (g action) in
/-- The loop's variables once a row's symbol has been entered. -/
theorem enter_toLoop (x : (Book × Levels) × Option OrderBookL2DataItem)
    (item : OrderBookL2DataItem) :
    ∃ x' : Book × Levels, (toLoop g x).enter g action item.symbol = toLoop g (x', some item) ∧
      (runLoop g action).step x item = (fun t => (t, some item)) <$> level g action x' item := by
  obtain ⟨⟨b, levels⟩, last⟩ := x
  cases last with
  | none => exact ⟨(b, levels), by simp [BookLoop.enter, toLoop], rfl⟩
  | some last =>
      -- a row without a symbol starts no run, so the next row joins it
      by_cases hempty : last.symbol = ""
      · refine ⟨(b, levels), by simp [BookLoop.enter, toLoop, hempty], ?_⟩
        simp [RunLoop.step, runLoop, continues, hempty]
      · by_cases hsame : last.symbol = item.symbol
        · refine ⟨(b, levels), ?_, ?_⟩
          · have hitem : item.symbol ≠ "" := hsame ▸ hempty
            simp [BookLoop.enter, toLoop, hsame, hitem]
          · simp [RunLoop.step, runLoop, continues, hsame]
        · -- the symbol changes: the run before is published
          refine ⟨(b.publish g action last.symbol levels, {}), ?_, ?_⟩
          · simp [BookLoop.enter, toLoop, hempty, hsame]
          · simp [RunLoop.step, runLoop, continues, hempty, hsame]

/-- The second half of the loop body, on the variables of a row's symbol. -/
theorem put_toLoop (x : Book × Levels) (item : OrderBookL2DataItem) :
    (toLoop g (x, some item)).put action item =
      (fun t => toLoop g (t, some item)) <$> level g action x item := by
  cases hdiscard : g.discardSymbol item.symbol with
  | true => simp [BookLoop.put, toLoop, level, hdiscard]
  | false =>
      cases hlevel : bookLevel action x.1.priceCache x.2 item with
      | error e => simp [BookLoop.put, toLoop, level, hdiscard, hlevel]
      | ok y => simp [BookLoop.put, toLoop, level, hdiscard, hlevel]

/-- One pass of the walk is one pass of the loop over runs. -/
theorem item_toLoop (x : (Book × Levels) × Option OrderBookL2DataItem)
    (item : OrderBookL2DataItem) :
    BookLoop.item g action (toLoop g x) item =
      toLoop g <$> (runLoop g action).step x item := by
  obtain ⟨x', henter, hstep⟩ := enter_toLoop g action x item
  rw [BookLoop.item, henter, put_toLoop, hstep, Functor.map_map]

/-- The loop finishes as the rule for runs does. -/
theorem finish_toLoop (x : (Book × Levels) × Option OrderBookL2DataItem) :
    BookLoop.finish g action (toLoop g x) = (runLoop g action).finish x := by
  obtain ⟨⟨b, levels⟩, last⟩ := x
  cases last with
  | none => simp [BookLoop.finish, toLoop, RunLoop.finish, runLoop, publish]
  | some last => rfl

/-- **The walk goes run by run.** -/
theorem run_eq_groups (b : Book) (items : List OrderBookL2DataItem) :
    b.run g action items = (items.splitBy continues).foldlM (runLoop g action).group b := by
  have hstart : ({ book := b } : BookLoop) = toLoop g ((runLoop g action).start b, none) := rfl
  refine Eq.trans ?_ ((runLoop g action).loop_eq_groups b items)
  rw [run, hstart, foldlM_hom item_toLoop, Functor.map_map, RunLoop.loop]
  exact map_congr fun x => finish_toLoop x

end Book

/-! ## What a message publishes -/

/-- What the rows of a message come to: the updates published, the price cache afterwards and the
effect the message ends with, if it does not reach its end. -/
structure BookResult where
  updates : List MarketByPriceUpdate
  priceCache : PriceCache
  stop : Option Effect

section Result

variable (g : Gateway) (action : Action)

/-- What the loop does with a row: nothing, if its symbol is discarded. -/
def rowLevel (x : PriceCache × Levels) (item : OrderBookL2DataItem) :
    Except (PriceCache × Effect) (PriceCache × Levels) :=
  if g.discardSymbol item.symbol then .ok x else bookLevel action x.1 x.2 item

/-- The levels of a run of rows. -/
def runLevels (cache : PriceCache) (rows : List OrderBookL2DataItem) :
    Except (PriceCache × Effect) (PriceCache × Levels) :=
  rows.foldlM (rowLevel g action) (cache, {})

/-- The symbol of a run, which is its last row's. -/
def runSymbol (rows : List OrderBookL2DataItem) : String :=
  (rows.getLast?.map (·.symbol)).getD ""

/-- The update published for a run, if there is one. -/
def runUpdate (rows : List OrderBookL2DataItem) (levels : Levels) : Option MarketByPriceUpdate :=
  if runSymbol rows ≠ "" ∧ ¬ levels.isEmpty ∧ ¬ g.discardSymbol (runSymbol rows) then
    some (Book.update g action (runSymbol rows) levels)
  else none

/-- What the runs of a message come to: a function of the price cache and the rows. -/
def bookUpdates : PriceCache → List (List OrderBookL2DataItem) → BookResult
  | cache, [] => ⟨[], cache, none⟩
  | cache, rows :: rest =>
      match runLevels g action cache rows with
      -- the run in progress is lost, what went out before it stays
      | .error (cache, effect) => ⟨[], cache, some effect⟩
      | .ok (cache, levels) =>
          let result := bookUpdates cache rest
          { result with updates := (runUpdate g action rows levels).toList ++ result.updates }

/-- Whether a run is published: its symbol is named and kept. -/
def isPublished (rows : List OrderBookL2DataItem) : Bool :=
  runSymbol rows ≠ "" ∧ ¬ g.discardSymbol (runSymbol rows)

/-- The runs of a message that are published: up to the first one with a row that cannot be
handled, those whose symbol is named and kept. -/
def publishedRuns : PriceCache → List (List OrderBookL2DataItem) → List (List OrderBookL2DataItem)
  | _, [] => []
  | cache, rows :: rest =>
      match runLevels g action cache rows with
      | .error _ => []
      | .ok (cache, _) => (if isPublished g rows then [rows] else []) ++ publishedRuns cache rest

end Result

section Result

variable {g : Gateway} {action : Action}

/-- A row of a symbol that is discarded changes nothing. -/
theorem rowLevel_of_discard {item : OrderBookL2DataItem} (h : g.discardSymbol item.symbol = true)
    (x : PriceCache × Levels) : rowLevel g action x item = .ok x := if_pos h

/-- A row of a symbol that is kept is a level. -/
theorem rowLevel_of_kept {item : OrderBookL2DataItem} (h : g.discardSymbol item.symbol = false)
    (x : PriceCache × Levels) : rowLevel g action x item = bookLevel action x.1 x.2 item :=
  if_neg (by simp [h])

/-- The update of a run is a snapshot in a snapshot message and an increment otherwise. -/
theorem updateType_of_mem_runUpdate {rows : List OrderBookL2DataItem} {levels : Levels}
    {u : MarketByPriceUpdate} (hu : u ∈ runUpdate g action rows levels) :
    u.updateType = if action = .partial_ then .snapshot else .incremental := by
  rw [runUpdate] at hu
  split at hu
  · obtain rfl := Option.some.inj hu
    rfl
  · cases hu

/-- The updates of a message are all snapshots or all increments. -/
theorem updateType_of_mem_bookUpdates {cache : PriceCache}
    {groups : List (List OrderBookL2DataItem)} {u : MarketByPriceUpdate}
    (hu : u ∈ (bookUpdates g action cache groups).updates) :
    u.updateType = if action = .partial_ then .snapshot else .incremental := by
  induction groups generalizing cache with
  | nil => cases hu
  | cons rows rest ih =>
      rw [bookUpdates] at hu
      split at hu
      · cases hu
      · rcases List.mem_append.mp hu with h | h
        · exact updateType_of_mem_runUpdate (Option.mem_toList.mp h)
        · exact ih h

/-- A row that is handled leaves a level. -/
theorem isEmpty_of_bookLevel {cache cache' : PriceCache} {levels levels' : Levels}
    {item : OrderBookL2DataItem}
    (h : bookLevel action cache levels item = .ok (cache', levels')) : levels'.isEmpty = false := by
  rw [bookLevel] at h
  split at h
  · cases h
  · cases h
  · split at h
    · cases h
    · rename_i hadd
      cases h
      cases hside : item.side <;> rw [hside, Levels.add] at hadd <;> cases hadd <;>
        simp [Levels.isEmpty]

/-- The run of a symbol that is kept has levels. -/
theorem isEmpty_of_runLevels {cache cache' : PriceCache} {rows : List OrderBookL2DataItem}
    {levels levels' : Levels} {last : OrderBookL2DataItem} (hlast : rows.getLast? = some last)
    (hkept : g.discardSymbol last.symbol = false)
    (h : rows.foldlM (rowLevel g action) (cache, levels) = .ok (cache', levels')) :
    levels'.isEmpty = false := by
  obtain ⟨init, rfl⟩ : ∃ init, rows = init ++ [last] :=
    ⟨rows.dropLast, (List.dropLast_append_getLast? last hlast).symm⟩
  rw [List.foldlM_append] at h
  cases hinit : init.foldlM (rowLevel g action) (cache, levels) with
  | error e =>
      rw [hinit] at h
      cases h
  | ok x =>
      -- the last row is of a symbol that is kept, so it leaves a level
      have hlevel : bookLevel action x.1 x.2 last = .ok (cache', levels') := by
        rw [← rowLevel_of_kept hkept, ← h, hinit]
        show _ = rowLevel g action x last >>= pure
        rw [bind_pure]
      exact isEmpty_of_bookLevel hlevel

/-- A run leads to an update exactly when its symbol is named and kept. -/
theorem isSome_runUpdate {cache cache' : PriceCache} {rows : List OrderBookL2DataItem}
    {levels : Levels} (hne : rows ≠ [])
    (h : runLevels g action cache rows = .ok (cache', levels)) :
    (runUpdate g action rows levels).isSome = isPublished g rows := by
  obtain ⟨last, hlast⟩ : ∃ last, rows.getLast? = some last :=
    ⟨rows.getLast hne, List.getLast?_eq_some_getLast hne⟩
  have hsymbol : runSymbol rows = last.symbol := by rw [runSymbol, hlast]; rfl
  rw [runUpdate, isPublished, hsymbol]
  cases hkept : g.discardSymbol last.symbol with
  | true => simp
  | false =>
      have hlevels := isEmpty_of_runLevels hlast hkept h
      by_cases hname : last.symbol = "" <;> simp [hname, hlevels]

/-- **One update for each published run.** -/
theorem length_bookUpdates {cache : PriceCache} {groups : List (List OrderBookL2DataItem)}
    (hne : ∀ rows ∈ groups, rows ≠ []) :
    (bookUpdates g action cache groups).updates.length =
      (publishedRuns g action cache groups).length := by
  induction groups generalizing cache with
  | nil => rfl
  | cons rows rest ih =>
      rw [bookUpdates, publishedRuns]
      cases hlevels : runLevels g action cache rows with
      | error e => rfl
      | ok x =>
          have hrest : (bookUpdates g action x.1 rest).updates.length =
              (publishedRuns g action x.1 rest).length :=
            ih fun rows' h' => hne rows' (by simp [h'])
          have hrun := isSome_runUpdate (hne rows (by simp)) hlevels
          cases hupdate : runUpdate g action rows x.2 with
          | none =>
              rw [hupdate] at hrun
              simp [← hrun, hupdate, hrest]
          | some u =>
              rw [hupdate] at hrun
              simp [← hrun, hupdate, hrest]

/-- A row whose action was not parsed ends the message. -/
theorem bookLevel_of_unparsed (h : action = .undefinedInternal ∨ action = .unknownInternal)
    (cache : PriceCache) (levels : Levels) (item : OrderBookL2DataItem) :
    bookLevel action cache levels item = .error (cache, .fatal .priceCacheAction) := by
  rcases h with rfl | rfl
  · rfl
  · rfl

/-- A message whose action was not parsed publishes nothing. -/
theorem bookUpdates_of_unparsed (h : action = .undefinedInternal ∨ action = .unknownInternal)
    (cache : PriceCache) (groups : List (List OrderBookL2DataItem)) :
    (bookUpdates g action cache groups).updates = [] := by
  -- a run that is handled all the same has rows of discarded symbols only
  have hrun : ∀ (rows : List OrderBookL2DataItem) (cache cache' : PriceCache)
      (levels levels' : Levels),
      rows.foldlM (rowLevel g action) (cache, levels) = .ok (cache', levels') →
        levels' = levels := by
    intro rows
    induction rows with
    | nil =>
        intro cache cache' levels levels' heq
        cases heq
        rfl
    | cons row rows ih =>
        intro cache cache' levels levels' heq
        rw [List.foldlM_cons] at heq
        cases hdiscard : g.discardSymbol row.symbol with
        | true =>
            rw [rowLevel_of_discard hdiscard] at heq
            exact ih _ _ _ _ heq
        | false =>
            rw [rowLevel_of_kept hdiscard, bookLevel_of_unparsed h] at heq
            cases heq
  induction groups generalizing cache with
  | nil => rfl
  | cons rows rest ih =>
      rw [bookUpdates]
      split
      · rfl
      · rename_i cache' levels hlevels
        obtain rfl : levels = {} := hrun rows _ _ _ _ hlevels
        simp [runUpdate, Levels.isEmpty, ih]

/-- The effects that end a message early: closing the connection or ending the process. -/
theorem bookLevel_error {cache cache' : PriceCache} {levels : Levels} {item : OrderBookL2DataItem}
    {effect : Effect} (h : bookLevel action cache levels item = .error (cache', effect)) :
    effect = .close ∨ ∃ site, effect = .fatal site := by
  rw [bookLevel] at h
  split at h
  · cases h
    exact Or.inr ⟨_, rfl⟩
  · cases h
    exact Or.inl rfl
  · split at h
    · rename_i effect' hadd
      cases h
      exact Or.inr ⟨_, Levels.add_error hadd⟩
    · cases h

/-- A row whose action was parsed, with a side, and with price and size if it is new, does not end
the process. -/
theorem bookLevel_error_eq_close {cache cache' : PriceCache} {levels : Levels}
    {item : OrderBookL2DataItem} {effect : Effect}
    (hparsed : action ≠ .undefinedInternal ∧ action ≠ .unknownInternal)
    (hside : item.side = .buy ∨ item.side = .sell)
    (hpriced : action = .partial_ ∨ action = .insert →
      item.price.isNaN = false ∧ item.size.isNaN = false)
    (h : bookLevel action cache levels item = .error (cache', effect)) : effect = .close := by
  obtain ⟨⟨cache₁, price, size⟩, hcall⟩ :=
    cache.exists_call_eq_ok item.id hparsed hpriced
  rw [bookLevel, hcall] at h
  cases price with
  | nan =>
      cases h
      rfl
  | num price =>
      -- with a side the level is appended
      rcases hside with hside | hside
      · rw [hside] at h
        cases h
      · rw [hside] at h
        cases h

/-- A run ends a message the way one of its rows does. -/
theorem exists_of_runLevels_error {rows : List OrderBookL2DataItem} {cache cache' : PriceCache}
    {levels : Levels} {effect : Effect}
    (h : rows.foldlM (rowLevel g action) (cache, levels) = .error (cache', effect)) :
    ∃ row ∈ rows, ∃ cache levels, bookLevel action cache levels row = .error (cache', effect) := by
  induction rows generalizing cache levels with
  | nil => cases h
  | cons row rows ih =>
      rw [List.foldlM_cons] at h
      cases hrow : rowLevel g action (cache, levels) row with
      | ok x =>
          rw [hrow] at h
          obtain ⟨row', hmem, hrow'⟩ := ih h
          exact ⟨row', List.mem_cons_of_mem _ hmem, hrow'⟩
      | error e =>
          rw [hrow] at h
          cases h
          cases hdiscard : g.discardSymbol row.symbol with
          | true =>
              rw [rowLevel_of_discard hdiscard] at hrow
              cases hrow
          | false =>
              rw [rowLevel_of_kept hdiscard] at hrow
              exact ⟨row, List.mem_cons_self, cache, levels, hrow⟩

/-- A message ends early the way one of its rows does. -/
theorem exists_of_bookUpdates_stop {cache : PriceCache} {groups : List (List OrderBookL2DataItem)}
    {effect : Effect} (h : (bookUpdates g action cache groups).stop = some effect) :
    ∃ row ∈ groups.flatten, ∃ cache levels cache',
      bookLevel action cache levels row = .error (cache', effect) := by
  induction groups generalizing cache with
  | nil => cases h
  | cons rows rest ih =>
      rw [List.flatten_cons]
      rw [bookUpdates] at h
      split at h
      · rename_i cache' effect' hlevels
        obtain rfl : effect' = effect := Option.some.inj h
        obtain ⟨row, hmem, cache, levels, hrow⟩ := exists_of_runLevels_error hlevels
        exact ⟨row, List.mem_append_left _ hmem, cache, levels, cache', hrow⟩
      · obtain ⟨row, hmem, hrow⟩ := ih h
        exact ⟨row, List.mem_append_right _ hmem, hrow⟩

/-- The effect that ends a message early closes the connection or ends the process. -/
theorem stop_of_bookUpdates {cache : PriceCache} {groups : List (List OrderBookL2DataItem)}
    {effect : Effect} (h : (bookUpdates g action cache groups).stop = some effect) :
    effect = .close ∨ ∃ site, effect = .fatal site := by
  obtain ⟨row, -, cache, levels, cache', hrow⟩ := exists_of_bookUpdates_stop h
  exact bookLevel_error hrow

end Result

/-- The effects of handing updates to the dispatcher: after a refused one the session subscribes
again. -/
def dispatchEffects : List MarketByPriceUpdate → List Bool → List Effect
  | [], _ => []
  | u :: us, badState =>
      .dispatch (.marketByPriceUpdate u) ::
        ((if badState.headD false then [.unsubscribe .orderBookL2, .subscribe [.orderBookL2]]
          else []) ++ dispatchEffects us badState.tail)

/-- Handing over updates puts out the updates, and the requests that answer a refusal. -/
theorem mem_dispatchEffects {us : List MarketByPriceUpdate} {badState : List Bool} {e : Effect}
    (h : e ∈ dispatchEffects us badState) :
    (∃ u ∈ us, e = .dispatch (.marketByPriceUpdate u)) ∨ e = .unsubscribe .orderBookL2 ∨
      e = .subscribe [.orderBookL2] := by
  induction us generalizing badState with
  | nil => cases h
  | cons u us ih =>
      rw [dispatchEffects] at h
      rcases List.mem_cons.mp h with rfl | h
      · exact Or.inl ⟨u, by simp, rfl⟩
      · rcases List.mem_append.mp h with h | h
        · split at h
          · exact Or.inr (List.mem_pair.mp h)
          · cases h
        · rcases ih h with ⟨u', hu', rfl⟩ | h
          · exact Or.inl ⟨u', List.mem_cons_of_mem u hu', rfl⟩
          · exact Or.inr h

/-- Whether the dispatcher refuses one of the updates. -/
def refused (updates : List MarketByPriceUpdate) (badState : List Bool) : Bool :=
  (badState.take updates.length).any id

/-- The session subscribes again only where an update is refused. -/
theorem refused_of_subscribe_mem {us : List MarketByPriceUpdate} {badState : List Bool}
    {topics : List Json.Table} (h : .subscribe topics ∈ dispatchEffects us badState) :
    refused us badState = true := by
  induction us generalizing badState with
  | nil => cases h
  | cons u us ih =>
      rw [dispatchEffects] at h
      cases badState with
      | nil =>
          have hrest : .subscribe topics ∈ dispatchEffects us [] := by simpa using h
          have hnone : refused us [] = true := ih hrest
          simp [refused] at hnone
      | cons answer badState =>
          cases answer with
          | true => simp [refused]
          | false =>
              have hrest : .subscribe topics ∈ dispatchEffects us badState := by simpa using h
              simpa [refused] using ih hrest

namespace Book

variable {g : Gateway} {action : Action}

/-- Handing over updates, at once. -/
theorem foldl_dispatch (b : Book) (us : List MarketByPriceUpdate) :
    us.foldl dispatch b =
      { b with
        partialReceived := b.partialReceived && !refused us b.badState
        badState := b.badState.drop us.length
        effects := b.effects ++ dispatchEffects us b.badState } := by
  induction us generalizing b with
  | nil => simp [refused, dispatchEffects]
  | cons u us ih =>
      rw [List.foldl_cons, ih]
      obtain ⟨cache, received, badState, effects⟩ := b
      cases badState with
      | nil => simp [dispatch, refused, dispatchEffects]
      | cons answer badState =>
          cases answer with
          | false => simp [dispatch, refused, dispatchEffects]
          | true => simp [dispatch, resubscribe, refused, dispatchEffects]

/-- The levels of a run, collected into the book. -/
theorem foldlM_level (b : Book) (levels : Levels) (rows : List OrderBookL2DataItem) :
    rows.foldlM (level g action) (b, levels) =
      match rows.foldlM (rowLevel g action) (b.priceCache, levels) with
      | .error (cache, effect) =>
          .error { b with priceCache := cache, effects := b.effects ++ [effect] }
      | .ok (cache, levels) => .ok ({ b with priceCache := cache }, levels) := by
  induction rows generalizing b levels with
  | nil => rfl
  | cons row rows ih =>
      rw [List.foldlM_cons, List.foldlM_cons]
      cases hdiscard : g.discardSymbol row.symbol with
      | true =>
          rw [rowLevel_of_discard hdiscard, level, if_pos hdiscard]
          exact ih b levels
      | false =>
          rw [rowLevel_of_kept hdiscard, level, if_neg (by simp [hdiscard])]
          cases bookLevel action b.priceCache levels row with
          | error e => rfl
          | ok x => exact ih { b with priceCache := x.1 } x.2

/-- Publishing a book that is not empty: the assertion holds. -/
theorem publishMarketByPrice_eq (b : Book) (symbol : String) {levels : Levels}
    (h : levels.isEmpty = false) :
    b.publishMarketByPrice g action symbol levels =
      if g.discardSymbol symbol then b else b.dispatch (update g action symbol levels) := by
  rw [publishMarketByPrice, h, Bool.not_false, assertEffect_true, List.append_nil]

/-- The end of a run hands over its update, if there is one. -/
theorem finish_run (b : Book) (levels : Levels) (rows : List OrderBookL2DataItem) :
    (runLoop g action).finish ((b, levels), rows.getLast?) =
      (runUpdate g action rows levels).toList.foldl dispatch b := by
  cases hlast : rows.getLast? with
  | none => simp [RunLoop.finish, runLoop, runUpdate, runSymbol, hlast]
  | some last =>
      show b.publish g action last.symbol levels = _
      have hsymbol : runSymbol rows = last.symbol := by rw [runSymbol, hlast]; rfl
      rw [publish, runUpdate, hsymbol]
      by_cases hname : last.symbol = ""
      · simp [hname]
      · cases hempty : levels.isEmpty with
        | true => simp
        | false =>
            rw [publishMarketByPrice_eq b _ hempty]
            cases hdiscard : g.discardSymbol last.symbol with
            | true => simp
            | false => simp [hname]

/-- The book once a message's updates have been handed over. -/
def after (b : Book) (result : BookResult) : Book where
  priceCache := result.priceCache
  partialReceived := b.partialReceived && !refused result.updates b.badState
  badState := b.badState.drop result.updates.length
  effects := b.effects ++ dispatchEffects result.updates b.badState

/-- Handing over the updates of a result, one after another. -/
theorem after_eq (b : Book) (result : BookResult) :
    b.after result = { result.updates.foldl dispatch b with priceCache := result.priceCache } := by
  rw [foldl_dispatch, after]

/-- One run: its levels are collected and its update handed over, or the message ends. -/
theorem group_eq (b : Book) (rows : List OrderBookL2DataItem) :
    (runLoop g action).group b rows =
      match runLevels g action b.priceCache rows with
      | .error (cache, effect) =>
          .error { b with priceCache := cache, effects := b.effects ++ [effect] }
      | .ok (cache, levels) =>
          .ok ((runUpdate g action rows levels).toList.foldl dispatch
            { b with priceCache := cache }) := by
  rw [RunLoop.group]
  show _ <$> rows.foldlM (level g action) (b, {}) = _
  rw [foldlM_level, runLevels]
  split
  · rfl
  · rw [← finish_run]
    rfl

/-- **What a message does.** Its updates are handed over one after another, and then it reaches its
end or the effect that ends it. -/
theorem run_eq (b : Book) (items : List OrderBookL2DataItem) :
    b.run g action items =
      match (bookUpdates g action b.priceCache (items.splitBy continues)).stop with
      | none => .ok (b.after (bookUpdates g action b.priceCache (items.splitBy continues)))
      | some effect =>
          let b' := b.after (bookUpdates g action b.priceCache (items.splitBy continues))
          .error { b' with effects := b'.effects ++ [effect] } := by
  rw [run_eq_groups]
  induction items.splitBy continues generalizing b with
  | nil => simp [bookUpdates, after, refused, dispatchEffects, pure, Except.pure]
  | cons rows rest ih =>
      rw [List.foldlM_cons, group_eq, bookUpdates]
      cases hlevels : runLevels g action b.priceCache rows with
      | error e => simp [after, refused, dispatchEffects, bind, Except.bind]
      | ok x =>
          obtain ⟨cache, levels⟩ := x
          show rest.foldlM (runLoop g action).group
            ((runUpdate g action rows levels).toList.foldl dispatch
              { b with priceCache := cache }) = _
          -- handing over the run's update and then the others is handing over all of them
          have hafter : ∀ result : BookResult,
              ((runUpdate g action rows levels).toList.foldl dispatch
                { b with priceCache := cache }).after result =
              b.after { result with
                updates := (runUpdate g action rows levels).toList ++ result.updates } := by
            intro result
            simp only [after_eq, List.foldl_append, foldl_dispatch]
          have hcache : ((runUpdate g action rows levels).toList.foldl dispatch
              { b with priceCache := cache }).priceCache = cache := by
            rw [foldl_dispatch]
          rw [ih, hcache, hafter]

end Book

end RoqBitmex
