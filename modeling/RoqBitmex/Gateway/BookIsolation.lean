import RoqBitmex.Gateway.BookSession

/-! # Books of different symbols

The rows of the wire table are keyed by symbol, id and side, but all symbols share one price cache,
whose key is the id alone, and a row without a symbol is taken for one of the symbol after it. Two
runs with the same rows for a symbol need not publish the same for it: they do exactly when the ids
of its rows are listed at the same prices in both, whichever symbols' rows list them, and the rows
without a symbol directly before them come to the same (`isolated_iff`). That is so when no other
symbol uses the ids and no such row stands there (`isolated_of_ownIds`). -/

namespace RoqBitmex

universe u

open Json (OrderBookL2DataItem)

namespace MarketData

variable {D : Type u} {g : Gateway} {dl : Download D}

/-! ## The end of a message -/

/-- The session with another price cache. -/
def withCache (s : MarketData D) (cache : PriceCache) : MarketData D :=
  { s with priceCache := cache }

/-- Entering states does not depend on the price cache. -/
theorem enterAll_withCache (s : MarketData D) (cache : PriceCache) (states : List DownloadState) :
    (s.withCache cache).enterAll g states =
      ((s.enterAll g states).1.withCache cache, (s.enterAll g states).2) := by
  induction states generalizing s with
  | nil => rfl
  | cons state rest ih =>
      have henter : (s.withCache cache).enter g state =
          ((s.enter g state).1.withCache cache, (s.enter g state).2) := by
        cases state <;> rfl
      rw [enterAll, henter]
      simp only [ih]
      rfl

variable (g dl) in
/-- A call of `check_relaxed` does not depend on the price cache. -/
theorem checkRelaxed_withCache (s : MarketData D) (cache : PriceCache) (state : DownloadState) :
    (s.withCache cache).checkRelaxed g dl state =
      ((s.checkRelaxed g dl state).1.withCache cache, (s.checkRelaxed g dl state).2) :=
  enterAll_withCache { s with download := _ } cache _

/-- The session with the book snapshot received. -/
def snapshotReceived (s : MarketData D) : MarketData D :=
  { s with partialReceived := { s.partialReceived with orderBookL2 := true } }

/-- What happens at the end of a book message that nothing stopped or refused, apart from the price
cache. -/
def closing (g : Gateway) (dl : Download D) (s : MarketData D) (action : Json.Action) :
    MarketData D × List Effect :=
  if action = .partial_ then s.snapshotReceived.checkRelaxed g dl .orderBookL2 else (s, [])

/-- The end of a message does not depend on the price cache. -/
theorem closing_withCache (s : MarketData D) (cache : PriceCache) (action : Json.Action) :
    closing g dl (s.withCache cache) action =
      ((closing g dl s action).1.withCache cache, (closing g dl s action).2) := by
  rw [closing, closing]
  split
  · exact checkRelaxed_withCache g dl s.snapshotReceived cache _
  · rfl

/-- Whether a book message is handled: it is a snapshot, or comes after one. -/
def handles (s : MarketData D) (message : Json.OrderBookL2) : Bool :=
  message.action = .partial_ || s.partialReceived.orderBookL2

/-- A message is handled if it is a snapshot, or comes after one. -/
theorem handles_iff {s : MarketData D} {message : Json.OrderBookL2} :
    s.handles message = true ↔
      message.action = .partial_ ∨ s.partialReceived.orderBookL2 = true := by
  simp [handles]

/-- A message is dropped if it is no snapshot, and no snapshot has been received. -/
theorem handles_eq_false_iff {s : MarketData D} {message : Json.OrderBookL2} :
    s.handles message = false ↔
      ¬ message.action = .partial_ ∧ s.partialReceived.orderBookL2 = false := by
  simp [handles]

/-- Whether a message is handled depends on its action, and not on the price cache. -/
theorem handles_withCache {message message' : Json.OrderBookL2}
    (haction : message.action = message'.action) (s : MarketData D) (cache : PriceCache) :
    (s.withCache cache).handles message' = s.handles message := by
  rw [handles, handles, haction]
  rfl

/-- A book message that nothing stops or refuses. -/
theorem orderBookL2_complete {s : MarketData D} {message : Json.OrderBookL2}
    (hhandles : s.handles message = true) (hstop : (s.bookResult g message).stop = none) :
    s.orderBookL2 g dl message [] =
      ((closing g dl s message.action).1.withCache (s.bookResult g message).priceCache,
        assertEffect (message.action ≠ .unknownInternal) .bookAction ++
          (dispatchEffects (s.bookResult g message).updates [] ++
            (closing g dl s message.action).2)) := by
  have hhandled : ¬ (¬ message.action = .partial_ ∧ ¬ s.partialReceived.orderBookL2 = true) := by
    rw [not_and_or, not_not, not_not]
    exact handles_iff.mp hhandles
  rw [bookResult] at hstop
  rw [orderBookL2, if_neg hhandled]
  simp only [Book.run_eq, hstop]
  rw [closing]
  by_cases hsnapshot : message.action = .partial_
  · rw [if_pos hsnapshot, if_pos hsnapshot]
    have hcache := checkRelaxed_withCache g dl s.snapshotReceived
      (s.bookResult g message).priceCache .orderBookL2
    simp only [decide_eq_true hsnapshot, Bool.true_or]
    show ((checkRelaxed g dl (s.snapshotReceived.withCache (s.bookResult g message).priceCache)
        .orderBookL2).1,
      (assertEffect (message.action ≠ .unknownInternal) .bookAction ++
        dispatchEffects (s.bookResult g message).updates []) ++
          (checkRelaxed g dl (s.snapshotReceived.withCache (s.bookResult g message).priceCache)
            .orderBookL2).2) = _
    rw [hcache, List.append_assoc]
  · have hflag : s.partialReceived.orderBookL2 = true := by
      simpa [handles, hsnapshot] using hhandles
    have hsame : (⟨s.partialReceived.instrument, true⟩ : PartialReceived) = s.partialReceived := by
      rw [← hflag]
    rw [if_neg hsnapshot, if_neg hsnapshot]
    simp [hsame, Book.after, bookResult, refused, withCache, hflag, hsnapshot]

/-! ## The rows and the prices of a symbol -/

/-- Levels on both sides tell the prices of their rows. -/
theorem map_price_of_levels {xs xs' : List PricedRow} (hrows : xs.map (·.row) = xs'.map (·.row))
    (h : ∀ x ∈ xs, x.IsLevel) (h' : ∀ x ∈ xs', x.IsLevel)
    (hbids : (xs.filter fun x => x.row.side = .buy).map PricedRow.level =
      (xs'.filter fun x => x.row.side = .buy).map PricedRow.level)
    (hasks : (xs.filter fun x => x.row.side = .sell).map PricedRow.level =
      (xs'.filter fun x => x.row.side = .sell).map PricedRow.level) :
    xs.map (·.price) = xs'.map (·.price) := by
  induction xs generalizing xs' with
  | nil =>
      obtain rfl : xs' = [] := by simpa using hrows.symm
      rfl
  | cons x xs ih =>
      cases xs' with
      | nil => cases hrows
      | cons x' xs' =>
          rw [List.map_cons, List.map_cons, List.cons.injEq] at hrows
          obtain ⟨hrow, hrest⟩ := hrows
          obtain ⟨hnan, hside⟩ := h x (by simp)
          obtain ⟨hnan', -⟩ := h' x' (by simp)
          have hprice : x.level = x'.level → x.price = x'.price := by
            intro hlevel
            have hzero : x.price.orZero = x'.price.orZero := congrArg MBPUpdate.price hlevel
            obtain ⟨p, hp⟩ := Double.exists_of_isNaN_eq_false hnan
            obtain ⟨p', hp'⟩ := Double.exists_of_isNaN_eq_false hnan'
            rw [hp, hp', Double.orZero_num, Double.orZero_num] at hzero
            rw [hp, hp', hzero]
          have hxs := fun y (hy : y ∈ xs) => h y (by simp [hy])
          have hxs' := fun y (hy : y ∈ xs') => h' y (by simp [hy])
          rw [List.map_cons, List.map_cons]
          -- the first row is on one side, where its level is the first one
          rcases hside with hside | hside
          · have hside' : x'.row.side = .buy := hrow ▸ hside
            simp only [List.filter_cons, hside, hside', decide_true, if_true, List.map_cons,
              List.cons.injEq] at hbids
            simp only [List.filter_cons, hside, hside', reduceCtorEq, decide_false,
              Bool.false_eq_true, if_false] at hasks
            rw [hprice hbids.1, ih hrest hxs hxs' hbids.2 hasks]
          · have hside' : x'.row.side = .sell := hrow ▸ hside
            simp only [List.filter_cons, hside, hside', decide_true, if_true, List.map_cons,
              List.cons.injEq] at hasks
            simp only [List.filter_cons, hside, hside', reduceCtorEq, decide_false,
              Bool.false_eq_true, if_false] at hbids
            rw [hprice hasks.1, ih hrest hxs hxs' hbids hasks.2]

/-- Rows are known by their row and their price. -/
theorem eq_of_map_row_of_map_price {xs xs' : List PricedRow}
    (hrows : xs.map (·.row) = xs'.map (·.row)) (hprices : xs.map (·.price) = xs'.map (·.price)) :
    xs = xs' := by
  induction xs generalizing xs' with
  | nil => exact (by simpa using hrows.symm : xs' = []).symm
  | cons x xs ih =>
      cases xs' with
      | nil => cases hrows
      | cons x' xs' =>
          simp only [List.map_cons, List.cons.injEq] at hrows hprices
          obtain ⟨row, price⟩ := x
          obtain ⟨row', price'⟩ := x'
          rw [ih hrows.2 hprices.2]
          obtain ⟨rfl, -⟩ := hrows
          obtain ⟨rfl, -⟩ := hprices
          rfl

/-! ## Two runs -/

/-- The inputs of a session that receives book messages and whose updates are all accepted. -/
def bookInputs (messages : List Json.OrderBookL2) : List Input :=
  messages.map fun message => .event (.orderBookL2 message) []

/-- Two messages that differ in the rows of other symbols only. -/
structure SameFor (symbol : String) (message message' : Json.OrderBookL2) : Prop where
  action : message.action = message'.action
  rows : (message.data.filter fun row => row.symbol = symbol) =
    message'.data.filter fun row => row.symbol = symbol

/-- The effect that ends a message early. -/
def aborts (g : Gateway) (s : MarketData D) : Input → Option Effect
  | .event (.orderBookL2 message) _ =>
      if s.handles message then (s.bookResult g message).stop else none
  | _ => none

/-- The rows that have been looked at in a run, those of every symbol that is kept. -/
def handledRows (g : Gateway) :
    Monitor (MarketData D) Input Effect (List (Json.Action × OrderBookL2DataItem)) where
  input s before
    | .event (.orderBookL2 message) _ =>
        if s.handles message then before ++ keptRows g message.action message.data else before
    | _ => before
  output before _ := before

/-- The prices the ids of a symbol's rows are listed at, each before its row. A row whose id is not
listed stands with its own price. -/
def rowListings (g : Gateway) (symbol : String) (start : PriceCache) (action : Json.Action) :
    List (Json.Action × OrderBookL2DataItem) → List OrderBookL2DataItem → List Double
  | _, [] => []
  | before, row :: rest =>
      (if row.symbol = symbol then
          [((start.listed before row.id).map .num).getD row.price]
        else []) ++
        rowListings g symbol start action (before ++ keptRows g action [row]) rest

/-- The prices the ids of the rows of a symbol that update or delete a level are listed at. -/
def listings (g : Gateway) (symbol : String) (start : PriceCache) (s : MarketData D)
    (before : List (Json.Action × OrderBookL2DataItem)) : Input → List Double
  | .event (.orderBookL2 message) _ =>
      if s.handles message ∧ (message.action = .update ∨ message.action = .delete) then
        rowListings g symbol start message.action before message.data
      else []
  | _ => []

/-- The rows of the symbols that are kept, those that update or delete a level at the price their
id is listed at, others at their own. -/
def listedRows (g : Gateway) (start : PriceCache) (action : Json.Action) :
    List (Json.Action × OrderBookL2DataItem) → List OrderBookL2DataItem → List PricedRow
  | _, [] => []
  | before, row :: rest =>
      (if g.discardSymbol row.symbol then []
        else if action = .update ∨ action = .delete then
          [⟨row, ((start.listed before row.id).map .num).getD row.price⟩]
        else [⟨row, row.price⟩]) ++
        listedRows g start action (before ++ keptRows g action [row]) rest

/-- The latest time of rows. -/
def latestTime (rows : List OrderBookL2DataItem) : Int :=
  rows.foldl (fun t row => max t (nanoseconds row.timestamp)) 0

/-- What a message has for the update of a symbol besides the rows of the symbol. -/
structure RowContext where
  /-- The prices the ids of its rows that update or delete a level are listed at. -/
  listings : List Double := []
  /-- The bids of the rows without a symbol directly before its rows. -/
  bids : List MBPUpdate := []
  /-- The asks of the rows without a symbol directly before its rows. -/
  asks : List MBPUpdate := []
  /-- The latest time of all these rows. -/
  latest : Int := 0
  deriving DecidableEq

/-- What a message that is handled and has rows of a symbol has for it besides them. -/
def rowContext (g : Gateway) (symbol : String) (start : PriceCache) (s : MarketData D)
    (before : List (Json.Action × OrderBookL2DataItem)) : Input → RowContext
  | .event (.orderBookL2 message) badState =>
      if s.handles message ∧ ∃ row ∈ message.data, row.symbol = symbol then
        let earlier := before ++ keptRows g message.action (otherBefore symbol message.data)
        let unnamed :=
          listedRows g start message.action earlier (unnamedBefore symbol message.data)
        { listings := listings g symbol start s before (.event (.orderBookL2 message) badState)
          bids := (unnamed.filter fun x => x.row.side = .buy).map PricedRow.level
          asks := (unnamed.filter fun x => x.row.side = .sell).map PricedRow.level
          latest := latestTime
            (unnamed.map (·.row) ++ message.data.filter fun row => row.symbol = symbol) }
      else {}
  | _ => {}

variable (g dl) in
/-- A run of book messages in which the rows of a symbol are together in each message, and every
message reaches its end. -/
structure Orderly (symbol : String) (s : MarketData D) (messages : List Json.OrderBookL2) :
    Prop where
  together : ∀ message ∈ messages, Together (·.symbol) symbol message.data
  complete : ∀ stop ∈ (marketData g dl).collect (aborts g) s (bookInputs messages), stop = none

/-- Nothing stops the first message of an orderly run. -/
theorem Orderly.head {symbol : String} {s : MarketData D} {message : Json.OrderBookL2}
    {messages : List Json.OrderBookL2} (h : Orderly g dl symbol s (message :: messages)) :
    aborts g s (.event (.orderBookL2 message) []) = none :=
  h.complete _ (List.mem_cons_self ..)

/-- The rest of an orderly run is orderly. -/
theorem Orderly.tail {symbol : String} {s : MarketData D} {message : Json.OrderBookL2}
    {messages : List Json.OrderBookL2} (h : Orderly g dl symbol s (message :: messages))
    (hhalt : (marketData g dl).stops s (.event (.orderBookL2 message) []) = false) :
    Orderly g dl symbol ((marketData g dl).next s (.event (.orderBookL2 message) [])) messages where
  together message' hmem := h.together message' (by simp [hmem])
  complete stop hmem := by
    refine h.complete stop (List.mem_cons_of_mem _ ?_)
    rwa [hhalt]

/-- What one message publishes for a symbol. -/
theorem updatesFor_out_complete {s : MarketData D} {message : Json.OrderBookL2} {symbol : String}
    (htogether : Together (·.symbol) symbol message.data)
    (hstop : aborts g s (.event (.orderBookL2 message) []) = none) (hname : symbol ≠ "")
    (hkept : g.discardSymbol symbol = false) :
    updatesFor symbol ((marketData g dl).out s (.event (.orderBookL2 message) [])) =
      if s.handles message ∧ pricedRowsOf g message.action s.priceCache message.data symbol ≠ []
      then [Book.update g message.action symbol
        (({} : Levels).collect
          (pricedUnnamed g message.action s.priceCache message.data symbol ++
            pricedRowsOf g message.action s.priceCache message.data symbol))]
      else [] := by
  cases hhandles : s.handles message with
  | false =>
      have hdropped := handles_eq_false_iff.mp hhandles
      rw [updatesFor_out_dropped hdropped.1 hdropped.2]
      simp
  | true =>
      rw [aborts, if_pos hhandles] at hstop
      rw [updatesFor_out_handled (handles_iff.mp hhandles), bookResult,
        updates_of_symbol htogether hstop hname hkept]
      by_cases hrows : pricedRowsOf g message.action s.priceCache message.data symbol = [] <;>
        simp [hrows]

/-- A message publishes nothing for a symbol that is not named or not kept. -/
theorem updatesFor_out_eq_nil {symbol : String} (h : symbol = "" ∨ g.discardSymbol symbol = true)
    (s : MarketData D) (message : Json.OrderBookL2) :
    updatesFor symbol ((marketData g dl).out s (.event (.orderBookL2 message) [])) = [] := by
  by_cases hhandled : message.action = .partial_ ∨ s.partialReceived.orderBookL2 = true
  · rw [updatesFor_out_handled hhandled, List.filter_eq_nil_iff]
    intro u hu hsymbol
    obtain ⟨-, hname, hkept⟩ := symbol_of_mem_bookUpdates hu
    rw [of_decide_eq_true hsymbol] at hname hkept
    rcases h with h | h
    · exact hname h
    · rw [h] at hkept
      cases hkept
  · rw [not_or, Bool.not_eq_true] at hhandled
    exact updatesFor_out_dropped hhandled.1 hhandled.2 _ _

/-- The latest time among rows is that of their levels. -/
theorem timestamp_collect (xs : List PricedRow) :
    (({} : Levels).collect xs).timestamp = latestTime (xs.map (·.row)) := by
  rw [latestTime, List.foldl_map]
  rfl

/-- Updates made of the same rows after some others are the same exactly when the rows have the same
prices, the others the same levels on each side, and all together the same latest time. -/
theorem update_collect_eq_iff {action : Json.Action} {symbol : String}
    {es es' xs xs' : List PricedRow} (hrows : xs.map (·.row) = xs'.map (·.row))
    (hlevel : ∀ x ∈ xs, x.IsLevel) (hlevel' : ∀ x ∈ xs', x.IsLevel) :
    Book.update g action symbol (({} : Levels).collect (es ++ xs)) =
        Book.update g action symbol (({} : Levels).collect (es' ++ xs')) ↔
      xs.map (·.price) = xs'.map (·.price) ∧
        (es.filter fun x => x.row.side = .buy).map PricedRow.level =
          (es'.filter fun x => x.row.side = .buy).map PricedRow.level ∧
        (es.filter fun x => x.row.side = .sell).map PricedRow.level =
          (es'.filter fun x => x.row.side = .sell).map PricedRow.level ∧
        latestTime (es.map (·.row) ++ xs.map (·.row)) =
          latestTime (es'.map (·.row) ++ xs'.map (·.row)) := by
  -- equally many rows of each side, so the levels of the two parts agree one by one
  have hlength : ∀ side : Json.Side,
      ((xs.filter fun x => x.row.side = side).map PricedRow.level).length =
        ((xs'.filter fun x => x.row.side = side).map PricedRow.level).length := by
    intro side
    have hsides := congrArg (fun rows => (rows.filter fun row => row.side = side).length) hrows
    simpa [List.filter_map, Function.comp_def] using hsides
  have htimes : (({} : Levels).collect (es ++ xs)).timestamp =
        (({} : Levels).collect (es' ++ xs')).timestamp ↔
      latestTime (es.map (·.row) ++ xs.map (·.row)) =
        latestTime (es'.map (·.row) ++ xs'.map (·.row)) := by
    rw [timestamp_collect, timestamp_collect, List.map_append, List.map_append]
  constructor
  · intro heq
    have hbids := congrArg MarketByPriceUpdate.bids heq
    have hasks := congrArg MarketByPriceUpdate.asks heq
    have htime := congrArg MarketByPriceUpdate.exchangeTimeUtc heq
    simp only [Book.update, Levels.collect, List.nil_append, List.filter_append, List.map_append]
      at hbids hasks
    obtain ⟨hbids, hown⟩ := List.append_inj' hbids (hlength .buy)
    obtain ⟨hasks, hown'⟩ := List.append_inj' hasks (hlength .sell)
    exact ⟨map_price_of_levels hrows hlevel hlevel' hown hown', hbids, hasks, htimes.mp htime⟩
  · rintro ⟨hprices, hbids, hasks, hlatest⟩
    have htime := htimes.mpr hlatest
    obtain rfl := eq_of_map_row_of_map_price hrows hprices
    rw [Book.update, Book.update, htime]
    simp only [Levels.collect, List.nil_append, List.filter_append, List.map_append, hbids, hasks]

variable (dl) in
/-- Messages that nothing stops or refuses leave two sessions that differ in the price cache so, and
halt both or none. -/
theorem next_withCache {s : MarketData D} {cache : PriceCache} {message message' : Json.OrderBookL2}
    (haction : message.action = message'.action)
    (hstop : aborts g s (.event (.orderBookL2 message) []) = none)
    (hstop' : aborts g (s.withCache cache) (.event (.orderBookL2 message') []) = none) :
    (∃ cache', (marketData g dl).next (s.withCache cache) (.event (.orderBookL2 message') []) =
        ((marketData g dl).next s (.event (.orderBookL2 message) [])).withCache cache') ∧
      (marketData g dl).stops (s.withCache cache) (.event (.orderBookL2 message') []) =
        (marketData g dl).stops s (.event (.orderBookL2 message) []) := by
  have hhandles := handles_withCache haction s cache
  show (∃ cache', ((s.withCache cache).orderBookL2 g dl message' []).1 =
      (s.orderBookL2 g dl message []).1.withCache cache') ∧
    ((s.withCache cache).orderBookL2 g dl message' []).2.any g.halts =
      (s.orderBookL2 g dl message []).2.any g.halts
  cases hhandled : s.handles message with
  | false =>
      have hdropped := handles_eq_false_iff.mp hhandled
      have hdropped' : (s.withCache cache).partialReceived.orderBookL2 = false := hdropped.2
      rw [orderBookL2_dropped hdropped.1 hdropped.2,
        orderBookL2_dropped (haction ▸ hdropped.1) hdropped', haction]
      exact ⟨⟨cache, rfl⟩, rfl⟩
  | true =>
      rw [aborts, if_pos hhandled] at hstop
      rw [aborts, if_pos (hhandles.trans hhandled)] at hstop'
      rw [orderBookL2_complete hhandled hstop,
        orderBookL2_complete (hhandles.trans hhandled) hstop', closing_withCache, haction]
      -- handing over updates never halts, so the two lists of updates may differ
      have hdispatch : ∀ us, (dispatchEffects us []).any g.halts = false := by
        intro us
        rw [List.any_eq_false]
        intro e he
        rw [halts_dispatchEffects us [] e he]
        exact Bool.false_ne_true
      refine ⟨⟨_, rfl⟩, ?_⟩
      rw [List.any_append, List.any_append, List.any_append, List.any_append, hdispatch, hdispatch]

variable (dl) in
/-- The price cache after a message that nothing stops. -/
theorem priceCache_next {s : MarketData D} {message : Json.OrderBookL2}
    (hstop : aborts g s (.event (.orderBookL2 message) []) = none) :
    ((marketData g dl).next s (.event (.orderBookL2 message) [])).priceCache =
      if s.handles message then cacheAfter g message.action s.priceCache message.data
      else s.priceCache := by
  show (s.orderBookL2 g dl message []).1.priceCache = _
  cases hhandled : s.handles message with
  | false =>
      have hdropped := handles_eq_false_iff.mp hhandled
      rw [orderBookL2_dropped hdropped.1 hdropped.2]
      rfl
  | true =>
      rw [aborts, if_pos hhandled] at hstop
      have hcache := (isLevel_of_bookUpdates hstop).1
      rw [List.flatten_splitBy] at hcache
      rw [orderBookL2_complete hhandled hstop]
      exact hcache

/-- **Two runs in step.** A relation between two sessions that differ in the price cache, and the
messages they are to receive, holds of orderly runs with the same rows for a symbol if it holds when
no message is left, and before a message of each when it holds after it. -/
@[elab_as_elim]
theorem orderly_induction {symbol : String}
    {R : MarketData D → PriceCache → List Json.OrderBookL2 → List Json.OrderBookL2 → Prop}
    (hnil : ∀ s cache, R s cache [] [])
    (hcons : ∀ s cache message message' messages messages' cache',
      SameFor symbol message message' → Orderly g dl symbol s (message :: messages) →
      Orderly g dl symbol (s.withCache cache) (message' :: messages') →
      (marketData g dl).next (s.withCache cache) (.event (.orderBookL2 message') []) =
        ((marketData g dl).next s (.event (.orderBookL2 message) [])).withCache cache' →
      (marketData g dl).stops (s.withCache cache) (.event (.orderBookL2 message') []) =
        (marketData g dl).stops s (.event (.orderBookL2 message) []) →
      ((marketData g dl).stops s (.event (.orderBookL2 message) []) = false →
        R ((marketData g dl).next s (.event (.orderBookL2 message) [])) cache' messages
          messages') →
      R s cache (message :: messages) (message' :: messages'))
    {messages messages' : List Json.OrderBookL2}
    (hsame : List.Forall₂ (SameFor symbol) messages messages') {s : MarketData D}
    {cache : PriceCache} (h : Orderly g dl symbol s messages)
    (h' : Orderly g dl symbol (s.withCache cache) messages') : R s cache messages messages' := by
  induction hsame generalizing s cache with
  | nil => exact hnil s cache
  | @cons message message' messages messages' hhead _ ih =>
      obtain ⟨⟨cache', hnext⟩, hstops⟩ := next_withCache dl hhead.action h.head h'.head
      refine hcons _ _ _ _ _ _ cache' hhead h h' hnext hstops fun hhalt => ?_
      have htail' := h'.tail (hstops.trans hhalt)
      rw [hnext] at htail'
      exact ih (h.tail hhalt) htail'

/-- A symbol that is not named or not kept is never published. -/
theorem updatesFor_outputs_eq_nil {symbol : String}
    (h : symbol = "" ∨ g.discardSymbol symbol = true) (s : MarketData D)
    (messages : List Json.OrderBookL2) :
    updatesFor symbol ((marketData g dl).outputs s (bookInputs messages)) = [] := by
  induction messages generalizing s with
  | nil => rfl
  | cons message messages ih =>
      rw [bookInputs, List.map_cons, Machine.outputs, updatesFor_append, updatesFor_out_eq_nil h,
        List.nil_append]
      split
      · rfl
      · exact ih _

/-! ## Listings -/

/-- A symbol's rows that update or delete are priced as their ids are listed. -/
theorem rowListings_eq {symbol : String} (hkept : g.discardSymbol symbol = false)
    {action : Json.Action} (haction : action = .update ∨ action = .delete) (start : PriceCache)
    (before : List (Json.Action × OrderBookL2DataItem)) (rows : List OrderBookL2DataItem) :
    rowListings g symbol start action before rows =
      (pricedRowsOf g action (start.listed before) rows symbol).map (·.price) := by
  have hprice : ∀ (cache : PriceCache) (row : OrderBookL2DataItem),
      cache.price action row.id row.price = ((cache row.id).map .num).getD row.price := by
    intro cache row
    rcases haction with rfl | rfl <;> rfl
  induction rows generalizing before with
  | nil => rfl
  | cons row rows ih =>
      have hlisted : start.listed (before ++ keptRows g action [row]) =
          cacheAfter g action (start.listed before) [row] :=
        listed_append_keptRows start before [row]
      rw [rowListings, ih, hlisted]
      by_cases hsymbol : row.symbol = symbol
      · simp [pricedRowsOf, pricedRows, cacheAfter, hsymbol, hkept, hprice]
      · cases hdiscard : g.discardSymbol row.symbol <;>
          simp [pricedRowsOf, pricedRows, cacheAfter, hsymbol, hdiscard]

/-- Rows are listed as the cache prices them. -/
theorem listedRows_eq (start : PriceCache) (action : Json.Action)
    (before : List (Json.Action × OrderBookL2DataItem)) (rows : List OrderBookL2DataItem) :
    listedRows g start action before rows =
      pricedRows g action (start.listed before) rows := by
  have hprice : ∀ (cache : PriceCache) (row : OrderBookL2DataItem),
      cache.price action row.id row.price =
        if action = .update ∨ action = .delete then ((cache row.id).map .num).getD row.price
        else row.price := by
    intro cache row
    cases action <;> rfl
  induction rows generalizing before with
  | nil => rfl
  | cons row rows ih =>
      have hlisted : start.listed (before ++ keptRows g action [row]) =
          cacheAfter g action (start.listed before) [row] :=
        listed_append_keptRows start before [row]
      rw [listedRows, ih, hlisted]
      cases hdiscard : g.discardSymbol row.symbol with
      | true => simp [pricedRows, cacheAfter, hdiscard]
      | false =>
          by_cases haction : action = .update ∨ action = .delete <;>
            simp [pricedRows, cacheAfter, hdiscard, hprice, haction]

/-- The cache prices a symbol's rows the same in two sessions exactly when those that update or
delete a level find their ids listed at the same prices. -/
theorem map_price_eq_iff {s : MarketData D} {symbol : String} {message message' : Json.OrderBookL2}
    (hsame : SameFor symbol message message') (hkept : g.discardSymbol symbol = false)
    {start cache : PriceCache} {before before' : List (Json.Action × OrderBookL2DataItem)}
    (hlisted : s.priceCache = start.listed before) (hlisted' : cache = start.listed before')
    (hhandled : s.handles message = true) :
    (pricedRowsOf g message.action s.priceCache message.data symbol).map (·.price) =
        (pricedRowsOf g message'.action cache message'.data symbol).map (·.price) ↔
      listings g symbol start s before (.event (.orderBookL2 message) []) =
        listings g symbol start (s.withCache cache) before'
          (.event (.orderBookL2 message') []) := by
  have hhandled' := (handles_withCache hsame.action s cache).trans hhandled
  rw [listings, listings, hhandled, hhandled', ← hsame.action]
  by_cases hlists : message.action = .update ∨ message.action = .delete
  · rw [if_pos ⟨rfl, hlists⟩, if_pos ⟨rfl, hlists⟩, rowListings_eq hkept hlists,
      rowListings_eq hkept hlists, ← hlisted, ← hlisted']
  · rw [if_neg fun h => hlists h.2, if_neg fun h => hlists h.2]
    -- new rows are answered their own prices, which are the same in both messages
    have hown : ∀ (cache : PriceCache) (rows : List OrderBookL2DataItem),
        (pricedRowsOf g message.action cache rows symbol).map (·.price) =
          (rows.filter fun row => row.symbol = symbol).map (·.price) := by
      intro cache rows
      rw [← map_row_pricedRowsOf cache rows hkept, List.map_map]
      refine List.map_congr_left fun x hx => ?_
      exact price_of_mem_pricedRows hlists (List.mem_of_mem_filter hx)
    rw [hown, hown, hsame.rows]
    exact iff_of_true rfl rfl

/-- The rows without a symbol that join a symbol's are listed as the cache prices them. -/
theorem listedRows_unnamed {cache start : PriceCache}
    {before : List (Json.Action × OrderBookL2DataItem)} (hlisted : cache = start.listed before)
    (action : Json.Action) (rows : List OrderBookL2DataItem) (symbol : String) :
    listedRows g start action (before ++ keptRows g action (otherBefore symbol rows))
        (unnamedBefore symbol rows) =
      pricedUnnamed g action cache rows symbol := by
  rw [listedRows_eq, listed_append_keptRows, ← hlisted]
  rfl

variable (dl) in
/-- **One message in two runs.** Sessions that differ in the price cache publish equally many
updates for a symbol, and the same ones exactly when the message has the same for it in both. -/
theorem updatesFor_out_iff {s : MarketData D} {message message' : Json.OrderBookL2}
    {symbol : String} (hsame : SameFor symbol message message')
    (htogether : Together (·.symbol) symbol message.data)
    (htogether' : Together (·.symbol) symbol message'.data) {cache : PriceCache}
    (hstop : aborts g s (.event (.orderBookL2 message) []) = none)
    (hstop' : aborts g (s.withCache cache) (.event (.orderBookL2 message') []) = none)
    (hname : symbol ≠ "") (hkept : g.discardSymbol symbol = false) {start : PriceCache}
    {before before' : List (Json.Action × OrderBookL2DataItem)}
    (hlisted : s.priceCache = start.listed before) (hlisted' : cache = start.listed before') :
    let us := updatesFor symbol ((marketData g dl).out s (.event (.orderBookL2 message) []))
    let us' := updatesFor symbol
      ((marketData g dl).out (s.withCache cache) (.event (.orderBookL2 message') []))
    us.length = us'.length ∧
      (us = us' ↔
        rowContext g symbol start s before (.event (.orderBookL2 message) []) =
          rowContext g symbol start (s.withCache cache) before'
            (.event (.orderBookL2 message') [])) := by
  intro us us'
  have hhandles := handles_withCache hsame.action s cache
  let xs := pricedRowsOf g message.action s.priceCache message.data symbol
  let xs' := pricedRowsOf g message'.action cache message'.data symbol
  let es := pricedUnnamed g message.action s.priceCache message.data symbol
  let es' := pricedUnnamed g message'.action cache message'.data symbol
  have hus : us = if s.handles message ∧ xs ≠ [] then
      [Book.update g message.action symbol (({} : Levels).collect (es ++ xs))] else [] :=
    updatesFor_out_complete htogether hstop hname hkept
  have hus' : us' = if s.handles message ∧ xs' ≠ [] then
      [Book.update g message'.action symbol (({} : Levels).collect (es' ++ xs'))] else [] := by
    rw [← hhandles]
    exact updatesFor_out_complete htogether' hstop' hname hkept
  have hxs : xs.map (·.row) = message.data.filter fun row => row.symbol = symbol :=
    map_row_pricedRowsOf _ _ hkept
  have hxs' : xs'.map (·.row) = message'.data.filter fun row => row.symbol = symbol :=
    map_row_pricedRowsOf _ _ hkept
  have hrows : xs.map (·.row) = xs'.map (·.row) := by rw [hxs, hxs', hsame.rows]
  have hnil : xs = [] ↔ xs' = [] := by
    rw [← List.map_eq_nil_iff (f := (·.row)), hrows, List.map_eq_nil_iff]
  -- a message has rows of the symbol exactly when they are priced
  have hsome : xs ≠ [] ↔ ∃ row ∈ message.data, row.symbol = symbol :=
    pricedRowsOf_ne_nil_iff hkept
  have hsome' : xs' ≠ [] ↔ ∃ row ∈ message'.data, row.symbol = symbol :=
    pricedRowsOf_ne_nil_iff hkept
  by_cases hupdate : s.handles message = true ∧ xs ≠ []
  · obtain ⟨hhandled, hne⟩ := hupdate
    have hne' : xs' ≠ [] := fun h => hne (hnil.mpr h)
    have hprices := map_price_eq_iff hsame hkept hlisted hlisted' hhandled
    rw [aborts, if_pos hhandled] at hstop
    rw [aborts, if_pos (hhandles.trans hhandled)] at hstop'
    have hlevel : ∀ x ∈ xs, x.IsLevel := fun x hx => isLevel_of_mem_pricedRowsOf hstop hx
    have hlevel' : ∀ x ∈ xs', x.IsLevel := fun x hx => isLevel_of_mem_pricedRowsOf hstop' hx
    rw [hus, hus', if_pos ⟨hhandled, hne⟩, if_pos ⟨hhandled, hne'⟩]
    refine ⟨rfl, ?_⟩
    rw [List.cons.injEq, and_iff_left rfl, ← hsame.action,
      update_collect_eq_iff hrows hlevel hlevel', hprices, rowContext, rowContext,
      if_pos ⟨hhandled, hsome.mp hne⟩, if_pos ⟨hhandles.trans hhandled, hsome'.mp hne'⟩,
      RowContext.mk.injEq, listedRows_unnamed hlisted, listedRows_unnamed hlisted', ← hxs,
      ← hxs']
  · have hnone : ¬ (s.handles message = true ∧ xs' ≠ []) := by rwa [ne_eq, ← hnil]
    rw [hus, hus', if_neg hupdate, if_neg hnone, rowContext, rowContext,
      if_neg (by rwa [← hsome]), if_neg (by rwa [hhandles, ← hsome'])]
    exact ⟨rfl, iff_of_true rfl rfl⟩

/-- The rows looked at after a book message. -/
theorem after_handledRows (s : MarketData D) (before : List (Json.Action × OrderBookL2DataItem))
    (message : Json.OrderBookL2) (badState : List Bool) :
    (marketData g dl).after (handledRows g) s before (.event (.orderBookL2 message) badState) =
      if s.handles message then before ++ keptRows g message.action message.data else before :=
  Monitor.outputs_of_forall (fun _ _ _ => rfl) _

variable (dl) in
/-- A message that nothing stops leaves the cache with what is listed. -/
theorem priceCache_next_eq_listed {s : MarketData D} {message : Json.OrderBookL2}
    (hstop : aborts g s (.event (.orderBookL2 message) []) = none) {start : PriceCache}
    {before : List (Json.Action × OrderBookL2DataItem)}
    (hlisted : s.priceCache = start.listed before) :
    ((marketData g dl).next s (.event (.orderBookL2 message) [])).priceCache =
      start.listed ((marketData g dl).after (handledRows g) s before
        (.event (.orderBookL2 message) [])) := by
  rw [priceCache_next dl hstop, after_handledRows, hlisted]
  split
  · rw [listed_append_keptRows]
  · rfl

/-- Equally long parts agree one by one when their concatenations do. -/
theorem append_eq_append_iff {xs ys xs' ys' : List MarketByPriceUpdate}
    (h : xs.length = xs'.length) : xs ++ ys = xs' ++ ys' ↔ xs = xs' ∧ ys = ys' := by
  constructor
  · intro heq
    exact List.append_inj heq h
  · intro heq
    rw [heq.1, heq.2]

/-- Two runs from sessions whose caches are what is listed publish the same for a symbol that is
named and kept exactly when the messages have the same for it. -/
theorem updatesFor_outputs_iff {symbol : String} (hname : symbol ≠ "")
    (hkept : g.discardSymbol symbol = false) {messages messages' : List Json.OrderBookL2}
    (hsame : List.Forall₂ (SameFor symbol) messages messages') {s : MarketData D}
    {cache : PriceCache} (h : Orderly g dl symbol s messages)
    (h' : Orderly g dl symbol (s.withCache cache) messages') (start : PriceCache) :
    ∀ before before', s.priceCache = start.listed before → cache = start.listed before' →
      (updatesFor symbol ((marketData g dl).outputs s (bookInputs messages)) =
          updatesFor symbol
            ((marketData g dl).outputs (s.withCache cache) (bookInputs messages')) ↔
        (marketData g dl).observe (handledRows g) (rowContext g symbol start) s before
            (bookInputs messages) =
          (marketData g dl).observe (handledRows g) (rowContext g symbol start)
            (s.withCache cache) before' (bookInputs messages')) := by
  refine orderly_induction ?_ ?_ hsame h h'
  · intro s cache before before' _ _
    exact iff_of_true rfl rfl
  · intro s cache message message' messages messages' cache' hhead h h' hnext hstops ih before
      before' hlisted hlisted'
    obtain ⟨hlength, hstep⟩ := updatesFor_out_iff dl hhead (h.together _ (by simp))
      (h'.together _ (by simp)) h.head h'.head hname hkept hlisted hlisted'
    rw [bookInputs, bookInputs, List.map_cons, List.map_cons, Machine.outputs, Machine.outputs,
      Machine.observe, Machine.observe, updatesFor_append, updatesFor_append, hstops, hnext,
      List.cons.injEq, ← hstep]
    -- equally many updates for the first message, so the two lists agree part by part
    rw [append_eq_append_iff hlength]
    refine and_congr_right fun _ => ?_
    cases hhalt : (marketData g dl).stops s (.event (.orderBookL2 message) []) with
    | true => exact iff_of_true rfl rfl
    | false =>
        have hcache := priceCache_next_eq_listed dl h.head hlisted
        have hcache' : cache' = start.listed ((marketData g dl).after (handledRows g)
            (s.withCache cache) before' (.event (.orderBookL2 message') [])) := by
          rw [← priceCache_next_eq_listed dl h'.head hlisted', hnext]
          rfl
        exact ih hhalt _ _ hcache hcache'

/-- **Exact isolation.** Two runs with the same rows for a symbol publish the same for it exactly
when, if it is named and kept, its rows that update or delete a level find their ids listed at the
same prices, and the rows without a symbol directly before them come to the same levels and leave
the latest time the same. -/
theorem isolated_iff {s : MarketData D} {symbol : String}
    {messages messages' : List Json.OrderBookL2}
    (hsame : List.Forall₂ (SameFor symbol) messages messages') (h : Orderly g dl symbol s messages)
    (h' : Orderly g dl symbol s messages') :
    updatesFor symbol ((marketData g dl).outputs s (bookInputs messages)) =
        updatesFor symbol ((marketData g dl).outputs s (bookInputs messages')) ↔
      (symbol ≠ "" → g.discardSymbol symbol = false →
        (marketData g dl).observe (handledRows g) (rowContext g symbol s.priceCache) s []
            (bookInputs messages) =
          (marketData g dl).observe (handledRows g) (rowContext g symbol s.priceCache) s []
            (bookInputs messages')) := by
  by_cases hsilent : symbol = "" ∨ g.discardSymbol symbol = true
  · -- nothing is published, whatever is listed
    rw [updatesFor_outputs_eq_nil hsilent, updatesFor_outputs_eq_nil hsilent]
    refine iff_of_true rfl fun hname hkept => ?_
    rcases hsilent with hsilent | hsilent
    · exact absurd hsilent hname
    · rw [hkept] at hsilent
      cases hsilent
  · rw [not_or, Bool.not_eq_true] at hsilent
    obtain ⟨hname, hkept⟩ := hsilent
    rw [forall_prop_of_true hname, forall_prop_of_true hkept]
    have hstart : s.priceCache = s.priceCache.listed [] := (PriceCache.listed_nil _).symm
    exact updatesFor_outputs_iff hname hkept hsame h h' s.priceCache [] [] hstart hstart

/-! ## Ids of their own -/

/-- The ids are those of a symbol: its rows have them, and the rows of others have not. -/
def OwnIds (symbol : String) (ids : Set UInt64) (rows : List OrderBookL2DataItem) : Prop :=
  ∀ row ∈ rows, row.symbol = symbol ↔ row.id ∈ ids

/-- A symbol with ids of its own is priced as if its rows were the only ones. -/
theorem pricedRowsOf_of_ownIds {action : Json.Action} {symbol : String} {ids : Set UInt64}
    {rows : List OrderBookL2DataItem} (hown : OwnIds symbol ids rows) {cache cache' : PriceCache}
    (hagree : ∀ id ∈ ids, cache id = cache' id) :
    let own := rows.filter fun row => row.symbol = symbol
    pricedRowsOf g action cache rows symbol = pricedRows g action cache' own ∧
      ∀ id ∈ ids, cacheAfter g action cache rows id = cacheAfter g action cache' own id := by
  induction rows generalizing cache cache' with
  | nil => exact ⟨rfl, hagree⟩
  | cons row rows ih =>
      have hown' : OwnIds symbol ids rows := fun r hr => hown r (by simp [hr])
      have hrow := hown row (by simp)
      cases hdiscard : g.discardSymbol row.symbol with
      | true =>
          obtain ⟨hpriced, hafter⟩ := ih hown' hagree
          by_cases hsymbol : row.symbol = symbol
          · have hdiscard' : g.discardSymbol symbol = true := hsymbol ▸ hdiscard
            exact ⟨by simpa [pricedRowsOf, pricedRows, hsymbol, hdiscard'] using hpriced,
              by simpa [cacheAfter, hsymbol, hdiscard'] using hafter⟩
          · exact ⟨by simpa [pricedRowsOf, pricedRows, hsymbol, hdiscard] using hpriced,
              by simpa [cacheAfter, hsymbol, hdiscard] using hafter⟩
      | false =>
          by_cases hsymbol : row.symbol = symbol
          · -- a row of the symbol reads and writes an id on which the caches agree
            have hcall := PriceCache.call_congr action row.price (hagree _ (hrow.mp hsymbol))
            have hagree' : ∀ id ∈ ids, cache.after action row.id row.price id =
                cache'.after action row.id row.price id := by
              intro id hid
              by_cases hsame : id = row.id
              · rw [hsame]
                exact hcall.2
              · rw [PriceCache.after_of_ne _ _ _ hsame, PriceCache.after_of_ne _ _ _ hsame]
                exact hagree id hid
            obtain ⟨hpriced, hafter⟩ := ih hown' hagree'
            have hkept : g.discardSymbol symbol = false := hsymbol ▸ hdiscard
            rw [pricedRowsOf] at hpriced
            refine ⟨?_, ?_⟩
            · simp [pricedRowsOf, hsymbol, pricedRows, hkept, hcall.1, hpriced]
            · simpa [cacheAfter, hsymbol, hkept] using hafter
          · -- a row of another symbol touches none of the ids
            have hid : row.id ∉ ids := fun h => hsymbol (hrow.mpr h)
            have hagree' : ∀ id ∈ ids, cache.after action row.id row.price id = cache' id := by
              intro id hmem
              have hne : id ≠ row.id := fun h => hid (by rwa [← h])
              rw [PriceCache.after_of_ne _ _ _ hne]
              exact hagree id hmem
            obtain ⟨hpriced, hafter⟩ := ih hown' hagree'
            exact ⟨by simpa [pricedRowsOf, pricedRows, hdiscard, hsymbol] using hpriced,
              by simpa [cacheAfter, hdiscard, hsymbol] using hafter⟩

/-- Two lists of rows with the same rows of a symbol that has ids of its own price them the same. -/
theorem pricedRowsOf_congr (g : Gateway) (action : Json.Action) {symbol : String}
    {ids : Set UInt64} {rows rows' : List OrderBookL2DataItem} (hown : OwnIds symbol ids rows)
    (hown' : OwnIds symbol ids rows')
    (hrows : (rows.filter fun row => row.symbol = symbol) =
      rows'.filter fun row => row.symbol = symbol)
    {cache cache' : PriceCache} (hagree : ∀ id ∈ ids, cache id = cache' id) :
    pricedRowsOf g action cache rows symbol = pricedRowsOf g action cache' rows' symbol ∧
      ∀ id ∈ ids, cacheAfter g action cache rows id = cacheAfter g action cache' rows' id := by
  obtain ⟨hpriced, hafter⟩ := pricedRowsOf_of_ownIds (g := g) hown hagree
  obtain ⟨hpriced', hafter'⟩ :=
    pricedRowsOf_of_ownIds (g := g) hown' fun id _ => Eq.refl (cache' id)
  refine ⟨?_, fun id hid => ?_⟩
  · rw [hpriced, hpriced', hrows]
  · rw [hafter id hid, hafter' id hid, hrows]

/-- Two runs from sessions whose caches agree on the ids of a symbol publish the same for it, if the
ids are its own and no row without a symbol stands directly before its rows. -/
theorem updatesFor_outputs_of_ownIds {symbol : String} {ids : Set UInt64} (hname : symbol ≠ "")
    (hkept : g.discardSymbol symbol = false) {messages messages' : List Json.OrderBookL2}
    (hsame : List.Forall₂ (SameFor symbol) messages messages') {s : MarketData D}
    {cache : PriceCache} (h : Orderly g dl symbol s messages)
    (h' : Orderly g dl symbol (s.withCache cache) messages')
    (hagree : ∀ id ∈ ids, s.priceCache id = cache id)
    (hown : ∀ message ∈ messages,
      OwnIds symbol ids message.data ∧ unnamedBefore symbol message.data = [])
    (hown' : ∀ message ∈ messages',
      OwnIds symbol ids message.data ∧ unnamedBefore symbol message.data = []) :
    updatesFor symbol ((marketData g dl).outputs s (bookInputs messages)) =
      updatesFor symbol ((marketData g dl).outputs (s.withCache cache) (bookInputs messages')) := by
  revert hagree hown hown'
  refine orderly_induction ?_ ?_ hsame h h'
  · intro s cache _ _ _
    rfl
  · intro s cache message message' messages messages' cache' hhead h h' hnext hstops ih hagree
      hown hown'
    obtain ⟨hids, hunnamed⟩ := hown message (by simp)
    obtain ⟨hids', hunnamed'⟩ := hown' message' (by simp)
    have hhandles := handles_withCache hhead.action s cache
    obtain ⟨hpriced, hafter⟩ := pricedRowsOf_congr g message.action hids hids' hhead.rows hagree
    have hstep : updatesFor symbol ((marketData g dl).out s (.event (.orderBookL2 message) [])) =
        updatesFor symbol
          ((marketData g dl).out (s.withCache cache) (.event (.orderBookL2 message') [])) := by
      rw [updatesFor_out_complete (h.together _ (by simp)) h.head hname hkept,
        updatesFor_out_complete (h'.together _ (by simp)) h'.head hname hkept, hhandles,
        pricedUnnamed_eq_nil hunnamed, pricedUnnamed_eq_nil hunnamed', hpriced, hhead.action]
      rfl
    rw [bookInputs, bookInputs, List.map_cons, List.map_cons, Machine.outputs, Machine.outputs,
      updatesFor_append, updatesFor_append, hstops, hstep, hnext]
    cases hhalt : (marketData g dl).stops s (.event (.orderBookL2 message) []) with
    | true => rfl
    | false =>
        -- the caches still agree on the ids
        have hcache' := priceCache_next dl h'.head
        rw [hnext] at hcache'
        have hagree' : ∀ id ∈ ids,
            ((marketData g dl).next s (.event (.orderBookL2 message) [])).priceCache id =
              cache' id := by
          intro id hid
          rw [show cache' = _ from hcache', priceCache_next dl h.head, hhandles]
          cases s.handles message with
          | false => exact hagree id hid
          | true =>
              rw [if_pos rfl, if_pos rfl, hafter id hid, hhead.action]
              rfl
        have hrest := ih hhalt hagree' (fun m hm => hown m (by simp [hm]))
          fun m hm => hown' m (by simp [hm])
        exact congrArg _ hrest

/-- **Ids of their own isolate.** Runs in which no other symbol uses the ids of a symbol, and no row
without a symbol stands directly before its rows, publish the same for it. -/
theorem isolated_of_ownIds {s : MarketData D} {symbol : String} {ids : Set UInt64}
    {messages messages' : List Json.OrderBookL2}
    (hsame : List.Forall₂ (SameFor symbol) messages messages') (h : Orderly g dl symbol s messages)
    (h' : Orderly g dl symbol s messages')
    (hown : ∀ message ∈ messages,
      OwnIds symbol ids message.data ∧ unnamedBefore symbol message.data = [])
    (hown' : ∀ message ∈ messages',
      OwnIds symbol ids message.data ∧ unnamedBefore symbol message.data = []) :
    updatesFor symbol ((marketData g dl).outputs s (bookInputs messages)) =
      updatesFor symbol ((marketData g dl).outputs s (bookInputs messages')) := by
  by_cases hsilent : symbol = "" ∨ g.discardSymbol symbol = true
  · rw [updatesFor_outputs_eq_nil hsilent, updatesFor_outputs_eq_nil hsilent]
  · rw [not_or, Bool.not_eq_true] at hsilent
    exact updatesFor_outputs_of_ownIds hsilent.1 hsilent.2 hsame h h' (fun _ _ => rfl) hown hown'

/-! ## One id, two symbols -/

/-- A snapshot and an update, with the given rows. -/
def snapshotAndUpdate (snapshot update : List OrderBookL2DataItem) : List Json.OrderBookL2 :=
  [{ action := .partial_, data := snapshot }, { action := .update, data := update }]

/-- A book of one symbol. -/
def ownBook : List Json.OrderBookL2 :=
  snapshotAndUpdate [⟨"XBTUSD", 1, .buy, .num 10, .num 5, 0⟩]
    [⟨"XBTUSD", 1, .buy, .nan, .num 7, 0⟩]

/-- The same book, next to one whose id is another. -/
def otherBook : List Json.OrderBookL2 :=
  snapshotAndUpdate
    [⟨"ETHUSD", 2, .sell, .num 20, .num 5, 0⟩, ⟨"XBTUSD", 1, .buy, .num 10, .num 5, 0⟩]
    [⟨"ETHUSD", 2, .sell, .nan, .num 8, 0⟩, ⟨"XBTUSD", 1, .buy, .nan, .num 7, 0⟩]

/-- The same book, next to one whose id is the same. -/
def sharedBook : List Json.OrderBookL2 :=
  snapshotAndUpdate
    [⟨"ETHUSD", 1, .sell, .num 20, .num 5, 0⟩, ⟨"XBTUSD", 1, .buy, .num 10, .num 5, 0⟩]
    [⟨"XBTUSD", 1, .buy, .nan, .num 7, 0⟩]

/-- The same book, after a row without a symbol. -/
def unnamedBook : List Json.OrderBookL2 :=
  snapshotAndUpdate [⟨"", 9, .buy, .num 3, .num 5, 0⟩, ⟨"XBTUSD", 1, .buy, .num 10, .num 5, 0⟩]
    [⟨"XBTUSD", 1, .buy, .nan, .num 7, 0⟩]

/-- A book after a row without a symbol is published with that row's level. -/
example :
    updatesFor "XBTUSD"
        ((marketData .keepAll .inOrder).outputs (init .inOrder) (bookInputs ownBook)) ≠
      updatesFor "XBTUSD"
        ((marketData .keepAll .inOrder).outputs (init .inOrder) (bookInputs unnamedBook)) := by
  decide +kernel

/-- A book with an id of its own is published the same. -/
theorem isolated_iff_otherBook :
    updatesFor "XBTUSD"
        ((marketData .keepAll .inOrder).outputs (init .inOrder) (bookInputs ownBook)) =
      updatesFor "XBTUSD"
        ((marketData .keepAll .inOrder).outputs (init .inOrder) (bookInputs otherBook)) := by
  refine (isolated_iff ?_ ⟨?_, ?_⟩ ⟨?_, ?_⟩).mpr fun _ => ?_
  · exact .cons ⟨rfl, by decide⟩ (.cons ⟨rfl, by decide⟩ .nil)
  all_goals decide +kernel

/-- A book whose id another symbol uses is not: its update goes out at the other symbol's price. -/
theorem sharedBook_not_isolated :
    List.Forall₂ (SameFor "XBTUSD") ownBook sharedBook ∧
      (∀ message ∈ ownBook ++ sharedBook, Contiguous (·.symbol) message.data) ∧
      Orderly .keepAll .inOrder "XBTUSD" (init .inOrder) ownBook ∧
      Orderly .keepAll .inOrder "XBTUSD" (init .inOrder) sharedBook ∧
      updatesFor "XBTUSD"
          ((marketData .keepAll .inOrder).outputs (init .inOrder) (bookInputs ownBook)) ≠
        updatesFor "XBTUSD"
          ((marketData .keepAll .inOrder).outputs (init .inOrder) (bookInputs sharedBook)) := by
  refine ⟨.cons ⟨rfl, by decide⟩ (.cons ⟨rfl, by decide⟩ .nil), ?_, ⟨?_, ?_⟩, ⟨?_, ?_⟩, ?_⟩
  all_goals decide +kernel

end MarketData

end RoqBitmex
