import RoqBitmex.Gateway.OrderBook

/-! # Book messages row by row

`bookUpdates` publishes run by run; what a consumer cares about are the rows of one symbol.
`pricedRows` lists the rows of the symbols that are kept, each with the price the cache answers in
its turn, and `updates_of_symbol` says that a message which reaches its end, and in which the rows
of a symbol are together, publishes exactly one update for it. It is made of their levels, and of
those of the rows without a symbol directly before them, which the loop takes for rows of it. -/

namespace RoqBitmex

open Json (OrderBookL2DataItem Action)

/-! ## Rows and their prices -/

/-- A row of a book message with the price the cache answers. -/
structure PricedRow where
  row : OrderBookL2DataItem
  price : Double
  deriving DecidableEq, Repr

/-- The level of a row. -/
def PricedRow.level (x : PricedRow) : MBPUpdate := ⟨x.price.orZero, x.row.size.orZero⟩

/-- A row with a price and a side. -/
def PricedRow.IsLevel (x : PricedRow) : Prop :=
  x.price.isNaN = false ∧ (x.row.side = .buy ∨ x.row.side = .sell)

section Rows

variable (g : Gateway) (action : Action)

/-- The rows of the symbols that are kept, each with the price the cache answers in its turn. -/
def pricedRows : PriceCache → List OrderBookL2DataItem → List PricedRow
  | _, [] => []
  | cache, row :: rest =>
      if g.discardSymbol row.symbol then pricedRows cache rest
      else
        ⟨row, cache.price action row.id row.price⟩ ::
          pricedRows (cache.after action row.id row.price) rest

/-- The cache after rows. -/
def cacheAfter (cache : PriceCache) (rows : List OrderBookL2DataItem) : PriceCache :=
  rows.foldl
    (fun cache row =>
      if g.discardSymbol row.symbol then cache else cache.after action row.id row.price)
    cache

variable {g action}

/-- The cache after rows is that after the last of them, with the cache the first ones leave. -/
@[simp] theorem cacheAfter_append (cache : PriceCache) (rows rows' : List OrderBookL2DataItem) :
    cacheAfter g action cache (rows ++ rows') =
      cacheAfter g action (cacheAfter g action cache rows) rows' :=
  List.foldl_append

/-- The rows after some others are priced with the cache these leave. -/
theorem pricedRows_append (cache : PriceCache) (rows rows' : List OrderBookL2DataItem) :
    pricedRows g action cache (rows ++ rows') =
      pricedRows g action cache rows ++
        pricedRows g action (cacheAfter g action cache rows) rows' := by
  induction rows generalizing cache with
  | nil => rfl
  | cons row rows ih =>
      cases hdiscard : g.discardSymbol row.symbol with
      | true => simpa [pricedRows, cacheAfter, hdiscard] using ih cache
      | false =>
          have hrest := ih (cache.after action row.id row.price)
          simpa [pricedRows, cacheAfter, hdiscard] using hrest

/-- Pricing keeps the rows of the symbols that are kept, in order. -/
theorem map_row_pricedRows (cache : PriceCache) (rows : List OrderBookL2DataItem) :
    (pricedRows g action cache rows).map (·.row) =
      rows.filter fun row => !g.discardSymbol row.symbol := by
  induction rows generalizing cache with
  | nil => rfl
  | cons row rows ih =>
      cases hdiscard : g.discardSymbol row.symbol <;> simp [pricedRows, hdiscard, ih]

/-- Rows that list new levels are priced as they are. -/
theorem price_of_mem_pricedRows {cache : PriceCache} {rows : List OrderBookL2DataItem}
    (haction : ¬ (action = .update ∨ action = .delete)) {x : PricedRow}
    (hx : x ∈ pricedRows g action cache rows) : x.price = x.row.price := by
  have hown : ∀ (cache : PriceCache) (row : OrderBookL2DataItem),
      cache.price action row.id row.price = row.price := by
    intro cache row
    cases action with
    | update => exact absurd (Or.inl rfl) haction
    | delete => exact absurd (Or.inr rfl) haction
    | _ => rfl
  induction rows generalizing cache with
  | nil => cases hx
  | cons row rows ih =>
      rw [pricedRows] at hx
      split at hx
      · exact ih hx
      · rcases List.mem_cons.mp hx with rfl | hx
        · exact hown cache row
        · exact ih hx

/-- The rows of the symbols that are kept, with the action of their message. -/
def keptRows (g : Gateway) (action : Action) (rows : List OrderBookL2DataItem) :
    List (Action × OrderBookL2DataItem) :=
  (rows.filter fun row => !g.discardSymbol row.symbol).map fun row => (action, row)

/-- The cache after rows is what they leave listed. -/
theorem listed_append_keptRows (start : PriceCache)
    (before : List (Action × OrderBookL2DataItem)) (rows : List OrderBookL2DataItem) :
    start.listed (before ++ keptRows g action rows) =
      cacheAfter g action (start.listed before) rows := by
  induction rows generalizing before with
  | nil => simp [keptRows, cacheAfter]
  | cons row rows ih =>
      cases hdiscard : g.discardSymbol row.symbol with
      | true => simpa [keptRows, cacheAfter, hdiscard] using ih before
      | false =>
          have hrest := ih (before ++ [(action, row)])
          rw [PriceCache.listed_concat] at hrest
          simpa [keptRows, cacheAfter, hdiscard] using hrest

/-- Priced rows come from rows. -/
theorem row_mem_of_mem_pricedRows {cache : PriceCache} {rows : List OrderBookL2DataItem}
    {x : PricedRow} (hx : x ∈ pricedRows g action cache rows) :
    x.row ∈ rows ∧ g.discardSymbol x.row.symbol = false := by
  have hmem : x.row ∈ (pricedRows g action cache rows).map (·.row) := List.mem_map_of_mem hx
  rw [map_row_pricedRows, List.mem_filter] at hmem
  exact ⟨hmem.1, by simpa using hmem.2⟩

end Rows

/-! ## Levels -/

namespace Levels

/-- The levels with those of rows appended, each on its side. -/
def collect (l : Levels) (rows : List PricedRow) : Levels where
  timestamp := rows.foldl (fun t x => max t (nanoseconds x.row.timestamp)) l.timestamp
  bids := l.bids ++ (rows.filter fun x => x.row.side = .buy).map PricedRow.level
  asks := l.asks ++ (rows.filter fun x => x.row.side = .sell).map PricedRow.level

@[simp] theorem collect_nil (l : Levels) : l.collect [] = l := by simp [collect]

/-- Levels are collected one row after another. -/
theorem collect_append (l : Levels) (rows rows' : List PricedRow) :
    l.collect (rows ++ rows') = (l.collect rows).collect rows' := by
  simp [collect, List.filter_append]

end Levels

section Result

variable {g : Gateway} {action : Action}

/-- A row that is handled is a level at the price the cache answers. -/
theorem bookLevel_ok {cache cache' : PriceCache} {levels levels' : Levels}
    {item : OrderBookL2DataItem}
    (h : bookLevel action cache levels item = .ok (cache', levels')) :
    cache' = cache.after action item.id item.price ∧
      levels' = levels.collect [⟨item, cache.price action item.id item.price⟩] ∧
      PricedRow.IsLevel ⟨item, cache.price action item.id item.price⟩ := by
  rw [bookLevel] at h
  split at h
  · cases h
  · cases h
  · -- the cache answered a price, and the row has a side
    rename_i cache'' price size hcall
    obtain ⟨hcache, hprice, hsize⟩ := PriceCache.call_eq hcall
    split at h
    · cases h
    · rename_i hadd
      cases h
      refine ⟨hcache, ?_, ?_⟩
      · cases hside : item.side <;> rw [hside, Levels.add] at hadd <;> cases hadd <;>
          simp [Levels.collect, hside, PricedRow.level, ← hprice, hsize]
      · rw [PricedRow.IsLevel, ← hprice]
        cases hside : item.side <;> rw [hside, Levels.add] at hadd <;> cases hadd <;> simp

/-- A run that is handled comes to the levels of its rows. -/
theorem foldlM_rowLevel_ok {rows : List OrderBookL2DataItem} {cache cache' : PriceCache}
    {levels levels' : Levels}
    (h : rows.foldlM (rowLevel g action) (cache, levels) = .ok (cache', levels')) :
    cache' = cacheAfter g action cache rows ∧
      levels' = levels.collect (pricedRows g action cache rows) ∧
      ∀ x ∈ pricedRows g action cache rows, x.IsLevel := by
  induction rows generalizing cache levels with
  | nil =>
      cases h
      exact ⟨rfl, by simp [pricedRows], by simp [pricedRows]⟩
  | cons row rows ih =>
      rw [List.foldlM_cons] at h
      cases hdiscard : g.discardSymbol row.symbol with
      | true =>
          rw [rowLevel_of_discard hdiscard] at h
          simpa [pricedRows, cacheAfter, hdiscard] using ih h
      | false =>
          rw [rowLevel_of_kept hdiscard] at h
          cases hlevel : bookLevel action cache levels row with
          | error e =>
              rw [hlevel] at h
              cases h
          | ok x =>
              rw [hlevel] at h
              obtain ⟨cache₁, levels₁⟩ := x
              obtain ⟨rfl, rfl, hrow⟩ := bookLevel_ok hlevel
              obtain ⟨hcache', hlevels', hrows⟩ := ih h
              refine ⟨?_, ?_, ?_⟩
              · rw [hcache']
                simp [cacheAfter, hdiscard]
              · rw [hlevels', ← Levels.collect_append]
                simp [pricedRows, hdiscard]
              · simpa [pricedRows, hdiscard] using ⟨hrow, hrows⟩

/-- A message that reaches its end handles its runs one after another. -/
theorem bookUpdates_append {cache : PriceCache} {gs gs' : List (List OrderBookL2DataItem)}
    (h : (bookUpdates g action cache (gs ++ gs')).stop = none) :
    (bookUpdates g action cache gs).stop = none ∧
      (bookUpdates g action (cacheAfter g action cache gs.flatten) gs').stop = none ∧
      (bookUpdates g action cache (gs ++ gs')).updates =
        (bookUpdates g action cache gs).updates ++
          (bookUpdates g action (cacheAfter g action cache gs.flatten) gs').updates := by
  induction gs generalizing cache with
  | nil => exact ⟨rfl, h, rfl⟩
  | cons rows gs ih =>
      rw [List.cons_append, bookUpdates] at h
      cases hlevels : runLevels g action cache rows with
      | error e =>
          rw [hlevels] at h
          cases h
      | ok x =>
          rw [hlevels] at h
          obtain ⟨hcache, -, -⟩ := foldlM_rowLevel_ok hlevels
          obtain ⟨hstop, hstop', hupdates⟩ := ih h
          rw [hcache] at hstop hstop' hupdates
          rw [List.cons_append, bookUpdates, bookUpdates, hlevels, List.flatten_cons,
            cacheAfter_append]
          simp only [hcache]
          exact ⟨hstop, hstop', by rw [hupdates, List.append_assoc]⟩

/-- The rows of a message that reaches its end all have a price and a side, and the cache afterwards
is the one they leave. -/
theorem isLevel_of_bookUpdates {cache : PriceCache} {groups : List (List OrderBookL2DataItem)}
    (h : (bookUpdates g action cache groups).stop = none) :
    (bookUpdates g action cache groups).priceCache = cacheAfter g action cache groups.flatten ∧
      ∀ x ∈ pricedRows g action cache groups.flatten, x.IsLevel := by
  induction groups generalizing cache with
  | nil => exact ⟨rfl, by simp [pricedRows]⟩
  | cons rows rest ih =>
      rw [bookUpdates] at h
      cases hlevels : runLevels g action cache rows with
      | error e =>
          rw [hlevels] at h
          cases h
      | ok x =>
          rw [hlevels] at h
          obtain ⟨hcache, -, hrows⟩ := foldlM_rowLevel_ok hlevels
          obtain ⟨hcache', hrest⟩ := ih h
          rw [bookUpdates, hlevels, List.flatten_cons, cacheAfter_append, pricedRows_append]
          rw [hcache] at hcache' hrest
          simp only [hcache]
          refine ⟨hcache', fun x hx => ?_⟩
          rcases List.mem_append.mp hx with hx | hx
          · exact hrows x hx
          · exact hrest x hx

/-- A row that closes the connection has no price, in a message whose action was parsed. -/
theorem bookLevel_close {cache cache' : PriceCache} {levels : Levels} {item : OrderBookL2DataItem}
    (h : bookLevel action cache levels item = .error (cache', .close)) :
    cache.price action item.id item.price = .nan ∧
      ¬ (action = .undefinedInternal ∨ action = .unknownInternal) := by
  have hparsed : ¬ (action = .undefinedInternal ∨ action = .unknownInternal) := by
    intro hunparsed
    rw [bookLevel_of_unparsed hunparsed] at h
    cases h
  refine ⟨?_, hparsed⟩
  rw [bookLevel] at h
  split at h
  · cases h
  · -- the only way to close the connection is a price that is not a number
    rename_i hcall
    exact (PriceCache.call_eq hcall).2.1.symm
  · split at h
    · rename_i hadd
      rw [Levels.add_error hadd] at h
      cases h
    · cases h

/-- A run that closes the connection has a row without a price. -/
theorem foldlM_rowLevel_close {rows : List OrderBookL2DataItem} {cache cache' : PriceCache}
    {levels : Levels}
    (h : rows.foldlM (rowLevel g action) (cache, levels) = .error (cache', .close)) :
    (∃ x ∈ pricedRows g action cache rows, x.price = .nan) ∧
      ¬ (action = .undefinedInternal ∨ action = .unknownInternal) := by
  induction rows generalizing cache levels with
  | nil => cases h
  | cons row rows ih =>
      rw [List.foldlM_cons] at h
      cases hdiscard : g.discardSymbol row.symbol with
      | true =>
          rw [rowLevel_of_discard hdiscard] at h
          simpa [pricedRows, hdiscard] using ih h
      | false =>
          rw [rowLevel_of_kept hdiscard] at h
          cases hlevel : bookLevel action cache levels row with
          | error e =>
              rw [hlevel] at h
              cases h
              obtain ⟨hnan, hparsed⟩ := bookLevel_close hlevel
              refine ⟨⟨⟨row, cache.price action row.id row.price⟩, ?_, hnan⟩, hparsed⟩
              simp [pricedRows, hdiscard]
          | ok x =>
              rw [hlevel] at h
              obtain ⟨cache₁, levels₁⟩ := x
              obtain ⟨rfl, -, -⟩ := bookLevel_ok hlevel
              obtain ⟨⟨x, hx, hnan⟩, hparsed⟩ := ih h
              exact ⟨⟨x, by simp [pricedRows, hdiscard, hx], hnan⟩, hparsed⟩

/-- A message that closes the connection has a row without a price. -/
theorem exists_of_bookUpdates_close {cache : PriceCache} {groups : List (List OrderBookL2DataItem)}
    (h : (bookUpdates g action cache groups).stop = some .close) :
    (∃ x ∈ pricedRows g action cache groups.flatten, x.price = .nan) ∧
      ¬ (action = .undefinedInternal ∨ action = .unknownInternal) := by
  induction groups generalizing cache with
  | nil => cases h
  | cons rows rest ih =>
      rw [bookUpdates] at h
      cases hlevels : runLevels g action cache rows with
      | error e =>
          obtain ⟨cache', effect⟩ := e
          rw [hlevels] at h
          obtain rfl : effect = .close := Option.some.inj h
          obtain ⟨⟨x, hx, hnan⟩, hparsed⟩ := foldlM_rowLevel_close hlevels
          exact ⟨⟨x, by simp [pricedRows_append, hx], hnan⟩, hparsed⟩
      | ok x =>
          rw [hlevels] at h
          obtain ⟨hcache, -, -⟩ := foldlM_rowLevel_ok hlevels
          obtain ⟨⟨x, hx, hnan⟩, hparsed⟩ := ih h
          rw [hcache] at hx
          exact ⟨⟨x, by simp [pricedRows_append, hx], hnan⟩, hparsed⟩

/-- An update is made of the levels of a run whose symbol is named and kept. -/
theorem exists_run_of_mem_bookUpdates {cache : PriceCache}
    {groups : List (List OrderBookL2DataItem)} {u : MarketByPriceUpdate}
    (hu : u ∈ (bookUpdates g action cache groups).updates) :
    ∃ rows ∈ groups, ∃ cache', runSymbol rows ≠ "" ∧ g.discardSymbol (runSymbol rows) = false ∧
      u = Book.update g action (runSymbol rows)
        (({} : Levels).collect (pricedRows g action cache' rows)) := by
  induction groups generalizing cache with
  | nil => cases hu
  | cons rows rest ih =>
      rw [bookUpdates] at hu
      split at hu
      · cases hu
      · rename_i hlevels
        rcases List.mem_append.mp hu with h | h
        · obtain ⟨-, hcollect, -⟩ := foldlM_rowLevel_ok hlevels
          rw [Option.mem_toList, runUpdate] at h
          split at h
          · rename_i hpublished
            obtain rfl := Option.some.inj h
            refine ⟨rows, by simp, cache, hpublished.1, ?_, by rw [hcollect]⟩
            exact Bool.eq_false_iff.mpr hpublished.2.2
          · cases h
        · obtain ⟨rows', hrows', hrun⟩ := ih h
          exact ⟨rows', by simp [hrows'], hrun⟩

/-- The updates of a message are for the symbols of its runs that are named and kept. -/
theorem symbol_of_mem_bookUpdates {cache : PriceCache} {groups : List (List OrderBookL2DataItem)}
    {u : MarketByPriceUpdate} (hu : u ∈ (bookUpdates g action cache groups).updates) :
    (∃ rows ∈ groups, runSymbol rows = u.symbol) ∧ u.symbol ≠ "" ∧
      g.discardSymbol u.symbol = false := by
  obtain ⟨rows, hrows, cache', hname, hkept, rfl⟩ := exists_run_of_mem_bookUpdates hu
  exact ⟨⟨rows, hrows, rfl⟩, hname, hkept⟩

/-- A row that cannot be handled leaves the cache as it was, or as the row's call leaves it. -/
theorem cache_of_bookLevel_error {cache cache' : PriceCache} {levels : Levels}
    {item : OrderBookL2DataItem} {effect : Effect}
    (h : bookLevel action cache levels item = .error (cache', effect)) :
    cache' = cache ∨ cache' = cache.after action item.id item.price := by
  rw [bookLevel] at h
  split at h
  · cases h
    exact .inl rfl
  · rename_i hcall
    cases h
    exact .inr (PriceCache.call_eq hcall).1
  · rename_i hcall
    split at h
    · cases h
      exact .inr (PriceCache.call_eq hcall).1
    · cases h

/-- A run that cannot be handled leaves the cache as some of its first rows do. -/
theorem cache_of_foldlM_rowLevel_error {rows : List OrderBookL2DataItem} {cache cache' : PriceCache}
    {levels : Levels} {effect : Effect}
    (h : rows.foldlM (rowLevel g action) (cache, levels) = .error (cache', effect)) :
    ∃ first, first <+: rows ∧ cache' = cacheAfter g action cache first := by
  induction rows generalizing cache levels with
  | nil => cases h
  | cons row rows ih =>
      rw [List.foldlM_cons] at h
      cases hdiscard : g.discardSymbol row.symbol with
      | true =>
          rw [rowLevel_of_discard hdiscard] at h
          obtain ⟨first, hfirst, hcache⟩ := ih h
          exact ⟨row :: first, (List.prefix_cons_inj row).mpr hfirst,
            by simpa [cacheAfter, hdiscard] using hcache⟩
      | false =>
          rw [rowLevel_of_kept hdiscard] at h
          cases hlevel : bookLevel action cache levels row with
          | error e =>
              rw [hlevel] at h
              cases h
              rcases cache_of_bookLevel_error hlevel with hcache | hcache
              · exact ⟨[], List.nil_prefix, hcache⟩
              · refine ⟨[row], (List.prefix_cons_inj row).mpr List.nil_prefix, ?_⟩
                simpa [cacheAfter, hdiscard] using hcache
          | ok x =>
              rw [hlevel] at h
              obtain ⟨cache₁, levels₁⟩ := x
              obtain ⟨rfl, -, -⟩ := bookLevel_ok hlevel
              obtain ⟨first, hfirst, hcache⟩ := ih h
              exact ⟨row :: first, (List.prefix_cons_inj row).mpr hfirst,
                by simpa [cacheAfter, hdiscard] using hcache⟩

/-- **A message leaves the cache as its rows do, up to the one it ends with.** -/
theorem priceCache_of_bookUpdates (cache : PriceCache) (groups : List (List OrderBookL2DataItem)) :
    ∃ first, first <+: groups.flatten ∧
      (bookUpdates g action cache groups).priceCache = cacheAfter g action cache first := by
  induction groups generalizing cache with
  | nil => exact ⟨[], List.nil_prefix, rfl⟩
  | cons rows rest ih =>
      rw [bookUpdates, List.flatten_cons]
      cases hlevels : runLevels g action cache rows with
      | error e =>
          obtain ⟨first, hfirst, hcache⟩ := cache_of_foldlM_rowLevel_error hlevels
          exact ⟨first, hfirst.trans (List.prefix_append _ _), hcache⟩
      | ok x =>
          obtain ⟨hcache, -, -⟩ := foldlM_rowLevel_ok hlevels
          obtain ⟨first, hfirst, hrest⟩ := ih x.1
          refine ⟨rows ++ first, (List.prefix_append_right_inj rows).mpr hfirst, ?_⟩
          rw [cacheAfter_append, ← hcache]
          exact hrest

/-! ## The rows of one symbol -/

/-- The rows before a symbol's first row. -/
def rowsBefore (symbol : String) (rows : List OrderBookL2DataItem) : List OrderBookL2DataItem :=
  rows.takeWhile fun row => row.symbol ≠ symbol

/-- The rows without a symbol that stand directly before a symbol's first row, where they are taken
for rows of the symbol. -/
def unnamedBefore (symbol : String) (rows : List OrderBookL2DataItem) : List OrderBookL2DataItem :=
  (rowsBefore symbol rows).rtakeWhile fun row => row.symbol = ""

/-- The rows before those that are taken for rows of a symbol. -/
def otherBefore (symbol : String) (rows : List OrderBookL2DataItem) : List OrderBookL2DataItem :=
  (rowsBefore symbol rows).rdropWhile fun row => row.symbol = ""

/-- Rows that all have a symbol do not join another's. -/
theorem unnamedBefore_eq_nil {symbol : String} {rows : List OrderBookL2DataItem}
    (h : ∀ row ∈ rows, row.symbol ≠ "") : unnamedBefore symbol rows = [] := by
  rw [unnamedBefore, List.rtakeWhile_eq_nil_iff]
  intro hne
  have hmem : (rowsBefore symbol rows).getLast hne ∈ rows :=
    (List.takeWhile_prefix _).subset (List.getLast_mem hne)
  simpa using h _ hmem

/-- The rows that are taken for rows of a symbol have none. -/
theorem symbol_of_mem_unnamedBefore {symbol : String} {rows : List OrderBookL2DataItem}
    {row : OrderBookL2DataItem} (h : row ∈ unnamedBefore symbol rows) : row.symbol = "" := by
  simpa using List.mem_rtakeWhile_imp h

/-- The rows before a symbol's are of other symbols. -/
theorem symbol_of_mem_otherBefore {symbol : String} {rows : List OrderBookL2DataItem}
    {row : OrderBookL2DataItem} (h : row ∈ otherBefore symbol rows) : row.symbol ≠ symbol := by
  have hmem : row ∈ rowsBefore symbol rows := (List.rdropWhile_prefix _ _).subset h
  simpa using List.mem_takeWhile_imp hmem

/-- The last of the rows before a symbol's has a symbol, else it would be taken for one of them. -/
theorem symbol_of_mem_getLast?_otherBefore {symbol : String} {rows : List OrderBookL2DataItem}
    {row : OrderBookL2DataItem} (h : row ∈ (otherBefore symbol rows).getLast?) :
    row.symbol ≠ "" := by
  obtain ⟨hne, hrow⟩ := List.mem_getLast?_eq_getLast h
  intro hname
  rw [hrow] at hname
  exact List.rdropWhile_last_not _ _ hne (decide_eq_true hname)

/-- **Where a symbol's rows stand.** A message in which the rows of a symbol are together has others
first, then those without a symbol that join it, its own, and the rest. -/
theorem rows_of_together {symbol : String} {rows : List OrderBookL2DataItem}
    (h : Together (·.symbol) symbol rows) :
    ∃ rest, rows = otherBefore symbol rows ++
        (unnamedBefore symbol rows ++ rows.filter (fun row => row.symbol = symbol) ++ rest) ∧
      ∀ row ∈ rest, row.symbol ≠ symbol := by
  obtain ⟨rest, hrows, hrest⟩ := h.split
  refine ⟨rest, ?_, hrest⟩
  rw [List.append_assoc, ← List.append_assoc, otherBefore, unnamedBefore,
    List.rdropWhile_append_rtakeWhile]
  exact hrows

/-- The runs of a message with rows of a symbol: those before it, its own with the rows without a
symbol that join it, and those after it. -/
theorem splitBy_continues {symbol : String} (hname : symbol ≠ "")
    {before unnamed own rest : List OrderBookL2DataItem}
    (hbefore : ∀ row ∈ before.getLast?, row.symbol ≠ "" ∧ row.symbol ≠ symbol)
    (hunnamed : ∀ row ∈ unnamed, row.symbol = "") (hown : ∀ row ∈ own, row.symbol = symbol)
    (hne : own ≠ []) (hrest : ∀ row ∈ rest, row.symbol ≠ symbol) :
    (before ++ (unnamed ++ own ++ rest)).splitBy Book.continues =
      before.splitBy Book.continues ++ (unnamed ++ own) :: rest.splitBy Book.continues := by
  have hrun : unnamed ++ own ≠ [] := by simp [hne]
  -- the rows of the run continue one another
  have hchain : (unnamed ++ own).IsChain fun x y => Book.continues x y := by
    refine (List.pairwise_append.mpr ⟨?_, ?_, ?_⟩).isChain
    · exact List.pairwise_of_forall_mem_list fun x hx y _ => by simp [Book.continues, hunnamed x hx]
    · exact List.pairwise_of_forall_mem_list fun x hx y hy => by
        simp [Book.continues, hown x hx, hown y hy]
    · exact fun x hx y _ => by simp [Book.continues, hunnamed x hx]
  -- no row goes on with the run, and the run goes on with none
  have hgap : ∀ x ∈ before.getLast?, ∀ y ∈ (unnamed ++ own ++ rest).head?,
      Book.continues x y = false := by
    intro x hx y hy
    rw [List.head?_append_of_ne_nil _ hrun] at hy
    obtain ⟨hnamed, hother⟩ := hbefore x hx
    rcases List.mem_append.mp (List.mem_of_mem_head? hy) with hy | hy
    · simp [Book.continues, hnamed, hunnamed y hy]
    · simp [Book.continues, hnamed, hother, hown y hy]
  have hgap' : ∀ x ∈ (unnamed ++ own).getLast?, ∀ y ∈ rest.head?,
      Book.continues x y = false := by
    intro x hx y hy
    rw [List.getLast?_append_of_ne_nil _ hne] at hx
    have hlast := hown x (List.mem_of_mem_getLast? hx)
    have hother := hrest y (List.mem_of_mem_head? hy)
    simp [Book.continues, hlast, hname, hother.symm]
  rw [List.splitBy_append hgap, List.splitBy_append hgap', List.splitBy_of_isChain hrun hchain,
    List.singleton_append]

/-- **The run of a symbol.** A message in which the rows of a symbol are together, and are not none,
has one run with them and the rows without a symbol that join it, between runs without them. -/
theorem runs_of_together {symbol : String} (hname : symbol ≠ "") {rows : List OrderBookL2DataItem}
    (h : Together (·.symbol) symbol rows)
    (hne : rows.filter (fun row => row.symbol = symbol) ≠ []) :
    ∃ rest, rows = otherBefore symbol rows ++
        (unnamedBefore symbol rows ++ rows.filter (fun row => row.symbol = symbol) ++ rest) ∧
      rows.splitBy Book.continues = (otherBefore symbol rows).splitBy Book.continues ++
        (unnamedBefore symbol rows ++ rows.filter fun row => row.symbol = symbol) ::
          rest.splitBy Book.continues ∧
      ∀ row ∈ rest, row.symbol ≠ symbol := by
  obtain ⟨rest, hrows, hrest⟩ := rows_of_together h
  refine ⟨rest, hrows, ?_, hrest⟩
  conv_lhs => rw [hrows]
  refine splitBy_continues hname (fun row hrow => ⟨symbol_of_mem_getLast?_otherBefore hrow, ?_⟩)
    (fun row hrow => symbol_of_mem_unnamedBefore hrow) (fun row hrow => ?_) hne hrest
  · exact symbol_of_mem_otherBefore (List.mem_of_mem_getLast? hrow)
  · simpa using (List.mem_filter.mp hrow).2

/-- The symbol of a run is the symbol of a row of it. -/
theorem exists_mem_runSymbol {rows : List OrderBookL2DataItem} (h : rows ≠ []) :
    ∃ row ∈ rows, row.symbol = runSymbol rows := by
  refine ⟨rows.getLast h, List.getLast_mem h, ?_⟩
  rw [runSymbol, List.getLast?_eq_some_getLast h]
  rfl

/-- The symbol of a run whose rows have one symbol. -/
theorem runSymbol_of_forall {rows : List OrderBookL2DataItem} {symbol : String} (hne : rows ≠ [])
    (h : ∀ row ∈ rows, row.symbol = symbol) : runSymbol rows = symbol := by
  obtain ⟨row, hrow, hrun⟩ := exists_mem_runSymbol hne
  exact hrun.symm.trans (h row hrow)

/-- The priced rows of a symbol. -/
def pricedRowsOf (g : Gateway) (action : Action) (cache : PriceCache)
    (rows : List OrderBookL2DataItem) (symbol : String) : List PricedRow :=
  (pricedRows g action cache rows).filter fun x => x.row.symbol = symbol

/-- Rows of other symbols are no rows of a symbol. -/
theorem pricedRowsOf_eq_nil {cache : PriceCache} {rows : List OrderBookL2DataItem}
    {symbol : String} (h : ∀ row ∈ rows, row.symbol ≠ symbol) :
    pricedRowsOf g action cache rows symbol = [] := by
  rw [pricedRowsOf, List.filter_eq_nil_iff]
  intro x hx
  simpa using h _ (row_mem_of_mem_pricedRows hx).1

/-- Rows of a symbol are all of its rows. -/
theorem pricedRowsOf_eq_self {cache : PriceCache} {rows : List OrderBookL2DataItem}
    {symbol : String} (h : ∀ row ∈ rows, row.symbol = symbol) :
    pricedRowsOf g action cache rows symbol = pricedRows g action cache rows := by
  rw [pricedRowsOf, List.filter_eq_self]
  intro x hx
  simpa using h _ (row_mem_of_mem_pricedRows hx).1

/-- The priced rows of a symbol are those of the first rows, and those of the last ones with the
cache the first ones leave. -/
theorem pricedRowsOf_append (cache : PriceCache) (rows rows' : List OrderBookL2DataItem)
    (symbol : String) :
    pricedRowsOf g action cache (rows ++ rows') symbol =
      pricedRowsOf g action cache rows symbol ++
        pricedRowsOf g action (cacheAfter g action cache rows) rows' symbol := by
  rw [pricedRowsOf, pricedRows_append, List.filter_append]
  rfl

/-- The rows of a symbol that is kept, whatever the price cache. -/
theorem map_row_pricedRowsOf (cache : PriceCache)
    (rows : List OrderBookL2DataItem) {symbol : String} (hkept : g.discardSymbol symbol = false) :
    (pricedRowsOf g action cache rows symbol).map (·.row) =
      rows.filter fun row => row.symbol = symbol := by
  have hmap : (pricedRowsOf g action cache rows symbol).map (·.row) =
      ((pricedRows g action cache rows).map (·.row)).filter fun row => row.symbol = symbol := by
    rw [pricedRowsOf, List.filter_map]
    rfl
  rw [hmap, map_row_pricedRows, List.filter_filter]
  refine List.filter_congr fun row _ => ?_
  by_cases hrow : row.symbol = symbol
  · simp [hrow, hkept]
  · simp [hrow]

/-- The rows of a message that reaches its end have a price and a side. -/
theorem isLevel_of_mem_pricedRowsOf {cache : PriceCache} {rows : List OrderBookL2DataItem}
    (hstop : (bookUpdates g action cache (rows.splitBy Book.continues)).stop = none)
    {symbol : String} {x : PricedRow} (hx : x ∈ pricedRowsOf g action cache rows symbol) :
    x.IsLevel := by
  have hlevels := (isLevel_of_bookUpdates hstop).2
  rw [List.flatten_splitBy] at hlevels
  exact hlevels x (List.mem_filter.mp hx).1

/-- Rows of other symbols publish nothing for a symbol. -/
theorem filter_bookUpdates_eq_nil {cache : PriceCache} {rows : List OrderBookL2DataItem}
    {symbol : String} (h : ∀ row ∈ rows, row.symbol ≠ symbol) :
    (bookUpdates g action cache (rows.splitBy Book.continues)).updates.filter
      (fun u => u.symbol = symbol) = [] := by
  rw [List.filter_eq_nil_iff]
  intro u hu hsymbol
  obtain ⟨⟨run, hrun, hlast⟩, -⟩ := symbol_of_mem_bookUpdates hu
  obtain ⟨row, hrow, hrow'⟩ := exists_mem_runSymbol (List.ne_nil_of_mem_splitBy hrun)
  have hmem : row ∈ rows := by
    rw [← List.flatten_splitBy Book.continues rows]
    exact List.mem_flatten.mpr ⟨run, hrun, hrow⟩
  exact h row hmem (hrow'.trans (hlast.trans (of_decide_eq_true hsymbol)))

/-- The run of a symbol that is named and kept publishes its levels. -/
theorem runUpdate_of_symbol {cache cache' : PriceCache} {rows : List OrderBookL2DataItem}
    {levels : Levels} {symbol : String} (hne : rows ≠ []) (hsymbol : runSymbol rows = symbol)
    (hname : symbol ≠ "") (hkept : g.discardSymbol symbol = false)
    (h : runLevels g action cache rows = .ok (cache', levels)) :
    runUpdate g action rows levels =
      some (Book.update g action symbol
        (({} : Levels).collect (pricedRows g action cache rows))) := by
  have hlast := List.getLast?_eq_some_getLast hne
  have hkept' : g.discardSymbol (rows.getLast hne).symbol = false := by
    rw [← hkept, ← hsymbol, runSymbol, hlast]
    rfl
  have hempty : levels.isEmpty = false := isEmpty_of_runLevels hlast hkept' h
  obtain ⟨-, hlevels, -⟩ := foldlM_rowLevel_ok h
  rw [runUpdate, if_pos ⟨by rwa [hsymbol], by simp [hempty], by simp [hsymbol, hkept]⟩, hsymbol,
    hlevels]

/-- The rows without a symbol that are taken for rows of a symbol, with their prices. -/
def pricedUnnamed (g : Gateway) (action : Action) (cache : PriceCache)
    (rows : List OrderBookL2DataItem) (symbol : String) : List PricedRow :=
  pricedRows g action (cacheAfter g action cache (otherBefore symbol rows))
    (unnamedBefore symbol rows)

/-- A message in which no row joins a symbol's has none to price. -/
theorem pricedUnnamed_eq_nil {cache : PriceCache} {rows : List OrderBookL2DataItem}
    {symbol : String} (h : unnamedBefore symbol rows = []) :
    pricedUnnamed g action cache rows symbol = [] := by
  rw [pricedUnnamed, h]
  rfl

/-- A symbol's rows are priced after those that are taken for its own. -/
theorem pricedUnnamed_append_pricedRowsOf {cache : PriceCache}
    {rows rest : List OrderBookL2DataItem} {symbol : String} (hname : symbol ≠ "")
    (hrows : rows = otherBefore symbol rows ++
      (unnamedBefore symbol rows ++ rows.filter (fun row => row.symbol = symbol) ++ rest))
    (hrest : ∀ row ∈ rest, row.symbol ≠ symbol) :
    pricedUnnamed g action cache rows symbol ++ pricedRowsOf g action cache rows symbol =
      pricedRows g action (cacheAfter g action cache (otherBefore symbol rows))
        (unnamedBefore symbol rows ++ rows.filter fun row => row.symbol = symbol) := by
  have hown : ∀ row ∈ rows.filter (fun row => row.symbol = symbol), row.symbol = symbol :=
    fun row hrow => by simpa using (List.mem_filter.mp hrow).2
  have hpriced : pricedRowsOf g action cache rows symbol =
      pricedRows g action
        (cacheAfter g action (cacheAfter g action cache (otherBefore symbol rows))
          (unnamedBefore symbol rows))
        (rows.filter fun row => row.symbol = symbol) := by
    conv_lhs => rw [hrows]
    rw [pricedRowsOf_append, pricedRowsOf_append, pricedRowsOf_append,
      pricedRowsOf_eq_nil fun row hrow => symbol_of_mem_otherBefore hrow,
      pricedRowsOf_eq_nil fun row hrow => (symbol_of_mem_unnamedBefore hrow).trans_ne hname.symm,
      pricedRowsOf_eq_nil hrest, pricedRowsOf_eq_self hown, List.nil_append, List.nil_append,
      List.append_nil]
  rw [hpriced, pricedRows_append]
  rfl

/-- A symbol that is kept has priced rows exactly when it has rows. -/
theorem pricedRowsOf_ne_nil_iff {cache : PriceCache} {rows : List OrderBookL2DataItem}
    {symbol : String} (hkept : g.discardSymbol symbol = false) :
    pricedRowsOf g action cache rows symbol ≠ [] ↔ ∃ row ∈ rows, row.symbol = symbol := by
  rw [ne_eq, ← List.map_eq_nil_iff (f := (·.row)), map_row_pricedRowsOf cache rows hkept,
    List.filter_eq_nil_iff]
  simp

/-- **One update for each symbol.** A message that reaches its end, and in which the rows of a
symbol are together, publishes one update for it, made of their levels and of those of the rows
without a symbol directly before them, and none if it has no rows of the symbol. -/
theorem updates_of_symbol {cache : PriceCache} {rows : List OrderBookL2DataItem} {symbol : String}
    (htogether : Together (·.symbol) symbol rows)
    (hstop : (bookUpdates g action cache (rows.splitBy Book.continues)).stop = none)
    (hname : symbol ≠ "") (hkept : g.discardSymbol symbol = false) :
    (bookUpdates g action cache (rows.splitBy Book.continues)).updates.filter
        (fun u => u.symbol = symbol) =
      if pricedRowsOf g action cache rows symbol = [] then []
      else
        [Book.update g action symbol
          (({} : Levels).collect
            (pricedUnnamed g action cache rows symbol ++
              pricedRowsOf g action cache rows symbol))] := by
  by_cases hnone : ∀ row ∈ rows, row.symbol ≠ symbol
  · rw [pricedRowsOf_eq_nil hnone, if_pos rfl]
    exact filter_bookUpdates_eq_nil hnone
  · have hne : rows.filter (fun row => row.symbol = symbol) ≠ [] := by
      simpa [List.filter_eq_nil_iff] using hnone
    obtain ⟨rest, hrows, hruns, hrest⟩ := runs_of_together hname htogether hne
    rw [if_neg ((pricedRowsOf_ne_nil_iff hkept).mpr (by simpa using hnone)),
      pricedUnnamed_append_pricedRowsOf hname hrows hrest]
    rw [hruns] at hstop ⊢
    obtain ⟨-, hstop', hupdates⟩ := bookUpdates_append hstop
    rw [List.flatten_splitBy, bookUpdates] at hstop' hupdates
    cases hlevels : runLevels g action (cacheAfter g action cache (otherBefore symbol rows))
        (unnamedBefore symbol rows ++ rows.filter fun row => row.symbol = symbol) with
    | error e =>
        -- the message reaches its end, so the run is handled
        rw [hlevels] at hstop'
        cases hstop'
    | ok x =>
        have hsymbol : runSymbol (unnamedBefore symbol rows ++
            rows.filter fun row => row.symbol = symbol) = symbol := by
          rw [runSymbol, List.getLast?_append_of_ne_nil _ hne]
          exact runSymbol_of_forall hne fun row hrow => by simpa using (List.mem_filter.mp hrow).2
        rw [hlevels] at hupdates
        rw [hupdates, List.filter_append, List.filter_append,
          filter_bookUpdates_eq_nil fun row hrow => symbol_of_mem_otherBefore hrow,
          filter_bookUpdates_eq_nil hrest,
          runUpdate_of_symbol (List.append_ne_nil_of_right_ne_nil _ hne) hsymbol hname hkept
            hlevels]
        simp [Book.update]

end Result

end RoqBitmex
