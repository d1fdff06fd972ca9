import RoqBitmex.Gateway.MarketData

/-! # Trade messages

`MarketData::operator()(Trace<Trade>)` walks over the rows of a message, collects the trades of a
symbol, and publishes them when the symbol changes and at the end. `trade_insert` says what comes of
an inserted message: one summary for each run of rows of a symbol that is named and kept. The time
of a summary is not its run's: the walk clears it after it has looked at the first row of the run,
and looks at the first row of the next run before it publishes. -/

namespace RoqBitmex

open Json (TradeDataItem)

namespace MarketData

/-! ## The summaries of a message -/

/-- The trade of a row. -/
def tradeOf (item : TradeDataItem) : RoqBitmex.Trade :=
  ⟨item.side.map, item.price, item.size, item.trdMatchId⟩

/-- The latest time of some rows in nanoseconds, and zero if there is none later. -/
def latest (rows : List TradeDataItem) : Int :=
  rows.foldl (fun time item => max time (nanoseconds item.timestamp)) 0

/-- The symbol of a run of rows. -/
def tradeSymbol (run : List TradeDataItem) : String := (run.head?.map (·.symbol)).getD ""

variable (g : Gateway)

/-- Whether a run of rows is published: its symbol is named and kept. -/
def isPublishedTrade (run : List TradeDataItem) : Bool :=
  tradeSymbol run ≠ "" ∧ ¬ g.discardSymbol (tradeSymbol run)

/-- The summary of a run. Its time is taken from the rows of the run but the first, and from the
first row of the next run. -/
def tradeSummaryOf (run : List TradeDataItem) (next : Option TradeDataItem) : TradeSummary where
  streamId := g.streamId
  exchange := g.exchange
  symbol := tradeSymbol run
  trades := run.map tradeOf
  exchangeTimeUtc := latest (run.tail ++ next.toList)

/-- The first row of the first of some runs. -/
def firstRow (runs : List (List TradeDataItem)) : Option TradeDataItem := runs.flatten.head?

/-- The summaries of runs, with the flag of the last run. -/
def tradeSummariesOf : List (List TradeDataItem) → List (TradeSummary × Bool)
  | [] => []
  | run :: rest =>
      (if isPublishedTrade g run then [(tradeSummaryOf g run (firstRow rest), rest.isEmpty)]
        else []) ++ tradeSummariesOf rest

/-- The effect of dispatching a summary. -/
def tradeEffect (x : TradeSummary × Bool) : Effect := .dispatch (.tradeSummary x.1 x.2)

variable {g}

@[simp] theorem latest_nil : latest [] = 0 := rfl

/-- The latest time of rows and one more. -/
theorem latest_concat (rows : List TradeDataItem) (item : TradeDataItem) :
    latest (rows ++ [item]) = max (latest rows) (nanoseconds item.timestamp) := by
  rw [latest, List.foldl_append]
  rfl

/-! ## The loop -/

/-- Where the loop stands inside a run: the trades are the run's, and, if the run has a symbol, the
time is that of its rows but the first. -/
structure TradeLoop.InRun (l : TradeLoop) (run : List TradeDataItem) : Prop where
  previous : l.previous = tradeSymbol run
  trades : l.trades = run.map tradeOf
  timestamp : tradeSymbol run ≠ "" → l.timestamp = latest run.tail
  ne : run ≠ []

/-- Another row of the symbol continues the run. -/
theorem TradeLoop.InRun.item {l : TradeLoop} {run : List TradeDataItem} {item : TradeDataItem}
    (h : l.InRun run) (hsame : item.symbol = tradeSymbol run) :
    (TradeLoop.item g l item).InRun (run ++ [item]) ∧
      (TradeLoop.item g l item).effects = l.effects := by
  obtain ⟨first, rest, rfl⟩ := List.exists_cons_of_ne_nil h.ne
  have hprevious : ¬ item.symbol ≠ l.previous := by rw [h.previous, hsame, not_not]
  rw [TradeLoop.item]
  simp only [if_neg hprevious]
  refine ⟨⟨h.previous, ?_, ?_, by simp⟩, trivial⟩
  · simp [h.trades, tradeOf]
  · intro hname
    show max l.timestamp (nanoseconds item.timestamp) = latest (rest ++ [item])
    rw [h.timestamp hname, latest_concat]
    rfl

/-- The rest of a run. -/
theorem TradeLoop.InRun.foldl {l : TradeLoop} {run rest : List TradeDataItem} (h : l.InRun run)
    (hsame : ∀ item ∈ rest, item.symbol = tradeSymbol run) :
    (rest.foldl (TradeLoop.item g) l).InRun (run ++ rest) ∧
      (rest.foldl (TradeLoop.item g) l).effects = l.effects := by
  induction rest generalizing l run with
  | nil => simpa using h
  | cons item rest ih =>
      obtain ⟨hitem, heffects⟩ := h.item (g := g) (hsame item (by simp))
      have hsymbol : tradeSymbol (run ++ [item]) = tradeSymbol run := by
        obtain ⟨first, run, rfl⟩ := List.exists_cons_of_ne_nil h.ne
        rfl
      obtain ⟨hrest, heffects'⟩ := ih hitem fun item' h' => by
        rw [hsymbol]
        exact hsame item' (by simp [h'])
      rw [List.append_assoc, List.singleton_append] at hrest
      exact ⟨hrest, heffects'.trans heffects⟩

/-- What the end of a run dispatches, once the time of the row after it has been looked at. -/
theorem TradeLoop.InRun.dispatch {l : TradeLoop} {run : List TradeDataItem} (h : l.InRun run)
    (next : Option TradeDataItem) (isLast : Bool) :
    ({ l with
        timestamp := next.elim l.timestamp fun item =>
          max l.timestamp (nanoseconds item.timestamp) } : TradeLoop).dispatch g isLast =
      if isPublishedTrade g run then [tradeEffect (tradeSummaryOf g run next, isLast)] else [] := by
  have htrades : run.map tradeOf ≠ [] := by simpa using h.ne
  rw [TradeLoop.dispatch, isPublishedTrade]
  simp only [h.previous, h.trades]
  by_cases hname : tradeSymbol run = ""
  · simp [hname]
  · have htime : (next.elim l.timestamp fun item => max l.timestamp (nanoseconds item.timestamp)) =
        latest (run.tail ++ next.toList) := by
      rw [h.timestamp hname]
      cases next with
      | none => simp
      | some item => exact (latest_concat _ _).symm
    simp only [htime]
    cases hdiscard : g.discardSymbol (tradeSymbol run) with
    | true => simp
    | false => simp [hname, htrades, tradeEffect, tradeSummaryOf]

/-- A row of another symbol ends the run and starts one of its own. -/
theorem TradeLoop.InRun.switch {l : TradeLoop} {run : List TradeDataItem} {item : TradeDataItem}
    (h : l.InRun run) (hdiff : item.symbol ≠ tradeSymbol run) :
    (TradeLoop.item g l item).InRun [item] ∧
      (TradeLoop.item g l item).effects = l.effects ++
        if isPublishedTrade g run then [tradeEffect (tradeSummaryOf g run (some item), false)]
        else [] := by
  have hprevious : item.symbol ≠ l.previous := by rwa [h.previous]
  have hdispatch := h.dispatch (g := g) (some item) false
  rw [TradeLoop.item]
  simp only [if_pos hprevious]
  exact ⟨⟨rfl, rfl, fun _ => rfl, by simp⟩, congrArg _ hdispatch⟩

/-- The first row starts the first run. -/
theorem TradeLoop.inRun_first (item : TradeDataItem) :
    (TradeLoop.item g {} item).InRun [item] ∧ (TradeLoop.item g {} item).effects = [] := by
  rw [TradeLoop.item]
  by_cases hname : item.symbol = ""
  · -- a row without a symbol is no change, and its time is kept for nothing
    simp only [hname, ne_eq, not_true_eq_false, if_false]
    exact ⟨⟨hname.symm, rfl, fun h => absurd hname h, by simp⟩, trivial⟩
  · simp only [ne_eq, hname, not_false_eq_true, if_true]
    exact ⟨⟨rfl, rfl, fun _ => rfl, by simp⟩, by simp [TradeLoop.dispatch]⟩

/-- **The rest of a message, run by run.** -/
theorem TradeLoop.InRun.finish {l : TradeLoop} {run : List TradeDataItem}
    {runs : List (List TradeDataItem)} (h : l.InRun run)
    (hone : ∀ run' ∈ runs, run' ≠ [] ∧ ∀ item ∈ run', item.symbol = tradeSymbol run')
    (hgap : (run :: runs).IsChain fun run run' => tradeSymbol run ≠ tradeSymbol run') :
    let l' := runs.flatten.foldl (TradeLoop.item g) l
    l'.effects ++ l'.dispatch g true =
      l.effects ++ (tradeSummariesOf g (run :: runs)).map tradeEffect := by
  induction runs generalizing l run with
  | nil =>
      have hdispatch := h.dispatch (g := g) none true
      simp only [List.flatten_nil, List.foldl_nil, tradeSummariesOf, firstRow, List.append_nil,
        List.head?_nil, List.isEmpty_nil]
      rw [show l.dispatch g true = _ from hdispatch]
      split
      · rfl
      · rfl
  | cons run' runs ih =>
      obtain ⟨hdiff, hgap'⟩ := List.isChain_cons_cons.mp hgap
      obtain ⟨hne, hsame⟩ := hone run' (by simp)
      obtain ⟨item, rest, rfl⟩ := List.exists_cons_of_ne_nil hne
      -- the first row ends the run before it, and the others continue its own
      have hother : item.symbol ≠ tradeSymbol run := fun heq => hdiff heq.symm
      have hone' : ∀ item' ∈ rest, item'.symbol = tradeSymbol [item] :=
        fun item' h' => hsame item' (by simp [h'])
      obtain ⟨hitem, heffects⟩ := h.switch (g := g) hother
      obtain ⟨hrest, heffects'⟩ := hitem.foldl (g := g) hone'
      have hfinish := ih hrest (fun run'' h'' => hone run'' (by simp [h''])) hgap'
      rw [heffects', heffects, List.append_assoc] at hfinish
      rw [List.flatten_cons, List.cons_append, List.foldl_cons, List.foldl_append]
      refine hfinish.trans (congrArg _ ?_)
      conv_rhs => rw [tradeSummariesOf, List.map_append]
      split
      · rfl
      · rfl

/-- The rows of a run are of one symbol. -/
theorem symbol_eq_of_mem_run {rows run : List TradeDataItem} (hrun : run ∈ keyRuns (·.symbol) rows)
    {item : TradeDataItem} (hitem : item ∈ run) : item.symbol = tradeSymbol run := by
  obtain ⟨first, hfirst⟩ := exists_head_of_mem_run hrun
  rw [key_eq_of_mem_run hrun hfirst hitem, tradeSymbol, hfirst]
  rfl

/-- **What an inserted message dispatches.** One summary for each run of a symbol that is named and
kept. -/
theorem trade_insert {message : Json.Trade} (h : message.action = .insert) :
    trade g message =
      (tradeSummariesOf g (keyRuns (·.symbol) message.data)).map tradeEffect := by
  have hgap : (keyRuns (·.symbol) message.data).IsChain fun run run' =>
      tradeSymbol run ≠ tradeSymbol run' := by
    have hchain := isChain_keyRuns (·.symbol) message.data
    refine hchain.imp_of_mem_imp fun run run' hrun hrun' hdiff => ?_
    obtain ⟨first, hfirst⟩ := exists_head_of_mem_run hrun
    obtain ⟨first', hfirst'⟩ := exists_head_of_mem_run hrun'
    rw [← symbol_eq_of_mem_run hrun (List.mem_of_mem_head? hfirst),
      ← symbol_eq_of_mem_run hrun' (List.mem_of_mem_head? hfirst')]
    exact hdiff _ (List.mem_of_mem_head? hfirst) _ (List.mem_of_mem_head? hfirst')
  have hone : ∀ run ∈ keyRuns (·.symbol) message.data,
      run ≠ [] ∧ ∀ item ∈ run, item.symbol = tradeSymbol run :=
    fun run hrun => ⟨List.ne_nil_of_mem_splitBy hrun, fun _ => symbol_eq_of_mem_run hrun⟩
  rw [trade, if_neg (by simp [h])]
  conv_lhs => rw [← flatten_keyRuns (·.symbol) message.data]
  cases hruns : keyRuns (·.symbol) message.data with
  | nil => rfl
  | cons run runs =>
      rw [hruns] at hgap hone
      obtain ⟨hne, hsame⟩ := hone run (by simp)
      obtain ⟨item, rest, rfl⟩ := List.exists_cons_of_ne_nil hne
      obtain ⟨hitem, heffects⟩ := TradeLoop.inRun_first (g := g) item
      have hone' : ∀ item' ∈ rest, item'.symbol = tradeSymbol [item] :=
        fun item' h' => hsame item' (by simp [h'])
      obtain ⟨hrest, heffects'⟩ := hitem.foldl (g := g) hone'
      rw [List.flatten_cons, List.cons_append, List.foldl_cons, List.foldl_append]
      refine (hrest.finish (fun run' h' => hone run' (by simp [h'])) hgap).trans ?_
      rw [heffects', heffects]
      rfl

/-- Every other message dispatches nothing. -/
theorem trade_of_ne_insert {message : Json.Trade} (h : message.action ≠ .insert) :
    trade g message = [] := if_pos h

/-! ## Batches -/

/-- The summary an effect dispatches, with its flag. -/
def tradeSummary? : Effect → Option (TradeSummary × Bool)
  | .dispatch (.tradeSummary value isLast) => some (value, isLast)
  | _ => none

variable (g) in
/-- The summaries a message dispatches, in order, each with its flag. -/
def tradeSummaries (message : Json.Trade) : List (TradeSummary × Bool) :=
  (trade g message).filterMap tradeSummary?

variable (g) in
/-- The runs of a message whose symbol is kept. -/
def keptTradeRuns (message : Json.Trade) : List (List TradeDataItem) :=
  (keyRuns (·.symbol) message.data).filter fun run => !g.discardSymbol (tradeSymbol run)

/-- The summaries of inserted trades are those of their runs of equal symbols. -/
theorem tradeSummaries_insert {message : Json.Trade} (h : message.action = .insert) :
    tradeSummaries g message = tradeSummariesOf g (keyRuns (·.symbol) message.data) := by
  rw [tradeSummaries, trade_insert h, List.filterMap_map]
  exact List.filterMap_some

/-- If every row has a symbol, a run is published exactly when its symbol is kept. -/
theorem isPublishedTrade_of_named {rows run : List TradeDataItem}
    (hname : ∀ item ∈ rows, item.symbol ≠ "") (hrun : run ∈ keyRuns (·.symbol) rows) :
    isPublishedTrade g run = !g.discardSymbol (tradeSymbol run) := by
  obtain ⟨first, hfirst⟩ := exists_head_of_mem_run hrun
  have hmem := List.mem_of_mem_head? hfirst
  have hrows : first ∈ rows := by
    rw [← flatten_keyRuns (·.symbol) rows]
    exact List.mem_flatten_of_mem hrun hmem
  have hsymbol := symbol_eq_of_mem_run hrun hmem
  have hne : tradeSymbol run ≠ "" := hsymbol ▸ hname first hrows
  simp [isPublishedTrade, hne]

/-- The runs that are published are those whose symbol is kept. -/
theorem filter_isPublishedTrade {message : Json.Trade}
    (hname : ∀ item ∈ message.data, item.symbol ≠ "") :
    (keyRuns (·.symbol) message.data).filter (isPublishedTrade g) = keptTradeRuns g message :=
  List.filter_congr fun _ hrun => isPublishedTrade_of_named hname hrun

/-- The symbol and the trades of the summaries are those of the runs that are published. -/
theorem map_tradeSummariesOf (runs : List (List TradeDataItem)) :
    (tradeSummariesOf g runs).map (fun x => (x.1.symbol, x.1.trades)) =
      (runs.filter (isPublishedTrade g)).map fun run => (tradeSymbol run, run.map tradeOf) := by
  induction runs with
  | nil => rfl
  | cons run rest ih =>
      rw [tradeSummariesOf, List.map_append, ih, List.filter_cons]
      split
      · rfl
      · rfl

/-- **Nothing lost, doubled or mixed.** A message with named rows dispatches, in order, one summary
for each run of a symbol that is kept, with the run's trades; together these are the trades of the
rows that are kept. A message that inserts nothing dispatches nothing. -/
theorem trade_batches {message : Json.Trade} (hname : ∀ item ∈ message.data, item.symbol ≠ "") :
    (message.action ≠ .insert → trade g message = []) ∧
      (message.action = .insert →
        (∀ e ∈ trade g message, ∃ x ∈ tradeSummaries g message, e = tradeEffect x) ∧
          (tradeSummaries g message).map (fun x => (x.1.symbol, x.1.trades)) =
            (keptTradeRuns g message).map (fun run => (tradeSymbol run, run.map tradeOf)) ∧
          (tradeSummaries g message).flatMap (·.1.trades) =
            (message.data.filter fun item => !g.discardSymbol item.symbol).map tradeOf) := by
  refine ⟨trade_of_ne_insert, fun h => ?_⟩
  have hruns : (tradeSummaries g message).map (fun x => (x.1.symbol, x.1.trades)) =
      (keptTradeRuns g message).map fun run => (tradeSymbol run, run.map tradeOf) := by
    rw [tradeSummaries_insert h, map_tradeSummariesOf, filter_isPublishedTrade hname]
  refine ⟨fun e he => ?_, hruns, ?_⟩
  · rw [trade_insert h, ← tradeSummaries_insert h] at he
    obtain ⟨x, hx, rfl⟩ := List.mem_map.mp he
    exact ⟨x, hx, rfl⟩
  · have htrades : (tradeSummaries g message).map (·.1.trades) =
        (keptTradeRuns g message).map (List.map tradeOf) := by
      have hsnd := congrArg (List.map Prod.snd) hruns
      rw [List.map_map, List.map_map] at hsnd
      exact hsnd
    have hkept : (keptTradeRuns g message).flatten =
        message.data.filter fun item => !g.discardSymbol item.symbol := by
      refine Eq.trans (congrArg _ (List.filter_congr fun run hrun => ?_))
        (flatten_filter_keyRuns TradeDataItem.symbol (fun symbol => !g.discardSymbol symbol)
          message.data)
      obtain ⟨first, hfirst⟩ := exists_head_of_mem_run hrun
      simp [tradeSymbol, hfirst]
    rw [List.flatMap_def, htrades, ← List.map_flatten, hkept]

/-- A trade of each of two symbols. -/
def twoTrades : Json.Trade where
  action := .insert
  data := [⟨"XBTUSD", .buy, .num 10, .num 1, "a", 5⟩, ⟨"ETHUSD", .sell, .num 20, .num 2, "b", 5⟩]

/-- Both are dispatched, each in a summary of its own. -/
theorem trade_batches_twoTrades :
    (tradeSummaries .keepAll twoTrades).map (fun x => (x.1.symbol, x.1.trades)) =
      [("XBTUSD", [⟨.buy, .num 10, .num 1, "a"⟩]), ("ETHUSD", [⟨.sell, .num 20, .num 2, "b"⟩])] :=
  ((trade_batches (by decide)).2 rfl).2.1.trans (by decide +kernel)

/-! ## The flag of the last summary -/

/-- The flags of the summaries: all are down but that of the last run. -/
theorem flags_tradeSummariesOf (runs : List (List TradeDataItem)) (last : List TradeDataItem) :
    (tradeSummariesOf g (runs ++ [last])).map Prod.snd =
      List.replicate (runs.filter (isPublishedTrade g)).length false ++
        if isPublishedTrade g last then [true] else [] := by
  induction runs with
  | nil =>
      rw [List.nil_append, tradeSummariesOf]
      split
      · rfl
      · rfl
  | cons run runs ih =>
      have hmore : (runs ++ [last]).isEmpty = false := by cases runs <;> rfl
      rw [List.cons_append, tradeSummariesOf, List.map_append, ih, List.filter_cons, hmore]
      split
      · rfl
      · rfl

/-- Exactly one of some flags is up, and it is the last. -/
def OnlyLast (flags : List Bool) : Prop := flags.count true = 1 ∧ flags.getLast? = some true

instance (flags : List Bool) : Decidable (OnlyLast flags) := inferInstanceAs (Decidable (_ ∧ _))

/-- **The exact flag.** An inserted message that dispatches a summary flags the last one and no
other exactly when the symbol of its last row is kept. -/
theorem onlyLast_iff {message : Json.Trade} (h : message.action = .insert)
    (hname : ∀ item ∈ message.data, item.symbol ≠ "") (hsome : tradeSummaries g message ≠ []) :
    OnlyLast ((tradeSummaries g message).map Prod.snd) ↔
      ∀ item ∈ message.data.getLast?, g.discardSymbol item.symbol = false := by
  rw [tradeSummaries_insert h] at hsome ⊢
  obtain ⟨runs, last, hruns⟩ : ∃ runs last, keyRuns (·.symbol) message.data = runs ++ [last] := by
    refine ⟨_, _, (List.dropLast_concat_getLast ?_).symm⟩
    intro hnil
    rw [hnil] at hsome
    exact hsome rfl
  have hlast : last ∈ keyRuns (·.symbol) message.data := by simp [hruns]
  obtain ⟨item, hitem⟩ : ∃ item, last.getLast? = some item :=
    ⟨_, List.getLast?_eq_some_getLast (List.ne_nil_of_mem_splitBy hlast)⟩
  -- the last row of the message is the last row of its last run
  have hrow : message.data.getLast? = some item := by
    rw [← flatten_keyRuns (·.symbol) message.data, hruns, List.flatten_append,
      List.flatten_singleton, List.getLast?_append, hitem]
    rfl
  have hsymbol := symbol_eq_of_mem_run hlast (List.mem_of_mem_getLast? hitem)
  rw [hruns, flags_tradeSummariesOf, isPublishedTrade_of_named hname hlast, ← hsymbol, hrow]
  cases hdiscard : g.discardSymbol item.symbol with
  | false => simp [OnlyLast, hdiscard, List.count_replicate]
  | true => simp [OnlyLast, hdiscard, List.count_replicate]

/-- The second of two summaries is flagged. -/
theorem onlyLast_iff_twoTrades : OnlyLast ((tradeSummaries .keepAll twoTrades).map Prod.snd) :=
  (onlyLast_iff rfl (by decide) (by decide +kernel)).mpr (by decide)

/-- Where the second symbol is discarded, a summary is dispatched and none is flagged. -/
theorem twoTrades_not_onlyLast :
    tradeSummaries (.drop "ETHUSD") twoTrades ≠ [] ∧
      ¬ OnlyLast ((tradeSummaries (.drop "ETHUSD") twoTrades).map Prod.snd) := by
  decide +kernel

/-! ## The time of a summary -/

/-- Every summary has the latest time of its own rows, in nanoseconds. -/
def TimesOwnTrades (g : Gateway) (message : Json.Trade) : Prop :=
  List.Forall₂
    (fun x run => x.1.trades = run.map tradeOf ∧
      (run.map fun item => item.timestamp * 1000000).max? = some x.1.exchangeTimeUtc)
    (tradeSummaries g message) (keptTradeRuns g message)

instance (g : Gateway) (message : Json.Trade) : Decidable (TimesOwnTrades g message) :=
  inferInstanceAs (Decidable (List.Forall₂ _ _ _))

/-- Each run with the first row after it. -/
def withNext : List (List TradeDataItem) → List (List TradeDataItem × Option TradeDataItem)
  | [] => []
  | run :: rest => (run, firstRow rest) :: withNext rest

/-- The times of a run are held by nanoseconds; its first row is no later than the others and the
row after the run (than zero, if there are none); and the row after the run is no later than the
run. Times are compared as the gateway converts them, which makes a difference only for a row after
the run whose time is not held. -/
structure OnTime (run : List TradeDataItem) (next : Option TradeDataItem) : Prop where
  held : ∀ item ∈ run, Representable item.timestamp
  first : ∀ item ∈ run.head?, nanoseconds item.timestamp ≤ latest (run.tail ++ next.toList)
  next : ∀ item ∈ next, nanoseconds item.timestamp ≤ latest run

instance (run : List TradeDataItem) (next : Option TradeDataItem) : Decidable (OnTime run next) :=
  decidable_of_iff
    ((∀ item ∈ run, Representable item.timestamp) ∧
      (∀ item ∈ run.head?, nanoseconds item.timestamp ≤ latest (run.tail ++ next.toList)) ∧
      ∀ item ∈ next, nanoseconds item.timestamp ≤ latest run)
    ⟨fun h => ⟨h.1, h.2.1, h.2.2⟩, fun h => ⟨h.held, h.first, h.next⟩⟩

/-- The latest time of a row and others. -/
theorem latest_cons (item : TradeDataItem) (rows : List TradeDataItem) :
    latest (item :: rows) = max (nanoseconds item.timestamp) (latest rows) := by
  induction rows using List.reverseRecOn with
  | nil => exact max_comm _ _
  | append_singleton rows last ih =>
      rw [← List.cons_append, latest_concat, latest_concat, ih, max_assoc]

/-- The latest time is a count of 64 bits. -/
theorem latest_lt (rows : List TradeDataItem) : latest rows < 2 ^ 63 := by
  induction rows with
  | nil => exact Int.pow_pos (by omega)
  | cons item rest ih =>
      rw [latest_cons]
      exact max_lt (nanoseconds_lt _) ih

/-- On times that are held the latest time is the maximum. -/
theorem max?_eq_latest {run : List TradeDataItem} (hne : run ≠ [])
    (htime : ∀ item ∈ run, Representable item.timestamp) :
    (run.map fun item => item.timestamp * 1000000).max? = some (latest run) := by
  induction run with
  | nil => exact absurd rfl hne
  | cons item rest ih =>
      have hitem := htime item (by simp)
      rw [latest_cons, nanoseconds_of_representable hitem, List.map_cons, List.max?_cons]
      by_cases hrest : rest = []
      · have hnonneg : 0 ≤ item.timestamp * 1000000 := by
          obtain ⟨hnonneg, -⟩ := hitem
          omega
        simp [hrest, max_eq_left hnonneg]
      · rw [ih hrest fun item' h' => htime item' (by simp [h'])]
        rfl

/-- Where the maximum is a count of 64 bits, all times are held. -/
theorem held_of_max? {run : List TradeDataItem} (htime : ∀ item ∈ run, 0 ≤ item.timestamp) {t : Int}
    (ht : t < 2 ^ 63) (hmax : (run.map fun item => item.timestamp * 1000000).max? = some t) :
    ∀ item ∈ run, Representable item.timestamp := by
  intro item hitem
  obtain ⟨-, hbound⟩ := List.max?_eq_some_iff.mp hmax
  have hle : item.timestamp * 1000000 ≤ t := hbound _ (List.mem_map.mpr ⟨item, hitem, rfl⟩)
  exact ⟨htime item hitem, lt_of_le_of_lt hle ht⟩

/-- The time a run is published at is its own latest time exactly when its first row and the row
after it come no later than they may. -/
theorem latest_eq_iff {run : List TradeDataItem} (hne : run ≠ []) (next : Option TradeDataItem) :
    latest (run.tail ++ next.toList) = latest run ↔
      (∀ item ∈ run.head?, nanoseconds item.timestamp ≤ latest (run.tail ++ next.toList)) ∧
        ∀ item ∈ next, nanoseconds item.timestamp ≤ latest run := by
  obtain ⟨first, rest, rfl⟩ := List.exists_cons_of_ne_nil hne
  simp only [List.tail_cons, List.head?_cons, Option.mem_some_iff, forall_eq', latest_cons]
  cases next with
  | none => simp
  | some item =>
      simp only [Option.toList_some, latest_concat, Option.mem_some_iff, forall_eq']
      omega

/-- A run is published at its own time exactly when it is on time. -/
theorem onTime_iff {run : List TradeDataItem} (hne : run ≠ [])
    (htime : ∀ item ∈ run, 0 ≤ item.timestamp) (next : Option TradeDataItem) :
    (run.map fun item => item.timestamp * 1000000).max? =
        some (latest (run.tail ++ next.toList)) ↔ OnTime run next := by
  constructor
  · intro hmax
    have hheld := held_of_max? htime (latest_lt _) hmax
    rw [max?_eq_latest hne hheld, Option.some_inj] at hmax
    obtain ⟨hfirst, hnext⟩ := (latest_eq_iff hne next).mp hmax.symm
    exact ⟨hheld, hfirst, hnext⟩
  · intro h
    rw [max?_eq_latest hne h.held, (latest_eq_iff hne next).mpr ⟨h.first, h.next⟩]

/-- The summaries of runs have the times of their runs exactly when the runs that are published are
on time. -/
theorem forall₂_tradeSummariesOf {runs : List (List TradeDataItem)}
    (hone : ∀ run ∈ runs, run ≠ [] ∧ ∀ item ∈ run, 0 ≤ item.timestamp) :
    List.Forall₂
        (fun x run => x.1.trades = run.map tradeOf ∧
          (run.map fun item => item.timestamp * 1000000).max? = some x.1.exchangeTimeUtc)
        (tradeSummariesOf g runs) (runs.filter (isPublishedTrade g)) ↔
      ∀ x ∈ withNext runs, isPublishedTrade g x.1 = true → OnTime x.1 x.2 := by
  induction runs with
  | nil => simp [tradeSummariesOf, withNext]
  | cons run rest ih =>
      obtain ⟨hne, htime⟩ := hone run (by simp)
      have hrest := ih fun run' h' => hone run' (by simp [h'])
      have hrun : (run.map fun item => item.timestamp * 1000000).max? =
            some (tradeSummaryOf g run (firstRow rest)).exchangeTimeUtc ↔
          OnTime run (firstRow rest) := onTime_iff hne htime (firstRow rest)
      rw [tradeSummariesOf, withNext, List.forall_mem_cons, List.filter_cons]
      cases hpublished : isPublishedTrade g run with
      | false => simpa using hrest
      | true =>
          rw [if_pos rfl, if_pos rfl, List.singleton_append, List.forall₂_cons, hrest, hrun]
          simp [tradeSummaryOf]

/-- **The exact time.** The summaries of an inserted message have the latest times of their own
trades exactly when the runs of the symbols that are kept are on time. -/
theorem timesOwnTrades_iff {message : Json.Trade} (h : message.action = .insert)
    (hname : ∀ item ∈ message.data, item.symbol ≠ "")
    (htime : ∀ item ∈ message.data, 0 ≤ item.timestamp) :
    TimesOwnTrades g message ↔
      ∀ x ∈ withNext (keyRuns (·.symbol) message.data),
        g.discardSymbol (tradeSymbol x.1) = false → OnTime x.1 x.2 := by
  have hone : ∀ run ∈ keyRuns (·.symbol) message.data,
      run ≠ [] ∧ ∀ item ∈ run, 0 ≤ item.timestamp := by
    refine fun run hrun => ⟨List.ne_nil_of_mem_splitBy hrun, fun item hitem => htime item ?_⟩
    rw [← flatten_keyRuns (·.symbol) message.data]
    exact List.mem_flatten_of_mem hrun hitem
  have hmem : ∀ (runs : List (List TradeDataItem)), ∀ x ∈ withNext runs, x.1 ∈ runs := by
    intro runs
    induction runs with
    | nil => exact fun x hx => absurd hx (by simp [withNext])
    | cons run rest ih =>
        intro x hx
        rcases List.mem_cons.mp hx with rfl | hx
        · exact List.mem_cons_self
        · exact List.mem_cons_of_mem _ (ih x hx)
  rw [TimesOwnTrades, tradeSummaries_insert h, ← filter_isPublishedTrade hname,
    forall₂_tradeSummariesOf hone]
  refine forall₂_congr fun x hx => ?_
  rw [isPublishedTrade_of_named hname (hmem _ x hx), Bool.not_eq_true']

/-- Two trades of one symbol at one time. -/
def sameTime : Json.Trade where
  action := .insert
  data := [⟨"XBTUSD", .buy, .num 10, .num 1, "a", 5⟩, ⟨"XBTUSD", .buy, .num 11, .num 2, "b", 5⟩]

/-- Their summary has their time. -/
theorem timesOwnTrades_iff_sameTime : TimesOwnTrades .keepAll sameTime :=
  (timesOwnTrades_iff rfl (by decide) (by decide)).mpr (by decide +kernel)

/-- A trade on its own. -/
def oneTrade : Json.Trade where
  action := .insert
  data := [⟨"XBTUSD", .buy, .num 10, .num 1, "a", 5⟩]

/-- A trade on its own is published at time zero. -/
theorem oneTrade_not_timesOwnTrades :
    ¬ TimesOwnTrades .keepAll oneTrade ∧
      (tradeSummaries .keepAll oneTrade).map (·.1.exchangeTimeUtc) = [0] := by
  decide +kernel

end MarketData

end RoqBitmex
