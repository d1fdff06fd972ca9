import Mathlib.Order.Bounds.Defs
import RoqBitmex.Gateway.BookSession

/-! # Batches of book rows

A book message is published run by run. `answeredRows` gives each row what the price cache returns
for it, and `forall₂_bookUpdates` says that the updates are the runs of the symbols that are kept,
with nothing lost, repeated or mixed. So it makes no difference whether rows come in one message or
in two (`levelChanges_append`). -/

namespace RoqBitmex

universe u

open Json (OrderBookL2DataItem Action)

/-! ## Rows and what the price cache returns -/

/-- A row of a book message with the level the price cache's answer makes of it, if it has one. -/
abbrev AnsweredRow := OrderBookL2DataItem × Option MBPUpdate

/-- The level of a row at the price and with the size the price cache returns. -/
def answer (cache : PriceCache) (action : Action) (row : OrderBookL2DataItem) : Option MBPUpdate :=
  match cache.call action row.id row.price row.size with
  | .ok (_, .num price, size) => some ⟨price, size⟩
  | _ => none

section Rows

variable (g : Gateway) (action : Action)

/-- The rows of a message, each with the level it makes in its turn. Rows of a discarded symbol make
none. -/
def answeredRows : PriceCache → List OrderBookL2DataItem → List AnsweredRow
  | _, [] => []
  | cache, row :: rest =>
      if g.discardSymbol row.symbol then (row, none) :: answeredRows cache rest
      else
        (row, answer cache action row) :: answeredRows (cache.after action row.id row.price) rest

/-- Every row of a symbol that is kept has a price. -/
def Resolvable (cache : PriceCache) (rows : List OrderBookL2DataItem) : Prop :=
  ∀ x ∈ answeredRows g action cache rows, g.discardSymbol x.1.symbol = false → x.2.isSome

/-- The rows have symbols and sides. -/
def CompleteRows (rows : List OrderBookL2DataItem) : Prop :=
  ∀ row ∈ rows, row.symbol ≠ "" ∧ (row.side = .buy ∨ row.side = .sell)

/-- The maximal runs of rows of one symbol, of the symbols that are kept. -/
def keptRuns (rows : List AnsweredRow) : List (List AnsweredRow) :=
  (keyRuns (fun x : AnsweredRow => x.1.symbol) rows).filter fun run =>
    (run.head?.map fun x => !g.discardSymbol x.1.symbol).getD false

/-- The levels of rows on a side, in order. -/
def levelsOn (side : Json.Side) (rows : List AnsweredRow) : List MBPUpdate :=
  rows.filterMap fun x => if x.1.side = side then x.2 else none

/-- An update is that of a run of rows: it has their symbol, their levels on each side, and as its
time the largest of zero and their times in nanoseconds. -/
structure IsUpdateOf (run : List AnsweredRow) (u : MarketByPriceUpdate) : Prop where
  ne : run ≠ []
  source : u.streamId = g.streamId ∧ u.exchange = g.exchange
  symbol : ∀ x ∈ run, u.symbol = x.1.symbol
  bids : u.bids = levelsOn .buy run
  asks : u.asks = levelsOn .sell run
  updateType : u.updateType = if action = .partial_ then .snapshot else .incremental
  time : IsGreatest (insert 0 {t | ∃ x ∈ run, nanoseconds x.1.timestamp = t}) u.exchangeTimeUtc

/-- The time of an update is the latest time of its run, in nanoseconds. -/
def IsLatest (run : List AnsweredRow) (u : MarketByPriceUpdate) : Prop :=
  (run.map fun x => x.1.timestamp * 1000000).max? = some u.exchangeTimeUtc

instance (run : List AnsweredRow) (u : MarketByPriceUpdate) : Decidable (IsLatest run u) :=
  inferInstanceAs (Decidable (_ = _))

end Rows

section Result

variable {g : Gateway} {action : Action}

/-- A row of a symbol that is discarded has no answer. -/
theorem answeredRows_cons_of_discard {cache : PriceCache} {row : OrderBookL2DataItem}
    {rest : List OrderBookL2DataItem} (h : g.discardSymbol row.symbol = true) :
    answeredRows g action cache (row :: rest) =
      (row, none) :: answeredRows g action cache rest := if_pos h

/-- A row of a symbol that is kept has the cache's answer, and leaves the cache to the rows after
it. -/
theorem answeredRows_cons_of_kept {cache : PriceCache} {row : OrderBookL2DataItem}
    {rest : List OrderBookL2DataItem} (h : g.discardSymbol row.symbol = false) :
    answeredRows g action cache (row :: rest) =
      (row, answer cache action row) ::
        answeredRows g action (cache.after action row.id row.price) rest :=
  if_neg (by simp [h])

/-- Every row is answered in its place. -/
theorem map_fst_answeredRows (cache : PriceCache) (rows : List OrderBookL2DataItem) :
    (answeredRows g action cache rows).map Prod.fst = rows := by
  induction rows generalizing cache with
  | nil => rfl
  | cons row rows ih =>
      cases hdiscard : g.discardSymbol row.symbol with
      | true => rw [answeredRows_cons_of_discard hdiscard, List.map_cons, ih]
      | false => rw [answeredRows_cons_of_kept hdiscard, List.map_cons, ih]

/-- The rows after some others are answered from the cache these leave. -/
theorem answeredRows_append (cache : PriceCache) (rows rows' : List OrderBookL2DataItem) :
    answeredRows g action cache (rows ++ rows') =
      answeredRows g action cache rows ++
        answeredRows g action (cacheAfter g action cache rows) rows' := by
  induction rows generalizing cache with
  | nil => rfl
  | cons row rows ih =>
      cases hdiscard : g.discardSymbol row.symbol with
      | true =>
          rw [List.cons_append, answeredRows_cons_of_discard hdiscard,
            answeredRows_cons_of_discard hdiscard, ih]
          simp [cacheAfter, hdiscard]
      | false =>
          rw [List.cons_append, answeredRows_cons_of_kept hdiscard,
            answeredRows_cons_of_kept hdiscard, ih]
          simp [cacheAfter, hdiscard]

/-- The first rows of resolvable ones are resolvable. -/
theorem Resolvable.left {cache : PriceCache} {rows rows' : List OrderBookL2DataItem}
    (h : Resolvable g action cache (rows ++ rows')) : Resolvable g action cache rows := by
  intro x hx
  apply h x
  rw [answeredRows_append]
  exact List.mem_append_left _ hx

/-- The last rows of resolvable ones are resolvable with the cache the first ones leave. -/
theorem Resolvable.right {cache : PriceCache} {rows rows' : List OrderBookL2DataItem}
    (h : Resolvable g action cache (rows ++ rows')) :
    Resolvable g action (cacheAfter g action cache rows) rows' := by
  intro x hx
  apply h x
  rw [answeredRows_append]
  exact List.mem_append_right _ hx

/-- A row with a price and a side is handled. -/
theorem bookLevel_of_answer {cache : PriceCache} (levels : Levels) {row : OrderBookL2DataItem}
    (hanswer : (answer cache action row).isSome) (hside : row.side = .buy ∨ row.side = .sell) :
    ∃ levels', bookLevel action cache levels row =
        .ok (cache.after action row.id row.price, levels') ∧
      some (PricedRow.level ⟨row, cache.price action row.id row.price⟩) =
        answer cache action row := by
  unfold answer at hanswer ⊢
  unfold bookLevel
  cases hcall : cache.call action row.id row.price row.size with
  | error site =>
      rw [hcall] at hanswer
      cases hanswer
  | ok x =>
      obtain ⟨cache', price, size⟩ := x
      obtain ⟨rfl, hprice, hsize⟩ := PriceCache.call_eq hcall
      rw [hcall] at hanswer
      cases price with
      | nan => cases hanswer
      | num p =>
          have hlevel : PricedRow.level ⟨row, cache.price action row.id row.price⟩ = ⟨p, size⟩ := by
            unfold PricedRow.level
            rw [← hprice, hsize]
            rfl
          rw [hlevel]
          rcases hside with hside | hside
          · rw [hside]
            exact ⟨_, rfl, rfl⟩
          · rw [hside]
            exact ⟨_, rfl, rfl⟩

/-- The first rows of complete ones are complete. -/
theorem CompleteRows.left {rows rows' : List OrderBookL2DataItem}
    (h : CompleteRows (rows ++ rows')) : CompleteRows rows :=
  fun row hrow => h row (List.mem_append_left _ hrow)

/-- The last rows of complete ones are complete. -/
theorem CompleteRows.right {rows rows' : List OrderBookL2DataItem}
    (h : CompleteRows (rows ++ rows')) : CompleteRows rows' :=
  fun row hrow => h row (List.mem_append_right _ hrow)

/-- The rows after the first of complete ones are complete. -/
theorem CompleteRows.tail {row : OrderBookL2DataItem} {rows : List OrderBookL2DataItem}
    (h : CompleteRows (row :: rows)) : CompleteRows rows :=
  fun row' hrow' => h row' (List.mem_cons_of_mem _ hrow')

/-- The rows after a resolvable one are, from the cache it leaves. -/
theorem Resolvable.tail {cache : PriceCache} {row : OrderBookL2DataItem}
    {rows : List OrderBookL2DataItem} (h : Resolvable g action cache (row :: rows)) :
    Resolvable g action
      (if g.discardSymbol row.symbol then cache else cache.after action row.id row.price) rows :=
  @Resolvable.right g action cache [row] rows h

/-- The first row of resolvable rows has an answer, unless its symbol is discarded. -/
theorem Resolvable.head {cache : PriceCache} {row : OrderBookL2DataItem}
    {rows : List OrderBookL2DataItem} (h : Resolvable g action cache (row :: rows))
    (hkept : g.discardSymbol row.symbol = false) : (answer cache action row).isSome := by
  refine h (row, answer cache action row) ?_ hkept
  rw [answeredRows_cons_of_kept hkept]
  exact List.mem_cons_self

/-- Rows with prices and sides are handled to the end. -/
theorem foldlM_rowLevel_of_resolvable {rows : List OrderBookL2DataItem} {cache : PriceCache}
    (hformed : CompleteRows rows) (hresolvable : Resolvable g action cache rows) (levels : Levels) :
    ∃ x, rows.foldlM (rowLevel g action) (cache, levels) = .ok x := by
  induction rows generalizing cache levels with
  | nil => exact ⟨_, rfl⟩
  | cons row rows ih =>
      have hrest := hresolvable.tail
      rw [List.foldlM_cons]
      cases hdiscard : g.discardSymbol row.symbol with
      | true =>
          rw [if_pos hdiscard] at hrest
          rw [rowLevel_of_discard hdiscard]
          exact ih hformed.tail hrest levels
      | false =>
          rw [hdiscard, if_neg Bool.false_ne_true] at hrest
          rw [rowLevel_of_kept hdiscard]
          obtain ⟨levels', hlevel, -⟩ :=
            bookLevel_of_answer levels (hresolvable.head hdiscard) (hformed row (by simp)).2
          rw [hlevel]
          exact ih hformed.tail hrest levels'

/-- The levels of the priced rows on a side are those the price cache returns. -/
theorem map_level_pricedRows {rows : List OrderBookL2DataItem} {cache : PriceCache}
    (hformed : CompleteRows rows) (hresolvable : Resolvable g action cache rows)
    (side : Json.Side) :
    ((pricedRows g action cache rows).filter fun x => x.row.side = side).map PricedRow.level =
      levelsOn side (answeredRows g action cache rows) := by
  induction rows generalizing cache with
  | nil => rfl
  | cons row rows ih =>
      have hrest := ih hformed.tail hresolvable.tail
      cases hdiscard : g.discardSymbol row.symbol with
      | true =>
          rw [if_pos hdiscard] at hrest
          rw [answeredRows_cons_of_discard hdiscard]
          simpa [pricedRows, hdiscard, levelsOn] using hrest
      | false =>
          rw [hdiscard, if_neg Bool.false_ne_true] at hrest
          rw [answeredRows_cons_of_kept hdiscard]
          obtain ⟨-, -, hsame⟩ :=
            bookLevel_of_answer {} (hresolvable.head hdiscard) (hformed row (by simp)).2
          by_cases hside : row.side = side
          · simpa [pricedRows, hdiscard, levelsOn, hside, ← hsame] using hrest
          · simpa [pricedRows, hdiscard, levelsOn, hside] using hrest

/-! ## Runs -/

/-- The largest of times with one before them. -/
theorem isGreatest_foldl_max {α : Type*} (f : α → ℤ) (xs : List α) (t : ℤ) :
    IsGreatest (insert t {t' | ∃ x ∈ xs, f x = t'}) (xs.foldl (fun t x => max t (f x)) t) := by
  induction xs generalizing t with
  | nil => simp [IsGreatest, upperBounds]
  | cons x xs ih =>
      obtain ⟨hmem, hbound⟩ := ih (max t (f x))
      rw [List.foldl_cons]
      refine ⟨?_, ?_⟩
      · rcases hmem with hmax | ⟨x', hx', hmax⟩
        · rcases max_choice t (f x) with ht | hx
          · exact Or.inl (hmax.trans ht)
          · exact Or.inr ⟨x, by simp, hx.symm.trans hmax.symm⟩
        · exact Or.inr ⟨x', List.mem_cons_of_mem _ hx', hmax⟩
      · have hfirst : max t (f x) ≤ _ := hbound (Or.inl rfl)
        rintro t' (rfl | ⟨x', hx', rfl⟩)
        · exact le_trans (le_max_left _ _) hfirst
        · rcases List.mem_cons.mp hx' with rfl | hx'
          · exact le_trans (le_max_right _ _) hfirst
          · exact hbound (Or.inr ⟨x', hx', rfl⟩)

/-- Where the times of a run are held by nanoseconds, the time of its update is the latest one. -/
theorem IsUpdateOf.isLatest {run : List AnsweredRow} {u : MarketByPriceUpdate}
    (h : IsUpdateOf g action run u) (htime : ∀ x ∈ run, Representable x.1.timestamp) :
    IsLatest run u := by
  obtain ⟨hmem, hbound⟩ := h.time
  have hconvert : ∀ x ∈ run, nanoseconds x.1.timestamp = x.1.timestamp * 1000000 :=
    fun x hx => nanoseconds_of_representable (htime x hx)
  have hle : ∀ x ∈ run, x.1.timestamp * 1000000 ≤ u.exchangeTimeUtc :=
    fun x hx => hbound (Or.inr ⟨x, hx, hconvert x hx⟩)
  rw [IsLatest, List.max?_eq_some_iff]
  refine ⟨List.mem_map.mpr ?_, ?_⟩
  · rcases hmem with hzero | ⟨x, hx, htop⟩
    -- a run that is published at zero is all at zero
    · obtain ⟨first, hfirst⟩ := List.exists_mem_of_ne_nil run h.ne
      have hfirstLe := hle first hfirst
      obtain ⟨hnonneg, -⟩ := htime first hfirst
      exact ⟨first, hfirst, by omega⟩
    · exact ⟨x, hx, (hconvert x hx).symm.trans htop⟩
  · intro t ht
    obtain ⟨x, hx, rfl⟩ := List.mem_map.mp ht
    exact hle x hx

/-- A run of a symbol that is kept is published as it is. -/
theorem isUpdateOf_update {cache : PriceCache} {rows : List OrderBookL2DataItem} {symbol : String}
    (hne : rows ≠ []) (hsame : ∀ row ∈ rows, row.symbol = symbol)
    (hkept : g.discardSymbol symbol = false) (hformed : CompleteRows rows)
    (hresolvable : Resolvable g action cache rows) :
    IsUpdateOf g action (answeredRows g action cache rows)
      (Book.update g action symbol (({} : Levels).collect (pricedRows g action cache rows))) := by
  have hrows : (pricedRows g action cache rows).map (·.row) = rows := by
    rw [map_row_pricedRows, List.filter_eq_self]
    intro row hrow
    rw [hsame row hrow, hkept]
    rfl
  have hmem : ∀ x ∈ answeredRows g action cache rows, x.1 ∈ rows := by
    intro x hx
    rw [← @map_fst_answeredRows g action cache rows]
    exact List.mem_map_of_mem hx
  constructor
  · intro hnil
    have hrowsNil := @map_fst_answeredRows g action cache rows
    rw [hnil] at hrowsNil
    exact hne hrowsNil.symm
  · exact ⟨rfl, rfl⟩
  · intro x hx
    exact (hsame x.1 (hmem x hx)).symm
  · simp only [Book.update, Levels.collect, List.nil_append]
    exact map_level_pricedRows hformed hresolvable .buy
  · simp only [Book.update, Levels.collect, List.nil_append]
    exact map_level_pricedRows hformed hresolvable .sell
  · rfl
  · have htime : (Book.update g action symbol (({} : Levels).collect
        (pricedRows g action cache rows))).exchangeTimeUtc =
          (answeredRows g action cache rows).foldl
            (fun t x => max t (nanoseconds x.1.timestamp)) 0 := by
      have hanswered : (answeredRows g action cache rows).foldl
          (fun t x => max t (nanoseconds x.1.timestamp)) 0 =
            rows.foldl (fun t row => max t (nanoseconds row.timestamp)) 0 := by
        conv_rhs => rw [← @map_fst_answeredRows g action cache rows]
        rw [List.foldl_map]
      rw [hanswered]
      conv_rhs => rw [← hrows]
      rw [List.foldl_map]
      rfl
    rw [htime]
    exact isGreatest_foldl_max _ _ 0

/-- **One run.** A run of a symbol that is kept is one update, and a run of another symbol is
none. -/
theorem forall₂_runUpdate {run : List AnsweredRow} {cache cache' : PriceCache} {levels : Levels}
    (hrun : run = answeredRows g action cache (run.map Prod.fst)) (hne : run ≠ [])
    (hsame : ∀ x ∈ run, ∀ y ∈ run, x.1.symbol = y.1.symbol)
    (hformed : CompleteRows (run.map Prod.fst))
    (hresolvable : Resolvable g action cache (run.map Prod.fst))
    (hlevels : runLevels g action cache (run.map Prod.fst) = .ok (cache', levels)) :
    List.Forall₂ (IsUpdateOf g action)
      ([run].filter fun run => (run.head?.map fun x => !g.discardSymbol x.1.symbol).getD false)
      (runUpdate g action (run.map Prod.fst) levels).toList := by
  -- the run's symbol is that of its first row
  obtain ⟨first, tail, rfl⟩ := List.exists_cons_of_ne_nil hne
  have hsymbol : ∀ row ∈ (first :: tail).map Prod.fst, row.symbol = first.1.symbol := by
    intro row hrow
    obtain ⟨x, hx, rfl⟩ := List.mem_map.mp hrow
    exact hsame x hx first (by simp)
  have hname : first.1.symbol ≠ "" := (hformed first.1 (by simp)).1
  have hrows : (first :: tail).map Prod.fst ≠ [] := by simp
  rw [List.filter_singleton, List.head?_cons, Option.map_some, Option.getD_some]
  cases hkept : g.discardSymbol first.1.symbol with
  | true =>
      have hnone : runUpdate g action ((first :: tail).map Prod.fst) levels = none := by
        obtain ⟨row, hrow, hrunSymbol⟩ := exists_mem_runSymbol hrows
        rw [runUpdate, ← hrunSymbol, hsymbol row hrow]
        exact if_neg fun h => h.2.2 hkept
      rw [hnone]
      exact .nil
  | false =>
      have hupdate := isUpdateOf_update hrows hsymbol hkept hformed hresolvable
      rw [← hrun] at hupdate
      rw [runUpdate_of_symbol hrows (runSymbol_of_forall hrows hsymbol) hname hkept hlevels]
      exact .cons hupdate .nil

/-- **The updates are the runs that are kept.** Rows with symbols, sides and prices are handled to
the end, and each run of a symbol that is kept is one update. -/
theorem forall₂_bookUpdates {gs : List (List AnsweredRow)} {cache : PriceCache}
    (hgs : gs.flatten = answeredRows g action cache (gs.flatten.map Prod.fst))
    (hruns : ∀ run ∈ gs, run ≠ [] ∧ ∀ x ∈ run, ∀ y ∈ run, x.1.symbol = y.1.symbol)
    (hformed : CompleteRows (gs.flatten.map Prod.fst))
    (hresolvable : Resolvable g action cache (gs.flatten.map Prod.fst)) :
    (bookUpdates g action cache (gs.map (List.map Prod.fst))).stop = none ∧
      List.Forall₂ (IsUpdateOf g action)
        (gs.filter fun run => (run.head?.map fun x => !g.discardSymbol x.1.symbol).getD false)
        (bookUpdates g action cache (gs.map (List.map Prod.fst))).updates := by
  induction gs generalizing cache with
  | nil => exact ⟨rfl, .nil⟩
  | cons run rest ih =>
      rw [List.flatten_cons, List.map_append] at hgs hformed hresolvable
      rw [answeredRows_append] at hgs
      have hlength : run.length = (answeredRows g action cache (run.map Prod.fst)).length := by
        conv_rhs => rw [← List.length_map Prod.fst, map_fst_answeredRows, List.length_map]
      -- the first run is answered by itself, and the others from the cache it leaves
      obtain ⟨hrun, hrest⟩ := List.append_inj hgs hlength
      obtain ⟨hne, hsame⟩ := hruns run (by simp)
      obtain ⟨⟨cache', levels⟩, hok⟩ :=
        foldlM_rowLevel_of_resolvable hformed.left hresolvable.left {}
      have hlevels : runLevels g action cache (run.map Prod.fst) = .ok (cache', levels) := hok
      obtain ⟨hcache, -, -⟩ := foldlM_rowLevel_ok hok
      obtain ⟨hstop, hforall⟩ := ih hrest (fun run' h => hruns run' (List.mem_cons_of_mem _ h))
        hformed.right hresolvable.right
      rw [← hcache] at hstop hforall
      rw [List.map_cons, bookUpdates, hlevels, ← List.singleton_append, List.filter_append]
      have hfirst := forall₂_runUpdate hrun hne hsame hformed.left hresolvable.left hlevels
      exact ⟨hstop, List.rel_append hfirst hforall⟩

/-- The runs of rows with symbols. -/
theorem splitBy_continues_of_complete {rows : List OrderBookL2DataItem} (h : CompleteRows rows) :
    rows.splitBy Book.continues = keyRuns (·.symbol) rows := by
  refine splitBy_congr ?_
  have hnamed : rows.IsChain fun x y => x.symbol ≠ "" := by
    refine List.Pairwise.isChain ?_
    refine List.pairwise_iff_forall_sublist.mpr fun hsub => ?_
    exact (h _ (hsub.subset (by simp))).1
  refine hnamed.imp fun x y hx => ?_
  rw [Book.continues]
  simp [hx]

/-- **A message is published run by run.** -/
theorem forall₂_updates {cache : PriceCache} {rows : List OrderBookL2DataItem}
    (hformed : CompleteRows rows) (hresolvable : Resolvable g action cache rows) :
    (bookUpdates g action cache (rows.splitBy Book.continues)).stop = none ∧
      List.Forall₂ (IsUpdateOf g action) (keptRuns g (answeredRows g action cache rows))
        (bookUpdates g action cache (rows.splitBy Book.continues)).updates := by
  -- rows are answered in their places, so the runs of the answered rows are those of the rows
  have hruns : rows.splitBy Book.continues =
      (keyRuns (fun x : AnsweredRow => x.1.symbol) (answeredRows g action cache rows)).map
        (List.map Prod.fst) := by
    rw [splitBy_continues_of_complete hformed]
    conv_lhs => rw [← @map_fst_answeredRows g action cache rows]
    exact splitBy_map _ _ _
  have hflatten := flatten_keyRuns (fun x : AnsweredRow => x.1.symbol)
    (answeredRows g action cache rows)
  rw [hruns]
  apply forall₂_bookUpdates
  · rw [hflatten, map_fst_answeredRows]
  · intro run hrun
    refine ⟨List.ne_nil_of_mem_splitBy hrun, fun x hx y hy => ?_⟩
    obtain ⟨first, hfirst⟩ := exists_head_of_mem_run hrun
    exact (key_eq_of_mem_run hrun hfirst hx).trans (key_eq_of_mem_run hrun hfirst hy).symm
  · rw [hflatten, map_fst_answeredRows]
    exact hformed
  · rw [hflatten, map_fst_answeredRows]
    exact hresolvable

/-! ## Level changes -/

/-- The levels of an update on a side. -/
def MarketByPriceUpdate.levels (u : MarketByPriceUpdate) : Json.Side → List MBPUpdate
  | .buy => u.bids
  | .sell => u.asks
  | .undefinedInternal | .unknownInternal => []

/-- The level changes of a symbol on a side, in order. -/
def levelChanges (symbol : String) (side : Json.Side) (us : List MarketByPriceUpdate) :
    List MBPUpdate :=
  (us.filter fun u => u.symbol = symbol).flatMap fun u => u.levels side

/-- The answered rows of a symbol that is kept. -/
def rowsOfSymbol (g : Gateway) (symbol : String) (rows : List AnsweredRow) : List AnsweredRow :=
  (rows.filter fun x => !g.discardSymbol x.1.symbol).filter fun x => x.1.symbol = symbol

/-- The changes of a side are those of each part. -/
theorem levelChanges_append (symbol : String) (side : Json.Side)
    (us us' : List MarketByPriceUpdate) :
    levelChanges symbol side (us ++ us') =
      levelChanges symbol side us ++ levelChanges symbol side us' := by
  simp [levelChanges]

/-- The levels of a symbol are those of each part. -/
theorem levelsOn_rowsOfSymbol_append (symbol : String) (side : Json.Side)
    (rows rows' : List AnsweredRow) :
    levelsOn side (rowsOfSymbol g symbol (rows ++ rows')) =
      levelsOn side (rowsOfSymbol g symbol rows) ++
        levelsOn side (rowsOfSymbol g symbol rows') := by
  unfold levelsOn rowsOfSymbol
  rw [List.filter_append, List.filter_append, List.filterMap_append]

/-- A run is of a symbol or it is not. -/
theorem IsUpdateOf.filter_run {run : List AnsweredRow} {u : MarketByPriceUpdate}
    (h : IsUpdateOf g action run u) (symbol : String) :
    run.filter (fun x => x.1.symbol = symbol) = if u.symbol = symbol then run else [] := by
  split
  · next hu =>
      rw [List.filter_eq_self]
      intro x hx
      simp [← h.symbol x hx, hu]
  · next hu =>
      rw [List.filter_eq_nil_iff]
      intro x hx
      simp [← h.symbol x hx, hu]

/-- The level changes of updates are the levels of the rows of their runs. -/
theorem levelChanges_of_forall₂ {runs : List (List AnsweredRow)} {us : List MarketByPriceUpdate}
    (h : List.Forall₂ (IsUpdateOf g action) runs us) (symbol : String) {side : Json.Side}
    (hside : side = .buy ∨ side = .sell) :
    levelChanges symbol side us =
      levelsOn side (runs.flatten.filter fun x => x.1.symbol = symbol) := by
  induction h with
  | nil => rfl
  | @cons run u runs us hrun hrest ih =>
      have hlevels : u.levels side = levelsOn side run := by
        rcases hside with rfl | rfl
        · exact hrun.bids
        · exact hrun.asks
      rw [List.flatten_cons, List.filter_append, hrun.filter_run, levelsOn, List.filterMap_append,
        ← levelsOn, ← levelsOn, ← ih, levelChanges, List.filter_cons]
      -- an update of another symbol adds nothing on either side
      by_cases hu : u.symbol = symbol
      · simp [hu, hlevels, levelChanges]
      · simp [hu, levelsOn, levelChanges]

/-- **The level changes of a message** are the levels of its rows. -/
theorem levelChanges_updates {cache : PriceCache} {rows : List OrderBookL2DataItem}
    (hformed : CompleteRows rows) (hresolvable : Resolvable g action cache rows) (symbol : String)
    {side : Json.Side} (hside : side = .buy ∨ side = .sell) :
    levelChanges symbol side
        (bookUpdates g action cache (rows.splitBy Book.continues)).updates =
      levelsOn side (rowsOfSymbol g symbol (answeredRows g action cache rows)) := by
  rw [levelChanges_of_forall₂ (forall₂_updates hformed hresolvable).2 symbol hside]
  have hflatten := flatten_filter_keyRuns (fun x : AnsweredRow => x.1.symbol)
    (fun symbol => !g.discardSymbol symbol) (answeredRows g action cache rows)
  unfold keptRuns rowsOfSymbol
  rw [hflatten]

end Result

/-! ## Messages -/

namespace MarketData

variable {D : Type u} {g : Gateway} {dl : Download D}

/-- The book updates among the effects of a run. -/
def bookEvents (es : List Effect) : List MarketByPriceUpdate :=
  es.filterMap fun
    | .dispatch (.marketByPriceUpdate u) => some u
    | _ => none

/-- The book events are those of each part. -/
@[simp] theorem bookEvents_append (es es' : List Effect) :
    bookEvents (es ++ es') = bookEvents es ++ bookEvents es' :=
  List.filterMap_append

/-- Effects that concern no book are no updates. -/
theorem bookEvents_eq_nil {es : List Effect} (h : ∀ e ∈ es, ¬ IsBookEffect e) :
    bookEvents es = [] := by
  rw [bookEvents, List.filterMap_eq_nil_iff]
  intro e he
  cases e with
  | dispatch event =>
      cases event with
      | marketByPriceUpdate u => exact absurd trivial (h _ he)
      | _ => rfl
  | _ => rfl

/-- Handing over updates puts out the updates, whatever is refused. -/
theorem bookEvents_dispatchEffects (us : List MarketByPriceUpdate) (badState : List Bool) :
    bookEvents (dispatchEffects us badState) = us := by
  induction us generalizing badState with
  | nil => rfl
  | cons u us ih =>
      have hresubscribe : bookEvents
          (if badState.headD false then [.unsubscribe .orderBookL2, .subscribe [.orderBookL2]]
            else []) = [] := by
        split <;> rfl
      rw [dispatchEffects, ← List.singleton_append, bookEvents_append, bookEvents_append, ih,
        hresubscribe]
      rfl

/-- A book message that is handled publishes the updates its rows come to. -/
theorem bookEvents_out {s : MarketData D} {message : Json.OrderBookL2}
    (h : message.action = .partial_ ∨ s.partialReceived.orderBookL2 = true)
    (badState : List Bool) :
    bookEvents ((marketData g dl).out s (.event (.orderBookL2 message) badState)) =
      (s.bookResult g message).updates := by
  obtain ⟨tail, hstep⟩ := orderBookL2_handled g dl h badState
  obtain ⟨tail', hvisible, htail⟩ := hstep.visible
  have hout : (marketData g dl).out s (.event (.orderBookL2 message) badState) = _ := hvisible
  rw [hout, bookEvents_append, bookEvents_append, bookEvents_dispatchEffects,
    bookEvents_eq_nil htail, bookEvents_eq_nil (not_isBookEffect_assertEffect _ _),
    List.nil_append, List.append_nil]

variable (g dl) in
/-- A book message with symbols, sides and prices that comes after a snapshot leaves the cache as
its rows do, and the next one is handled unless an update is refused. -/
theorem next_of_resolvable {s : MarketData D} {message : Json.OrderBookL2} (badState : List Bool)
    (hflag : s.partialReceived.orderBookL2 = true) (hformed : CompleteRows message.data)
    (hresolvable : Resolvable g message.action s.priceCache message.data) :
    ((marketData g dl).next s (.event (.orderBookL2 message) badState)).priceCache =
        cacheAfter g message.action s.priceCache message.data ∧
      ((∀ b ∈ badState, b = false) →
        ((marketData g dl).next s
          (.event (.orderBookL2 message) badState)).partialReceived.orderBookL2 = true) := by
  obtain ⟨tail, hstep⟩ := orderBookL2_handled g dl (.inr hflag) badState
  have hstop : (s.bookResult g message).stop = none := (forall₂_updates hformed hresolvable).1
  have hcache := (isLevel_of_bookUpdates hstop).1
  rw [List.flatten_splitBy] at hcache
  refine ⟨hstep.priceCache.trans hcache, fun hnone => hstep.partialReceived.trans ?_⟩
  have hrefused : refused (s.bookResult g message).updates badState = false := by
    rw [refused, List.any_eq_false]
    intro b hb
    rw [hnone b (List.mem_of_mem_take hb)]
    exact Bool.false_ne_true
  rw [hflag, hrefused, Bool.not_false, Bool.and_true, Bool.or_true]

/-- A book message with symbols, sides and prices ends the process only by the assertion about its
action. -/
theorem action_of_stops {s : MarketData D} {message : Json.OrderBookL2} {badState : List Bool}
    (haction : message.action ≠ .partial_) (hflag : s.partialReceived.orderBookL2 = true)
    (hformed : CompleteRows message.data)
    (hresolvable : Resolvable g message.action s.priceCache message.data)
    (hstops : (marketData g dl).stops s (.event (.orderBookL2 message) badState) = true) :
    message.action = .unknownInternal := by
  have hstop : (s.bookResult g message).stop = none := (forall₂_updates hformed hresolvable).1
  have heffects : ((marketData g dl).step s (.event (.orderBookL2 message) badState)).2 =
      s.bookEffects g message badState := by
    show (s.orderBookL2 g dl message badState).2 = _
    rw [orderBookL2_eq g dl (.inr hflag), hstop]
    exact congrArg Prod.snd (if_neg haction)
  rw [Machine.stops, heffects, bookEffects, List.any_append, Bool.or_eq_true] at hstops
  -- a known action passes the assertion, and handing over updates does not end the process
  by_contra hknown
  rcases hstops with h | h
  · rw [decide_eq_true hknown, assertEffect_true] at h
    cases h
  · obtain ⟨e, he, hhalts⟩ := List.any_eq_true.mp h
    have hnot := @halts_dispatchEffects g _ _ e he
    rw [show (marketData g dl).halts e = g.halts e from rfl, hnot] at hhalts
    cases hhalts

/-- The level changes a book message publishes are the levels of its rows. -/
theorem levelChanges_out {s : MarketData D} {message : Json.OrderBookL2} (badState : List Bool)
    (h : message.action = .partial_ ∨ s.partialReceived.orderBookL2 = true)
    (hformed : CompleteRows message.data)
    (hresolvable : Resolvable g message.action s.priceCache message.data) (symbol : String)
    {side : Json.Side} (hside : side = .buy ∨ side = .sell) :
    levelChanges symbol side
        (bookEvents ((marketData g dl).out s (.event (.orderBookL2 message) badState))) =
      levelsOn side
        (rowsOfSymbol g symbol (answeredRows g message.action s.priceCache message.data)) := by
  rw [bookEvents_out h]
  exact levelChanges_updates hformed hresolvable symbol hside

/-- A second message with symbols, sides and prices is lost only with the process, and then it has
nothing to publish. -/
theorem levelChanges_second {s s' : MarketData D} {action : Action}
    {xs ys : List OrderBookL2DataItem} {badState badState' : List Bool}
    (haction : action ≠ .partial_) (hflag : s.partialReceived.orderBookL2 = true)
    (hflag' : s'.partialReceived.orderBookL2 = true) (hformed : CompleteRows xs)
    (hformed' : CompleteRows ys) (hresolvable : Resolvable g action s.priceCache xs)
    (hresolvable' : Resolvable g action s'.priceCache ys) (symbol : String) {side : Json.Side}
    (hside : side = .buy ∨ side = .sell) :
    levelChanges symbol side (bookEvents
        (if (marketData g dl).stops s (.event (.orderBookL2 ⟨action, xs⟩) badState) then []
        else (marketData g dl).out s' (.event (.orderBookL2 ⟨action, ys⟩) badState'))) =
      levelsOn side (rowsOfSymbol g symbol (answeredRows g action s'.priceCache ys)) := by
  have hreached : levelChanges symbol side (bookEvents
      ((marketData g dl).out s' (.event (.orderBookL2 ⟨action, ys⟩) badState'))) =
        levelsOn side (rowsOfSymbol g symbol (answeredRows g action s'.priceCache ys)) :=
    levelChanges_out badState' (.inr hflag') hformed' hresolvable' symbol hside
  cases hstops : (marketData g dl).stops s (.event (.orderBookL2 ⟨action, xs⟩) badState) with
  | false => exact hreached
  | true =>
      have hunknown : action = .unknownInternal :=
        action_of_stops haction hflag hformed hresolvable hstops
      rw [bookEvents_out (.inr hflag'), bookResult, bookUpdates_of_unparsed (.inr hunknown)]
        at hreached
      exact hreached

variable (g dl) in
/-- **Splitting does not matter.** Rows after a snapshot that come in two messages, the first of
which is not refused, lead to the same price cache and the same level changes as in one. -/
theorem levelChanges_split {s : MarketData D} {action : Action} {xs ys : List OrderBookL2DataItem}
    {badState badState₁ badState₂ : List Bool} (haction : action ≠ .partial_)
    (hflag : s.partialReceived.orderBookL2 = true) (hformed : CompleteRows (xs ++ ys))
    (hresolvable : Resolvable g action s.priceCache (xs ++ ys))
    (hnone : ∀ b ∈ badState₁, b = false) :
    let whole := [Input.event (.orderBookL2 ⟨action, xs ++ ys⟩) badState]
    let halves := [Input.event (.orderBookL2 ⟨action, xs⟩) badState₁,
      Input.event (.orderBookL2 ⟨action, ys⟩) badState₂]
    ((marketData g dl).batch s halves).1.priceCache =
        ((marketData g dl).batch s whole).1.priceCache ∧
      ∀ symbol side, side = .buy ∨ side = .sell →
        levelChanges symbol side (bookEvents ((marketData g dl).outputs s halves)) =
          levelChanges symbol side (bookEvents ((marketData g dl).outputs s whole)) := by
  intro whole halves
  let s' := (marketData g dl).next s (.event (.orderBookL2 ⟨action, xs⟩) badState₁)
  obtain ⟨hcache, hnext⟩ : s'.priceCache = cacheAfter g action s.priceCache xs ∧ _ :=
    next_of_resolvable g dl badState₁ hflag hformed.left hresolvable.left
  have hflag' : s'.partialReceived.orderBookL2 = true := hnext hnone
  have hresolvable₂ : Resolvable g action s'.priceCache ys := by
    rw [hcache]
    exact hresolvable.right
  constructor
  · have hsecond : ((marketData g dl).next s'
        (.event (.orderBookL2 ⟨action, ys⟩) badState₂)).priceCache =
          cacheAfter g action s'.priceCache ys :=
      (next_of_resolvable g dl badState₂ hflag' hformed.right hresolvable₂).1
    have hwhole : ((marketData g dl).next s
        (.event (.orderBookL2 ⟨action, xs ++ ys⟩) badState)).priceCache =
          cacheAfter g action s.priceCache (xs ++ ys) :=
      (next_of_resolvable g dl badState hflag hformed hresolvable).1
    rw [cacheAfter_append, ← hcache] at hwhole
    exact hsecond.trans hwhole.symm
  · intro symbol side hside
    have hone : levelChanges symbol side (bookEvents ((marketData g dl).out s
        (.event (.orderBookL2 ⟨action, xs ++ ys⟩) badState))) =
          levelsOn side (rowsOfSymbol g symbol (answeredRows g action s.priceCache (xs ++ ys))) :=
      levelChanges_out badState (.inr hflag) hformed hresolvable symbol hside
    have htwo : levelChanges symbol side (bookEvents ((marketData g dl).out s
        (.event (.orderBookL2 ⟨action, xs⟩) badState₁))) =
          levelsOn side (rowsOfSymbol g symbol (answeredRows g action s.priceCache xs)) :=
      levelChanges_out badState₁ (.inr hflag) hformed.left hresolvable.left symbol hside
    rw [Machine.outputs_singleton, Machine.outputs_pair, bookEvents_append, levelChanges_append,
      htwo, hone, levelChanges_second haction hflag hflag' hformed.left hformed.right
        hresolvable.left hresolvable₂ symbol hside, answeredRows_append, hcache,
      levelsOn_rowsOfSymbol_append]

variable (g dl) in
/-- **Book messages are published in batches, exactly.** A book message that is handled is published
run by run, each run at its latest time if nanoseconds hold its times, and rows after a snapshot may
come in one message or in two. -/
theorem orderBookL2_batches (s : MarketData D) :
    (∀ (message : Json.OrderBookL2) (badState : List Bool),
      message.action = .partial_ ∨ s.partialReceived.orderBookL2 = true →
      CompleteRows message.data → Resolvable g message.action s.priceCache message.data →
      let runs := keptRuns g (answeredRows g message.action s.priceCache message.data)
      let updates := bookEvents ((marketData g dl).out s (.event (.orderBookL2 message) badState))
      List.Forall₂ (IsUpdateOf g message.action) runs updates ∧
        List.Forall₂ (fun run u => (∀ x ∈ run, Representable x.1.timestamp) → IsLatest run u)
          runs updates) ∧
      ∀ (action : Action) (xs ys : List OrderBookL2DataItem)
        (badState badState₁ badState₂ : List Bool),
        action ≠ .partial_ → s.partialReceived.orderBookL2 = true → CompleteRows (xs ++ ys) →
        Resolvable g action s.priceCache (xs ++ ys) → (∀ b ∈ badState₁, b = false) →
        let whole := [Input.event (.orderBookL2 ⟨action, xs ++ ys⟩) badState]
        let halves := [Input.event (.orderBookL2 ⟨action, xs⟩) badState₁,
          Input.event (.orderBookL2 ⟨action, ys⟩) badState₂]
        ((marketData g dl).batch s halves).1.priceCache =
            ((marketData g dl).batch s whole).1.priceCache ∧
          ∀ symbol side, side = .buy ∨ side = .sell →
            levelChanges symbol side (bookEvents ((marketData g dl).outputs s halves)) =
              levelChanges symbol side (bookEvents ((marketData g dl).outputs s whole)) := by
  constructor
  · intro message badState hhandled hformed hresolvable runs updates
    have hupdates : List.Forall₂ (IsUpdateOf g message.action) runs updates := by
      show List.Forall₂ _ _ (bookEvents _)
      rw [bookEvents_out hhandled]
      exact (forall₂_updates hformed hresolvable).2
    exact ⟨hupdates, hupdates.imp fun run u hrun htime => hrun.isLatest htime⟩
  · intro action xs ys badState badState₁ badState₂ haction hflag hformed hresolvable hnone
    exact levelChanges_split g dl haction hflag hformed hresolvable hnone

/-- A snapshot of two symbols. -/
def twoBooks : List OrderBookL2DataItem :=
  [{ symbol := "XBTUSD", id := 1, side := .buy, price := .num 9, size := .num 5, timestamp := 7 },
   { symbol := "XBTUSD", id := 2, side := .sell, price := .num 10, size := .num 3,
     timestamp := 8 },
   { symbol := "ETHUSD", id := 3, side := .buy, price := .num 4, size := .num 1, timestamp := 6 }]

/-- It is published in two batches, each at its latest time. -/
theorem orderBookL2_batches_twoBooks :
    let runs := keptRuns .keepAll (answeredRows .keepAll .partial_ (fun _ => none) twoBooks)
    let updates := bookEvents ((marketData .keepAll .inOrder).out (init .inOrder)
      (.event (.orderBookL2 ⟨.partial_, twoBooks⟩) []))
    List.Forall₂ (IsUpdateOf .keepAll .partial_) runs updates ∧
      List.Forall₂ (fun run u => (∀ x ∈ run, Representable x.1.timestamp) → IsLatest run u)
        runs updates :=
  (orderBookL2_batches .keepAll .inOrder (init .inOrder)).1 ⟨.partial_, twoBooks⟩ []
    (.inl rfl) (by unfold CompleteRows; decide) (by unfold Resolvable; decide +kernel)

/-- A snapshot of one level from before the epoch. -/
def earlyLevel : List OrderBookL2DataItem :=
  [{ symbol := "XBTUSD", id := 1, side := .buy, price := .num 9, size := .num 5,
     timestamp := -7 }]

/-- A snapshot of one level from the year 2300. -/
def lateLevel : List OrderBookL2DataItem :=
  [{ symbol := "XBTUSD", id := 1, side := .buy, price := .num 9, size := .num 5,
     timestamp := 10413792000000 }]

/-- A first snapshot of rows with symbols, sides and prices is published run by run, each run at its
latest time. -/
def SnapshotAtLatest (rows : List OrderBookL2DataItem) : Prop :=
  CompleteRows rows → Resolvable .keepAll .partial_ (fun _ => none) rows →
    List.Forall₂ IsLatest
      (keptRuns .keepAll (answeredRows .keepAll .partial_ (fun _ => none) rows))
      (bookEvents ((marketData .keepAll .inOrder).out (init .inOrder)
        (.event (.orderBookL2 ⟨.partial_, rows⟩) [])))

/-- Both are published at time zero, which is not their latest. -/
theorem earlyLevel_not_latest : ¬ SnapshotAtLatest earlyLevel ∧ ¬ SnapshotAtLatest lateLevel := by
  unfold SnapshotAtLatest CompleteRows Resolvable
  decide +kernel

end MarketData

end RoqBitmex
