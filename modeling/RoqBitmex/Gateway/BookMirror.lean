import RoqBitmex.Gateway.BookSession
import RoqBitmex.Library.LevelTable

/-! # The mirror of the feed's books

A consumer that replays the dispatched updates should have, for every symbol that is kept, the book
of the feed whenever no snapshot is awaited. The feed's table is keyed by symbol, side and id; an
update names prices only, which the session takes from a cache that is keyed by the id alone and
never cleared. `mirror_of_along` says which runs keep the mirror: those in which the cache answers,
for every row that updates or deletes a level, the price the level has in the feed, and in which a
snapshot mentions every symbol the consumer has levels of. -/

namespace RoqBitmex

universe u

open Json (OrderBookL2DataItem Action)

/-! ## The feed -/

/-- The wire table: the price and the size under each id, for each symbol and side. -/
abbrev FeedTable := String → Json.Side → LevelTable UInt64 ℚ ℚ

namespace FeedTable

/-- The entry of a row's key. -/
def entry (t : FeedTable) (row : OrderBookL2DataItem) : Option (ℚ × ℚ) :=
  t row.symbol row.side row.id

/-- The table with another entry under a row's key. -/
def put (t : FeedTable) (row : OrderBookL2DataItem) (x : Option (ℚ × ℚ)) : FeedTable :=
  Function.update t row.symbol
    (Function.update (t row.symbol) row.side
      (Function.update (t row.symbol row.side) row.id x))

/-- What a row of a message does to the table. -/
def row (action : Action) (t : FeedTable) (row : OrderBookL2DataItem) : FeedTable :=
  match action with
  | .partial_ | .insert => t.put row (some (row.price.orZero, row.size.orZero))
  | .update => t.put row ((t.entry row).map fun x => (x.1, row.size.orZero))
  | .delete => t.put row none
  | .undefinedInternal | .unknownInternal => t

/-- The table a message starts from: a snapshot replaces all of it. -/
def start (t : FeedTable) (action : Action) : FeedTable :=
  if action = .partial_ then fun _ _ _ => none else t

/-- What a message does to the table. -/
def message (t : FeedTable) (m : Json.OrderBookL2) : FeedTable :=
  m.data.foldl (row m.action) (t.start m.action)

end FeedTable

/-! ## The consumer -/

/-- A consumer's book of a symbol: the quantity at each price of each side. -/
abbrev ConsumerBook := Json.Side → ℚ → ℚ

namespace ConsumerBook

/-- The empty book. -/
def empty : ConsumerBook := fun _ _ => 0

/-- Set the quantities of levels, one after another. -/
def setLevels (b : ℚ → ℚ) (levels : List MBPUpdate) : ℚ → ℚ :=
  levels.foldl (fun b level => Function.update b level.price level.quantity) b

/-- Replay an update: a snapshot replaces the book. -/
def replay (b : ConsumerBook) (u : MarketByPriceUpdate) : ConsumerBook :=
  let b := if u.updateType = .snapshot then empty else b
  fun
    | .buy => setLevels (b .buy) u.bids
    | .sell => setLevels (b .sell) u.asks
    | side => b side

end ConsumerBook

/-- A consumer's books. -/
abbrev ConsumerBooks := String → ConsumerBook

/-- Replay an update of a symbol's book. -/
def ConsumerBooks.replay (books : ConsumerBooks) (u : MarketByPriceUpdate) : ConsumerBooks :=
  Function.update books u.symbol ((books u.symbol).replay u)

/-! ## The mirror -/

namespace MarketData

variable {D : Type u} {g : Gateway} {dl : Download D}

/-- The history of a run: whether a snapshot is awaited, the feed's table and the consumer's books.
-/
structure Mirror where
  awaiting : Bool := true
  feed : FeedTable := fun _ _ _ => none
  books : ConsumerBooks := fun _ => .empty

/-- The feed's table follows the messages that arrive, the consumer's books the updates that go out.
A snapshot is awaited from the moment the session subscribes again or loses the connection until a
snapshot starts being processed. -/
def mirror : Monitor (MarketData D) Input Effect Mirror where
  input _ a
    | .event (.orderBookL2 m) _ =>
        { a with
          awaiting := decide (m.action ≠ .partial_) && a.awaiting
          feed := a.feed.message m }
    | .disconnected => { a with awaiting := true }
    | _ => a
  output a
    | .unsubscribe .orderBookL2 => { a with awaiting := true }
    | .dispatch (.marketByPriceUpdate u) => { a with books := a.books.replay u }
    | _ => a

/-- While no snapshot is awaited, the consumer's book of every symbol that is kept is the feed's. -/
def Mirrored (g : Gateway) (_ : MarketData D) (a : Mirror) : Prop :=
  a.awaiting = false → ∀ symbol, g.discardSymbol symbol = false → ∀ side,
    (a.feed symbol side).Views (a.books symbol side)

/-! ## Assumptions and condition -/

/-- A row the exchange can send for a table: new rows carry price and size, and a price no other id
of the side has; updates carry a size; updates and deletions are of live ids. -/
def RowFormed (action : Action) (t : FeedTable) (row : OrderBookL2DataItem) : Prop :=
  match action with
  | .partial_ | .insert => row.price.isNaN = false ∧ row.size.isNaN = false ∧
      ∀ id x, id ≠ row.id → t row.symbol row.side id = some x → x.1 ≠ row.price.orZero
  | .update => row.size.isNaN = false ∧ (t.entry row).isSome
  | .delete => (t.entry row).isSome
  | .undefinedInternal | .unknownInternal => True

/-- The rows of a message can be sent one after another. -/
def RowsFormed (action : Action) : FeedTable → List OrderBookL2DataItem → Prop
  | _, [] => True
  | t, row :: rest => RowFormed action t row ∧ RowsFormed action (t.row action row) rest

/-- A row agrees with the feed: a new row is of no live id, or at its price; a row that updates or
deletes a level is answered the price the level has in the feed; and a deletion carries no size. -/
def RowAgrees (action : Action) (cache : PriceCache) (t : FeedTable) (row : OrderBookL2DataItem) :
    Prop :=
  match action with
  | .partial_ | .insert => ∀ x, t.entry row = some x → x.1 = row.price.orZero
  | .update => ∀ x, t.entry row = some x → cache.price action row.id row.price = .num x.1
  | .delete => row.size.orZero = 0 ∧
      ∀ x, t.entry row = some x → cache.price action row.id row.price = .num x.1
  | .undefinedInternal | .unknownInternal => True

/-- The rows of the symbols that are kept agree with the feed, each in its turn. -/
def RowsAgree (g : Gateway) (action : Action) :
    PriceCache → FeedTable → List OrderBookL2DataItem → Prop
  | _, _, [] => True
  | cache, t, row :: rest =>
      (g.discardSymbol row.symbol = false → RowAgrees action cache t row) ∧
        RowsAgree g action
          (if g.discardSymbol row.symbol then cache else cache.after action row.id row.price)
          (t.row action row) rest

/-- The assumptions about a book message of the feed, from a snapshot on. -/
def Formed (_ : MarketData D) (a : Mirror) : Input → Prop
  | .event (.orderBookL2 m) _ => m.action = .partial_ ∨ a.awaiting = false →
      Contiguous (·.symbol) m.data ∧ RowsFormed m.action (a.feed.start m.action) m.data
  | _ => True

/-- The condition on a book message, from a snapshot on: its rows name their symbols and agree with
the feed, and a snapshot mentions every symbol that is kept and of which the consumer has levels. -/
def Agrees (g : Gateway) (s : MarketData D) (a : Mirror) : Input → Prop
  | .event (.orderBookL2 m) _ => m.action = .partial_ ∨ a.awaiting = false →
      (∀ row ∈ m.data, row.symbol ≠ "") ∧
        RowsAgree g m.action s.priceCache (a.feed.start m.action) m.data ∧
        (m.action = .partial_ → ∀ symbol, g.discardSymbol symbol = false →
          (∀ row ∈ m.data, row.symbol ≠ symbol) → a.books symbol = .empty)
  | _ => True

end MarketData

/-! ## Row by row -/

namespace FeedTable

/-- The tables of a symbol after a change of the entry of one of its rows. -/
theorem put_self (t : FeedTable) (row : OrderBookL2DataItem) (x : Option (ℚ × ℚ))
    (side : Json.Side) :
    t.put row x row.symbol side =
      if side = row.side then Function.update (t row.symbol row.side) row.id x
      else t row.symbol side := by
  rw [put, Function.update_self, Function.update_apply]

/-- The tables of other symbols do not change. -/
theorem put_of_ne (t : FeedTable) {row : OrderBookL2DataItem} (x : Option (ℚ × ℚ)) {symbol : String}
    (h : symbol ≠ row.symbol) : t.put row x symbol = t symbol :=
  Function.update_of_ne h _ _

/-- A row changes the tables of its symbol only. -/
theorem row_of_ne (t : FeedTable) (action : Action) {row : OrderBookL2DataItem} {symbol : String}
    (h : symbol ≠ row.symbol) : t.row action row symbol = t symbol := by
  cases action with
  | undefinedInternal => rfl
  | unknownInternal => rfl
  | _ => exact put_of_ne t _ h

end FeedTable

namespace ConsumerBook

/-- Set the quantity of a row's level. -/
def putRow (b : ConsumerBook) (x : PricedRow) : ConsumerBook :=
  Function.update b x.row.side
    (Function.update (b x.row.side) x.level.price x.level.quantity)

/-- A side of the book after rows: the levels of its rows are set. -/
theorem foldl_putRow (b : ConsumerBook) (xs : List PricedRow) (side : Json.Side) :
    xs.foldl putRow b side =
      setLevels (b side) ((xs.filter fun x => x.row.side = side).map PricedRow.level) := by
  induction xs generalizing b with
  | nil => rfl
  | cons x xs ih =>
      rw [List.foldl_cons, ih, putRow, Function.update_apply]
      by_cases hside : x.row.side = side
      · simp [hside, setLevels]
      · simp [hside, Ne.symm hside]

/-- Replaying the update of rows sets their levels, in a book that a snapshot empties first. -/
theorem replay_update (b : ConsumerBook) (g : Gateway) (action : Action) (symbol : String)
    {xs : List PricedRow} (h : ∀ x ∈ xs, x.IsLevel) :
    b.replay (Book.update g action symbol (({} : Levels).collect xs)) =
      xs.foldl putRow (if action = .partial_ then empty else b) := by
  have hsnapshot :
      (if (Book.update g action symbol (({} : Levels).collect xs)).updateType = .snapshot
        then empty else b) = if action = .partial_ then empty else b := by
    by_cases haction : action = .partial_ <;> simp [Book.update, haction]
  have hnone : ∀ side, side ≠ .buy → side ≠ .sell →
      xs.filter (fun x => x.row.side = side) = [] := by
    intro side hbuy hsell
    rw [List.filter_eq_nil_iff]
    intro x hx hside
    rcases (h x hx).2 with h | h
    · exact hbuy ((of_decide_eq_true hside).symm.trans h)
    · exact hsell ((of_decide_eq_true hside).symm.trans h)
  funext side
  rw [foldl_putRow, replay, hsnapshot]
  cases side with
  | buy => simp [Book.update, Levels.collect]
  | sell => simp [Book.update, Levels.collect]
  | undefinedInternal => simp [hnone, setLevels]
  | unknownInternal => simp [hnone, setLevels]

end ConsumerBook

namespace MarketData

/-- A row and its level, put in the table and in the book: the other side is not concerned. -/
theorem views_put {t : FeedTable} {b : ConsumerBook} {x : PricedRow} {e : Option (ℚ × ℚ)}
    (hviews : ∀ side, (t x.row.symbol side).Views (b side))
    (hput : LevelTable.Views (Function.update (t x.row.symbol x.row.side) x.row.id e)
      (Function.update (b x.row.side) x.level.price x.level.quantity)) (side : Json.Side) :
    (t.put x.row e x.row.symbol side).Views (b.putRow x side) := by
  rw [FeedTable.put_self, ConsumerBook.putRow, Function.update_apply]
  by_cases hside : side = x.row.side
  · rw [if_pos hside, if_pos hside]
    exact hput
  · rw [if_neg hside, if_neg hside]
    exact hviews side

/-- **One row.** A row that can be sent and agrees with the feed keeps the book a view of the
table. -/
theorem views_row {action : Action} {cache : PriceCache} {t : FeedTable} {b : ConsumerBook}
    {row : OrderBookL2DataItem}
    (hparsed : ¬ (action = .undefinedInternal ∨ action = .unknownInternal))
    (hviews : ∀ side, (t row.symbol side).Views (b side))
    (hdistinct : ∀ side, (t row.symbol side).Distinct) (hformed : RowFormed action t row)
    (hagrees : RowAgrees action cache t row) (side : Json.Side) :
    (t.row action row row.symbol side).Views
      (b.putRow ⟨row, cache.price action row.id row.price⟩ side) := by
  -- a new row is at its own price, where its id has been if anywhere
  have hnew : (∀ x, t.entry row = some x → x.1 = row.price.orZero) →
      (t.put row (some (row.price.orZero, row.size.orZero)) row.symbol side).Views
        (b.putRow ⟨row, row.price⟩ side) :=
    fun hstay => views_put (x := ⟨row, row.price⟩) hviews
      (LevelTable.views_set (hviews row.side) hstay _) side
  cases action with
  | undefinedInternal => exact absurd (Or.inl rfl) hparsed
  | unknownInternal => exact absurd (Or.inr rfl) hparsed
  | partial_ => exact hnew hagrees
  | insert => exact hnew hagrees
  | update =>
      -- the level stays at the price the cache answers
      obtain ⟨x, hx⟩ := Option.isSome_iff_exists.mp hformed.2
      have hprice : cache.price .update row.id row.price = .num x.1 := hagrees x hx
      have hrow : t.row .update row = t.put row (some (x.1, row.size.orZero)) := by
        rw [FeedTable.row, hx]
        rfl
      rw [hrow, hprice]
      refine views_put (x := ⟨row, .num x.1⟩) hviews ?_ side
      exact LevelTable.views_set (hviews row.side)
        (fun x' hx' => by rw [Option.some.inj (hx'.symm.trans hx)]) _
  | delete =>
      -- the level goes, and no other id of the side is at its price
      obtain ⟨x, hx⟩ := Option.isSome_iff_exists.mp hformed
      have hprice : cache.price .delete row.id row.price = .num x.1 := hagrees.2 x hx
      have hsize : row.size.orZero = 0 := hagrees.1
      rw [FeedTable.row, hprice]
      refine views_put (x := ⟨row, .num x.1⟩) hviews ?_ side
      rw [PricedRow.level, hsize]
      exact LevelTable.views_erase (hviews row.side) (hdistinct row.side) hx

/-- A row that can be sent keeps the prices of a side distinct. -/
theorem distinct_row {action : Action} {t : FeedTable} {row : OrderBookL2DataItem}
    (hdistinct : ∀ symbol side, (t symbol side).Distinct) (hformed : RowFormed action t row)
    (symbol : String) (side : Json.Side) : (t.row action row symbol side).Distinct := by
  by_cases hsymbol : symbol = row.symbol
  · have hput : ∀ e, LevelTable.Distinct (Function.update (t row.symbol row.side) row.id e) →
        (t.put row e symbol side).Distinct := by
      intro e he
      rw [hsymbol, FeedTable.put_self]
      by_cases hside : side = row.side
      · rwa [if_pos hside]
      · rw [if_neg hside]
        exact hdistinct row.symbol side
    have hnew : (∀ id x, id ≠ row.id → t row.symbol row.side id = some x →
        x.1 ≠ row.price.orZero) →
        (t.put row (some (row.price.orZero, row.size.orZero)) symbol side).Distinct :=
      fun hfresh => hput _ ((hdistinct row.symbol row.side).set hfresh _)
    cases action with
    | undefinedInternal => exact hdistinct symbol side
    | unknownInternal => exact hdistinct symbol side
    | partial_ => exact hnew hformed.2.2
    | insert => exact hnew hformed.2.2
    | update =>
        obtain ⟨x, hx⟩ := Option.isSome_iff_exists.mp hformed.2
        have hrow : t.row .update row = t.put row (some (x.1, row.size.orZero)) := by
          rw [FeedTable.row, hx]
          rfl
        rw [hrow]
        refine hput _ ((hdistinct row.symbol row.side).set (fun id x' hid hx' hprice => ?_) _)
        exact hid (hdistinct row.symbol row.side id row.id x' x hx' hx hprice)
    | delete => exact hput _ ((hdistinct row.symbol row.side).erase _)
  · rw [FeedTable.row_of_ne t action hsymbol]
    exact hdistinct symbol side

/-- **The rows of a message.** Rows that can be sent and agree with the feed keep the book of a
symbol that is kept a view of its tables. -/
theorem views_rows {action : Action}
    (hparsed : ¬ (action = .undefinedInternal ∨ action = .unknownInternal))
    {symbol : String} (hkept : g.discardSymbol symbol = false) {rows : List OrderBookL2DataItem}
    {cache : PriceCache} {t : FeedTable} {b : ConsumerBook}
    (hviews : ∀ side, (t symbol side).Views (b side))
    (hdistinct : ∀ symbol side, (t symbol side).Distinct) (hformed : RowsFormed action t rows)
    (hagrees : RowsAgree g action cache t rows) (side : Json.Side) :
    (rows.foldl (FeedTable.row action) t symbol side).Views
      ((pricedRowsOf g action cache rows symbol).foldl ConsumerBook.putRow b side) := by
  induction rows generalizing cache t b with
  | nil => exact hviews side
  | cons row rows ih =>
      obtain ⟨hrow, hrows⟩ := hformed
      obtain ⟨hagree, hrest⟩ := hagrees
      have hdistinct' := distinct_row hdistinct hrow
      rw [List.foldl_cons]
      by_cases hsymbol : row.symbol = symbol
      · -- a row of the symbol changes the table and the book
        have hrowkept : g.discardSymbol row.symbol = false := hsymbol ▸ hkept
        rw [if_neg (by simp [hrowkept])] at hrest
        have hviews' := views_row hparsed (hsymbol ▸ hviews) (hdistinct row.symbol) hrow
          (hagree hrowkept)
        rw [hsymbol] at hviews'
        have hpriced : pricedRowsOf g action cache (row :: rows) symbol =
            ⟨row, cache.price action row.id row.price⟩ ::
              pricedRowsOf g action (cache.after action row.id row.price) rows symbol := by
          simp [pricedRowsOf, pricedRows, hsymbol, hkept]
        rw [hpriced, List.foldl_cons]
        exact ih hviews' hdistinct' hrows hrest
      · -- a row of another symbol changes neither
        have hviews' : ∀ side, (t.row action row symbol side).Views (b side) := by
          rw [FeedTable.row_of_ne t action (Ne.symm hsymbol)]
          exact hviews
        have hpriced : pricedRowsOf g action cache (row :: rows) symbol =
            pricedRowsOf g action (if g.discardSymbol row.symbol then cache
              else cache.after action row.id row.price) rows symbol := by
          cases hdiscard : g.discardSymbol row.symbol <;>
            simp [pricedRowsOf, pricedRows, hdiscard, hsymbol]
        rw [hpriced]
        exact ih hviews' hdistinct' hrows hrest

/-- The tables keep distinct prices over the rows of a message. -/
theorem distinct_rows {action : Action} {rows : List OrderBookL2DataItem} {t : FeedTable}
    (hdistinct : ∀ symbol side, (t symbol side).Distinct) (hformed : RowsFormed action t rows) :
    ∀ symbol side, (rows.foldl (FeedTable.row action) t symbol side).Distinct := by
  induction rows generalizing t with
  | nil => exact hdistinct
  | cons row rows ih => exact ih (distinct_row hdistinct hformed.1) hformed.2

/-- Rows that can be sent and agree with the feed have a price. -/
theorem price_isNaN_of_mem_pricedRows {action : Action}
    (hparsed : ¬ (action = .undefinedInternal ∨ action = .unknownInternal))
    {rows : List OrderBookL2DataItem} {cache : PriceCache} {t : FeedTable}
    (hformed : RowsFormed action t rows) (hagrees : RowsAgree g action cache t rows) :
    ∀ x ∈ pricedRows g action cache rows, x.price.isNaN = false := by
  induction rows generalizing cache t with
  | nil => simp [pricedRows]
  | cons row rows ih =>
      obtain ⟨hrow, hrows⟩ := hformed
      obtain ⟨hagree, hrest⟩ := hagrees
      cases hdiscard : g.discardSymbol row.symbol with
      | true =>
          rw [if_pos hdiscard] at hrest
          simpa [pricedRows, hdiscard] using ih hrows hrest
      | false =>
          rw [if_neg (by simp [hdiscard])] at hrest
          have hprice : (cache.price action row.id row.price).isNaN = false := by
            have hagree' := hagree hdiscard
            cases action with
            | undefinedInternal => exact absurd (Or.inl rfl) hparsed
            | unknownInternal => exact absurd (Or.inr rfl) hparsed
            | partial_ => exact hrow.1
            | insert => exact hrow.1
            | update =>
                obtain ⟨x, hx⟩ := Option.isSome_iff_exists.mp hrow.2
                rw [hagree' x hx]
                rfl
            | delete =>
                obtain ⟨x, hx⟩ := Option.isSome_iff_exists.mp hrow
                rw [hagree'.2 x hx]
                rfl
          simpa [pricedRows, hdiscard] using ⟨hprice, ih hrows hrest⟩

/-! ## Message by message -/

/-- The book of a symbol after updates: its own are replayed. -/
theorem foldl_replay (books : ConsumerBooks) (us : List MarketByPriceUpdate) (symbol : String) :
    us.foldl ConsumerBooks.replay books symbol =
      (us.filter fun u => u.symbol = symbol).foldl ConsumerBook.replay (books symbol) := by
  induction us generalizing books with
  | nil => rfl
  | cons u us ih =>
      rw [List.foldl_cons, ih, ConsumerBooks.replay, Function.update_apply]
      by_cases hsymbol : u.symbol = symbol
      · simp [hsymbol]
      · simp [hsymbol, Ne.symm hsymbol]

/-- **A message.** A message that reaches its end, whose rows can be sent, name their symbols and
agree with the feed, keeps the book of a symbol that is kept a view of its tables. -/
theorem views_message {s : MarketData D} {m : Json.OrderBookL2} {t : FeedTable} {b : ConsumerBook}
    {symbol : String} (hkept : g.discardSymbol symbol = false)
    (hparsed : ¬ (m.action = .undefinedInternal ∨ m.action = .unknownInternal))
    (hstop : (s.bookResult g m).stop = none) (hcontiguous : Contiguous (·.symbol) m.data)
    (hnamed : ∀ row ∈ m.data, row.symbol ≠ "") (hformed : RowsFormed m.action t m.data)
    (hagrees : RowsAgree g m.action s.priceCache t m.data)
    (hdistinct : ∀ symbol side, (t symbol side).Distinct)
    (hviews : ∀ side, (t symbol side).Views
      ((if m.action = .partial_ then ConsumerBook.empty else b) side))
    (habsent : m.action = .partial_ → (∀ row ∈ m.data, row.symbol ≠ symbol) → b = .empty)
    (side : Json.Side) :
    (m.data.foldl (FeedTable.row m.action) t symbol side).Views
      (((s.bookResult g m).updates.filter fun u => u.symbol = symbol).foldl ConsumerBook.replay b
        side) := by
  have hrows := views_rows hparsed hkept hviews hdistinct hformed hagrees side
  by_cases habs : ∀ row ∈ m.data, row.symbol ≠ symbol
  · -- nothing is published for a symbol without rows
    have hnone : (s.bookResult g m).updates.filter (fun u => u.symbol = symbol) = [] :=
      filter_bookUpdates_eq_nil habs
    rw [pricedRowsOf_eq_nil habs] at hrows
    rw [hnone]
    by_cases hsnapshot : m.action = .partial_
    · rw [if_pos hsnapshot] at hrows
      rw [habsent hsnapshot habs]
      exact hrows
    · rw [if_neg hsnapshot] at hrows
      exact hrows
  · -- a symbol with rows has one update, which sets their levels
    obtain ⟨row, hrow, rfl⟩ : ∃ row ∈ m.data, row.symbol = symbol := by
      simpa using habs
    rw [bookResult, updates_of_symbol (hcontiguous.together _) hstop (hnamed row hrow) hkept,
      if_neg ((pricedRowsOf_ne_nil_iff hkept).mpr ⟨row, hrow, rfl⟩),
      pricedUnnamed_eq_nil (unnamedBefore_eq_nil hnamed), List.nil_append, List.foldl_cons,
      List.foldl_nil,
      ConsumerBook.replay_update _ _ _ _ fun x hx => isLevel_of_mem_pricedRowsOf hstop hx]
    exact hrows

/-! ## Runs -/

/-- Effects that concern no book leave the history alone. -/
theorem mirror_output_of_not_isBookEffect {e : Effect} (h : ¬ IsBookEffect e) (a : Mirror) :
    (mirror (D := D)).output a e = a := by
  cases e with
  | unsubscribe topic => exact absurd trivial h
  | dispatch event =>
      cases event with
      | marketByPriceUpdate u => exact absurd trivial h
      | _ => rfl
  | _ => rfl

/-- No effect ends the wait for a snapshot. -/
theorem awaiting_outputs {a : Mirror} (h : a.awaiting = true) (es : List Effect) :
    ((mirror (D := D)).outputs a es).awaiting = true := by
  have houtput : ∀ (a : Mirror) (e : Effect), a.awaiting = true →
      ((mirror (D := D)).output a e).awaiting = true := by
    intro a e h
    cases e with
    | unsubscribe topic => cases topic <;> first | exact h | rfl
    | dispatch event => cases event <;> exact h
    | _ => exact h
  induction es generalizing a with
  | nil => exact h
  | cons e es ih => exact ih (houtput a e h)

/-- The feed's table follows the messages, whatever is published. -/
theorem feed_after (s : MarketData D) (a : Mirror) (m : Json.OrderBookL2) (badState : List Bool) :
    ((marketData g dl).after mirror s a (.event (.orderBookL2 m) badState)).feed =
      a.feed.message m := by
  have houtput : ∀ (a : Mirror) (e : Effect), ((mirror (D := D)).output a e).feed = a.feed := by
    intro a e
    cases e with
    | unsubscribe topic => cases topic <;> rfl
    | dispatch event => cases event <;> rfl
    | _ => rfl
  have houtputs : ∀ (es : List Effect) (a : Mirror),
      ((mirror (D := D)).outputs a es).feed = a.feed := by
    intro es
    induction es with
    | nil => exact fun _ => rfl
    | cons e es ih => exact fun a => (ih _).trans (houtput a e)
  exact houtputs _ _

/-- Handing over updates replays them, and a refusal makes the session await a snapshot. -/
theorem mirror_outputs_dispatchEffects (a : Mirror) (us : List MarketByPriceUpdate)
    (badState : List Bool) :
    (mirror (D := D)).outputs a (dispatchEffects us badState) =
      { a with
        awaiting := a.awaiting || refused us badState
        books := us.foldl ConsumerBooks.replay a.books } := by
  induction us generalizing a badState with
  | nil => simp [dispatchEffects, refused]
  | cons u us ih =>
      rw [dispatchEffects, Monitor.outputs_cons, Monitor.outputs_append, ih]
      cases badState with
      | nil => simp [mirror, refused]
      | cons answer badState => cases answer <;> simp [mirror, refused]

/-- The history after a book message that is handled. -/
theorem after_orderBookL2 {s : MarketData D} {a : Mirror} {m : Json.OrderBookL2}
    {badState : List Bool}
    (h : m.action = .partial_ ∨ s.partialReceived.orderBookL2 = true) :
    (marketData g dl).after mirror s a (.event (.orderBookL2 m) badState) =
      { awaiting := (decide (m.action ≠ .partial_) && a.awaiting) ||
          refused (s.bookResult g m).updates badState
        feed := a.feed.message m
        books := (s.bookResult g m).updates.foldl ConsumerBooks.replay a.books } := by
  obtain ⟨tail, hstep⟩ := orderBookL2_handled g dl h badState
  obtain ⟨tail', hvisible, htail⟩ := hstep.visible
  have hout : (marketData g dl).out s (.event (.orderBookL2 m) badState) = _ := hvisible
  have hassert := not_isBookEffect_assertEffect (m.action ≠ .unknownInternal) .bookAction
  rw [Machine.after, hout, Monitor.outputs_append, Monitor.outputs_append,
    Monitor.outputs_of_forall fun e he a => mirror_output_of_not_isBookEffect (hassert e he) a,
    mirror_outputs_dispatchEffects,
    Monitor.outputs_of_forall fun e he a => mirror_output_of_not_isBookEffect (htail e he) a]
  rfl

/-- What holds while no snapshot is awaited: updates are handled, and the books mirror tables with
distinct prices. -/
structure InMirror (g : Gateway) (s : MarketData D) (a : Mirror) : Prop where
  received : s.partialReceived.orderBookL2 = true
  distinct : ∀ symbol side, (a.feed symbol side).Distinct
  views : ∀ symbol, g.discardSymbol symbol = false → ∀ side,
    (a.feed symbol side).Views (a.books symbol side)

/-- The invariant: the session is in the mirror or waits for a snapshot. -/
def MirrorInv (g : Gateway) (s : MarketData D) (a : Mirror) : Prop :=
  a.awaiting = false → InMirror g s a

/-- A book message whose rows can be sent and agree with the feed reaches its end: every row has a
price, and the process goes on. -/
theorem stop_eq_none_of_agrees {s : MarketData D} {m : Json.OrderBookL2} {t : FeedTable}
    {badState : List Bool}
    (hhandled : m.action = .partial_ ∨ s.partialReceived.orderBookL2 = true)
    (hformed : RowsFormed m.action t m.data) (hagrees : RowsAgree g m.action s.priceCache t m.data)
    (hstops : (marketData g dl).stops s (.event (.orderBookL2 m) badState) = false) :
    (s.bookResult g m).stop = none := by
  obtain ⟨tail, hstep⟩ := orderBookL2_handled g dl hhandled badState
  cases hstop : (s.bookResult g m).stop with
  | none => rfl
  | some effect =>
      rcases stop_of_bookUpdates hstop with rfl | ⟨site, rfl⟩
      · obtain ⟨⟨x, hx, hnan⟩, hparsed⟩ := exists_of_bookUpdates_close hstop
        rw [List.flatten_splitBy] at hx
        have hprice := price_isNaN_of_mem_pricedRows hparsed hformed hagrees x hx
        rw [hnan] at hprice
        cases hprice
      · have hhalts : (s.orderBookL2 g dl m badState).2.any g.halts = true := by
          refine List.any_eq_true.mpr ⟨.fatal site, ?_, rfl⟩
          rw [hstep.effects, hstep.tail_of_stop _ hstop]
          simp
        exact absurd (hhalts.symm.trans hstops) Bool.true_eq_false.mp

/-- A message whose action was not parsed changes no table. -/
theorem message_of_unparsed {m : Json.OrderBookL2}
    (h : m.action = .undefinedInternal ∨ m.action = .unknownInternal) (t : FeedTable) :
    t.message m = t := by
  have hrow : ∀ row, t.row m.action row = t := by
    intro row
    rcases h with h | h <;> rw [h] <;> rfl
  have hsnapshot : m.action ≠ .partial_ := by
    rcases h with h | h <;> rw [h] <;> decide
  rw [FeedTable.message, FeedTable.start, if_neg hsnapshot]
  exact List.foldl_fixed' hrow m.data

/-- A book message, handled to its end without a refusal, keeps the mirror. -/
theorem inMirror_orderBookL2 {s : MarketData D} {a : Mirror} {m : Json.OrderBookL2}
    {badState : List Bool} (hinv : MirrorInv g s a)
    (hformed : Formed s a (.event (.orderBookL2 m) badState))
    (hagrees : Agrees g s a (.event (.orderBookL2 m) badState))
    (hstops : (marketData g dl).stops s (.event (.orderBookL2 m) badState) = false)
    (hcalm : ((marketData g dl).after mirror s a (.event (.orderBookL2 m) badState)).awaiting =
      false) :
    InMirror g ((marketData g dl).next s (.event (.orderBookL2 m) badState))
      ((marketData g dl).after mirror s a (.event (.orderBookL2 m) badState)) := by
  have hfrom : m.action = .partial_ ∨ a.awaiting = false := by
    by_contra hfrom
    -- any other message leaves the session waiting
    rw [not_or, Bool.not_eq_false] at hfrom
    have hinput :
        ((mirror (D := D)).input s a (.event (.orderBookL2 m) badState)).awaiting = true := by
      simp [mirror, hfrom]
    rw [Machine.after, awaiting_outputs hinput] at hcalm
    cases hcalm
  have hhandled : m.action = .partial_ ∨ s.partialReceived.orderBookL2 = true :=
    hfrom.imp id fun h => (hinv h).received
  obtain ⟨hcontiguous, hrowsFormed⟩ := hformed hfrom
  obtain ⟨hnamed, hrowsAgree, habsent⟩ := hagrees hfrom
  obtain ⟨tail, hstep⟩ := orderBookL2_handled g dl hhandled badState
  rw [after_orderBookL2 hhandled] at hcalm ⊢
  obtain ⟨-, hrefused⟩ := Bool.or_eq_false_iff.mp hcalm
  -- a snapshot starts from the empty table, anything else from the mirrored one
  have hdistinct : ∀ symbol side, (a.feed.start m.action symbol side).Distinct := by
    intro symbol side
    rw [FeedTable.start]
    split
    · exact LevelTable.distinct_empty
    · rename_i hsnapshot
      exact (hinv (hfrom.resolve_left hsnapshot)).distinct symbol side
  have hstop : (s.bookResult g m).stop = none :=
    stop_eq_none_of_agrees hhandled hrowsFormed hrowsAgree hstops
  refine ⟨?_, distinct_rows hdistinct hrowsFormed, fun symbol hkept side => ?_⟩
  · refine hstep.partialReceived.trans ?_
    rcases hhandled with h | h
    · simp [h, hstop]
    · simp [h, hrefused]
  · show (a.feed.message m symbol side).Views
      ((s.bookResult g m).updates.foldl ConsumerBooks.replay a.books symbol side)
    rw [foldl_replay]
    by_cases hparsed : m.action = .undefinedInternal ∨ m.action = .unknownInternal
    · -- a message whose action was not parsed changes neither side
      have hnone : (s.bookResult g m).updates = [] := bookUpdates_of_unparsed hparsed _ _
      have hsnapshot : m.action ≠ .partial_ := by
        rcases hparsed with h | h <;> rw [h] <;> decide
      rw [hnone, message_of_unparsed hparsed]
      exact (hinv (hfrom.resolve_left hsnapshot)).views symbol hkept side
    · refine views_message hkept hparsed hstop hcontiguous hnamed hrowsFormed hrowsAgree hdistinct
        (fun side => ?_) (fun hsnapshot habs => habsent hsnapshot symbol hkept habs) side
      rw [FeedTable.start]
      by_cases hsnapshot : m.action = .partial_
      · rw [if_pos hsnapshot, if_pos hsnapshot]
        exact LevelTable.views_empty
      · rw [if_neg hsnapshot, if_neg hsnapshot]
        exact (hinv (hfrom.resolve_left hsnapshot)).views symbol hkept side

/-- An input that is no book message keeps the mirror, if it does not lose the connection. -/
theorem inMirror_other {s : MarketData D} {a : Mirror} {i : Input}
    (hi : ∀ m badState, i ≠ .event (.orderBookL2 m) badState)
    (hinv : MirrorInv g s a)
    (hcalm : ((marketData g dl).after mirror s a i).awaiting = false) :
    InMirror g ((marketData g dl).next s i) ((marketData g dl).after mirror s a i) := by
  have houtputs : ∀ a', (mirror (D := D)).outputs a' ((marketData g dl).out s i) = a' :=
    Monitor.outputs_of_forall fun e he a' =>
      mirror_output_of_not_isBookEffect
        (not_isBookEffect_of_step s hi e (Machine.mem_of_mem_visible he)) a'
  rw [Machine.after, houtputs] at hcalm ⊢
  by_cases hconnected : i = .disconnected
  · -- without a connection a snapshot is awaited
    rw [hconnected] at hcalm
    cases hcalm
  · have hinput : (mirror (D := D)).input s a i = a := by
      cases i with
      | ready => rfl
      | disconnected => exact absurd rfl hconnected
      | event event badState =>
          cases event with
          | orderBookL2 m => exact absurd rfl (hi m badState)
          | _ => rfl
    rw [hinput] at hcalm ⊢
    have hreceived : (s.step g dl i).1.partialReceived.orderBookL2 =
        s.partialReceived.orderBookL2 := (step_frame s hi hconnected).2
    obtain ⟨hflag, hdistinct, hviews⟩ := hinv hcalm
    exact ⟨hreceived.trans hflag, hdistinct, hviews⟩

/-- **The mirror.** In a run of a feed whose messages meet the assumptions, from a session that
awaits a snapshot, the consumer's books are the feed's whenever no snapshot is awaited, if every
message meets the condition. -/
theorem mirror_of_along {s : MarketData D} {a : Mirror} (ha : a.awaiting = true) {is : List Input}
    (hformed : (marketData g dl).Along mirror Formed s a is)
    (hagrees : (marketData g dl).Along mirror (Agrees g) s a is) :
    (marketData g dl).Sat mirror (fun _ _ _ => True) (Mirrored g) s a is := by
  have hinit : MirrorInv g s a := by
    rw [MirrorInv, ha]
    exact nofun
  have hkeep : ∀ s a i, MirrorInv g s a → Formed s a i ∧ Agrees g s a i →
      (marketData g dl).stops s i = false →
      MirrorInv g ((marketData g dl).next s i) ((marketData g dl).after mirror s a i) := by
    intro s a i hinv hok hstops hcalm
    by_cases hbook : ∃ m badState, i = .event (.orderBookL2 m) badState
    · obtain ⟨m, badState, rfl⟩ := hbook
      exact inMirror_orderBookL2 hinv hok.1 hok.2 hstops hcalm
    · exact inMirror_other (fun m badState h => hbook ⟨m, badState, h⟩) hinv hcalm
  refine Machine.sat_of_along (MirrorInv g)
    (fun s a i hinv hok => ⟨⟨?_, fun hstops hcalm => ?_⟩, ?_⟩) hinit
    (Machine.along_and.mpr ⟨hformed, hagrees⟩)
  · exact Monitor.holds_of_forall (fun _ _ _ => trivial) _
  · exact (hkeep s a i hinv hok hstops hcalm).views
  · exact hkeep s a i hinv hok

/-- A snapshot of two levels, an update of one and the deletion of the other. -/
def steadyBook : List Input :=
  [.event (.orderBookL2
      { action := .partial_
        data :=
          [⟨"XBTUSD", 1, .buy, .num 10, .num 5, 0⟩, ⟨"XBTUSD", 2, .sell, .num 11, .num 6, 0⟩] }) [],
   .event (.orderBookL2 { action := .update, data := [⟨"XBTUSD", 1, .buy, .nan, .num 7, 0⟩] }) [],
   .event (.orderBookL2 { action := .delete, data := [⟨"XBTUSD", 2, .sell, .nan, .nan, 0⟩] }) []]

/-- A steady book is mirrored. -/
theorem mirror_of_along_steadyBook :
    (marketData .keepAll .inOrder).Sat mirror (fun _ _ _ => True) (Mirrored .keepAll)
      (init .inOrder) {} steadyBook := by
  refine mirror_of_along rfl ⟨fun _ => ⟨by decide, ?_⟩, fun _ => ⟨fun _ => ⟨by decide, ?_⟩,
    fun _ => ⟨fun _ => ⟨by decide, ?_⟩, fun _ => trivial⟩⟩⟩ ⟨fun _ => ⟨by decide, ?_, ?_⟩,
    fun _ => ⟨fun _ => ⟨by decide, ?_, nofun⟩, fun _ => ⟨fun _ => ⟨by decide, ?_, nofun⟩,
    fun _ => trivial⟩⟩⟩
  · exact ⟨⟨rfl, rfl, fun _ _ _ => nofun⟩, ⟨rfl, rfl, fun _ _ _ => nofun⟩, trivial⟩
  · exact ⟨⟨rfl, by decide +kernel⟩, trivial⟩
  · refine ⟨?_, trivial⟩
    show Option.isSome (FeedTable.entry _ _) = true
    decide +kernel
  · exact ⟨fun _ _ => nofun, fun _ _ => nofun, trivial⟩
  · exact fun _ _ _ _ => rfl
  · refine ⟨fun _ x hx => ?_, trivial⟩
    obtain rfl : (10, 5) = x := Option.some.inj (Eq.trans (by decide +kernel) hx)
    decide +kernel
  · refine ⟨fun _ => ⟨rfl, fun x hx => ?_⟩, trivial⟩
    obtain rfl : (11, 6) = x := Option.some.inj (Eq.trans (by decide +kernel) hx)
    decide +kernel

/-- A book that comes back at another price under the id of an earlier subscription, and is updated.
-/
def reusedId : List Input :=
  [.event (.orderBookL2
      { action := .partial_, data := [⟨"XBTUSD", 1, .buy, .num 10, .num 5, 0⟩] }) [],
   .disconnected,
   .event (.orderBookL2
      { action := .partial_, data := [⟨"XBTUSD", 1, .buy, .num 11, .num 5, 0⟩] }) [],
   .event (.orderBookL2 { action := .update, data := [⟨"XBTUSD", 1, .buy, .nan, .num 7, 0⟩] }) []]

/-- The cache answers the price of the earlier subscription, so the update goes to a price where the
feed has no level. -/
theorem reusedId_not_mirrored :
    (marketData .keepAll .inOrder).Along mirror Formed (init .inOrder) {} reusedId ∧
      ¬ (marketData .keepAll .inOrder).Sat mirror (fun _ _ _ => True) (Mirrored .keepAll)
        (init .inOrder) {} reusedId := by
  constructor
  · refine ⟨fun _ => ⟨by decide, ?_⟩, fun _ => ⟨trivial, fun _ => ⟨fun _ => ⟨by decide, ?_⟩,
      fun _ => ⟨fun _ => ⟨by decide, ?_⟩, fun _ => trivial⟩⟩⟩⟩
    · exact ⟨⟨rfl, rfl, fun _ _ _ => nofun⟩, trivial⟩
    · exact ⟨⟨rfl, rfl, fun _ _ _ => nofun⟩, trivial⟩
    · exact ⟨⟨rfl, by decide +kernel⟩, trivial⟩
  · rintro ⟨-, hrun⟩
    obtain ⟨-, hrun⟩ := hrun (by decide +kernel)
    obtain ⟨-, hrun⟩ := hrun (by decide +kernel)
    obtain ⟨⟨-, hmirrored⟩, -⟩ := hrun (by decide +kernel)
    have hviews := hmirrored (by decide +kernel) (by decide +kernel) "XBTUSD" rfl .buy 10
    -- at price 10 the feed has no level, and the consumer has seven
    rcases hviews with ⟨id, hid⟩ | ⟨hzero, -⟩
    · by_cases h : id = 1
      · revert hid
        rw [h]
        decide +kernel
      · rw [feed_after, feed_after] at hid
        simp [FeedTable.message, FeedTable.start, FeedTable.row, FeedTable.put,
          FeedTable.entry, h] at hid
    · revert hzero
      decide +kernel

end MarketData

end RoqBitmex
