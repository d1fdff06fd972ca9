import RoqBitmex.Gateway.Session
import RoqBitmex.Protocol.Json
import Mathlib.Algebra.Order.Group.Lattice
import Mathlib.Tactic.Common

/-! # Positions

`DropCopy` answers each row of a `position` message with a `PositionUpdate`, whatever the message's
action. The feed sends a whole table first and then rows with the members that changed only, so a
row need not carry `currentQty`; the handler keeps no state and takes the absent quantity for a
number. `positionMirror_iff` says exactly when the published position is the feed's. -/

namespace RoqBitmex

open Json (PositionDataItem)

namespace DropCopy

/-- The `PositionUpdate` dispatched for a row. -/
def positionUpdate (session : Session) (item : PositionDataItem) : PositionUpdate where
  streamId := session.streamId
  account := session.account
  exchange := session.exchange
  symbol := item.symbol
  externalAccount := externalAccount item.account
  longQuantity := Double.max (.num 0) item.currentQty
  shortQuantity := Double.max (.num 0) item.currentQty.neg
  updateType := .incremental
  exchangeTimeUtc := nanoseconds item.timestamp

/-- `DropCopy::operator()(Trace<Position>)`: the updates dispatched, in order. -/
def position (session : Session) (message : Json.Position) : List PositionUpdate :=
  message.data.map (positionUpdate session)

end DropCopy

/-! ## The feed's history and the published one -/

/-- The updates dispatched for a sequence of messages. -/
def positionUpdates (session : Session) (messages : List Json.Position) : List PositionUpdate :=
  messages.flatMap (DropCopy.position session)

/-- The rows of a symbol, in the order they were received. -/
def positionRows (messages : List Json.Position) (symbol : String) : List PositionDataItem :=
  (messages.flatMap (·.data)).filter (·.symbol = symbol)

/-- The most recent quantity the feed sent for a symbol. -/
def recentQty (messages : List Json.Position) (symbol : String) : Option ℚ :=
  ((positionRows messages symbol).filterMap (·.currentQty.value?)).getLast?

/-- The last update dispatched for a symbol. -/
def lastPositionUpdate (session : Session) (messages : List Json.Position) (symbol : String) :
    Option PositionUpdate :=
  ((positionUpdates session messages).filter (·.symbol = symbol)).getLast?

/-- An update shows a position: both sides are numbers, none negative and one of them zero. -/
def PositionUpdate.Shows (u : PositionUpdate) (long short : ℚ) : Prop :=
  u.longQuantity = .num long ∧ u.shortQuantity = .num short ∧ 0 ≤ long ∧ 0 ≤ short ∧
    (long = 0 ∨ short = 0)

/-- The published positions are the feed's: the last update of each symbol shows a position, whose
net quantity is the most recent one sent. -/
def PositionMirror (session : Session) (messages : List Json.Position) : Prop :=
  ∀ symbol u, lastPositionUpdate session messages symbol = some u →
    ∃ long short, u.Shows long short ∧
      ∀ q, recentQty messages symbol = some q → long - short = q

/-- The quantities are current: the last row of a symbol carries one, unless the most recent one
sent for the symbol is zero or none was sent. -/
def QuantitiesCurrent (messages : List Json.Position) : Prop :=
  ∀ symbol row, (positionRows messages symbol).getLast? = some row → row.currentQty = .nan →
    ∀ q, recentQty messages symbol = some q → q = 0

/-- The last update of a symbol is the one for its last row. -/
theorem lastPositionUpdate_eq (session : Session) (messages : List Json.Position)
    (symbol : String) :
    lastPositionUpdate session messages symbol =
      (positionRows messages symbol).getLast?.map (DropCopy.positionUpdate session) := by
  have hmap : positionUpdates session messages =
      (messages.flatMap (·.data)).map (DropCopy.positionUpdate session) := by
    rw [positionUpdates, List.map_flatMap]
    rfl
  rw [lastPositionUpdate, hmap, List.filter_map, List.getLast?_map]
  rfl

/-- A last row that carries a quantity carries the most recent one. -/
theorem recentQty_of_last {messages : List Json.Position} {symbol : String}
    {row : PositionDataItem} {q : ℚ} (hrow : (positionRows messages symbol).getLast? = some row)
    (hq : row.currentQty = .num q) : recentQty messages symbol = some q := by
  obtain ⟨rows, hrows⟩ := List.getLast?_eq_some_iff.mp hrow
  rw [recentQty, hrows, List.filterMap_append]
  simp [hq]

/-- The sides of the update for a quantity are its positive and negative parts. -/
theorem shows_positionUpdate (session : Session) {row : PositionDataItem} {q : ℚ}
    (hq : row.currentQty = .num q) :
    (DropCopy.positionUpdate session row).Shows (0 ⊔ q) (0 ⊔ -q) ∧ (0 ⊔ q) - (0 ⊔ -q) = q := by
  -- one of the two parts is zero, and they differ by the quantity
  have hsides : (0 ⊔ q = 0 ∨ 0 ⊔ -q = 0) ∧ (0 ⊔ q) - (0 ⊔ -q) = q := by
    rcases le_total 0 q with h | h
    · have hneg : -q ≤ 0 := neg_nonpos.mpr h
      rw [sup_eq_right.mpr h, sup_eq_left.mpr hneg]
      exact ⟨Or.inr rfl, sub_zero q⟩
    · have hpos : 0 ≤ -q := neg_nonneg.mpr h
      rw [sup_eq_left.mpr h, sup_eq_right.mpr hpos]
      exact ⟨Or.inl rfl, by rw [zero_sub, neg_neg]⟩
  refine ⟨⟨?_, ?_, le_sup_left, le_sup_left, hsides.1⟩, hsides.2⟩
  · show Double.max (.num 0) row.currentQty = .num (0 ⊔ q)
    rw [hq, Double.max_num]
  · show Double.max (.num 0) row.currentQty.neg = .num (0 ⊔ -q)
    rw [hq, Double.neg, Double.max_num]

/-- A row without a quantity is answered with an empty position. -/
theorem positionUpdate_of_nan (session : Session) {row : PositionDataItem}
    (hnan : row.currentQty = .nan) :
    (DropCopy.positionUpdate session row).longQuantity = .num 0 ∧
      (DropCopy.positionUpdate session row).shortQuantity = .num 0 := by
  constructor
  · show Double.max (.num 0) row.currentQty = .num 0
    rw [hnan, Double.max_nan]
  · show Double.max (.num 0) row.currentQty.neg = .num 0
    rw [hnan, Double.neg, Double.max_nan]

/-- After any sequence of messages the published positions are the feed's exactly when the
quantities are current. -/
theorem positionMirror_iff_current (session : Session) (messages : List Json.Position) :
    PositionMirror session messages ↔ QuantitiesCurrent messages := by
  constructor
  · -- the update of a last row without a quantity is empty, so zero has to be current
    intro h symbol row hrow hnan q hq
    obtain ⟨long, short, ⟨hlong, hshort, -⟩, hnet⟩ :=
      h symbol _ (by rw [lastPositionUpdate_eq, hrow, Option.map_some])
    obtain ⟨hl, hs⟩ := positionUpdate_of_nan session hnan
    rw [hl, Double.num.injEq] at hlong
    rw [hs, Double.num.injEq] at hshort
    rw [← hnet q hq, ← hlong, ← hshort, sub_self]
  · intro h symbol u hu
    rw [lastPositionUpdate_eq, Option.map_eq_some_iff] at hu
    obtain ⟨row, hrow, rfl⟩ := hu
    cases hqty : row.currentQty with
    | num q =>
        obtain ⟨hshows, hnet⟩ := shows_positionUpdate session hqty
        refine ⟨_, _, hshows, fun q' hq' => ?_⟩
        rw [recentQty_of_last hrow hqty, Option.some.injEq] at hq'
        rw [hnet, hq']
    | nan =>
        -- nothing is shown, and by assumption nothing is held
        obtain ⟨hl, hs⟩ := positionUpdate_of_nan session hqty
        refine ⟨0, 0, ⟨hl, hs, le_rfl, le_rfl, Or.inl rfl⟩, fun q hq => ?_⟩
        rw [h symbol row hrow hqty q hq, sub_self]

/-- **Exact position mirror.** Over a sequence of messages, the published positions are the feed's
after each message exactly when the quantities are current after each message. -/
theorem positionMirror_iff (session : Session) (messages : List Json.Position) :
    (∀ seen, seen <+: messages → PositionMirror session seen) ↔
      ∀ seen, seen <+: messages → QuantitiesCurrent seen :=
  forall₂_congr fun seen _ => positionMirror_iff_current session seen

/-- A table with a position of five contracts, and then a row about another member. -/
def positionDelta : List Json.Position :=
  [⟨.partial_, [{ symbol := "XBTUSD", currentQty := .num 5 }]⟩,
    ⟨.update, [{ symbol := "XBTUSD", timestamp := 1 }]⟩]

/-- A row that does not mention the quantity empties the published position. -/
theorem positionDelta_not_mirror :
    ¬ ∀ seen, seen <+: positionDelta → PositionMirror ⟨0, "A1", "bitmex"⟩ seen := by
  intro h
  have hcurrent := (positionMirror_iff_current _ _).mp (h _ List.prefix_rfl)
  have hzero := hcurrent "XBTUSD" { symbol := "XBTUSD", timestamp := 1 } rfl rfl 5 rfl
  exact absurd hzero (by decide)

end RoqBitmex
