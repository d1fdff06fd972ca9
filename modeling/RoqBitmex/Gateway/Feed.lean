import RoqBitmex.Gateway.BookSession

/-! # The market data feed

The session as its socket sees it: a text message goes through `Parser::dispatch` to a handler, or
ends the process there, also by being no message at all. At the other end is the exchange.
`exchange` keeps what it owes the session, a snapshot for each subscription and an acknowledgement
for each request, and `WellFormed` says what it may send. -/

namespace RoqBitmex

universe u

/-! ## The socket -/

/-- What the socket hands to the session: it is ready, it is gone, or a text message arrives, with
the dispatcher's answers to the book updates it leads to. -/
inductive FeedInput where
  | ready
  | disconnected
  | text (text : Json.Text) (badState : List Bool)
  deriving DecidableEq

variable {D : Type u} (g : Gateway) (dl : Download D)

namespace MarketData

/-- `MarketData::parse`: the overloads the parser invokes, and the end of the process when it
returns from none or throws. -/
def parse (s : MarketData D) (text : Json.Text) (badState : List Bool) :
    MarketData D × List Effect :=
  match text with
  | .ok frame =>
      let dispatch := Json.Parser.dispatch frame g.allowUnknownEventTypes
      let (s, effects) :=
        (marketData g dl).batch s (dispatch.invoked.map fun event => .event event badState)
      match dispatch.returned with
      | some _ => (s, effects)
      | none => (s, effects ++ [.fatal .parser])
  -- `catch (...)`
  | .error _ => (s, [.fatal .unhandled])

/-- One input from the socket. -/
def receive (s : MarketData D) : FeedInput → MarketData D × List Effect
  | .ready => s.socketReady g
  | .disconnected => s.socketDisconnected g dl
  | .text text badState => s.parse g dl text badState

end MarketData

/-- The session on its socket as a machine. -/
def marketFeed : Machine (MarketData D) FeedInput Effect where
  step := MarketData.receive g dl
  halts := g.halts

/-! ## The exchange -/

/-- The name a table is subscribed by. -/
def Json.Table.topic : Json.Table → String
  | .undefinedInternal | .unknownInternal => ""
  | .instrument => "instrument"
  | .quote => "quote"
  | .orderBookL2 => "orderBookL2"
  | .trade => "trade"
  | .funding => "funding"
  | .liquidation => "liquidation"
  | .settlement => "settlement"
  | .margin => "margin"
  | .position => "position"
  | .order => "order"
  | .execution => "execution"

/-- The public tables. -/
def Json.Table.IsPublic : Json.Table → Prop
  | .instrument | .quote | .orderBookL2 | .trade | .funding | .liquidation | .settlement => True
  | _ => False

/-- What the exchange owes on a connection: whether it has greeted, the snapshots still to come, by
table, and the requests still to be acknowledged, by topic. -/
structure Exchange where
  welcomed : Bool := false
  snapshots : Json.Table → Nat := fun _ => 0
  subscribes : String → Nat := fun _ => 0
  unsubscribes : String → Nat := fun _ => 0

namespace Exchange

/-- One more is owed. -/
def credit {κ : Type*} [DecidableEq κ] (owed : κ → Nat) (k : κ) : κ → Nat :=
  Function.update owed k (owed k + 1)

/-- One less is owed. -/
def debit {κ : Type*} [DecidableEq κ] (owed : κ → Nat) (k : κ) : κ → Nat :=
  Function.update owed k (owed k - 1)

/-- A table is subscribed to. -/
def subscribe (a : Exchange) (t : Json.Table) : Exchange :=
  { a with snapshots := credit a.snapshots t, subscribes := credit a.subscribes t.topic }

/-- A request of the session arrives. -/
def request (a : Exchange) : Effect → Exchange
  | .subscribe topics => topics.foldl subscribe a
  | .unsubscribe topic => { a with unsubscribes := credit a.unsubscribes topic.topic }
  | _ => a

/-- A message is sent. -/
def send (a : Exchange) (f : Json.Frame) : Exchange :=
  if f.info.isSome then { a with welcomed := true }
  else
    match f.subscribe, f.table, f.unsubscribe with
    | some topic, _, _ => { a with subscribes := debit a.subscribes topic }
    | none, some t, _ =>
        if f.action = some .partial_ then { a with snapshots := debit a.snapshots t } else a
    | none, none, some topic => { a with unsubscribes := debit a.unsubscribes topic }
    | none, none, none => a

/-- The rows of a book message: each has a side, and in a snapshot or an insert a price and a size.
-/
def FormsRows (f : Json.Frame) : Prop :=
  ∀ rows, f.data = .orderBookL2 rows → ∀ row ∈ rows,
    (row.side = .buy ∨ row.side = .sell) ∧
      (f.action = some .partial_ ∨ f.action = some .insert →
        row.price.isNaN = false ∧ row.size.isNaN = false)

/-- What the exchange may send: one greeting, an acknowledgement of a request, one snapshot of a
table for each subscription, and other messages about a table at any time. -/
inductive MaySend (a : Exchange) (f : Json.Frame) : Prop where
  | welcome (kind : f.IsKind .welcome) (first : a.welcomed = false)
  | subscribed (kind : f.IsKind .subscribe) (topic : String)
      (acknowledges : f.subscribe = some topic) (due : 0 < a.subscribes topic)
  | unsubscribed (kind : f.IsKind .unsubscribe) (topic : String)
      (acknowledges : f.unsubscribe = some topic) (due : 0 < a.unsubscribes topic)
  | snapshot (k : Json.Kind) (t : Json.Table) (table : k.table = some t) (isPublic : t.IsPublic)
      (kind : f.IsKind k) (action : f.action = some .partial_) (due : 0 < a.snapshots t)
      (rows : t = .orderBookL2 → FormsRows f)
  | change (k : Json.Kind) (t : Json.Table) (table : k.table = some t) (isPublic : t.IsPublic)
      (kind : f.IsKind k)
      (action : f.action = some .insert ∨ f.action = some .update ∨ f.action = some .delete)
      (rows : t = .orderBookL2 → FormsRows f)

end Exchange

/-- The exchange, along a run of the session: the requests are what the session puts out, the
messages what it is given, and a new connection starts from nothing. -/
def exchange : Monitor (MarketData D) FeedInput Effect Exchange where
  input _ a
    | .ready => a
    | .disconnected => {}
    | .text (.ok frame) _ => a.send frame
    | .text (.error _) _ => a
  output := Exchange.request

/-- A well-formed feed: every message is one that the exchange may send. -/
def WellFormed (_ : MarketData D) (a : Exchange) : FeedInput → Prop
  | .text (.ok frame) _ => a.MaySend frame
  | .text (.error _) _ => False
  | _ => True

end RoqBitmex
