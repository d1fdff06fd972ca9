import RoqBitmex.Protocol.Map
import RoqBitmex.Library.Double

/-! # What the market data session dispatches and does

The events of `MarketData`, and the effects one of its handlers can have: an event for the
dispatcher, a request to the exchange, closing the connection, and the ends of the process,
`log::fatal`, `Unhandled::terminate` and a failed `assert`. Members that every construction leaves
at their default are left out. The instant of an event is a count of nanoseconds in 64 bits
(`nanoseconds`); the periods of funding rates are counts of seconds, and the dates of reference data
are what `safe_cast` makes of them. -/

namespace RoqBitmex

/-! ## Events -/

/-- A level of a dispatched book update. -/
structure MBPUpdate where
  price : ℚ
  quantity : ℚ
  deriving DecidableEq, Repr

/-- A dispatched `MarketByPriceUpdate`. -/
structure MarketByPriceUpdate where
  streamId : Nat
  exchange : String
  symbol : String
  bids : List MBPUpdate
  asks : List MBPUpdate
  updateType : UpdateType
  exchangeTimeUtc : Int
  deriving DecidableEq, Repr

/-- A dispatched `ReferenceData`. -/
structure ReferenceData where
  streamId : Nat
  exchange : String
  symbol : String
  baseCurrency : String
  quoteCurrency : String
  tickSize : Double
  multiplier : Double
  minNotional : Double
  minTradeVol : Double
  maxTradeVol : Double
  tradeVolStepSize : Double
  strikePrice : Double
  underlying : String
  settlementDate : Int
  expiryDatetime : Int
  expiryDatetimeUtc : Int
  discard : Bool
  deriving DecidableEq, Repr

/-- A dispatched `MarketStatus`. -/
structure MarketStatus where
  streamId : Nat
  exchange : String
  symbol : String
  tradingStatus : TradingStatus
  deriving DecidableEq, Repr

/-- The statistics the gateway publishes. -/
inductive StatisticsType where
  | settlementPrice
  | openInterest
  | preSettlementPrice
  | upperLimitPrice
  | lowerLimitPrice
  | indexValue
  | fundingRate
  | fundingRatePrediction
  deriving DecidableEq, Repr

/-- One statistic. -/
structure Statistics where
  type : StatisticsType
  value : Double
  beginTimeUtc : Int := 0
  endTimeUtc : Int := 0
  deriving DecidableEq, Repr

/-- A dispatched `StatisticsUpdate`. -/
structure StatisticsUpdate where
  streamId : Nat
  exchange : String
  symbol : String
  statistics : List Statistics
  updateType : UpdateType
  exchangeTimeUtc : Int
  deriving DecidableEq, Repr

/-- The layer of a dispatched `TopOfBook`. -/
structure Layer where
  bidPrice : Double
  bidQuantity : Double
  askPrice : Double
  askQuantity : Double
  deriving DecidableEq, Repr

/-- A dispatched `TopOfBook`. -/
structure TopOfBook where
  streamId : Nat
  exchange : String
  symbol : String
  layer : Layer
  updateType : UpdateType
  exchangeTimeUtc : Int
  deriving DecidableEq, Repr

/-- A trade of a summary. -/
structure Trade where
  side : Side
  price : Double
  quantity : Double
  tradeId : String
  deriving DecidableEq, Repr

/-- A dispatched `TradeSummary`. -/
structure TradeSummary where
  streamId : Nat
  exchange : String
  symbol : String
  trades : List Trade
  exchangeTimeUtc : Int
  deriving DecidableEq, Repr

/-- The status of the connection. -/
inductive ConnectionStatus where
  | undefined
  | disconnected
  | loginSent
  | downloading
  | ready
  deriving DecidableEq, Repr

/-- A dispatched `StreamStatus`, as far as it depends on the state of the session. -/
structure StreamStatus where
  streamId : Nat
  connectionStatus : ConnectionStatus
  reason : String
  deriving DecidableEq, Repr

/-- An event the session dispatches. A trade summary comes with its `is_last`; the flag of the other
kinds is fixed. -/
inductive MarketEvent where
  | referenceData (value : ReferenceData)
  | marketStatus (value : MarketStatus)
  | statisticsUpdate (value : StatisticsUpdate)
  | topOfBook (value : TopOfBook)
  | marketByPriceUpdate (value : MarketByPriceUpdate)
  | tradeSummary (value : TradeSummary) (isLast : Bool)
  | streamStatus (value : StreamStatus)
  deriving DecidableEq, Repr

/-! ## Effects -/

/-- The places where the process can end. -/
inductive Site where
  /-- `log::fatal` in `Parser::dispatch`. -/
  | parser
  /-- `Unhandled::terminate` after an exception in `MarketData::parse`. -/
  | unhandled
  /-- `log::fatal` for an instrument action that was not parsed. -/
  | instrumentAction
  /-- `assert(false)` for an instrument snapshot after the first. -/
  | instrumentPartial
  /-- `assert(false)` for an inserted instrument. -/
  | instrumentInsert
  /-- The assertion about the action of a book message. -/
  | bookAction
  /-- `log::fatal` for a book row that is neither bid nor ask. -/
  | bookSide
  /-- The assertion that a published book is not empty. -/
  | bookEmpty
  /-- `log::fatal` in the price cache for an action that was not parsed. -/
  | priceCacheAction
  /-- `log::fatal` in the price cache for a new row without price or size. -/
  | priceCachePrice
  /-- The assertion that a published product has a symbol. -/
  | productSymbol
  /-- `assert(false)` for an undefined download state. -/
  | downloadState
  /-- The assertion that a session becomes ready once. -/
  | downloadReady
  /-- `log::fatal` for a message of the private tables. -/
  | unexpectedTable
  deriving DecidableEq, Repr

/-- What a handler does. -/
inductive Effect where
  /-- Hand an event to the dispatcher. -/
  | dispatch (event : MarketEvent)
  /-- `send_subscribe`: the topics are named after their tables. -/
  | subscribe (topics : List Json.Table)
  /-- `send_unsubscribe`. -/
  | unsubscribe (topic : Json.Table)
  /-- Close the connection. -/
  | close
  /-- `log::fatal` or `Unhandled::terminate`: the process ends. -/
  | fatal (site : Site)
  /-- A failed `assert`: the process ends where assertions are compiled in. -/
  | assertion (site : Site)
  deriving DecidableEq, Repr

/-- What the session takes from its settings, its dispatcher and its build. -/
structure Gateway where
  streamId : Nat
  exchange : String
  /-- `dispatcher.discard_symbol`. -/
  discardSymbol : String → Bool
  /-- `settings.experimental.allow_unknown_event_types`. -/
  allowUnknownEventTypes : Bool
  /-- Whether assertions are compiled in. -/
  asserts : Bool
  /-- `utils::safe_cast` to a date. -/
  safeCastDate : Int → Int
  /-- `utils::safe_cast` to a time. -/
  safeCastTime : Int → Int

/-- A gateway that keeps every symbol, with assertions compiled in. -/
def Gateway.keepAll : Gateway where
  streamId := 1
  exchange := "BITMEX"
  discardSymbol _ := false
  allowUnknownEventTypes := false
  asserts := true
  safeCastDate := id
  safeCastTime := id

/-- A gateway that discards one symbol. -/
def Gateway.drop (symbol : String) : Gateway :=
  { Gateway.keepAll with discardSymbol := fun symbol' => symbol' = symbol }

/-- The effects that end the process. -/
def Gateway.halts (g : Gateway) : Effect → Bool
  | .fatal _ => true
  | .assertion _ => g.asserts
  | _ => false

/-- An assertion: no effect when it holds. -/
def assertEffect (condition : Bool) (site : Site) : List Effect :=
  if condition then [] else [.assertion site]

@[simp] theorem assertEffect_true (site : Site) : assertEffect true site = [] := rfl

/-- An assertion has an effect only if it fails, and only the one. -/
theorem eq_of_mem_assertEffect {condition : Bool} {site : Site} {e : Effect}
    (h : e ∈ assertEffect condition site) : condition = false ∧ e = .assertion site := by
  cases condition with
  | true => cases h
  | false => exact ⟨rfl, List.mem_singleton.mp h⟩

end RoqBitmex
