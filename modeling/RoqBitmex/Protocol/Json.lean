import RoqBitmex.Library.Double

/-! # The wire protocol: enumerations, rows and messages

The records the exchange sends, as the generated parsers deliver them. A member that is absent is
the empty string, zero, `false` or NaN, and an enumeration that is absent or not recognised is
`undefinedInternal` or `unknownInternal`. Rows keep the members the gateway reads. Times are signed
counts of milliseconds. -/

namespace RoqBitmex

namespace Json

/-! ## Enumerations -/

/-- The action of a table message. -/
inductive Action where
  | undefinedInternal
  | unknownInternal
  | delete
  | insert
  | partial_
  | update
  deriving DecidableEq, Repr

/-- The side of a row. -/
inductive Side where
  | undefinedInternal
  | unknownInternal
  | buy
  | sell
  deriving DecidableEq, Repr

/-- The table of a table message. -/
inductive Table where
  | undefinedInternal
  | unknownInternal
  | instrument
  | quote
  | orderBookL2
  | trade
  | funding
  | liquidation
  | settlement
  | margin
  | position
  | order
  | execution
  deriving DecidableEq, Repr

/-- The state of an instrument. -/
inductive State where
  | undefinedInternal
  | unknownInternal
  | closed
  | open_
  | settled
  | unlisted
  | expired
  | cleared
  | delisted
  deriving DecidableEq, Repr

/-- The status of an order. -/
inductive OrdStatus where
  | undefinedInternal
  | unknownInternal
  | canceled
  | doneForDay
  | expired
  | filled
  | new
  | partiallyFilled
  | pendingCancel
  | pendingNew
  | rejected
  | stopped
  | triggered
  | untriggered
  deriving DecidableEq, Repr

/-- The reason of an execution report. -/
inductive ExecType where
  | undefinedInternal
  | unknownInternal
  | canceled
  | funding
  | new
  | rejected
  | replaced
  | trade
  | cancelReject
  deriving DecidableEq, Repr

/-- The type of an order. -/
inductive OrdType where
  | undefinedInternal
  | unknownInternal
  | limit
  | market
  | stop
  | stopLimit
  | marketIfTouched
  | limitIfTouched
  deriving DecidableEq, Repr

/-- How long an order stays in force. -/
inductive TimeInForce where
  | undefinedInternal
  | unknownInternal
  | atTheClose
  | day
  | fillOrKill
  | goodTillCancel
  | immediateOrCancel
  deriving DecidableEq, Repr

/-- Whether a fill added or removed liquidity. -/
inductive LiquidityInd where
  | undefinedInternal
  | unknownInternal
  | addedLiquidity
  | removedLiquidity
  deriving DecidableEq, Repr

/-! ## Rows -/

/-- A row of the `instrument` table. -/
structure InstrumentDataItem where
  symbol : String
  quoteCurrency : String := ""
  settlCurrency : String := ""
  tickSize : Double := .nan
  multiplier : Double := .nan
  lotSize : Double := .nan
  optionStrikePrice : Double := .nan
  underlyingSymbol : String := ""
  expiry : Int := 0
  settle : Int := 0
  state : State := .undefinedInternal
  markPrice : Double := .nan
  openInterest : Double := .nan
  indicativeSettlePrice : Double := .nan
  limitUpPrice : Double := .nan
  limitDownPrice : Double := .nan
  fairPrice : Double := .nan
  fundingRate : Double := .nan
  fundingInterval : Int := 0
  indicativeFundingRate : Double := .nan
  timestamp : Int := 0
  deriving DecidableEq, Repr

/-- A row of the `funding` table. -/
structure FundingDataItem where
  symbol : String
  timestamp : Int := 0
  deriving DecidableEq, Repr

/-- A row of the `quote` table. -/
structure QuoteDataItem where
  symbol : String
  bidPrice : Double := .nan
  bidSize : Double := .nan
  askPrice : Double := .nan
  askSize : Double := .nan
  timestamp : Int := 0
  deriving DecidableEq, Repr

/-- A row of the `orderBookL2` table. -/
structure OrderBookL2DataItem where
  symbol : String
  id : UInt64
  side : Side
  price : Double := .nan
  size : Double := .nan
  timestamp : Int := 0
  deriving DecidableEq, Repr

/-- A row of the `trade` table. -/
structure TradeDataItem where
  symbol : String
  side : Side
  price : Double := .nan
  size : Double := .nan
  trdMatchId : String := ""
  timestamp : Int := 0
  deriving DecidableEq, Repr

/-- A row of the `position` table. -/
structure PositionDataItem where
  account : UInt64 := 0
  symbol : String
  currentQty : Double := .nan
  timestamp : Int := 0
  deriving DecidableEq, Repr

/-- A row of the `order` table, which is also what the REST interface answers with. -/
structure OrderDataItem where
  account : UInt64 := 0
  symbol : String := ""
  orderId : String := ""
  clOrdId : String := ""
  side : Side := .undefinedInternal
  ordType : OrdType := .undefinedInternal
  timeInForce : TimeInForce := .undefinedInternal
  ordStatus : OrdStatus := .undefinedInternal
  workingIndicator : Bool := false
  orderQty : Double := .nan
  price : Double := .nan
  stopPx : Double := .nan
  leavesQty : Double := .nan
  cumQty : Double := .nan
  avgPx : Double := .nan
  timestamp : Int := 0
  ordRejReason : String := ""
  text : String := ""
  error : String := ""
  deriving DecidableEq, Repr

/-- A row of the `execution` table. -/
structure ExecutionDataItem where
  account : UInt64 := 0
  symbol : String := ""
  orderId : String := ""
  clOrdId : String := ""
  side : Side := .undefinedInternal
  ordType : OrdType := .undefinedInternal
  timeInForce : TimeInForce := .undefinedInternal
  ordStatus : OrdStatus := .undefinedInternal
  workingIndicator : Bool := false
  orderQty : Double := .nan
  price : Double := .nan
  stopPx : Double := .nan
  leavesQty : Double := .nan
  cumQty : Double := .nan
  avgPx : Double := .nan
  timestamp : Int := 0
  ordRejReason : String := ""
  text : String := ""
  execType : ExecType := .undefinedInternal
  lastQty : Double := .nan
  lastPx : Double := .nan
  lastLiquidityInd : LiquidityInd := .undefinedInternal
  trdMatchId : String := ""
  deriving DecidableEq, Repr

/-! ## Table messages -/

/-- A message about a table: what happens to it, and the rows concerned. -/
structure TableMessage (Row : Type) where
  action : Action
  data : List Row
  deriving DecidableEq, Repr

/-- A message about the `instrument` table. -/
abbrev Instrument := TableMessage InstrumentDataItem

/-- A message about the `funding` table. -/
abbrev Funding := TableMessage FundingDataItem

/-- A message about the `quote` table. -/
abbrev Quote := TableMessage QuoteDataItem

/-- A message about the `orderBookL2` table. -/
abbrev OrderBookL2 := TableMessage OrderBookL2DataItem

/-- A message about the `trade` table. -/
abbrev Trade := TableMessage TradeDataItem

/-- A message about the `position` table. -/
abbrev Position := TableMessage PositionDataItem

/-- A message about the `order` table. -/
abbrev Order := TableMessage OrderDataItem

/-- A message about the `execution` table. -/
abbrev Execution := TableMessage ExecutionDataItem

end Json

end RoqBitmex
