import RoqBitmex.Protocol.Map
import RoqBitmex.Library.Double

/-! # What the private sessions dispatch

The records `OrderEntry` and `DropCopy` hand to the dispatcher: order reports, their responses,
positions and acknowledgements. Members that every construction leaves at their default and that
have no vocabulary of their own here (position effect, margin mode, execution instructions) are
left out. -/

namespace RoqBitmex

/-- What a session publishes under: its stream, account and exchange. -/
structure Session where
  streamId : Nat
  account : String
  exchange : String
  deriving Repr

/-- The account number as text, empty when it is absent. -/
def externalAccount (account : UInt64) : String := if account = 0 then "" else toString account

/-! ## Orders -/

namespace Oms

/-- A `server::oms::Response`: the outcome of a request. -/
structure Response where
  requestType : RequestType
  origin : Origin
  requestStatus : RequestStatus
  error : Error
  text : String
  version : UInt32 := 0
  requestId : String := ""
  externalOrderId : String := ""
  clientOrderId : String := ""
  quantity : Double := .nan
  price : Double := .nan
  deriving DecidableEq, Repr

/-- The members of an order report that describe the state of the order. -/
structure OrderState where
  account : String
  exchange : String
  symbol : String
  side : Side
  maxShowQuantity : Double
  orderType : OrderType
  timeInForce : TimeInForce
  executionDestination : String := ""
  createTimeUtc : Int := 0
  updateTimeUtc : Int
  externalAccount : String
  externalOrderId : String
  clientOrderId : String
  orderStatus : OrderStatus
  error : Error := .undefined
  text : String := ""
  quantity : Double
  price : Double
  stopPrice : Double
  leverage : Double
  remainingQuantity : Double
  tradedQuantity : Double
  averageTradedPrice : Double
  routingId : String := ""
  maxRequestVersion : UInt32 := 0
  maxResponseVersion : UInt32 := 0
  maxAcceptedVersion : UInt32 := 0
  sendingTimeUtc : Int := 0
  deriving DecidableEq, Repr

/-- A `server::oms::OrderUpdate`: the state of an order, the last fill and how the report relates to
earlier ones. -/
structure OrderUpdate extends OrderState where
  lastTradedQuantity : Double
  lastTradedPrice : Double
  lastLiquidity : Liquidity
  updateType : UpdateType
  deriving DecidableEq, Repr

end Oms

/-- The order a report was matched with, as the dispatcher tells its caller. -/
structure OrderRef where
  userId : UInt8
  orderId : UInt64
  strategyId : UInt32
  deriving DecidableEq, Repr

/-- A fill of an order. -/
structure Fill where
  externalTradeId : String
  quantity : Double
  price : Double
  liquidity : Liquidity := .undefined
  commissionAmount : Double := .nan
  baseAmount : Double := .nan
  quoteAmount : Double := .nan
  profitLossAmount : Double := .nan
  deriving DecidableEq, Repr

/-- A dispatched `TradeUpdate`. The order is unknown when no report was matched. -/
structure TradeUpdate where
  streamId : Nat
  account : String
  order : Option OrderRef
  exchange : String
  symbol : String
  side : Side
  createTimeUtc : Int
  updateTimeUtc : Int
  externalAccount : String
  externalOrderId : String
  clientOrderId : String
  fills : List Fill
  updateType : UpdateType
  deriving DecidableEq, Repr

/-- A dispatched `CancelAllOrdersAck`. -/
structure CancelAllOrdersAck where
  streamId : Nat
  account : String
  orderId : UInt64 := 0
  exchange : String := ""
  symbol : String := ""
  side : Side := .undefined
  origin : Origin
  requestStatus : RequestStatus
  error : Error
  text : String
  requestId : String
  deriving DecidableEq, Repr

/-! ## Positions -/

/-- A dispatched `PositionUpdate`. -/
structure PositionUpdate where
  streamId : Nat
  account : String
  exchange : String
  symbol : String
  externalAccount : String
  longQuantity : Double
  shortQuantity : Double
  updateType : UpdateType
  exchangeTimeUtc : Int
  deriving DecidableEq, Repr

/-! ## Events -/

/-- An event a private session dispatches. -/
inductive OmsEvent where
  /-- A response with the order report it comes with. -/
  | orderUpdate (response : Oms.Response) (update : Oms.OrderUpdate) (streamId : Nat)
  /-- A response on its own, for the order it names. -/
  | response (response : Oms.Response) (streamId : Nat) (userId : UInt8) (orderId : UInt64)
  /-- The acknowledgement of a request to cancel all orders. -/
  | cancelAllOrdersAck (ack : CancelAllOrdersAck)
  /-- A trade. -/
  | tradeUpdate (update : TradeUpdate)
  deriving DecidableEq, Repr

end RoqBitmex
