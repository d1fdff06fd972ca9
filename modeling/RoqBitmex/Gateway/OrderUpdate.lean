import RoqBitmex.Gateway.Session
import RoqBitmex.Protocol.Errors

/-! # Order reports from the REST interface and from the execution table

An order's state reaches the consumer three ways: in the answer to a REST request, in the first
`order` message of a connection, and in the rows of the `execution` table. The three constructions
are written separately, and use two conversions of the order status: `compute_order_status`, which
looks at the working indicator, and the plain `map`. `reportsAgree_iff` says exactly for which
orders the difference shows. -/

namespace RoqBitmex

open Json (OrderDataItem ExecutionDataItem OrdStatus ExecType guessError)

/-! ## Conversions -/

/-- `compute_request_type`. -/
def computeRequestType : ExecType → RequestType
  | .undefinedInternal | .unknownInternal => .undefined
  | .new => .createOrder
  | .replaced => .modifyOrder
  | .canceled => .cancelOrder
  | .rejected => .undefined
  | .trade => .undefined
  | .funding => .undefined
  | .cancelReject => .cancelOrder

/-- `compute_request_status` of an execution type. -/
def computeRequestStatusOfExecType : ExecType → RequestStatus
  | .undefinedInternal | .unknownInternal => .undefined
  | .new | .replaced | .canceled => .accepted
  | .rejected => .rejected
  | .trade => .undefined
  | .funding => .undefined
  | .cancelReject => .rejected

/-- `compute_order_status`: the working indicator separates an accepted order from a working one,
and is the back-stop for a status that was not parsed. -/
def computeOrderStatus (ordStatus : OrdStatus) (workingStatus : Bool) : OrderStatus :=
  match ordStatus with
  | .undefinedInternal | .unknownInternal => if workingStatus then .working else .undefined
  | .pendingNew => .sent
  | .new | .triggered => if ¬ workingStatus then .accepted else .working
  | .doneForDay => .suspended
  | .partiallyFilled => .working
  | .stopped => .stopped
  | .filled => .completed
  | .expired => .expired
  | .canceled => .canceled
  | .rejected => .rejected
  | .pendingCancel => .undefined
  | .untriggered => .undefined

/-- `compute_request_status` of an order status. -/
def computeRequestStatusOfOrdStatus : OrdStatus → RequestStatus
  | .undefinedInternal | .unknownInternal => .undefined
  | .pendingNew | .new | .triggered | .doneForDay | .partiallyFilled | .stopped | .filled
  | .expired | .canceled => .accepted
  | .rejected => .rejected
  | .pendingCancel => .accepted
  | .untriggered => .accepted

/-! ## Order items -/

namespace OrderUpdate

/-- The response of the drop-copy overload. -/
def dropCopyResponse (item : OrderDataItem) : Oms.Response where
  requestType := if item.ordStatus = .canceled then .cancelOrder else .undefined
  origin := .exchange
  requestStatus := if item.ordStatus = .rejected then .rejected else .accepted
  error := guessError item.ordRejReason
  text := item.text
  externalOrderId := item.orderId
  clientOrderId := item.clOrdId
  quantity := item.orderQty
  price := item.price

/-- The order update of the drop-copy overload. -/
def dropCopyUpdate (session : Session) (item : OrderDataItem) (download : Bool) :
    Oms.OrderUpdate where
  account := session.account
  exchange := session.exchange
  symbol := item.symbol
  side := item.side.map
  maxShowQuantity := .nan
  orderType := item.ordType.map
  timeInForce := item.timeInForce.map
  updateTimeUtc := nanoseconds item.timestamp
  externalAccount := externalAccount item.account
  externalOrderId := item.orderId
  clientOrderId := item.clOrdId
  orderStatus := computeOrderStatus item.ordStatus item.workingIndicator
  quantity := item.orderQty
  price := item.price
  stopPrice := item.stopPx
  leverage := .nan
  remainingQuantity := item.leavesQty
  tradedQuantity := item.cumQty
  averageTradedPrice := item.avgPx
  lastTradedQuantity := .nan
  lastTradedPrice := .nan
  lastLiquidity := .undefined
  updateType := if download then .snapshot else .incremental

/-- `OrderUpdate::operator()` for the drop copy: what is dispatched for an item, which is nothing
unless the item is part of a download. -/
def dropCopy (session : Session) (item : OrderDataItem) (download : Bool) : List OmsEvent :=
  if ¬ download then []
  else [.orderUpdate (dropCopyResponse item) (dropCopyUpdate session item download)
    session.streamId]

/-- The response of the order-entry overload. A cancel request has no identifier of its own. -/
def orderEntryResponse (item : OrderDataItem) (requestType : RequestType) (version : UInt32) :
    Oms.Response where
  requestType := requestType
  origin := .exchange
  requestStatus := computeRequestStatusOfOrdStatus item.ordStatus
  error := guessError item.ordRejReason
  text := item.text
  version := version
  requestId := if requestType ≠ .cancelOrder then item.clOrdId else ""
  externalOrderId := item.orderId
  clientOrderId := item.clOrdId
  quantity := item.orderQty
  price := item.price

/-- The order update of the order-entry overload. -/
def orderEntryUpdate (session : Session) (item : OrderDataItem) : Oms.OrderUpdate where
  account := session.account
  exchange := session.exchange
  symbol := item.symbol
  side := item.side.map
  maxShowQuantity := .nan
  orderType := item.ordType.map
  timeInForce := item.timeInForce.map
  updateTimeUtc := nanoseconds item.timestamp
  externalAccount := externalAccount item.account
  externalOrderId := item.orderId
  clientOrderId := item.clOrdId
  orderStatus := computeOrderStatus item.ordStatus item.workingIndicator
  quantity := item.orderQty
  price := item.price
  stopPrice := item.stopPx
  leverage := .nan
  remainingQuantity := item.leavesQty
  tradedQuantity := item.cumQty
  averageTradedPrice := item.avgPx
  lastTradedQuantity := .nan
  lastTradedPrice := .nan
  lastLiquidity := .undefined
  updateType := .incremental

/-- `OrderUpdate::operator()` for the order entry: what is dispatched for an item. -/
def orderEntry (session : Session) (item : OrderDataItem) (requestType : RequestType)
    (version : UInt32) : OmsEvent :=
  .orderUpdate (orderEntryResponse item requestType version) (orderEntryUpdate session item)
    session.streamId

end OrderUpdate

/-! ## Execution reports -/

namespace DropCopy

/-- The response dispatched for a row of the `execution` table. -/
def executionResponse (item : ExecutionDataItem) : Oms.Response where
  requestType := computeRequestType item.execType
  origin := .exchange
  requestStatus := computeRequestStatusOfExecType item.execType
  error := guessError item.ordRejReason
  text := item.text
  requestId := if computeRequestType item.execType ≠ .cancelOrder then item.clOrdId else ""
  externalOrderId := item.orderId
  clientOrderId := item.clOrdId
  quantity := item.orderQty
  price := item.price

/-- The order update dispatched for a row of the `execution` table. -/
def executionUpdate (session : Session) (item : ExecutionDataItem) : Oms.OrderUpdate where
  account := session.account
  exchange := session.exchange
  symbol := item.symbol
  side := item.side.map
  maxShowQuantity := .nan
  orderType := item.ordType.map
  timeInForce := item.timeInForce.map
  updateTimeUtc := nanoseconds item.timestamp
  externalAccount := externalAccount item.account
  externalOrderId := item.orderId
  clientOrderId := item.clOrdId
  -- the plain conversion, where the reports above look at the working indicator
  orderStatus := item.ordStatus.map
  quantity := item.orderQty
  price := item.price
  stopPrice := item.stopPx
  leverage := .nan
  remainingQuantity := item.leavesQty
  tradedQuantity := item.cumQty
  averageTradedPrice := item.avgPx
  lastTradedQuantity := item.lastQty
  lastTradedPrice := item.lastPx
  lastLiquidity := item.lastLiquidityInd.map
  updateType := .incremental

/-- The trade dispatched for a row of the `execution` table that reports one, given the order the
dispatcher found for the row's update. -/
def executionTrade (session : Session) (item : ExecutionDataItem) (order : Option OrderRef) :
    TradeUpdate where
  streamId := session.streamId
  account := session.account
  order := order
  exchange := session.exchange
  symbol := item.symbol
  side := item.side.map
  createTimeUtc := nanoseconds item.timestamp
  updateTimeUtc := nanoseconds item.timestamp
  externalAccount := externalAccount item.account
  externalOrderId := item.orderId
  clientOrderId := item.clOrdId
  fills := [{ externalTradeId := item.trdMatchId, quantity := item.lastQty, price := item.lastPx }]
  updateType := .incremental

/-- What is dispatched for a row of the `execution` table. -/
def executionItem (session : Session) (lookup : Oms.OrderUpdate → Option OrderRef)
    (item : ExecutionDataItem) : List OmsEvent :=
  .orderUpdate (executionResponse item) (executionUpdate session item) session.streamId ::
    -- only a fill is a trade as well
    if item.execType ≠ .trade then []
    else [.tradeUpdate (executionTrade session item (lookup (executionUpdate session item)))]

/-- `DropCopy::operator()(Trace<Execution>)`, given the order the dispatcher matches with each
update it is handed. -/
def execution (session : Session) (lookup : Oms.OrderUpdate → Option OrderRef)
    (message : Json.Execution) : List OmsEvent :=
  message.data.flatMap (executionItem session lookup)

end DropCopy

/-! ## Two reports of one order state -/

/-- An order item and an execution row describe the same state of an order. -/
structure SameOrderState (o : OrderDataItem) (e : ExecutionDataItem) : Prop where
  account : o.account = e.account
  symbol : o.symbol = e.symbol
  orderId : o.orderId = e.orderId
  clOrdId : o.clOrdId = e.clOrdId
  side : o.side = e.side
  ordType : o.ordType = e.ordType
  timeInForce : o.timeInForce = e.timeInForce
  ordStatus : o.ordStatus = e.ordStatus
  workingIndicator : o.workingIndicator = e.workingIndicator
  orderQty : o.orderQty = e.orderQty
  price : o.price = e.price
  stopPx : o.stopPx = e.stopPx
  leavesQty : o.leavesQty = e.leavesQty
  cumQty : o.cumQty = e.cumQty
  avgPx : o.avgPx = e.avgPx
  timestamp : o.timestamp = e.timestamp

/-- What a consumer holds of an order: the state last reported and the last fill it was told of. -/
structure OrderView where
  state : Option Oms.OrderState
  lastTradedQuantity : Double
  lastTradedPrice : Double
  lastLiquidity : Liquidity
  deriving DecidableEq, Repr

/-- A consumer takes the state from each report, and the last fill from a report that has one. -/
def OrderView.receive (v : OrderView) (u : Oms.OrderUpdate) : OrderView where
  state := some u.toOrderState
  lastTradedQuantity :=
    if u.lastTradedQuantity.isNaN then v.lastTradedQuantity else u.lastTradedQuantity
  lastTradedPrice := if u.lastTradedPrice.isNaN then v.lastTradedPrice else u.lastTradedPrice
  lastLiquidity := if u.lastLiquidity = .undefined then v.lastLiquidity else u.lastLiquidity

/-- A REST report and an execution report agree: the state members are equal, and what a consumer
holds after both does not depend on which of the two arrives last. -/
def ReportsAgree (rest execution : Oms.OrderUpdate) : Prop :=
  rest.toOrderState = execution.toOrderState ∧
    ∀ v : OrderView, (v.receive rest).receive execution = (v.receive execution).receive rest

/-- The two status conversions agree: a new or triggered order is working, no order is untriggered,
and an order without a status is not working. -/
def StatusesAgree (ordStatus : OrdStatus) (working : Bool) : Prop :=
  (ordStatus = .new ∨ ordStatus = .triggered → working = true) ∧ ordStatus ≠ .untriggered ∧
    (ordStatus = .undefinedInternal ∨ ordStatus = .unknownInternal → working = false)

/-- The two conversions give one status exactly when they agree in the sense above. -/
theorem computeOrderStatus_eq_map_iff (ordStatus : OrdStatus) (working : Bool) :
    computeOrderStatus ordStatus working = ordStatus.map ↔ StatusesAgree ordStatus working := by
  cases ordStatus <;> cases working <;>
    simp [computeOrderStatus, OrdStatus.map, StatusesAgree]

/-- A REST report without a fill agrees with an execution report exactly when the states are equal:
the fill is the execution report's in either order. -/
theorem reportsAgree_iff_state {rest execution : Oms.OrderUpdate}
    (hquantity : rest.lastTradedQuantity = .nan) (hprice : rest.lastTradedPrice = .nan)
    (hliquidity : rest.lastLiquidity = .undefined) :
    ReportsAgree rest execution ↔ rest.toOrderState = execution.toOrderState := by
  constructor
  · intro h
    exact h.1
  · -- the report without a fill leaves the last fill to the other one
    intro h
    refine ⟨h, fun v => ?_⟩
    simp only [OrderView.receive, h, hquantity, hprice, hliquidity, Double.isNaN_nan, if_true]

/-- The order-entry and the drop-copy overload report the same state. -/
theorem dropCopyUpdate_toOrderState (session : Session) (o : OrderDataItem) (download : Bool) :
    (OrderUpdate.dropCopyUpdate session o download).toOrderState =
      (OrderUpdate.orderEntryUpdate session o).toOrderState := rfl

/-- Two reports of one order state can differ in the status only. -/
theorem toOrderState_eq_iff {o : OrderDataItem} {e : ExecutionDataItem} (h : SameOrderState o e)
    (session : Session) :
    (OrderUpdate.orderEntryUpdate session o).toOrderState =
        (DropCopy.executionUpdate session e).toOrderState ↔
      computeOrderStatus e.ordStatus e.workingIndicator = e.ordStatus.map := by
  simp only [OrderUpdate.orderEntryUpdate, DropCopy.executionUpdate, Oms.OrderState.mk.injEq,
    h.account, h.symbol, h.orderId, h.clOrdId, h.side, h.ordType, h.timeInForce, h.ordStatus,
    h.workingIndicator, h.orderQty, h.price, h.stopPx, h.leavesQty, h.cumQty, h.avgPx,
    h.timestamp, true_and, and_true]

/-- **Exact agreement of order reports.** For an order item and an execution row that describe the
same order state, the reports of both REST overloads agree with the execution report exactly when
the two status conversions agree on the order's status and working indicator. -/
theorem reportsAgree_iff {o : OrderDataItem} {e : ExecutionDataItem} (h : SameOrderState o e)
    (session : Session) (download : Bool) :
    ReportsAgree (OrderUpdate.orderEntryUpdate session o) (DropCopy.executionUpdate session e) ∧
        ReportsAgree (OrderUpdate.dropCopyUpdate session o download)
          (DropCopy.executionUpdate session e) ↔
      StatusesAgree o.ordStatus o.workingIndicator := by
  -- neither overload reports a fill, so the states decide
  have hentry : ReportsAgree (OrderUpdate.orderEntryUpdate session o)
      (DropCopy.executionUpdate session e) ↔ _ := reportsAgree_iff_state rfl rfl rfl
  have hdrop : ReportsAgree (OrderUpdate.dropCopyUpdate session o download)
      (DropCopy.executionUpdate session e) ↔ _ := reportsAgree_iff_state rfl rfl rfl
  rw [hentry, hdrop, dropCopyUpdate_toOrderState, and_self, toOrderState_eq_iff h,
    computeOrderStatus_eq_map_iff, h.ordStatus, h.workingIndicator]

/-- An order that is new but not on the book yet, as the REST interface answers. -/
def heldOrder : OrderDataItem where
  symbol := "XBTUSD"
  orderId := "b1"
  side := .buy
  ordStatus := .new
  orderQty := .num 10

/-- The execution row that reports the same order. -/
def heldExecution : ExecutionDataItem where
  symbol := "XBTUSD"
  orderId := "b1"
  side := .buy
  ordStatus := .new
  orderQty := .num 10
  execType := .new

/-- The exact agreement at an order that is not on the book yet and at its execution row. -/
theorem reportsAgree_iff_held :
    ReportsAgree (OrderUpdate.orderEntryUpdate ⟨0, "A1", "bitmex"⟩ heldOrder)
          (DropCopy.executionUpdate ⟨0, "A1", "bitmex"⟩ heldExecution) ∧
        ReportsAgree (OrderUpdate.dropCopyUpdate ⟨0, "A1", "bitmex"⟩ heldOrder true)
          (DropCopy.executionUpdate ⟨0, "A1", "bitmex"⟩ heldExecution) ↔
      StatusesAgree .new false :=
  reportsAgree_iff (o := heldOrder) (e := heldExecution)
    ⟨rfl, rfl, rfl, rfl, rfl, rfl, rfl, rfl, rfl, rfl, rfl, rfl, rfl, rfl, rfl, rfl⟩ _ true

/-- For that order the REST interface reports `ACCEPTED` and the execution table `WORKING`, and the
state a consumer ends with is that of the report that arrives last. -/
theorem heldOrder_reports_differ :
    SameOrderState heldOrder heldExecution ∧
      (OrderUpdate.orderEntryUpdate ⟨0, "A1", "bitmex"⟩ heldOrder).orderStatus = .accepted ∧
      (OrderUpdate.dropCopyUpdate ⟨0, "A1", "bitmex"⟩ heldOrder true).orderStatus = .accepted ∧
      (DropCopy.executionUpdate ⟨0, "A1", "bitmex"⟩ heldExecution).orderStatus = .working ∧
      ¬ ReportsAgree (OrderUpdate.orderEntryUpdate ⟨0, "A1", "bitmex"⟩ heldOrder)
        (DropCopy.executionUpdate ⟨0, "A1", "bitmex"⟩ heldExecution) := by
  refine ⟨⟨rfl, rfl, rfl, rfl, rfl, rfl, rfl, rfl, rfl, rfl, rfl, rfl, rfl, rfl, rfl, rfl⟩,
    rfl, rfl, rfl, fun h => ?_⟩
  have hstatus := congrArg Oms.OrderState.orderStatus h.1
  exact absurd hstatus (by decide)

end RoqBitmex
