import RoqBitmex.Protocol.Json

/-! # The gateway's vocabulary and how the wire's maps to it

The enumerations of the trading interface the gateway speaks, restricted to the enumerators it can
produce, and the conversions of `map.cpp` from the wire's enumerations. Every enumerator of the wire
has an image, so the optional results of the source's helpers are always present. Instants are
converted as well: the wire counts milliseconds, the interface nanoseconds in 64 bits. -/

namespace RoqBitmex

/-- The side of an order or a trade. -/
inductive Side where
  | undefined
  | buy
  | sell
  deriving DecidableEq, Repr

/-- The status of an order. -/
inductive OrderStatus where
  | undefined
  | sent
  | accepted
  | suspended
  | working
  | stopped
  | completed
  | expired
  | canceled
  | rejected
  deriving DecidableEq, Repr

/-- The type of an order. -/
inductive OrderType where
  | undefined
  | market
  | limit
  deriving DecidableEq, Repr

/-- How long an order stays in force. -/
inductive TimeInForce where
  | undefined
  | gfd
  | gtc
  | opg
  | ioc
  | fok
  | gtd
  | gtx
  | atTheClose
  | goodThroughCrossing
  | atCrossing
  | goodForTime
  | gfa
  | gfm
  deriving DecidableEq, Repr

/-- Whether a fill made or took liquidity. -/
inductive Liquidity where
  | undefined
  | maker
  | taker
  deriving DecidableEq, Repr

/-- The trading status of a market. -/
inductive TradingStatus where
  | undefined
  | open_
  | close
  deriving DecidableEq, Repr

/-- Whether an update replaces what was published before or adds to it. -/
inductive UpdateType where
  | undefined
  | snapshot
  | incremental
  deriving DecidableEq, Repr

/-- The kind of an order request. -/
inductive RequestType where
  | undefined
  | createOrder
  | modifyOrder
  | cancelOrder
  deriving DecidableEq, Repr

/-- The status of an order request. -/
inductive RequestStatus where
  | undefined
  | forwarded
  | accepted
  | rejected
  | disconnected
  | timeout
  | error
  deriving DecidableEq, Repr

/-- Who answered a request. -/
inductive Origin where
  | undefined
  | gateway
  | exchange
  deriving DecidableEq, Repr

/-- The reason a request failed. -/
inductive Error where
  | undefined
  | unknown
  | invalidAccount
  | invalidOrderId
  | invalidSymbol
  | invalidPrice
  | invalidQuantity
  | invalidExecutionInstruction
  | tooLateToModifyOrCancel
  | invalidSide
  | invalidStopPrice
  | invalidOrderType
  | invalidTimeInForce
  | insufficientFunds
  | requestRateLimitReached
  | gatewayNotReady
  | networkError
  deriving DecidableEq, Repr

namespace Json

/-- `map` of a liquidity indicator. -/
def LiquidityInd.map : LiquidityInd → Liquidity
  | .undefinedInternal => .undefined
  | .unknownInternal => .undefined
  | .addedLiquidity => .maker
  | .removedLiquidity => .taker

/-- `map` of an order status. -/
def OrdStatus.map : OrdStatus → OrderStatus
  | .undefinedInternal => .undefined
  | .unknownInternal => .undefined
  | .canceled => .canceled
  | .doneForDay => .suspended
  | .expired => .expired
  | .filled => .completed
  | .new => .working
  | .partiallyFilled => .working
  | .pendingCancel => .undefined
  | .pendingNew => .sent
  | .rejected => .rejected
  | .stopped => .stopped
  | .untriggered => .accepted
  | .triggered => .working

/-- `map` of an order type. -/
def OrdType.map : OrdType → OrderType
  | .undefinedInternal => .undefined
  | .unknownInternal => .undefined
  | .limit => .limit
  | .market => .market
  | .stop => .market
  | .stopLimit => .limit
  | .marketIfTouched => .market
  | .limitIfTouched => .limit

/-- `map` of a side. -/
def Side.map : Side → RoqBitmex.Side
  | .undefinedInternal => .undefined
  | .unknownInternal => .undefined
  | .buy => .buy
  | .sell => .sell

/-- `map` of an instrument's state. -/
def State.map : State → TradingStatus
  | .undefinedInternal => .undefined
  | .unknownInternal => .undefined
  | .open_ => .open_
  | .closed => .close
  | .settled => .undefined
  | .unlisted => .undefined
  | .expired => .undefined
  | .cleared => .undefined
  | .delisted => .undefined

/-- `map` of a time in force. -/
def TimeInForce.map : TimeInForce → RoqBitmex.TimeInForce
  | .undefinedInternal => .undefined
  | .unknownInternal => .undefined
  | .atTheClose => .atTheClose
  | .day => .gfd
  | .fillOrKill => .fok
  | .goodTillCancel => .gtc
  | .immediateOrCancel => .ioc

end Json

/-! ## Instants -/

/-- The conversion of an instant of the wire to `std::chrono::nanoseconds`: milliseconds become a
signed count of nanoseconds in 64 bits, which wraps from the year 2262 on. -/
def nanoseconds (time : Int) : Int := (time * 1000000).bmod (2 ^ 64)

/-- An instant from the epoch on that 64 bits of nanoseconds hold. -/
def Representable (time : Int) : Prop := 0 ≤ time ∧ time * 1000000 < 2 ^ 63

instance (time : Int) : Decidable (Representable time) := inferInstanceAs (Decidable (_ ∧ _))

/-- An instant that is held is converted exactly. -/
theorem nanoseconds_of_representable {time : Int} (h : Representable time) :
    nanoseconds time = time * 1000000 := by
  obtain ⟨hnonneg, hlt⟩ := h
  exact Int.bmod_eq_of_le_mul_two (by push_cast; omega) (by push_cast; omega)

/-- Whatever the instant, the count is one of 64 bits. -/
theorem nanoseconds_lt (time : Int) : nanoseconds time < 2 ^ 63 := by
  have hlt := Int.bmod_lt (x := time * 1000000) (m := 2 ^ 64) (by omega)
  unfold nanoseconds
  omega

end RoqBitmex
