import RoqBitmex.Protocol.Map

/-! # The exchange's error texts

`guess_error` looks an error text up in a table, and `ErrorParser` finds the text in the body of a
refused request. The JSON library is not part of the repository, so the functions that parse a body
are parameters. -/

namespace RoqBitmex

namespace Json

/-! ## Guessing an error -/

/-- The `compare` of `utils.cpp`: the second text is cut to the length of the first, and the two are
compared ignoring case. -/
def compareEq (lhs rhs : String) : Bool :=
  lhs.toLower = (String.ofList (rhs.toList.take (min lhs.length rhs.length))).toLower

/-- The texts `guess_error` knows, in the order it tries them. -/
def errorTexts : List (String × RoqBitmex.Error) :=
  [("Account is suspended", .invalidAccount),
    ("Accounts do not match", .invalidAccount),
    ("Duplicate clOrdID", .invalidOrderId),
    ("Duplicate orderID", .invalidOrderId),
    ("Instrument expired", .invalidSymbol),
    ("Instrument not listed for trading yet", .invalidSymbol),
    ("Instruments do not match", .invalidSymbol),
    ("Invalid account", .invalidAccount),
    ("Invalid avgPx", .invalidPrice),
    ("Invalid cumQty", .invalidQuantity),
    ("Invalid displayQty for execInst", .invalidExecutionInstruction),
    ("Invalid displayQty", .invalidQuantity),
    ("Invalid execIns", .invalidExecutionInstruction),
    ("Invalid leavesQty", .invalidQuantity),
    ("Invalid ordStatus (trying to amend a canceled or filled order)", .tooLateToModifyOrCancel),
    ("Invalid ordType for execInst", .invalidExecutionInstruction),
    ("Invalid ordType or timeInForce for execInst", .invalidExecutionInstruction),
    ("Invalid orderID", .invalidOrderId),
    ("Invalid orderQty or simpleOrderQty", .invalidQuantity),
    ("Invalid orderQty", .invalidQuantity),
    ("Invalid origClOrdID", .tooLateToModifyOrCancel),
    ("Invalid price tickSize", .invalidPrice),
    ("Invalid price", .invalidPrice),
    ("Invalid side", .invalidSide),
    ("Invalid simpleCumQty", .invalidQuantity),
    ("Invalid simpleLeavesQty", .invalidQuantity),
    ("Invalid simpleOrderQty", .invalidQuantity),
    ("Invalid stopPx for ordType", .invalidStopPrice),
    ("Invalid stopPx tickSize", .invalidStopPrice),
    ("Invalid symbol", .invalidSymbol),
    ("Unsupported execInst", .invalidExecutionInstruction),
    ("Unsupported ordType", .invalidOrderType),
    ("Unsupported timeInForce", .invalidTimeInForce),
    ("Account has insufficient Available Balance", .insufficientFunds),
    ("Account has no", .insufficientFunds),
    ("Account is in margin call", .insufficientFunds),
    ("Order price is above the liquidation price of current short position", .invalidPrice),
    ("Order price is below the liquidation price of current long position", .invalidPrice),
    ("Price greater than limitUpPrice", .invalidPrice),
    ("Price less than limitDownPrice", .invalidPrice),
    ("Invalid leavesQty for lotSize", .invalidQuantity),
    ("orderID or origClOrdID must be sent.", .invalidOrderId),
    ("Rate-limit has been reached", .requestRateLimitReached),
    ("Rate limit exceeded, retry in ", .requestRateLimitReached)]

/-- `guess_error`: no text is no error, and a text outside the table is an unknown one. -/
def guessError (message : String) : RoqBitmex.Error :=
  if message = "" then .undefined
  else ((errorTexts.find? fun entry => compareEq message entry.1).map Prod.snd).getD .unknown

/-! ## Bodies -/

/-- A JSON value. -/
inductive Value where
  | null
  | bool (value : Bool)
  | int (value : Int)
  | double (value : Double)
  | string (value : String)
  | array (values : List Value)
  | object (members : List (String × Value))

/-- The `error` member of a refused request's answer. -/
structure ErrorResponse where
  message : String
  deriving DecidableEq, Repr

/-- The parsers that the JSON library and the generated code provide. A failure is the text of the
`std::exception` they throw. -/
structure Parsers where
  /-- `core::json::Parser` and its `root`. -/
  root : String → Except String Value
  /-- What `std::get` throws for a value that is not an object. -/
  badVariantAccess : String
  /-- The generated `ErrorResponse` parser. -/
  errorResponse : Value → Except String ErrorResponse
  /-- The generated `OrderDataItem` parser. -/
  orderDataItem : String → Except String OrderDataItem
  /-- The generated parser of an array of order items (`CancelOrderAck`, `CancelAllOrdersAck`). -/
  orderDataItems : String → Except String (List OrderDataItem)

/-- `ErrorParser::dispatch`: the value its callback is given, or nothing when it returns `false`.
Only the first member of the object is looked at. -/
def ErrorParser.dispatch (parsers : Parsers) (message : String) :
    Except String (Option ErrorResponse) := do
  match ← parsers.root message with
  | .object ((key, value) :: _) =>
      if key = "error" then return some (← parsers.errorResponse value) else return none
  | .object [] => return none
  | _ => throw parsers.badVariantAccess

end Json

end RoqBitmex
