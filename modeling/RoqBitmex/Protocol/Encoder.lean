import RoqBitmex.Library.JsonText
import RoqBitmex.Protocol.Map
import Mathlib.Data.Finset.Insert

/-! # Order requests as the encoder writes them

The bodies of the order requests are templates that are filled with texts. The number printer is not
part of the repository: what is assumed of it is `Prints`. It prints NaN as the token `nan`, which
no JSON value is, and `carriesNumbers_iff` says what that costs. -/

namespace RoqBitmex

/-! ## Requests -/

/-- An instruction of how an order is executed: the two the gateway knows, and the others by
number. -/
inductive ExecutionInstruction where
  | participateDoNotInitiate
  | doNotIncrease
  | other (code : ℕ)
  deriving DecidableEq, Repr

/-- A request to create an order. -/
structure CreateOrder where
  symbol : String
  side : Side
  orderType : OrderType
  timeInForce : TimeInForce
  executionInstructions : Finset ExecutionInstruction
  quantity : Double
  price : Double
  stopPrice : Double
  deriving DecidableEq

/-- A request to modify an order. -/
structure ModifyOrder where
  quantity : Double
  price : Double
  deriving DecidableEq

/-! ## The wire's enumerations -/

/-- `map` of an order type to the wire's. -/
def OrderType.map : OrderType → Json.OrdType
  | .undefined => .undefinedInternal
  | .market => .market
  | .limit => .limit

/-- `map` of a side to the wire's. -/
def Side.map : Side → Json.Side
  | .undefined => .undefinedInternal
  | .buy => .buy
  | .sell => .sell

/-- `map` of a time in force to the wire's. -/
def TimeInForce.map : TimeInForce → Json.TimeInForce
  | .undefined => .undefinedInternal
  | .gfd => .day
  | .gtc => .goodTillCancel
  | .opg => .undefinedInternal
  | .ioc => .immediateOrCancel
  | .fok => .fillOrKill
  | .gtd => .undefinedInternal
  | .gtx => .undefinedInternal
  | .atTheClose => .atTheClose
  | .goodThroughCrossing => .undefinedInternal
  | .atCrossing => .undefinedInternal
  | .goodForTime => .undefinedInternal
  | .gfa => .undefinedInternal
  | .gfm => .undefinedInternal

namespace Json

/-- The instruction of how an order is executed. -/
inductive ExecInst where
  | undefinedInternal
  | unknownInternal
  | participateDoNotInitiate
  | markPrice
  | lastPrice
  | indexPrice
  | reduceOnly
  | close
  deriving DecidableEq, Repr

/-- `map` of a set of instructions: one of them is sent. -/
def ExecInst.ofMask (executionInstructions : Finset ExecutionInstruction) : ExecInst :=
  if .participateDoNotInitiate ∈ executionInstructions then .participateDoNotInitiate
  else if .doNotIncrease ∈ executionInstructions then .reduceOnly
  else .undefinedInternal

/-- `as_raw_text` of a side. The enumerators that stand for an absent or an unrecognised text have
none to give. -/
def Side.asRawText : Side → String
  | .undefinedInternal => ""
  | .unknownInternal => ""
  | .buy => "Buy"
  | .sell => "Sell"

/-- `as_raw_text` of an order type. -/
def OrdType.asRawText : OrdType → String
  | .undefinedInternal => ""
  | .unknownInternal => ""
  | .limit => "Limit"
  | .market => "Market"
  | .stop => "Stop"
  | .stopLimit => "StopLimit"
  | .marketIfTouched => "MarketIfTouched"
  | .limitIfTouched => "LimitIfTouched"

/-- `as_raw_text` of a time in force. -/
def TimeInForce.asRawText : TimeInForce → String
  | .undefinedInternal => ""
  | .unknownInternal => ""
  | .atTheClose => "AtTheClose"
  | .day => "Day"
  | .fillOrKill => "FillOrKill"
  | .goodTillCancel => "GoodTillCancel"
  | .immediateOrCancel => "ImmediateOrCancel"

/-- `as_raw_text` of an instruction. -/
def ExecInst.asRawText : ExecInst → String
  | .undefinedInternal => ""
  | .unknownInternal => ""
  | .participateDoNotInitiate => "ParticipateDoNotInitiate"
  | .markPrice => "MarkPrice"
  | .lastPrice => "LastPrice"
  | .indexPrice => "IndexPrice"
  | .reduceOnly => "ReduceOnly"
  | .close => "Close"

namespace Encoder

variable (fmt : Double → String)

/-! ## The encoder -/

/-- `Encoder::place_order`. -/
def placeOrder (createOrder : CreateOrder) (requestId : String) : String :=
  let side := createOrder.side.map
  let ordType := createOrder.orderType.map
  let timeInForce := createOrder.timeInForce.map
  let execInst :=
    if createOrder.executionInstructions = ∅ then ""
    else (ExecInst.ofMask createOrder.executionInstructions).asRawText
  "\x7b\"clOrdID\":\"" ++ requestId ++
    "\",\"symbol\":\"" ++ createOrder.symbol ++
    "\",\"side\":\"" ++ side.asRawText ++
    "\",\"price\":" ++ fmt createOrder.price ++
    ",\"orderQty\":" ++ fmt createOrder.quantity ++
    ",\"ordType\":\"" ++ ordType.asRawText ++
    "\",\"timeInForce\":\"" ++ timeInForce.asRawText ++
    "\",\"execInst\":\"" ++ execInst ++
    "\"\x7d"

/-- `Encoder::modify_order`. -/
def modifyOrder (modifyOrder : ModifyOrder) (requestId previousRequestId : String) : String :=
  "\x7b\"clOrdID\":\"" ++ requestId ++
    "\",\"origClOrdID\":\"" ++ previousRequestId ++
    "\",\"orderQty\":" ++ fmt modifyOrder.quantity ++
    ",\"price\":" ++ fmt modifyOrder.price ++
    "\x7d"

/-- `Encoder::cancel_order`, given the `external_order_id` of the order. The identifiers of the
request are not used. -/
def cancelOrder (externalOrderId _requestId _previousRequestId : String) : String :=
  "\x7b\"orderID\":\"" ++ externalOrderId ++ "\"\x7d"

/-! ## What a body carries -/

/-- The printer prints a number as a JSON number that reads back to it, and NaN as `nan`. -/
def Prints (read : String → ℚ) : Double → Prop
  | .nan => fmt .nan = "nan"
  | .num q => JsonText.isNumber (fmt (.num q)).toList = true ∧ read (fmt (.num q)) = q

/-- A text has none of the characters that are special in a JSON string. -/
def Plain (text : String) : Prop := text.toList.all JsonText.isPlain = true

instance (text : String) : Decidable (Plain text) := inferInstanceAs (Decidable (_ = _))

/-- A request with numbers to write. -/
inductive Request where
  | place (createOrder : CreateOrder) (requestId : String)
  | modify (modifyOrder : ModifyOrder) (requestId previousRequestId : String)

namespace Request

/-- The body of a request. -/
def body : Request → String
  | place createOrder requestId => placeOrder fmt createOrder requestId
  | modify modifyOrder requestId previousRequestId =>
      Encoder.modifyOrder fmt modifyOrder requestId previousRequestId

/-- The price of a request. -/
def price : Request → Double
  | place createOrder _ => createOrder.price
  | modify modifyOrder _ _ => modifyOrder.price

/-- The quantity of a request. -/
def quantity : Request → Double
  | place createOrder _ => createOrder.quantity
  | modify modifyOrder _ _ => modifyOrder.quantity

/-- The identifiers a request is written with, by the names of their members. -/
def ids : Request → List (String × String)
  | place _ requestId => [("clOrdID", requestId)]
  | modify _ requestId previousRequestId =>
      [("clOrdID", requestId), ("origClOrdID", previousRequestId)]

/-- The texts of a request that are written as they are. -/
def texts : Request → List String
  | place createOrder requestId => [requestId, createOrder.symbol]
  | modify _ requestId previousRequestId => [requestId, previousRequestId]

end Request

/-- A member is the number if there is one, and absent or null if there is none. -/
def CarriesNumber (read : String → ℚ) (member : Option JsonText.Value) : Double → Prop
  | .nan => member = none ∨ member = some .null
  | .num q => ∃ text, member = some (.number text) ∧ read text = q

/-- The body of a request is a JSON object that carries the request's identifiers and numbers. -/
def CarriesNumbers (read : String → ℚ) (request : Request) : Prop :=
  ∃ members : List (String × JsonText.Value),
    JsonText.parse (request.body fmt) = some (.object members) ∧
      (∀ id ∈ request.ids, members.lookup id.1 = some (.string id.2)) ∧
      CarriesNumber read (members.lookup "price") request.price ∧
      CarriesNumber read (members.lookup "orderQty") request.quantity

open JsonText (Member)

variable {fmt}

/-- What a printed double reads as. -/
def numberValue (fmt : Double → String) : Double → Option JsonText.Value
  | .nan => none
  | .num q => some (.number (fmt (.num q)))

/-- A printed double denotes its value. -/
theorem denotes_printed {read : String → ℚ} {x : Double} (h : Prints fmt read x) :
    JsonText.Denotes (fmt x).toList (numberValue fmt x) := by
  cases x with
  | nan =>
      have hnan : (fmt .nan).toList = ['n', 'a', 'n'] := by
        rw [h]
        rfl
      rw [hnan]
      exact JsonText.denotes_nan
  | num q =>
      have hnumber := JsonText.denotes_number h.1
      rwa [String.ofList_toList] at hnumber

/-- A member whose value is a quoted text. -/
def textMember (name text : String) : Member :=
  ⟨name.toList, '"' :: (text.toList ++ ['"']), some (.string text)⟩

/-- A member whose value is a printed double. -/
def numberMember (fmt : Double → String) (name : String) (x : Double) : Member :=
  ⟨name.toList, (fmt x).toList, numberValue fmt x⟩

/-- A member with a plain text reads as that text. -/
theorem reads_textMember {name text : String} (hname : Plain name) (htext : Plain text) :
    (textMember name text).Reads := by
  have htext' := JsonText.denotes_string htext
  rw [String.ofList_toList] at htext'
  exact ⟨hname, htext'⟩

/-- A member with a printed double reads as its value. -/
theorem reads_numberMember {read : String → ℚ} {name : String} {x : Double} (hname : Plain name)
    (hx : Prints fmt read x) : (numberMember fmt name x).Reads :=
  ⟨hname, denotes_printed hx⟩

/-- The members of a body. -/
def Request.members (fmt : Double → String) : Request → List Member
  | .place createOrder requestId =>
      [textMember "clOrdID" requestId,
        textMember "symbol" createOrder.symbol,
        textMember "side" createOrder.side.map.asRawText,
        numberMember fmt "price" createOrder.price,
        numberMember fmt "orderQty" createOrder.quantity,
        textMember "ordType" createOrder.orderType.map.asRawText,
        textMember "timeInForce" createOrder.timeInForce.map.asRawText,
        textMember "execInst" (ExecInst.ofMask createOrder.executionInstructions).asRawText]
  | .modify modifyOrder requestId previousRequestId =>
      [textMember "clOrdID" requestId,
        textMember "origClOrdID" previousRequestId,
        numberMember fmt "orderQty" modifyOrder.quantity,
        numberMember fmt "price" modifyOrder.price]

/-- No instruction is the absent one. -/
theorem execInst_eq (executionInstructions : Finset ExecutionInstruction) :
    (if executionInstructions = ∅ then "" else (ExecInst.ofMask executionInstructions).asRawText) =
      (ExecInst.ofMask executionInstructions).asRawText := by
  split
  · rename_i hempty
    rw [hempty]
    rfl
  · rfl

/-- A body is its members, written without whitespace. -/
theorem toList_body (request : Request) :
    (request.body fmt).toList = '{' :: JsonText.written (request.members fmt) := by
  cases request with
  | place createOrder requestId =>
      have hexec := execInst_eq createOrder.executionInstructions
      unfold Request.body placeOrder Request.members
      simp [hexec, JsonText.written, Member.written, textMember, numberMember]
  | modify modifyOrder requestId previousRequestId =>
      unfold Request.body Encoder.modifyOrder Request.members
      simp [JsonText.written, Member.written, textMember, numberMember]

/-- The text of a side needs no escape. -/
theorem plain_side (side : Side) : Plain side.asRawText := by
  cases side <;> decide

/-- The text of an order type needs no escape. -/
theorem plain_ordType (ordType : OrdType) : Plain ordType.asRawText := by
  cases ordType <;> decide

/-- The text of a time in force needs no escape. -/
theorem plain_timeInForce (timeInForce : TimeInForce) : Plain timeInForce.asRawText := by
  cases timeInForce <;> decide

/-- The text of an instruction needs no escape. -/
theorem plain_execInst (execInst : ExecInst) : Plain execInst.asRawText := by
  cases execInst <;> decide

/-- Every member of a body reads as its outcome. -/
theorem reads_members {read : String → ℚ} {request : Request}
    (hplain : ∀ text ∈ request.texts, Plain text) (hprice : Prints fmt read request.price)
    (hquantity : Prints fmt read request.quantity) : ∀ m ∈ request.members fmt, m.Reads := by
  cases request with
  | place createOrder requestId =>
      have hid : Plain requestId := hplain _ (by simp [Request.texts])
      have hsymbol : Plain createOrder.symbol := hplain _ (by simp [Request.texts])
      simp only [Request.members, List.forall_mem_cons]
      refine ⟨reads_textMember (by decide) hid, reads_textMember (by decide) hsymbol,
        reads_textMember (by decide) (plain_side _), reads_numberMember (by decide) hprice,
        reads_numberMember (by decide) hquantity, reads_textMember (by decide) (plain_ordType _),
        reads_textMember (by decide) (plain_timeInForce _),
        reads_textMember (by decide) (plain_execInst _), by simp⟩
  | modify modifyOrder requestId previousRequestId =>
      have hid : Plain requestId := hplain _ (by simp [Request.texts])
      have hprevious : Plain previousRequestId := hplain _ (by simp [Request.texts])
      simp only [Request.members, List.forall_mem_cons]
      refine ⟨reads_textMember (by decide) hid, reads_textMember (by decide) hprevious,
        reads_numberMember (by decide) hquantity, reads_numberMember (by decide) hprice, by simp⟩

/-- The body of a request is the object of its members' values. -/
theorem parse_body {read : String → ℚ} {request : Request}
    (hplain : ∀ text ∈ request.texts, Plain text) (hprice : Prints fmt read request.price)
    (hquantity : Prints fmt read request.quantity) :
    JsonText.parse (request.body fmt) = (JsonText.values (request.members fmt)).map .object := by
  apply JsonText.parse_written (reads_members hplain hprice hquantity) _ (toList_body request)
  cases request <;> simp [Request.members]

/-- The members of a request have values if its numbers are present. -/
theorem values_members (fmt : Double → String) (request : Request) {p q : ℚ}
    (hprice : request.price = .num p) (hquantity : request.quantity = .num q) :
    ∃ members, JsonText.values (request.members fmt) = some members ∧
      (∀ id ∈ request.ids, members.lookup id.1 = some (.string id.2)) ∧
      members.lookup "price" = some (.number (fmt (.num p))) ∧
      members.lookup "orderQty" = some (.number (fmt (.num q))) := by
  cases request with
  | place createOrder requestId =>
      simp only [Request.price, Request.quantity] at hprice hquantity
      refine ⟨_, by simp [JsonText.values, Request.members, JsonText.Member.value?, textMember,
        numberMember, numberValue, hprice, hquantity]; rfl, ?_⟩
      simp [Request.ids, List.lookup_cons]
  | modify modifyOrder requestId previousRequestId =>
      simp only [Request.price, Request.quantity] at hprice hquantity
      refine ⟨_, by simp [JsonText.values, Request.members, JsonText.Member.value?, textMember,
        numberMember, numberValue, hprice, hquantity]; rfl, ?_⟩
      simp [Request.ids, List.lookup_cons]

/-- A request that lacks a number has a member without a value. -/
theorem values_eq_none_of_nan (request : Request)
    (h : request.price = .nan ∨ request.quantity = .nan) :
    JsonText.values (request.members fmt) = none := by
  rcases h with h | h
  · apply JsonText.values_eq_none (m := numberMember fmt "price" request.price)
    · cases request <;> simp [Request.members, Request.price]
    · rw [h]; rfl
  · apply JsonText.values_eq_none (m := numberMember fmt "orderQty" request.quantity)
    · cases request <;> simp [Request.members, Request.quantity]
    · rw [h]; rfl

/-- A request that lacks a number has no JSON body. -/
theorem not_carriesNumbers_of_nan {read : String → ℚ} {request : Request}
    (hplain : ∀ text ∈ request.texts, Plain text) (hprice : Prints fmt read request.price)
    (hquantity : Prints fmt read request.quantity)
    (h : request.price = .nan ∨ request.quantity = .nan) : ¬CarriesNumbers fmt read request := by
  rintro ⟨members, hmembers, -⟩
  rw [parse_body hplain hprice hquantity, values_eq_none_of_nan request h] at hmembers
  cases hmembers

/-- A request is carried exactly when it has both a price and a quantity: a number that is absent
is printed as `nan`, and the body is no JSON. -/
theorem carriesNumbers_iff (read : String → ℚ) (request : Request)
    (hplain : ∀ text ∈ request.texts, Plain text) (hprice : Prints fmt read request.price)
    (hquantity : Prints fmt read request.quantity) :
    CarriesNumbers fmt read request ↔
      request.price.isNaN = false ∧ request.quantity.isNaN = false := by
  constructor
  · intro hcarries
    constructor
    · apply Double.isNaN_eq_false_of_ne
      intro hnan
      exact not_carriesNumbers_of_nan hplain hprice hquantity (.inl hnan) hcarries
    · apply Double.isNaN_eq_false_of_ne
      intro hnan
      exact not_carriesNumbers_of_nan hplain hprice hquantity (.inr hnan) hcarries
  · rintro ⟨hp, hq⟩
    obtain ⟨p, hp⟩ := Double.exists_of_isNaN_eq_false hp
    obtain ⟨q, hq⟩ := Double.exists_of_isNaN_eq_false hq
    obtain ⟨members, hvalues, hids, hpmember, hqmember⟩ := values_members fmt request hp hq
    refine ⟨members, ?_, hids, ?_, ?_⟩
    · rw [parse_body hplain hprice hquantity, hvalues]
      rfl
    · rw [hp] at hprice ⊢
      exact ⟨_, hpmember, hprice.2⟩
    · rw [hq] at hquantity ⊢
      exact ⟨_, hqmember, hquantity.2⟩

/-- A printer of whole numbers. -/
def printWhole : Double → String
  | .nan => "nan"
  | .num q => toString q.num

/-- The whole number that some digits are. -/
def readWhole (text : String) : ℚ :=
  (text.toList.foldl (fun n c => 10 * n + (c.toNat - '0'.toNat)) 0 : ℕ)

/-- A limit order has both numbers. -/
theorem carriesNumbers_iff_limit :
    CarriesNumbers printWhole readWhole
        (.place ⟨"XBTUSD", .buy, .limit, .gtc, ∅, .num 100, .num 50000, .nan⟩ "A1") ↔
      (Double.num 50000).isNaN = false ∧ (Double.num 100).isNaN = false :=
  carriesNumbers_iff readWhole (.place ⟨"XBTUSD", .buy, .limit, .gtc, ∅, .num 100, .num 50000, .nan⟩
    "A1") (by decide) ⟨by decide, by decide⟩ ⟨by decide, by decide⟩

/-- A market order has no price, and its body is no JSON. -/
theorem marketOrder_not_carried :
    Prints printWhole readWhole (.num 100) ∧ Prints printWhole readWhole .nan ∧
      Plain "XBTUSD" ∧ Plain "A1" ∧
      ¬CarriesNumbers printWhole readWhole
        (.place ⟨"XBTUSD", .buy, .market, .gtc, ∅, .num 100, .nan, .nan⟩ "A1") := by
  have hquantity : Prints printWhole readWhole (.num 100) := ⟨by decide, by decide⟩
  have hprice : Prints printWhole readWhole .nan := rfl
  refine ⟨hquantity, hprice, by decide, by decide, ?_⟩
  exact not_carriesNumbers_of_nan (by decide) hprice hquantity (.inl rfl)

end Encoder

end Json

end RoqBitmex
