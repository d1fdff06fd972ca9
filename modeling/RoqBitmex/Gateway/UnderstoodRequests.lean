import RoqBitmex.Gateway.CreateOrder
import RoqBitmex.Gateway.SignedRequests

/-! # What the exchange makes of the calls

A call is understood by its method, its path and its body, which is read as JSON.
`understood_of_run` says what each call of a run is understood as, and when that is what the user
asked for: a price or a quantity that is absent is printed as the token `nan` and the body is no
JSON, and stop prices, several times in force, further execution instructions and the restrictions
of a request to cancel all orders are not written at all. -/

namespace RoqBitmex

universe u

open Json.Encoder (Plain Prints numberMember numberValue textMember reads_textMember)
open JsonText (Value)

/-! ## What is asked for -/

/-- The orders a request to cancel all orders is about: those with an identifier, for a symbol, on a
side and of a strategy, as far as it names them. -/
structure OrderFilter where
  orderId : UInt64 := 0
  symbol : String := ""
  side : Side := .undefined
  strategyId : UInt32 := 0
  deriving DecidableEq, Repr

/-- The orders a request is about. Its exchange only says where it goes. -/
def CancelAllOrders.filter (cancelAllOrders : CancelAllOrders) : OrderFilter :=
  ⟨cancelAllOrders.orderId, cancelAllOrders.symbol, cancelAllOrders.side,
    cancelAllOrders.strategyId⟩

/-- What the exchange can be asked for, in the words of the users' requests. -/
inductive Instruction where
  | place (requestId : String) (order : CreateOrder)
  | amend (requestId previousRequestId : String) (order : ModifyOrder)
  | cancel (externalOrderId : String)
  | cancelAll (orders : OrderFilter)
  deriving DecidableEq

/-- What is asked of an order is all written: it has a price, a quantity and no stop price, a time
in force with a counterpart, and no more than one instruction, which is known. -/
structure CreateOrder.Told (createOrder : CreateOrder) : Prop where
  price : createOrder.price ≠ .nan
  quantity : createOrder.quantity ≠ .nan
  stopPrice : createOrder.stopPrice = .nan
  timeInForce : createOrder.timeInForce = .undefined ∨
    createOrder.timeInForce ∈ TimeInForce.supported
  executionInstructions : createOrder.executionInstructions ∈
    [∅, {.participateDoNotInitiate}, {.doNotIncrease}]

namespace OrderRequest

/-- What a request asks for. -/
def instruction : OrderRequest → Instruction
  | createOrder _ _ _ value requestId => .place requestId value
  | modifyOrder _ _ _ _ value _ requestId previousRequestId =>
      .amend requestId previousRequestId value
  | cancelOrder _ _ _ _ order _ _ => .cancel order.externalOrderId
  | cancelAllOrders _ value _ => .cancelAll value.filter

/-- What is left of a request on the wire, if its body can be read and names an order. -/
def onWire? : OrderRequest → Option Instruction
  | createOrder _ _ _ value requestId =>
      if value.price = .nan ∨ value.quantity = .nan then none
      else some (.place requestId value.onWire)
  | modifyOrder _ _ _ _ value _ requestId previousRequestId =>
      if value.price = .nan ∨ value.quantity = .nan ∨ previousRequestId = "" then none
      else some (.amend requestId previousRequestId value)
  | cancelOrder _ _ _ _ order _ _ =>
      if order.externalOrderId = "" then none else some (.cancel order.externalOrderId)
  | cancelAllOrders _ _ _ => some (.cancelAll {})

/-- All that a request asks for is written. An order that is modified is named by the request
before, one that is cancelled by the identifier the exchange gave it, and all orders are cancelled
without restriction. -/
def Told : OrderRequest → Prop
  | createOrder _ _ _ value _ => value.Told
  | modifyOrder _ _ _ _ value _ _ previousRequestId =>
      value.price ≠ .nan ∧ value.quantity ≠ .nan ∧ previousRequestId ≠ ""
  | cancelOrder _ _ _ _ order _ _ => order.externalOrderId ≠ ""
  | cancelAllOrders _ value _ => value.filter = {}

/-- An order is left as it is on the wire exactly when it has no stop price, a time in force with a
counterpart and at most one instruction, which is known. -/
theorem onWire_eq_self_iff (value : CreateOrder) :
    value.onWire = value ↔
      (value.timeInForce = .undefined ∨ value.timeInForce ∈ TimeInForce.supported) ∧
        value.executionInstructions ∈ [∅, {.participateDoNotInitiate}, {.doNotIncrease}] ∧
        value.stopPrice = .nan := by
  rw [← TimeInForce.onWire_eq_self_iff, ← ExecutionInstruction.onWire_eq_self_iff]
  obtain ⟨symbol, side, orderType, timeInForce, executionInstructions, quantity, price,
    stopPrice⟩ := value
  simp [CreateOrder.onWire, eq_comm]

/-- **What is left is what was asked for** exactly when all of it is written. -/
theorem onWire?_eq_iff (r : OrderRequest) : r.onWire? = some r.instruction ↔ r.Told := by
  cases r with
  | createOrder source account orderId value requestId =>
      have hwire := onWire_eq_self_iff value
      simp only [onWire?, instruction, Told]
      constructor
      · intro h
        split at h
        · cases h
        · rename_i hnumbers
          rw [not_or] at hnumbers
          simp only [Option.some.injEq, Instruction.place.injEq, true_and] at h
          obtain ⟨htime, hinstructions, hstop⟩ := hwire.mp h
          exact ⟨hnumbers.1, hnumbers.2, hstop, htime, hinstructions⟩
      · rintro ⟨hprice, hquantity, hstop, htime, hinstructions⟩
        rw [if_neg (by simp [hprice, hquantity]), hwire.mpr ⟨htime, hinstructions, hstop⟩]
  | modifyOrder source account orderId version value order requestId previousRequestId =>
      simp only [onWire?, instruction, Told]
      split
      · rename_i hmissing
        refine iff_of_false (by simp) ?_
        rintro ⟨hprice, hquantity, hprevious⟩
        simp [hprice, hquantity, hprevious] at hmissing
      · rename_i hnumbers
        refine iff_of_true rfl ?_
        rwa [not_or, not_or] at hnumbers
  | cancelOrder source account orderId version order requestId previousRequestId =>
      simp only [onWire?, instruction, Told]
      split <;> simp_all
  | cancelAllOrders account value requestId =>
      simp only [onWire?, instruction, Told, Option.some.injEq, Instruction.cancelAll.injEq]
      exact eq_comm

/-- A request can be written: its texts need no escape, and its numbers are printed as the exchange
reads them. -/
def Writable (fmt : Double → String) (number : String → ℚ) : OrderRequest → Prop
  | createOrder _ _ _ value requestId =>
      (∀ text ∈ [requestId, value.symbol], Plain text) ∧
        Prints fmt number value.price ∧ Prints fmt number value.quantity
  | modifyOrder _ _ _ _ value _ requestId previousRequestId =>
      (∀ text ∈ [requestId, previousRequestId], Plain text) ∧
        Prints fmt number value.price ∧ Prints fmt number value.quantity
  | cancelOrder _ _ _ _ order _ _ => Plain order.externalOrderId
  | cancelAllOrders _ _ _ => True

end OrderRequest

namespace Instruction

/-! ## Reading a call -/

/-- A member that is a text. -/
def text? (members : List (String × Value)) (name : String) : Option String :=
  match members.lookup name with
  | some (.string text) => some text
  | _ => none

/-- A member that names an order. -/
def id? (members : List (String × Value)) (name : String) : Option String :=
  (text? members name).filter (· ≠ "")

/-- A member that is a number, which may be absent, given how the exchange reads one. -/
def number? (number : String → ℚ) (members : List (String × Value)) (name : String) :
    Option Double :=
  match members.lookup name with
  | none => some .nan
  | some (.number text) => some (.num (number text))
  | some _ => none

/-- The members of a body, for a method. -/
def ofMembers (number : String → ℚ) (members : List (String × Value)) :
    Method → Option Instruction
  | .post => do
      let clOrdId ← text? members "clOrdID"
      let symbol ← text? members "symbol"
      let side ← text? members "side"
      let ordType ← text? members "ordType"
      let timeInForce ← text? members "timeInForce"
      let execInst ← text? members "execInst"
      let quantity ← number? number members "orderQty"
      let price ← number? number members "price"
      let stopPrice ← number? number members "stopPx"
      return .place clOrdId
        { symbol := symbol
          side := (Json.Side.ofText side).map
          orderType := (Json.OrdType.ofText ordType).map
          timeInForce := (Json.TimeInForce.ofText timeInForce).map
          executionInstructions := (Json.ExecInst.ofText execInst).toMask
          quantity := quantity
          price := price
          stopPrice := stopPrice }
  | .put => do
      let clOrdId ← text? members "clOrdID"
      let origClOrdId ← id? members "origClOrdID"
      let quantity ← number? number members "orderQty"
      let price ← number? number members "price"
      return .amend clOrdId origClOrdId ⟨quantity, price⟩
  | .delete => (id? members "orderID").map .cancel
  | .get => none

/-- The instruction a call is. -/
def read (number : String → ℚ) (request : RestRequest) : Option Instruction :=
  if request.path = API.create.order then
    match JsonText.parse request.body with
    | some (.object members) => ofMembers number members request.method
    | _ => none
  else if request.path = API.create.orderAll ∧ request.method = .delete ∧ request.body = "" then
    some (.cancelAll {})
  else none

variable {fmt : Double → String} {number : String → ℚ} {request : RestRequest}

/-! ## Bodies -/

/-- **An order that is written.** It is read as its members come to, if these have values. -/
theorem read_order {order : Json.Encoder.Request} (hplain : ∀ text ∈ order.texts, Plain text)
    (hprice : Prints fmt number order.price) (hquantity : Prints fmt number order.quantity)
    (hpath : request.path = API.create.order) (hbody : request.body = order.body fmt) :
    read number request =
      (JsonText.values (order.members fmt)).bind fun members =>
        ofMembers number members request.method := by
  rw [read, if_pos hpath, hbody, Json.Encoder.parse_body hplain hprice hquantity]
  cases JsonText.values (order.members fmt) <;> rfl

/-- A new order that has its numbers is read as what is left of it on the wire. -/
theorem ofMembers_place (value : CreateOrder) (requestId : String) {p q : ℚ}
    (hp : value.price = .num p) (hq : value.quantity = .num q)
    (hprice : number (fmt (.num p)) = p) (hquantity : number (fmt (.num q)) = q) :
    ((JsonText.values (Json.Encoder.Request.members fmt (.place value requestId))).bind
        fun members => ofMembers number members .post) =
      some (.place requestId value.onWire) := by
  have hvalues : JsonText.values (Json.Encoder.Request.members fmt (.place value requestId)) =
      some [("clOrdID", .string requestId), ("symbol", .string value.symbol),
        ("side", .string value.side.map.asRawText), ("price", .number (fmt (.num p))),
        ("orderQty", .number (fmt (.num q))), ("ordType", .string value.orderType.map.asRawText),
        ("timeInForce", .string value.timeInForce.map.asRawText),
        ("execInst",
          .string (Json.ExecInst.ofMask value.executionInstructions).asRawText)] := by
    simp [JsonText.values, Json.Encoder.Request.members, JsonText.Member.value?, textMember,
      numberMember, numberValue, hp, hq]
  have hexec := execInst_ofText _ (ofMask_ne_unknown value.executionInstructions)
  rw [hvalues]
  show some (Instruction.place requestId
    ⟨value.symbol, (Json.Side.ofText value.side.map.asRawText).map,
      (Json.OrdType.ofText value.orderType.map.asRawText).map,
      (Json.TimeInForce.ofText value.timeInForce.map.asRawText).map,
      (Json.ExecInst.ofText
        (Json.ExecInst.ofMask value.executionInstructions).asRawText).toMask,
      .num (number (fmt (.num q))), .num (number (fmt (.num p))), .nan⟩) = _
  rw [side_ofText, orderType_ofText, timeInForce_ofText, hexec, toMask_ofMask, hprice, hquantity,
    CreateOrder.onWire, hp, hq]

/-- A modified order that has its numbers is read as it is, if it names the request before. -/
theorem ofMembers_amend (value : ModifyOrder) (requestId previousRequestId : String) {p q : ℚ}
    (hp : value.price = .num p) (hq : value.quantity = .num q)
    (hprice : number (fmt (.num p)) = p) (hquantity : number (fmt (.num q)) = q) :
    ((JsonText.values (Json.Encoder.Request.members fmt
        (.modify value requestId previousRequestId))).bind
          fun members => ofMembers number members .put) =
      if previousRequestId = "" then none
      else some (.amend requestId previousRequestId value) := by
  have hvalues : JsonText.values (Json.Encoder.Request.members fmt
      (.modify value requestId previousRequestId)) =
      some [("clOrdID", .string requestId), ("origClOrdID", .string previousRequestId),
        ("orderQty", .number (fmt (.num q))), ("price", .number (fmt (.num p)))] := by
    simp [JsonText.values, Json.Encoder.Request.members, JsonText.Member.value?, textMember,
      numberMember, numberValue, hp, hq]
  have hvalue : value = ⟨.num q, .num p⟩ := by
    rw [← hp, ← hq]
  rw [hvalues]
  show (Option.filter (· ≠ "") (some previousRequestId)).bind (fun origClOrdId =>
    some (Instruction.amend requestId origClOrdId
      ⟨.num (number (fmt (.num q))), .num (number (fmt (.num p)))⟩)) = _
  rw [hprice, hquantity, ← hvalue]
  by_cases hnone : previousRequestId = "" <;> simp [hnone, Option.filter]

/-- The body of a request to cancel an order. -/
theorem parse_cancelOrder {externalOrderId : String} (h : Plain externalOrderId)
    (requestId previousRequestId : String) :
    JsonText.parse (Json.Encoder.cancelOrder externalOrderId requestId previousRequestId) =
      some (.object [("orderID", .string externalOrderId)]) := by
  have hwritten : (Json.Encoder.cancelOrder externalOrderId requestId previousRequestId).toList =
      '{' :: JsonText.written [textMember "orderID" externalOrderId] := by
    simp [Json.Encoder.cancelOrder, JsonText.written, JsonText.Member.written, textMember]
  have hreads : ∀ m ∈ [textMember "orderID" externalOrderId], m.Reads :=
    List.forall_mem_singleton.mpr (reads_textMember (by decide) h)
  rw [JsonText.parse_written hreads (List.cons_ne_nil _ _) hwritten]
  simp [JsonText.values, JsonText.Member.value?, textMember]

/-- A call that places an order is understood as what is left of the order, if it has its numbers. -/
theorem read_place {value : CreateOrder} {requestId : String}
    (hplain : ∀ text ∈ [requestId, value.symbol], Plain text)
    (hprice : Prints fmt number value.price) (hquantity : Prints fmt number value.quantity)
    (hmethod : request.method = .post) (hpath : request.path = API.create.order)
    (hbody : request.body = Json.Encoder.Request.body fmt (.place value requestId)) :
    read number request =
      if value.price = .nan ∨ value.quantity = .nan then none
      else some (.place requestId value.onWire) := by
  have htexts : ∀ text ∈ (Json.Encoder.Request.place value requestId).texts, Plain text := hplain
  rw [read_order htexts hprice hquantity hpath hbody, hmethod]
  by_cases hnan : value.price = .nan ∨ value.quantity = .nan
  · -- a number that is missing spoils the body
    rw [if_pos hnan, Json.Encoder.values_eq_none_of_nan (.place value requestId) hnan]
    rfl
  · rw [if_neg hnan]
    rw [not_or] at hnan
    obtain ⟨p, hp⟩ := Double.exists_of_isNaN_eq_false (Double.isNaN_eq_false_of_ne hnan.1)
    obtain ⟨q, hq⟩ := Double.exists_of_isNaN_eq_false (Double.isNaN_eq_false_of_ne hnan.2)
    rw [hp] at hprice
    rw [hq] at hquantity
    exact ofMembers_place value requestId hp hq hprice.2 hquantity.2

/-- A call that modifies an order is understood as it is, if it has its numbers and names the
request before. -/
theorem read_amend {value : ModifyOrder} {requestId previousRequestId : String}
    (hplain : ∀ text ∈ [requestId, previousRequestId], Plain text)
    (hprice : Prints fmt number value.price) (hquantity : Prints fmt number value.quantity)
    (hmethod : request.method = .put) (hpath : request.path = API.create.order)
    (hbody : request.body =
      Json.Encoder.Request.body fmt (.modify value requestId previousRequestId)) :
    read number request =
      if value.price = .nan ∨ value.quantity = .nan ∨ previousRequestId = "" then none
      else some (.amend requestId previousRequestId value) := by
  have htexts : ∀ text ∈ (Json.Encoder.Request.modify value requestId previousRequestId).texts,
      Plain text := hplain
  rw [read_order htexts hprice hquantity hpath hbody, hmethod]
  by_cases hnan : value.price = .nan ∨ value.quantity = .nan
  · rw [if_pos (hnan.imp_right .inl),
      Json.Encoder.values_eq_none_of_nan (.modify value requestId previousRequestId) hnan]
    rfl
  · rw [not_or] at hnan
    obtain ⟨p, hp⟩ := Double.exists_of_isNaN_eq_false (Double.isNaN_eq_false_of_ne hnan.1)
    obtain ⟨q, hq⟩ := Double.exists_of_isNaN_eq_false (Double.isNaN_eq_false_of_ne hnan.2)
    have hprevious : (value.price = .nan ∨ value.quantity = .nan ∨ previousRequestId = "") ↔
        previousRequestId = "" := by simp [hnan]
    rw [hp] at hprice
    rw [hq] at hquantity
    simp only [hprevious]
    exact ofMembers_amend value requestId previousRequestId hp hq hprice.2 hquantity.2

/-- A call that cancels an order is understood as the identifier it has. The identifiers of the
request are not written. -/
theorem read_cancel {externalOrderId : String} (requestId previousRequestId : String)
    (h : Plain externalOrderId) (hmethod : request.method = .delete)
    (hpath : request.path = API.create.order)
    (hbody : request.body =
      Json.Encoder.cancelOrder externalOrderId requestId previousRequestId) :
    read number request =
      if externalOrderId = "" then none else some (.cancel externalOrderId) := by
  rw [read, if_pos hpath, hbody, hmethod, parse_cancelOrder h requestId previousRequestId]
  show (Option.filter (· ≠ "") (some externalOrderId)).map Instruction.cancel = _
  by_cases hnone : externalOrderId = "" <;> simp [hnone, Option.filter]

/-- **A call is understood** as what is left of the request it is made for. -/
theorem read_request {r : OrderRequest} (h : r.Writable fmt number)
    (hmethod : request.method = r.method) (hpath : request.path = r.path)
    (hbody : request.body = r.body fmt) : read number request = r.onWire? := by
  cases r with
  | createOrder source account orderId value requestId =>
      exact read_place h.1 h.2.1 h.2.2 hmethod hpath hbody
  | modifyOrder source account orderId version value order requestId previousRequestId =>
      exact read_amend h.1 h.2.1 h.2.2 hmethod hpath hbody
  | cancelOrder source account orderId version order requestId previousRequestId =>
      exact read_cancel requestId previousRequestId h hmethod hpath hbody
  | cancelAllOrders account value requestId =>
      have horders : API.create.orderAll ≠ API.create.order := by decide
      have hne : request.path ≠ API.create.order := fun heq => horders (hpath.symm.trans heq)
      rw [read, if_neg hne, if_pos ⟨hpath, hmethod, hbody⟩]
      rfl

end Instruction

/-! ## Runs -/

namespace OrderRequests

variable {M : Type u}

/-- What was asked for last. -/
def asked : Monitor (State M) Input Output (Option OrderRequest) where
  input _ _
    | .request _ r => some r
    | _ => none
  output a _ := a

/-- A call that is sent is for what was asked for last, under its identifier. It is understood as
what is left of that on the wire, and as what was asked for exactly when all of it is written. -/
def Understood (number : String → ℚ) (a : Option OrderRequest) : Output → Prop
  | .send _ _ requestId request => ∃ r, a = some r ∧ requestId = r.requestId ∧
      Instruction.read number request = r.onWire? ∧
      (Instruction.read number request = some r.instruction ↔ r.Told)
  | _ => True

/-- What is asked for can be written. -/
def Input.Writable (fmt : Double → String) (number : String → ℚ) : Input → Prop
  | .request _ r => r.Writable fmt number
  | _ => True

variable {env : Environment M} {number : String → ℚ}

/-- What an input puts out is understood. -/
theorem understood_step (s : State M) (a : Option OrderRequest) {i : Input}
    (h : i.Writable env.fmt number) :
    ∀ o ∈ (step env s i).2, Understood number (asked.input s a i) o := by
  intro o ho
  cases o with
  | send ticket pending requestId request =>
      -- a call that is handed to the client is of a request, not of an upgrade
      rcases call_cases ho rfl with ⟨now, r, value, index, rfl, -, heq⟩ | ⟨_, _, _, -, -, heq⟩
      · cases heq
        have hread : Instruction.read number (restRequest env value.crypto now r) = r.onWire? :=
          Instruction.read_request h rfl rfl rfl
        refine ⟨r, rfl, rfl, hread, ?_⟩
        rw [hread, r.onWire?_eq_iff]
      · cases heq
  | _ => trivial

variable (number) in
/-- **How every call is understood.** In every run in which what is asked for can be written, an
exchange that looks at the method, the path and the body of a call has what is left of the request
on the wire, whichever connection the call is sent on. It has what the user asked for exactly when
all of that is written. -/
theorem understood_of_run (s : State M) (is : List Input)
    (h : ∀ i ∈ is, i.Writable env.fmt number) :
    (orderRequests env).Sat asked (fun _ => Understood number) (fun _ _ => True) s none is := by
  refine Machine.sat_of_along (fun _ _ => True) (fun s a i _ hi => ?_) trivial
    (Machine.along_of_forall_mem h s none)
  refine Machine.stepSat_of_keeps (fun _ _ h => h) ⟨?_, trivial⟩
  exact Monitor.holds_of_mem (fun _ _ => rfl) (understood_step s a hi)

/-- A limit order is placed, then a market order and a stop order; all orders to buy are cancelled,
and then the one the exchange knows as `x1`. -/
def asksFive : List Input :=
  [.connected "A1" 0,
    .request 1518064231000000000 (.createOrder 1 "A1" 7
      ⟨"XBTUSD", .buy, .limit, .gtc, ∅, .num 100, .num 50000, .nan⟩ "r1"),
    .request 1518064232000000000 (.createOrder 1 "A1" 8
      ⟨"XBTUSD", .buy, .market, .gtc, ∅, .num 100, .nan, .nan⟩ "r2"),
    .request 1518064233000000000 (.createOrder 1 "A1" 9
      ⟨"XBTUSD", .sell, .limit, .gtc, ∅, .num 100, .num 48000, .num 49000⟩ "r3"),
    .request 1518064234000000000 (.cancelAllOrders "A1" ⟨0, "bitmex", "XBTUSD", .buy, 0⟩ "r4"),
    .request 1518064235000000000 (.cancelOrder 1 "A1" 7 2 ⟨"A1", "x1"⟩ "r5" "r1")]

/-- The first and the last of the requests are understood as what was asked for, the others are
not. -/
theorem understood_of_run_asksFive :
    (orderRequests { oneAccount with fmt := Json.Encoder.printWhole }).Sat asked
      (fun _ => Understood Json.Encoder.readWhole) (fun _ _ => True)
      (init { oneAccount with fmt := Json.Encoder.printWhole } oneAccountCredentials 2) none
      asksFive := by
  refine understood_of_run Json.Encoder.readWhole _ asksFive ?_
  have hquantity : Prints Json.Encoder.printWhole Json.Encoder.readWhole (.num 100) :=
    ⟨by decide, by decide⟩
  have hprice : Prints Json.Encoder.printWhole Json.Encoder.readWhole (.num 50000) :=
    ⟨by decide, by decide⟩
  have hlower : Prints Json.Encoder.printWhole Json.Encoder.readWhole (.num 48000) :=
    ⟨by decide, by decide⟩
  have hnan : Prints Json.Encoder.printWhole Json.Encoder.readWhole .nan := rfl
  have hid : Plain "x1" := by decide
  unfold asksFive
  simp only [List.forall_mem_cons]
  exact ⟨trivial, ⟨by decide, hprice, hquantity⟩, ⟨by decide, hnan, hquantity⟩,
    ⟨by decide, hlower, hquantity⟩, trivial, hid, by simp⟩

end OrderRequests

end RoqBitmex
