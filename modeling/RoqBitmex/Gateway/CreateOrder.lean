import RoqBitmex.Library.Template
import RoqBitmex.Protocol.Encoder

/-! # What a created order tells the exchange

The body of a new order is all the exchange learns of it. Several times in force and every set of
instructions beyond one are written alike, and the stop price is not written at all, yet
`create_order` refuses none of them. `CreateOrder.onWire` is what is left of an order on the wire,
and `toldApart_iff` says that two orders are told apart as far as that goes and no further. -/

namespace RoqBitmex

open Json (Side.asRawText OrdType.asRawText TimeInForce.asRawText ExecInst.asRawText)
open Json.Encoder (placeOrder Prints)

/-! ## What is left of an order on the wire -/

/-- The times in force that have a counterpart on the wire. -/
def TimeInForce.supported : List TimeInForce := [.gfd, .gtc, .ioc, .fok, .atTheClose]

/-- What is left of a time in force on the wire. -/
def TimeInForce.onWire (timeInForce : TimeInForce) : TimeInForce :=
  if timeInForce ∈ supported then timeInForce else .undefined

namespace ExecutionInstruction

/-- What is left of a set of instructions on the wire. -/
def onWire (executionInstructions : Finset ExecutionInstruction) : Finset ExecutionInstruction :=
  if participateDoNotInitiate ∈ executionInstructions then {participateDoNotInitiate}
  else if doNotIncrease ∈ executionInstructions then {doNotIncrease}
  else ∅

/-- The sets of instructions that are left as they are: none, and either of the two that are known
alone. -/
theorem onWire_eq_self_iff (executionInstructions : Finset ExecutionInstruction) :
    onWire executionInstructions = executionInstructions ↔
      executionInstructions ∈ [∅, {participateDoNotInitiate}, {doNotIncrease}] := by
  constructor
  · intro h
    rw [onWire] at h
    split at h
    · simp [← h]
    · split at h <;> simp [← h]
  · intro h
    simp only [List.mem_cons, List.not_mem_nil, or_false] at h
    rcases h with rfl | rfl | rfl <;> decide

end ExecutionInstruction

/-- The times in force that are left as they are: none, and those with a counterpart. -/
theorem TimeInForce.onWire_eq_self_iff (timeInForce : TimeInForce) :
    timeInForce.onWire = timeInForce ↔ timeInForce = .undefined ∨ timeInForce ∈ supported := by
  cases timeInForce <;> decide

/-- What is left of an order on the wire. -/
def CreateOrder.onWire (createOrder : CreateOrder) : CreateOrder :=
  { createOrder with
    timeInForce := createOrder.timeInForce.onWire
    executionInstructions := ExecutionInstruction.onWire createOrder.executionInstructions
    stopPrice := .nan }

/-! ## Reading a body back -/

namespace Json

variable {E : Type}

/-- The enumerator with a text. -/
def ofText (asRawText : E → String) (values : List E) (unknown : E) (text : String) : E :=
  (values.find? fun value => asRawText value == text).getD unknown

/-- The side with a text. -/
def Side.ofText : String → Side :=
  Json.ofText Side.asRawText [.undefinedInternal, .buy, .sell] .unknownInternal

/-- The order type with a text. -/
def OrdType.ofText : String → OrdType :=
  Json.ofText OrdType.asRawText
    [.undefinedInternal, .limit, .market, .stop, .stopLimit, .marketIfTouched, .limitIfTouched]
    .unknownInternal

/-- The time in force with a text. -/
def TimeInForce.ofText : String → TimeInForce :=
  Json.ofText TimeInForce.asRawText
    [.undefinedInternal, .atTheClose, .day, .fillOrKill, .goodTillCancel, .immediateOrCancel]
    .unknownInternal

/-- The instruction with a text. -/
def ExecInst.ofText : String → ExecInst :=
  Json.ofText ExecInst.asRawText
    [.undefinedInternal, .participateDoNotInitiate, .markPrice, .lastPrice, .indexPrice,
      .reduceOnly, .close]
    .unknownInternal

/-- The instructions that an instruction of the wire stands for. -/
def ExecInst.toMask : ExecInst → Finset ExecutionInstruction
  | .participateDoNotInitiate => {.participateDoNotInitiate}
  | .reduceOnly => {.doNotIncrease}
  | _ => ∅

end Json

/-- A side is told by its text. -/
theorem side_ofText (side : Side) : (Json.Side.ofText side.map.asRawText).map = side := by
  cases side <;> decide

/-- An order type is told by its text. -/
theorem orderType_ofText (orderType : OrderType) :
    (Json.OrdType.ofText orderType.map.asRawText).map = orderType := by
  cases orderType <;> decide

/-- The text of a time in force tells what is left of it on the wire. -/
theorem timeInForce_ofText (timeInForce : TimeInForce) :
    (Json.TimeInForce.ofText timeInForce.map.asRawText).map = timeInForce.onWire := by
  cases timeInForce <;> decide

/-- What is left of a time in force on the wire has the same counterpart. -/
theorem map_onWire (timeInForce : TimeInForce) : timeInForce.onWire.map = timeInForce.map := by
  cases timeInForce <;> rfl

/-- An instruction of the wire is told by its text. -/
theorem execInst_ofText (execInst : Json.ExecInst) (h : execInst ≠ .unknownInternal) :
    Json.ExecInst.ofText execInst.asRawText = execInst := by
  cases execInst <;> first | decide | exact absurd rfl h

/-- The instruction that is sent stands for what is left of the set on the wire. -/
theorem toMask_ofMask (executionInstructions : Finset ExecutionInstruction) :
    (Json.ExecInst.ofMask executionInstructions).toMask =
      ExecutionInstruction.onWire executionInstructions := by
  rw [Json.ExecInst.ofMask, ExecutionInstruction.onWire]
  split
  · rfl
  · split <;> rfl

/-- Only instructions with a text are sent. -/
theorem ofMask_ne_unknown (executionInstructions : Finset ExecutionInstruction) :
    Json.ExecInst.ofMask executionInstructions ≠ .unknownInternal := by
  rw [Json.ExecInst.ofMask]
  split
  · decide
  · split <;> decide

/-- What is left of a set on the wire is sent as the same instruction. -/
theorem ofMask_onWire (executionInstructions : Finset ExecutionInstruction) :
    Json.ExecInst.ofMask (ExecutionInstruction.onWire executionInstructions) =
      Json.ExecInst.ofMask executionInstructions := by
  rw [Json.ExecInst.ofMask, Json.ExecInst.ofMask, ExecutionInstruction.onWire]
  split
  · simp
  · split <;> simp

/-! ## The body as a filled template -/

variable (fmt : Double → String)

/-- The body of an order up to its side: what the request and the symbol decide. -/
def opening (requestId symbol : String) : List Char :=
  ("\x7b\"clOrdID\":\"" ++ requestId ++ "\",\"symbol\":\"" ++ symbol ++ "\",\"side\":\"").toList

/-- The rest of the body: its texts, each with what the template has after it. -/
def CreateOrder.parts (createOrder : CreateOrder) : List (List Char × List Char) :=
  [(createOrder.side.map.asRawText.toList, "\",\"price\":".toList),
    ((fmt createOrder.price).toList, ",\"orderQty\":".toList),
    ((fmt createOrder.quantity).toList, ",\"ordType\":\"".toList),
    (createOrder.orderType.map.asRawText.toList, "\",\"timeInForce\":\"".toList),
    (createOrder.timeInForce.map.asRawText.toList, "\",\"execInst\":\"".toList),
    ((Json.ExecInst.ofMask createOrder.executionInstructions).asRawText.toList, "\"\x7d".toList)]

/-- What a body says of its order. -/
structure Terms where
  side : Side
  orderType : OrderType
  timeInForce : TimeInForce
  executionInstructions : Finset ExecutionInstruction
  deriving DecidableEq

/-- What an order asks for. -/
def CreateOrder.terms (createOrder : CreateOrder) : Terms :=
  ⟨createOrder.side, createOrder.orderType, createOrder.timeInForce,
    createOrder.executionInstructions⟩

/-- What the template has after each text of the rest of a body. -/
def pieces : List (List Char) :=
  ["\",\"price\":".toList, ",\"orderQty\":".toList, ",\"ordType\":\"".toList,
    "\",\"timeInForce\":\"".toList, "\",\"execInst\":\"".toList, "\"\x7d".toList]

/-- What a body says of its order, in the gateway's vocabulary. -/
def termsOfBody (requestId symbol body : String) : Option Terms :=
  match Template.extract pieces (body.toList.drop (opening requestId symbol).length) with
  | some [side, _, _, ordType, timeInForce, execInst] =>
      some
        { side := (Json.Side.ofText (.ofList side)).map
          orderType := (Json.OrdType.ofText (.ofList ordType)).map
          timeInForce := (Json.TimeInForce.ofText (.ofList timeInForce)).map
          executionInstructions := (Json.ExecInst.ofText (.ofList execInst)).toMask }
  | _ => none

variable {fmt}

/-- The body of a new order is its opening and the filled template. -/
theorem toList_placeOrder (createOrder : CreateOrder) (requestId : String) :
    (placeOrder fmt createOrder requestId).toList =
      opening requestId createOrder.symbol ++ Template.fill (createOrder.parts fmt) := by
  have hexec := Json.Encoder.execInst_eq createOrder.executionInstructions
  unfold placeOrder opening CreateOrder.parts
  simp [hexec, Template.fill]

/-! ### No text contains what ends it -/

/-- A printed number has none of the characters that are not numeric, unless `nan` has. -/
theorem not_mem_of_isNumeric {c : Char} (hc : JsonText.isNumeric c = false) {read : String → ℚ}
    {x : Double} (hnan : c ∉ ['n', 'a', 'n']) (h : Prints fmt read x) : c ∉ (fmt x).toList := by
  cases x with
  | nan =>
      rw [show fmt .nan = "nan" from h]
      exact hnan
  | num q =>
      intro hmem
      have hnumeric := JsonText.isNumeric_of_isNumber h.1 c hmem
      exact Bool.false_ne_true (hc.symm.trans hnumeric)

/-- A comma ends a printed number. -/
theorem ends_number {read : String → ℚ} {x : Double} (h : Prints fmt read x)
    (piece : List Char) : Template.Ends (',' :: piece) (fmt x).toList :=
  ⟨',', rfl, not_mem_of_isNumeric rfl (by decide) h⟩

/-- A quotation mark ends a text that needs no escape. -/
theorem ends_text {text : String} (h : Json.Encoder.Plain text) (piece : List Char) :
    Template.Ends ('"' :: piece) text.toList := by
  refine ⟨'"', rfl, ?_⟩
  intro hmem
  exact absurd (List.all_eq_true.mp h _ hmem) (by decide)

/-- No text of the body contains what the template has after it. -/
theorem ends_parts {read : String → ℚ} {createOrder : CreateOrder}
    (hprice : Prints fmt read createOrder.price)
    (hquantity : Prints fmt read createOrder.quantity) :
    ∀ p ∈ createOrder.parts fmt, Template.Ends p.2 p.1 := by
  simp only [CreateOrder.parts, List.forall_mem_cons]
  exact ⟨ends_text (Json.Encoder.plain_side _) _, ends_number hprice _, ends_number hquantity _,
    ends_text (Json.Encoder.plain_ordType _) _, ends_text (Json.Encoder.plain_timeInForce _) _,
    ends_text (Json.Encoder.plain_execInst _) _, by simp⟩

/-- A number is printed unlike any other, and unlike NaN. -/
theorem printed_inj {read : String → ℚ} {x y : Double} (hx : Prints fmt read x)
    (hy : Prints fmt read y) (h : fmt x = fmt y) : x = y := by
  have hnan : ∀ q, Prints fmt read .nan → Prints fmt read (.num q) →
      fmt .nan ≠ fmt (.num q) := by
    intro q hnan hq heq
    have hnumber := hq.1
    rw [← heq, show fmt .nan = "nan" from hnan] at hnumber
    exact absurd hnumber (by decide)
  cases x with
  | nan =>
      cases y with
      | nan => rfl
      | num q => exact absurd h (hnan q hx hy)
  | num p =>
      cases y with
      | nan => exact absurd h.symm (hnan p hy hx)
      | num q => rw [← hx.2, ← hy.2, h]

/-! ## Which orders have one body -/

/-- The texts of the body are those of what is left of the order on the wire. -/
theorem parts_onWire (createOrder : CreateOrder) :
    createOrder.onWire.parts fmt = createOrder.parts fmt := by
  simp only [CreateOrder.parts, CreateOrder.onWire, map_onWire, ofMask_onWire]

/-- A body says of an order what is left of it on the wire. -/
theorem termsOfBody_placeOrder {read : String → ℚ} {createOrder : CreateOrder}
    (hprice : Prints fmt read createOrder.price)
    (hquantity : Prints fmt read createOrder.quantity) (requestId : String) :
    termsOfBody requestId createOrder.symbol (placeOrder fmt createOrder requestId) =
      some createOrder.onWire.terms := by
  have hextract : Template.extract pieces (Template.fill (createOrder.parts fmt)) =
      some ((createOrder.parts fmt).map Prod.fst) :=
    Template.extract_fill (ends_parts hprice hquantity)
  have hexec : Json.ExecInst.ofMask createOrder.executionInstructions ≠ .unknownInternal :=
    ofMask_ne_unknown _
  rw [termsOfBody, toList_placeOrder, List.drop_left, hextract]
  simp only [CreateOrder.parts, List.map_cons, List.map_nil, String.ofList_toList, side_ofText,
    orderType_ofText, timeInForce_ofText, execInst_ofText _ hexec, toMask_ofMask]
  rfl

/-- Two orders for a symbol have one body exactly when the same is left of them on the wire. -/
theorem placeOrder_eq_iff {read : String → ℚ} {a b : CreateOrder} (hsymbol : a.symbol = b.symbol)
    (haprice : Prints fmt read a.price) (haquantity : Prints fmt read a.quantity)
    (hbprice : Prints fmt read b.price) (hbquantity : Prints fmt read b.quantity)
    (requestId : String) :
    placeOrder fmt a requestId = placeOrder fmt b requestId ↔ a.onWire = b.onWire := by
  constructor
  · intro hbody
    have hterms := termsOfBody_placeOrder haprice haquantity requestId
    rw [hbody, hsymbol, termsOfBody_placeOrder hbprice hbquantity requestId] at hterms
    have hterms' := Option.some.inj hterms
    have hfill : Template.fill (a.parts fmt) = Template.fill (b.parts fmt) := by
      have htext := congrArg String.toList hbody
      rw [toList_placeOrder, toList_placeOrder, hsymbol] at htext
      exact List.append_cancel_left htext
    have hpieces : (a.parts fmt).map Prod.snd = (b.parts fmt).map Prod.snd := rfl
    have htexts := Template.fst_eq_of_fill_eq hpieces (ends_parts haprice haquantity)
      (ends_parts hbprice hbquantity) hfill
    simp only [CreateOrder.parts, List.map_cons, List.cons.injEq, String.toList_inj] at htexts
    have hprice := printed_inj haprice hbprice htexts.2.1
    have hquantity := printed_inj haquantity hbquantity htexts.2.2.1
    simp only [CreateOrder.terms, CreateOrder.onWire, Terms.mk.injEq] at hterms'
    simp only [CreateOrder.onWire, CreateOrder.mk.injEq]
    exact ⟨hsymbol, hterms'.1.symm, hterms'.2.1.symm, hterms'.2.2.1.symm, hterms'.2.2.2.symm,
      hquantity, hprice, trivial⟩
  · intro hwire
    apply String.toList_inj.mp
    rw [toList_placeOrder, toList_placeOrder, hsymbol, ← parts_onWire a, hwire, parts_onWire b]

/-! ## Which orders are told apart -/

/-- `OrderEntry::create_order`: the body that is sent, unless the session is not ready. -/
def OrderEntry.createOrder (fmt : Double → String) (ready : Bool) (createOrder : CreateOrder)
    (requestId : String) : Except String String :=
  if ready = false then .error "not ready" else .ok (placeOrder fmt createOrder requestId)

/-- Different orders are not both sent, or have different bodies. -/
def ToldApart (fmt : Double → String) (ready ready' : Bool) (a b : CreateOrder)
    (requestId : String) : Prop :=
  a ≠ b →
    (∃ what, OrderEntry.createOrder fmt ready a requestId = .error what) ∨
    (∃ what, OrderEntry.createOrder fmt ready' b requestId = .error what) ∨
    placeOrder fmt a requestId ≠ placeOrder fmt b requestId

/-- An order that is sent says what it asks for. -/
def TellsTerms (fmt : Double → String) (ready : Bool) (createOrder : CreateOrder)
    (requestId : String) : Prop :=
  ∀ body, OrderEntry.createOrder fmt ready createOrder requestId = .ok body →
    termsOfBody requestId createOrder.symbol body = some createOrder.terms

/-- Only a session that is not ready refuses an order. -/
theorem createOrder_error_iff {ready : Bool} {createOrder : CreateOrder} {requestId : String} :
    (∃ what, OrderEntry.createOrder fmt ready createOrder requestId = .error what) ↔
      ready = false := by
  cases ready <;> simp [OrderEntry.createOrder]

/-- An order says what it asks for unless it is sent with a time in force or with instructions of
which less is left. -/
theorem tellsTerms_iff {read : String → ℚ} {ready : Bool} {createOrder : CreateOrder}
    {requestId : String} (hprice : Prints fmt read createOrder.price)
    (hquantity : Prints fmt read createOrder.quantity) :
    TellsTerms fmt ready createOrder requestId ↔
      ready = false ∨ (createOrder.timeInForce.onWire = createOrder.timeInForce ∧
        ExecutionInstruction.onWire createOrder.executionInstructions =
          createOrder.executionInstructions) := by
  have hterms := termsOfBody_placeOrder hprice hquantity requestId
  cases ready with
  | false =>
      apply iff_of_true _ (.inl rfl)
      intro body hbody
      cases hbody
  | true =>
      have hsent : TellsTerms fmt true createOrder requestId ↔
          createOrder.onWire.terms = createOrder.terms := by
        constructor
        · intro h
          exact Option.some.inj (hterms.symm.trans (h _ rfl))
        · intro h body hbody
          obtain rfl := Except.ok.inj hbody
          rw [hterms, h]
      rw [hsent]
      simp [CreateOrder.terms, CreateOrder.onWire]

/-- Orders are told apart unless both are sent and the same is left of them on the wire, and an
order says what it asks for unless it is sent with a time in force or with instructions of which
less is left. -/
theorem toldApart_iff (read : String → ℚ) (ready ready' : Bool) (a b : CreateOrder)
    (requestId : String) (hsymbol : a.symbol = b.symbol) (haprice : Prints fmt read a.price)
    (haquantity : Prints fmt read a.quantity) (hbprice : Prints fmt read b.price)
    (hbquantity : Prints fmt read b.quantity) :
    (ToldApart fmt ready ready' a b requestId ↔
      ready = false ∨ ready' = false ∨ a = b ∨ a.onWire ≠ b.onWire) ∧
    (TellsTerms fmt ready a requestId ↔
      ready = false ∨ (a.timeInForce.onWire = a.timeInForce ∧
        ExecutionInstruction.onWire a.executionInstructions = a.executionInstructions)) := by
  refine ⟨?_, tellsTerms_iff haprice haquantity⟩
  have hbodies := placeOrder_eq_iff hsymbol haprice haquantity hbprice hbquantity requestId
  unfold ToldApart
  rw [createOrder_error_iff, createOrder_error_iff, ne_eq (placeOrder fmt a requestId), hbodies]
  constructor
  · intro h
    by_cases hab : a = b
    · exact .inr (.inr (.inl hab))
    · rcases h hab with hready | hready' | hwire
      · exact .inl hready
      · exact .inr (.inl hready')
      · exact .inr (.inr (.inr hwire))
  · rintro (hready | hready' | hab | hwire) hne
    · exact .inl hready
    · exact .inr (.inl hready')
    · exact absurd hab hne
    · exact .inr (.inr hwire)

open Json.Encoder (printWhole readWhole)

/-- A limit order for 100 contracts. -/
def limitOrder (side : Side) (stopPrice : Double) : CreateOrder :=
  ⟨"XBTUSD", side, .limit, .gtc, ∅, .num 100, .num 50000, stopPrice⟩

/-- A limit order to buy is told apart from one to sell, and says what it asks for. -/
theorem toldApart_iff_sides :
    ToldApart printWhole true true (limitOrder .buy .nan) (limitOrder .sell .nan) "A1" ∧
      TellsTerms printWhole true (limitOrder .buy .nan) "A1" := by
  have hprice : Prints printWhole readWhole (.num 50000) := ⟨by decide, by decide⟩
  have hquantity : Prints printWhole readWhole (.num 100) := ⟨by decide, by decide⟩
  have h := toldApart_iff readWhole true true (limitOrder .buy .nan) (limitOrder .sell .nan) "A1"
    rfl hprice hquantity hprice hquantity
  exact ⟨h.1.mpr (.inr (.inr (.inr (by decide)))), h.2.mpr (.inr ⟨rfl, by decide⟩)⟩

/-- A limit order and a stop limit order have one body. -/
theorem stopPrice_not_told :
    ¬ToldApart printWhole true true (limitOrder .buy .nan) (limitOrder .buy (.num 49000)) "A1" := by
  intro h
  rcases h (by decide) with ⟨what, hwhat⟩ | ⟨what, hwhat⟩ | hbody
  · cases hwhat
  · cases hwhat
  · exact hbody rfl

end RoqBitmex
