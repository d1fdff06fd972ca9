import RoqBitmex.Protocol.Json
import Mathlib.Tactic.Common

/-! # Classification of the messages of a web-socket

`Parser::dispatch` reads a few members of a message (the ones `message.json` gives a type) and
infers from them which handler the message is for. A `Frame` is a message as the exchange sends it,
every member present or absent; `Frame.IsKind` says what a well-formed message of each kind looks
like, from the handler interface and the records it declares. -/

namespace RoqBitmex

namespace Json

/-- The rows of a table message, by table. -/
inductive Data where
  /-- No `data` member. -/
  | none
  /-- Rows of the `instrument` table. -/
  | instrument (rows : List InstrumentDataItem)
  /-- Rows of the `quote` table. -/
  | quote (rows : List QuoteDataItem)
  /-- Rows of the `orderBookL2` table. -/
  | orderBookL2 (rows : List OrderBookL2DataItem)
  /-- Rows of the `trade` table. -/
  | trade (rows : List TradeDataItem)
  /-- Rows of the `funding` table. -/
  | funding (rows : List FundingDataItem)
  /-- Rows of the `position` table. -/
  | position (rows : List PositionDataItem)
  /-- Rows of the `order` table. -/
  | order (rows : List OrderDataItem)
  /-- Rows of the `execution` table. -/
  | execution (rows : List ExecutionDataItem)
  deriving DecidableEq, Repr

/-- A message of the exchange: its members, present or absent. Members that neither the parser nor
a handler reads (`keys`, `types`, `filter`, `docs`, `meta`, `request` and so on) are left out. -/
structure Frame where
  table : Option Table := .none
  action : Option Action := .none
  data : Data := .none
  info : Option String := .none
  subscribe : Option String := .none
  unsubscribe : Option String := .none
  success : Option Bool := .none
  failure : Option Bool := .none
  error : Option String := .none
  status : Option Int := .none
  cancelTime : Option Int := .none
  now : Option Int := .none
  deriving DecidableEq, Repr

/-- The generated `Message` parser's record, as far as `Parser::dispatch` reads it. -/
structure Message where
  table : Table
  info : String
  subscribe : String
  error : String
  now : Int

/-- Parsing a `Message`: an absent member is empty or zero, other members are ignored. -/
def Message.ofFrame (f : Frame) : Message where
  table := f.table.getD .undefinedInternal
  info := f.info.getD ""
  subscribe := f.subscribe.getD ""
  error := f.error.getD ""
  now := f.now.getD 0

/-! ## The handler interface -/

/-- The greeting of a new connection. -/
structure Welcome where
  info : String
  deriving DecidableEq, Repr

/-- A refused request. -/
structure Error where
  error : String
  status : Int
  deriving DecidableEq, Repr

/-- The acknowledgement of a subscribe request. -/
structure Subscribe where
  success : Bool
  subscribe : String
  error : String
  deriving DecidableEq, Repr

/-- The acknowledgement of an unsubscribe request. -/
structure Unsubscribe where
  failure : Bool
  unsubscribe : String
  success : Bool
  deriving DecidableEq, Repr

/-- The acknowledgement of a cancel-all-after request. -/
structure CancelAllAfter where
  cancelTime : Int
  now : Int
  deriving DecidableEq, Repr

/-- The overloads of `Parser::Handler`. -/
inductive Kind where
  | welcome
  | error
  | subscribe
  | unsubscribe
  | instrument
  | quote
  | orderBookL2
  | trade
  | funding
  | liquidation
  | settlement
  | cancelAllAfter
  | order
  | execution
  | margin
  | position
  deriving DecidableEq, Repr

/-- A call of a handler overload with the record it is given. The records of tables no handler
looks into are left out. -/
inductive Event where
  | welcome (value : Welcome)
  | error (value : Error)
  | subscribe (value : Subscribe)
  | unsubscribe (value : Unsubscribe)
  | instrument (value : Instrument)
  | quote (value : Quote)
  | orderBookL2 (value : OrderBookL2)
  | trade (value : Trade)
  | funding (value : Funding)
  | liquidation
  | settlement
  | cancelAllAfter (value : CancelAllAfter)
  | order (value : Order)
  | execution (value : Execution)
  | margin
  | position (value : Position)
  deriving DecidableEq, Repr

/-- The overload a call is of. -/
def Event.kind : Event → Kind
  | .welcome _ => .welcome
  | .error _ => .error
  | .subscribe _ => .subscribe
  | .unsubscribe _ => .unsubscribe
  | .instrument _ => .instrument
  | .quote _ => .quote
  | .orderBookL2 _ => .orderBookL2
  | .trade _ => .trade
  | .funding _ => .funding
  | .liquidation => .liquidation
  | .settlement => .settlement
  | .cancelAllAfter _ => .cancelAllAfter
  | .order _ => .order
  | .execution _ => .execution
  | .margin => .margin
  | .position _ => .position

/-- Parsing a `Welcome`. -/
def Welcome.ofFrame (f : Frame) : Welcome where
  info := f.info.getD ""

/-- Parsing a `Subscribe`. -/
def Subscribe.ofFrame (f : Frame) : Subscribe where
  success := f.success.getD false
  subscribe := f.subscribe.getD ""
  error := f.error.getD ""

/-- Parsing a `CancelAllAfter`. -/
def CancelAllAfter.ofFrame (f : Frame) : CancelAllAfter where
  cancelTime := f.cancelTime.getD 0
  now := f.now.getD 0

/-- Parsing a table message, given how to find its rows. -/
def TableMessage.ofFrame {Row : Type} (rows : Data → List Row) (f : Frame) : TableMessage Row where
  action := f.action.getD .undefinedInternal
  data := rows f.data

/-- Parsing an `Instrument`. -/
def Instrument.ofFrame : Frame → Instrument :=
  TableMessage.ofFrame fun | .instrument rows => rows | _ => []

/-- Parsing a `Quote`. -/
def Quote.ofFrame : Frame → Quote :=
  TableMessage.ofFrame fun | .quote rows => rows | _ => []

/-- Parsing an `OrderBookL2`. -/
def OrderBookL2.ofFrame : Frame → OrderBookL2 :=
  TableMessage.ofFrame fun | .orderBookL2 rows => rows | _ => []

/-- A row of a book message is one of its data. -/
theorem OrderBookL2.mem_data_ofFrame {f : Frame} {row : OrderBookL2DataItem}
    (h : row ∈ (OrderBookL2.ofFrame f).data) : ∃ rows, f.data = .orderBookL2 rows ∧ row ∈ rows := by
  have hrow : row ∈ (match f.data with | .orderBookL2 rows => rows | _ => []) := h
  split at hrow
  · rename_i rows hdata
    exact ⟨rows, hdata, hrow⟩
  · cases hrow

/-- Parsing a `Trade`. -/
def Trade.ofFrame : Frame → Trade :=
  TableMessage.ofFrame fun | .trade rows => rows | _ => []

/-- Parsing a `Funding`. -/
def Funding.ofFrame : Frame → Funding :=
  TableMessage.ofFrame fun | .funding rows => rows | _ => []

/-- Parsing a `Position`. -/
def Position.ofFrame : Frame → Position :=
  TableMessage.ofFrame fun | .position rows => rows | _ => []

/-- Parsing an `Order`. -/
def Order.ofFrame : Frame → Order :=
  TableMessage.ofFrame fun | .order rows => rows | _ => []

/-- Parsing an `Execution`. -/
def Execution.ofFrame : Frame → Execution :=
  TableMessage.ofFrame fun | .execution rows => rows | _ => []

/-! ## Dispatch -/

/-- What a call of `Parser::dispatch` does: the handler overloads it invokes, in order, and what it
returns. It returns nothing when it ends in `log::fatal`. -/
structure Dispatch where
  /-- The overloads invoked. -/
  invoked : List Event
  /-- The value returned, or nothing after `log::fatal`. -/
  returned : Option Bool
  deriving DecidableEq, Repr

/-- `dispatch_helper` and the `return true` after it. -/
def Dispatch.helper (e : Event) : Dispatch := ⟨[e], some true⟩

/-- The table branch of `Parser::dispatch`. -/
def Parser.dispatchTable (f : Frame) (allowUnknownEventTypes : Bool) : Table → Dispatch
  | .undefinedInternal => ⟨[], none⟩
  | .unknownInternal => if allowUnknownEventTypes then ⟨[], some false⟩ else ⟨[], none⟩
  | .instrument => .helper (.instrument (.ofFrame f))
  | .quote => .helper (.quote (.ofFrame f))
  | .orderBookL2 => .helper (.orderBookL2 (.ofFrame f))
  | .trade => .helper (.trade (.ofFrame f))
  | .funding => .helper (.funding (.ofFrame f))
  | .liquidation => .helper .liquidation
  | .settlement => .helper .settlement
  | .margin => .helper .margin
  | .position => .helper (.position (.ofFrame f))
  | .order => .helper (.order (.ofFrame f))
  | .execution => .helper (.execution (.ofFrame f))

/-- `Parser::dispatch`: the kind of a message is inferred from its members in a fixed order. -/
def Parser.dispatch (f : Frame) (allowUnknownEventTypes : Bool) : Dispatch :=
  let message := Message.ofFrame f
  if message.info ≠ "" then .helper (.welcome (.ofFrame f))
  else if ¬ (message.subscribe = "" ∧ message.error = "") then .helper (.subscribe (.ofFrame f))
  else if message.now ≠ 0 then .helper (.cancelAllAfter (.ofFrame f))
  else dispatchTable f allowUnknownEventTypes message.table

/-- A text as the JSON library and the generated parsers take it: the message it is, or the
exception that one of them throws. They run before a handler is invoked. -/
abbrev Text := Except String Frame

/-- The event a message is taken for, if it is taken for one. -/
def Parser.event? (f : Frame) (allowUnknownEventTypes : Bool) : Option Event :=
  (Parser.dispatch f allowUnknownEventTypes).invoked.head?

/-- The event a text is taken for, if it is taken for one. -/
def Text.event? (text : Text) (allowUnknownEventTypes : Bool) : Option Event :=
  match text with
  | .ok frame => Parser.event? frame allowUnknownEventTypes
  | .error _ => none

/-- A message is given to one overload, left aside, or not expected. -/
theorem Parser.dispatch_cases (f : Frame) (allow : Bool) :
    (∃ event, Parser.dispatch f allow = .helper event) ∨
      Parser.dispatch f allow = ⟨[], some false⟩ ∨ Parser.dispatch f allow = ⟨[], none⟩ := by
  unfold Parser.dispatch
  dsimp only
  split
  · exact Or.inl ⟨_, rfl⟩
  · split
    · exact Or.inl ⟨_, rfl⟩
    · split
      · exact Or.inl ⟨_, rfl⟩
      · cases (Message.ofFrame f).table with
        | undefinedInternal => exact Or.inr (Or.inr rfl)
        | unknownInternal =>
            cases allow with
            | false => exact Or.inr (Or.inr rfl)
            | true => exact Or.inr (Or.inl rfl)
        | _ => exact Or.inl ⟨_, rfl⟩

/-! ## The kinds of messages -/

/-- The table a kind of handler is for. -/
def Kind.table : Kind → Option Table
  | .instrument => some .instrument
  | .quote => some .quote
  | .orderBookL2 => some .orderBookL2
  | .trade => some .trade
  | .funding => some .funding
  | .liquidation => some .liquidation
  | .settlement => some .settlement
  | .margin => some .margin
  | .position => some .position
  | .order => some .order
  | .execution => some .execution
  | .welcome | .error | .subscribe | .unsubscribe | .cancelAllAfter => none

/-- What a well-formed message of each kind looks like. A kind's own members are present and those
that mark another kind are absent; the rest of the message is free. -/
def Frame.IsKind (f : Frame) : Kind → Prop
  | .welcome => ∃ x, f.info = some x ∧ x ≠ ""
  | .subscribe => (∃ x, f.subscribe = some x ∧ x ≠ "") ∧ f.info = none
  | .unsubscribe =>
      f.unsubscribe.isSome ∧ (f.success.isSome ∨ f.failure.isSome) ∧ f.subscribe = none ∧
        f.info = none ∧ f.error = none ∧ f.now = none ∧ f.table = none
  | .error =>
      f.error.isSome ∧ f.status.isSome ∧ f.subscribe = none ∧ f.unsubscribe = none ∧
        f.info = none ∧ f.now = none ∧ f.table = none
  | .cancelAllAfter =>
      (∃ x, f.now = some x ∧ x ≠ 0) ∧ f.info = none ∧ f.subscribe = none ∧ f.error = none
  | kind => f.table = kind.table ∧ f.info = none ∧ f.subscribe = none ∧ f.error = none ∧
      f.now = none

/-- A message is classified as a kind: exactly one overload is invoked, once, and it is that kind's;
and the parser returns `true`. -/
def Classified (f : Frame) (allowUnknownEventTypes : Bool) (k : Kind) : Prop :=
  ∃ e : Event, e.kind = k ∧ Parser.dispatch f allowUnknownEventTypes = ⟨[e], some true⟩

/-- A call through `dispatch_helper` classifies a message as the kind of the call. -/
theorem classified_helper_iff {f : Frame} {allow : Bool} {e : Event} {k : Kind}
    (h : Parser.dispatch f allow = .helper e) : Classified f allow k ↔ e.kind = k := by
  constructor
  · rintro ⟨e', rfl, he'⟩
    rw [h, Dispatch.helper, Dispatch.mk.injEq, List.cons.injEq] at he'
    rw [he'.1.1]
  · intro hk
    exact ⟨e, hk, h⟩

/-- A message that ends in `log::fatal` is not classified. -/
theorem not_classified_of_fatal {f : Frame} {allow : Bool} {k : Kind}
    (h : (Parser.dispatch f allow).returned = none) : ¬ Classified f allow k := by
  rintro ⟨e, -, he⟩
  simp [he] at h

/-- A message with none of the marking members is judged by its table. -/
theorem dispatch_eq_dispatchTable {f : Frame} {allow : Bool} (hinfo : f.info = none)
    (hsubscribe : f.subscribe = none) (herror : f.error = none) (hnow : f.now = none) :
    Parser.dispatch f allow =
      Parser.dispatchTable f allow (f.table.getD .undefinedInternal) := by
  simp [Parser.dispatch, Message.ofFrame, hinfo, hsubscribe, herror, hnow]

/-- An unsubscribe acknowledgement ends in `log::fatal`: nothing in it is looked at. -/
theorem dispatch_unsubscribe {f : Frame} {allow : Bool} (h : f.IsKind .unsubscribe) :
    Parser.dispatch f allow = ⟨[], none⟩ := by
  obtain ⟨-, -, hsubscribe, hinfo, herror, hnow, htable⟩ := h
  rw [dispatch_eq_dispatchTable hinfo hsubscribe herror hnow, htable]
  rfl

/-- An error message never reaches the error handler: with a text it is taken for a subscribe
acknowledgement, without one it ends in `log::fatal`. -/
theorem dispatch_error {f : Frame} {allow : Bool} (h : f.IsKind .error) :
    Parser.dispatch f allow = .helper (.subscribe (.ofFrame f)) ∨
      Parser.dispatch f allow = ⟨[], none⟩ := by
  obtain ⟨herror, -, hsubscribe, -, hinfo, hnow, htable⟩ := h
  obtain ⟨x, hx⟩ := Option.isSome_iff_exists.mp herror
  by_cases hempty : x = ""
  · right
    simp [Parser.dispatch, Message.ofFrame, hinfo, hsubscribe, hx, hnow, htable, hempty,
      Parser.dispatchTable]
  · left
    simp [Parser.dispatch, Message.ofFrame, hinfo, hsubscribe, hx, hempty]

/-- The table branch sends a table's messages to that table's handler. -/
theorem dispatchTable_eq_helper {f : Frame} {allow : Bool} {k : Kind} {t : Table}
    (hk : k.table = some t) :
    ∃ e : Event, e.kind = k ∧ Parser.dispatchTable f allow t = .helper e := by
  cases k <;> simp only [Kind.table, Option.some.injEq, reduceCtorEq] at hk <;> subst hk <;>
    exact ⟨_, rfl, rfl⟩

/-- A message about a table, without the members that mark another kind, is classified as its
table's kind. -/
theorem classified_of_table {f : Frame} {allow : Bool} {k : Kind} {t : Table}
    (hk : k.table = some t) (htable : f.table = some t) (hinfo : f.info = none)
    (hsubscribe : f.subscribe = none) (herror : f.error = none) (hnow : f.now = none) :
    Classified f allow k := by
  obtain ⟨e, he, hd⟩ : ∃ e : Event, e.kind = k ∧ Parser.dispatchTable f allow t = .helper e :=
    dispatchTable_eq_helper hk
  refine ⟨e, he, ?_⟩
  rw [dispatch_eq_dispatchTable hinfo hsubscribe herror hnow, htable]
  exact hd

/-- A greeting goes to its handler. -/
theorem dispatch_welcome {f : Frame} {allow : Bool} (h : f.IsKind .welcome) :
    Parser.dispatch f allow = .helper (.welcome (.ofFrame f)) := by
  obtain ⟨x, hx, hne⟩ := h
  simp [Parser.dispatch, Message.ofFrame, hx, hne]

/-- A subscribe acknowledgement goes to its handler. -/
theorem dispatch_subscribe {f : Frame} {allow : Bool} (h : f.IsKind .subscribe) :
    Parser.dispatch f allow = .helper (.subscribe (.ofFrame f)) := by
  obtain ⟨⟨x, hx, hne⟩, hinfo⟩ := h
  simp [Parser.dispatch, Message.ofFrame, hx, hinfo, hne]

/-- What a message about a table looks like, whichever table it is. -/
theorem isKind_table_iff {f : Frame} {k : Kind} {t : Table} (hk : k.table = some t) :
    f.IsKind k ↔
      f.table = some t ∧ f.info = none ∧ f.subscribe = none ∧ f.error = none ∧ f.now = none := by
  rw [← hk]
  cases k <;> first | exact Iff.rfl | cases hk

/-- Every kind but the error and the unsubscribe acknowledgement is classified as itself. -/
theorem classified_of_isKind {f : Frame} {allow : Bool} {k : Kind} (h : f.IsKind k)
    (herror : k ≠ .error) (hunsubscribe : k ≠ .unsubscribe) : Classified f allow k := by
  cases k with
  | error => exact absurd rfl herror
  | unsubscribe => exact absurd rfl hunsubscribe
  | welcome => exact (classified_helper_iff (dispatch_welcome h)).mpr rfl
  | subscribe => exact (classified_helper_iff (dispatch_subscribe h)).mpr rfl
  | cancelAllAfter =>
      obtain ⟨⟨x, hx, hne⟩, hinfo, hsubscribe, herr⟩ := h
      have hd : Parser.dispatch f allow = .helper (.cancelAllAfter (.ofFrame f)) := by
        simp [Parser.dispatch, Message.ofFrame, hx, hinfo, hsubscribe, herr, hne]
      exact (classified_helper_iff hd).mpr rfl
  | _ =>
      -- the eleven tables: no marking member is present, so the table decides
      obtain ⟨htable, hinfo, hsubscribe, herr, hnow⟩ := h
      exact classified_of_table rfl htable hinfo hsubscribe herr hnow

/-- The parser declines a message, returning `false`, only when the table is unknown and unknown
tables are allowed, and then it invokes nothing. -/
theorem dispatch_returned_false {f : Frame} {allow : Bool}
    (h : (Parser.dispatch f allow).returned = some false) :
    f.table = some .unknownInternal ∧ allow = true ∧ (Parser.dispatch f allow).invoked = [] := by
  have hbranch : Parser.dispatch f allow =
      Parser.dispatchTable f allow (f.table.getD .undefinedInternal) := by
    by_cases hinfo : f.info.getD "" = ""
    · by_cases hsub : f.subscribe.getD "" = "" ∧ f.error.getD "" = ""
      · by_cases hnow : f.now.getD 0 = 0
        · simp [Parser.dispatch, Message.ofFrame, hinfo, hsub, hnow]
        · simp [Parser.dispatch, Message.ofFrame, hinfo, hsub, hnow, Dispatch.helper] at h
      · simp [Parser.dispatch, Message.ofFrame, hinfo, hsub, Dispatch.helper] at h
    · simp [Parser.dispatch, Message.ofFrame, hinfo, Dispatch.helper] at h
  rw [hbranch] at h ⊢
  cases ht : f.table with
  | none => simp [ht, Parser.dispatchTable] at h
  | some t =>
      cases t <;> cases allow <;> simp_all [Parser.dispatchTable, Dispatch.helper]

/-- **Exact classification.** A well-formed message is classified as its own kind exactly when it is
neither an error nor an unsubscribe acknowledgement, and the parser returns `false`, invoking
nothing, only for an unknown table when these are allowed. -/
theorem classified_iff (allow : Bool) :
    (∀ (f : Frame) (k : Kind), f.IsKind k →
      (Classified f allow k ↔ k ≠ .error ∧ k ≠ .unsubscribe)) ∧
    ∀ f : Frame, (Parser.dispatch f allow).returned = some false →
      f.table = some .unknownInternal ∧ allow = true ∧ (Parser.dispatch f allow).invoked = [] := by
  refine ⟨fun f k h => ⟨fun hc => ⟨?_, ?_⟩, fun hk => classified_of_isKind h hk.1 hk.2⟩,
    fun f h => dispatch_returned_false h⟩
  · rintro rfl
    have herror : Parser.dispatch f allow = .helper (.subscribe (.ofFrame f)) ∨
        Parser.dispatch f allow = ⟨[], none⟩ := dispatch_error h
    rcases herror with hd | hd
    · have hkind := (classified_helper_iff hd).mp hc
      simp [Event.kind] at hkind
    · exact not_classified_of_fatal (by rw [hd]) hc
  · rintro rfl
    exact not_classified_of_fatal (by rw [dispatch_unsubscribe h]) hc

/-- The acknowledgement of an unsubscribe request for the order book. -/
def unsubscribeAck : Frame where
  success := some true
  unsubscribe := some "orderBookL2"

/-- The refusal of a subscribe request. -/
def subscribeRefused : Frame where
  error := some "Unknown table: orderBook"
  status := some 400

/-- The exact classification at a table message, at an unsubscribe acknowledgement and at an unknown
table. -/
theorem classified_iff_examples :
    (Classified { table := some .quote } false .quote ↔ Kind.quote ≠ .error ∧
      Kind.quote ≠ .unsubscribe) ∧
    (Classified unsubscribeAck false .unsubscribe ↔ Kind.unsubscribe ≠ .error ∧
      Kind.unsubscribe ≠ .unsubscribe) ∧
    (Parser.dispatch { table := some .unknownInternal } true).invoked = [] :=
  ⟨(classified_iff false).1 _ _ (by simp [Frame.IsKind, Kind.table]),
    (classified_iff false).1 _ _ (by simp [Frame.IsKind, unsubscribeAck]),
    ((classified_iff true).2 { table := some .unknownInternal } (by decide)).2.2⟩

/-- Both kinds that are never classified: the acknowledgement of an unsubscribe request ends in
`log::fatal`, and an error message is handed to the subscribe handler. -/
theorem misclassified :
    (unsubscribeAck.IsKind .unsubscribe ∧ ¬ Classified unsubscribeAck true .unsubscribe ∧
      Parser.dispatch unsubscribeAck true = ⟨[], none⟩) ∧
    (subscribeRefused.IsKind .error ∧ ¬ Classified subscribeRefused true .error ∧
      Parser.dispatch subscribeRefused true =
        ⟨[.subscribe ⟨false, "", "Unknown table: orderBook"⟩], some true⟩) := by
  have hack : unsubscribeAck.IsKind .unsubscribe := by simp [Frame.IsKind, unsubscribeAck]
  have hrefused : subscribeRefused.IsKind .error := by simp [Frame.IsKind, subscribeRefused]
  have hd : Parser.dispatch unsubscribeAck true = ⟨[], none⟩ := dispatch_unsubscribe hack
  have hd' : Parser.dispatch subscribeRefused true =
      .helper (.subscribe ⟨false, "", "Unknown table: orderBook"⟩) := by decide
  refine ⟨⟨hack, not_classified_of_fatal (by rw [hd]), hd⟩, hrefused, fun hc => ?_, hd'⟩
  have hkind := (classified_helper_iff hd').mp hc
  simp [Event.kind] at hkind

end Json

end RoqBitmex
