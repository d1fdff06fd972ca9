import RoqBitmex.Gateway.OrderEntry
import RoqBitmex.Protocol.ErrorTexts
import Mathlib.Data.List.Forall2

/-! # Reports of cancelled orders

A cancel request succeeds with an array of items even where an order could not be cancelled: the
item then has an `error` and neither a status nor a reject reason. The report is made from these two
alone, so that a failed cancel is reported as rejected only if the item says so twice
(`failuresReported_iff`). -/

namespace RoqBitmex

open Json (OrderDataItem OrdStatus)

namespace OrderEntry

variable (parsers : Json.Parsers) (session : Session)

/-- The response an event carries. -/
def response? : OmsEvent → Option Oms.Response
  | .orderUpdate response _ _ => some response
  | .response response _ _ _ => some response
  | _ => none

/-- A status that was parsed. -/
def IsKnown (status : OrdStatus) : Prop :=
  status ≠ .undefinedInternal ∧ status ≠ .unknownInternal

instance (status : OrdStatus) : Decidable (IsKnown status) := inferInstanceAs (Decidable (_ ∧ _))

/-- The response for an item of the answer: an item with an error is rejected, with an error code,
and one without that has a status is accepted or rejected. -/
def ReportsItem (item : OrderDataItem) (response : Oms.Response) : Prop :=
  (item.error ≠ "" → response.requestStatus = .rejected ∧ response.error ≠ .undefined) ∧
    (item.error = "" → IsKnown item.ordStatus →
      response.requestStatus = .accepted ∨ response.requestStatus = .rejected)

instance (item : OrderDataItem) (response : Oms.Response) : Decidable (ReportsItem item response) :=
  inferInstanceAs (Decidable ((_ → _) ∧ (_ → _ → _)))

/-- A cancel request that succeeds with an array has each of its items reported. -/
def FailuresReported (request : Request) (response : RestResponse) : Prop :=
  ∀ items, response.Succeeds parsers.orderDataItems items →
    List.Forall₂ ReportsItem items
      ((cancelOrderAck parsers session request response).dispatched.filterMap response?)

/-- An item that could not be cancelled says so in its status and its reject reason too. -/
def SaysRejected (item : OrderDataItem) : Prop :=
  item.error ≠ "" → item.ordStatus = .rejected ∧ item.ordRejReason ≠ ""

instance (item : OrderDataItem) : Decidable (SaysRejected item) :=
  inferInstanceAs (Decidable (_ → _))

/-- A status that was parsed leads to an outcome. -/
theorem computeRequestStatus_of_isKnown {status : OrdStatus} (h : IsKnown status) :
    computeRequestStatusOfOrdStatus status = .accepted ∨
      computeRequestStatusOfOrdStatus status = .rejected := by
  revert h
  cases status <;> decide

/-- Only the status of a rejected order leads to a rejection. -/
theorem computeRequestStatus_eq_rejected_iff (status : OrdStatus) :
    computeRequestStatusOfOrdStatus status = .rejected ↔ status = .rejected := by
  cases status <;> decide

/-- The response made for an item reports it exactly when the item says in full that it could not be
cancelled. -/
theorem reportsItem_iff (item : OrderDataItem) (version : UInt32) :
    ReportsItem item (OrderUpdate.orderEntryResponse item .cancelOrder version) ↔
      SaysRejected item := by
  have hrejected : (OrderUpdate.orderEntryResponse item .cancelOrder version).requestStatus =
      .rejected ↔ item.ordStatus = .rejected :=
    computeRequestStatus_eq_rejected_iff item.ordStatus
  have herror : (OrderUpdate.orderEntryResponse item .cancelOrder version).error ≠ .undefined ↔
      item.ordRejReason ≠ "" := (Json.guessError_eq_undefined_iff item.ordRejReason).not
  have houtcome : item.error = "" → IsKnown item.ordStatus →
      (OrderUpdate.orderEntryResponse item .cancelOrder version).requestStatus = .accepted ∨
        (OrderUpdate.orderEntryResponse item .cancelOrder version).requestStatus = .rejected :=
    fun _ hknown => computeRequestStatus_of_isKnown hknown
  rw [ReportsItem, and_iff_left houtcome, hrejected, herror]
  exact Iff.rfl

variable {parsers session}

/-- A request that succeeds is answered with a report for each item. -/
theorem dispatched_of_succeeds {request : Request} {response : RestResponse}
    {items : List OrderDataItem} (h : response.Succeeds parsers.orderDataItems items) :
    (cancelOrderAck parsers session request response).dispatched =
      items.map fun item => OrderUpdate.orderEntry session item .cancelOrder request.version := by
  rcases dispatched_processResponse parsers response (rejection session .cancelOrder request)
    (answers_handleCancel parsers session request) with ⟨items', h', hevents⟩ | ⟨hfail, -⟩
  · obtain rfl : items = items' := h.unique h'
    refine hevents.trans ?_
    rw [List.map_eq_flatMap]
  · exact absurd h (hfail items)

/-- **Exact reports.** The items of a successful cancel request are all reported exactly when those
with an error have the status of a rejected order and a reject reason. -/
theorem failuresReported_iff (request : Request) (response : RestResponse) :
    FailuresReported parsers session request response ↔
      ∀ items, response.Succeeds parsers.orderDataItems items → ∀ item ∈ items,
        SaysRejected item := by
  refine forall₂_congr fun items hitems => ?_
  have hresponses :
      (cancelOrderAck parsers session request response).dispatched.filterMap response? =
        items.map fun item =>
          OrderUpdate.orderEntryResponse item .cancelOrder request.version := by
    rw [dispatched_of_succeeds hitems, List.filterMap_map]
    exact congrFun List.filterMap_eq_map items
  rw [hresponses, List.forall₂_map_right_iff, List.forall₂_same]
  exact forall₂_congr fun item _ => reportsItem_iff item request.version

/-- An item as the exchange sends it for an order it could not cancel. -/
def failedItem : OrderDataItem where
  account := 424266
  error := "Unable to cancel order"
  orderId := "e119ebc6-c1c9-4108-88e0-c819bb688646"
  timestamp := 1765268486122

/-- Parsers that know the answer with this item. -/
def failureParsers : Json.Parsers :=
  { arrayParsers with orderDataItems := fun _ => .ok [failedItem] }

/-- The item is reported without an outcome and without an error. -/
theorem failedItem_not_reported :
    ¬ FailuresReported failureParsers ⟨0, "A1", "bitmex"⟩ ⟨1, 1, 2, "r2"⟩ (success "") ∧
      ((cancelOrderAck failureParsers ⟨0, "A1", "bitmex"⟩ ⟨1, 1, 2, "r2"⟩
        (success "")).dispatched.filterMap response?).map
          (fun response => (response.requestStatus, response.error)) =
        [(.undefined, .undefined)] := by
  constructor
  · intro h
    exact absurd (h [failedItem] ⟨_, rfl, rfl, rfl⟩) (by decide)
  · decide

end OrderEntry

end RoqBitmex
