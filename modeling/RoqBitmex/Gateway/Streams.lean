import RoqBitmex.Gateway.Construction
import RoqBitmex.Gateway.BookSession
import RoqBitmex.Gateway.DropCopy
import RoqBitmex.Gateway.RequestLedger
import RoqBitmex.Gateway.Readiness
import RoqBitmex.Library.Interleaving

/-! # The streams of the gateway

The whole gateway: the requests of all accounts, a drop copy for each account and the market data
session, side by side. What they share is the `Crypto` of an account, which the requests have, and
the dispatcher, whose records carry the stream they are from. `streams_apart` says that what is
dispatched under the streams of a session is what the session dispatches by itself. -/

namespace RoqBitmex

namespace Controller.Sessions

variable {M : Type} (self : Sessions M)

/-- The stream of a connection of an account. -/
def orderEntryId (account : String) (index : ℕ) : ℕ :=
  (((self.orderEntry.lookup account).getD [])[index]?.map UInt16.toNat).getD 0

/-- The stream of the drop copy of an account. -/
def dropCopyId (account : String) : ℕ :=
  ((self.dropCopy.lookup account).map UInt16.toNat).getD 0

/-- The stream of the market data session. -/
def marketDataId : ℕ := self.marketData.toNat

end Controller.Sessions

/-! ## The gateway -/

/-- What runs side by side: the requests of all accounts, the drop copy of each, and the market data
session. -/
inductive Component (names : List String) where
  | orders
  | dropCopy (account : { name // name ∈ names })
  | marketData
  deriving DecidableEq

namespace Component

variable {names : List String}

/-- The states of the components. -/
def State (M D D' : Type) : Component names → Type
  | .orders => OrderRequests.State M
  | .dropCopy _ => RoqBitmex.DropCopy D
  | .marketData => RoqBitmex.MarketData D'

/-- What happens to the components. -/
def Input : Component names → Type
  | .orders => OrderRequests.Input
  | .dropCopy _ => RoqBitmex.DropCopy.Input
  | .marketData => RoqBitmex.MarketData.Input

/-- What the components do. -/
def Output : Component names → Type
  | .orders => OrderRequests.Output
  | .dropCopy _ => RoqBitmex.DropCopy.Effect
  | .marketData => Effect

end Component

/-- The stream of a market event. -/
def MarketEvent.streamId : MarketEvent → ℕ
  | .referenceData value => value.streamId
  | .marketStatus value => value.streamId
  | .statisticsUpdate value => value.streamId
  | .topOfBook value => value.streamId
  | .marketByPriceUpdate value => value.streamId
  | .tradeSummary value _ => value.streamId
  | .streamStatus value => value.streamId

/-- The stream of an event of the order manager. -/
def OmsEvent.streamId : OmsEvent → ℕ
  | .orderUpdate _ _ streamId => streamId
  | .response _ streamId _ _ => streamId
  | .cancelAllOrdersAck ack => ack.streamId
  | .tradeUpdate update => update.streamId

/-- The stream an effect of the market data session is dispatched under. -/
def Effect.streamId? : Effect → Option ℕ
  | .dispatch event => some event.streamId
  | _ => none

/-- The stream an effect of a drop copy is dispatched under. -/
def DropCopy.Effect.streamId? : DropCopy.Effect → Option ℕ
  | .dispatch event => some event.streamId
  | .position update => some update.streamId
  | .streamStatus value => some value.streamId
  | _ => none

/-- The stream an output of the requests is dispatched under. -/
def OrderRequests.Output.streamId? : OrderRequests.Output → Option ℕ
  | .streamStatus _ value => some value.streamId
  | .forwarded ack _ => some ack.streamId
  | .dispatch event => some event.streamId
  | _ => none

/-! ## Each session under its own stream -/

namespace MarketData

variable {D : Type} {g : Gateway} {dl : Download D}

variable (g) in
/-- What is dispatched is dispatched under the stream of the session, and where topics are asked for
there is one. -/
def Own : Effect → Prop
  | .dispatch event => event.streamId = g.streamId
  | .subscribe topics => topics ≠ []
  | _ => True

/-- A failed assertion is published under no stream. -/
theorem own_assertEffect {condition : Bool} {site : Site} :
    ∀ e ∈ assertEffect condition site, Own g e := by
  intro e he
  obtain ⟨-, rfl⟩ := eq_of_mem_assertEffect he
  trivial

/-- The status of the session is published under its own stream. -/
theorem own_setStatus (s : MarketData D) (status : ConnectionStatus) (reason : String) :
    ∀ e ∈ (s.setStatus g status reason).2, Own g e := List.forall_mem_singleton.mpr rfl

/-- Entering a state of the download publishes under the own stream only. -/
theorem own_enter (s : MarketData D) (state : DownloadState) :
    ∀ e ∈ (s.enter g state).2, Own g e := by
  cases state with
  | undefined => exact List.forall_mem_singleton.mpr trivial
  | accounts => exact own_setStatus s .downloading "accounts"
  | instrument =>
      refine List.forall_mem_append.mpr ⟨own_setStatus s .downloading "instrument", ?_⟩
      exact List.forall_mem_singleton.mpr (List.cons_ne_nil _ _)
  | orderBookL2 =>
      refine List.forall_mem_append.mpr ⟨own_setStatus s .downloading "order-book-l2", ?_⟩
      exact List.forall_mem_singleton.mpr (List.cons_ne_nil _ _)
  | done => exact List.forall_mem_append.mpr ⟨own_setStatus s .ready "", own_assertEffect⟩

/-- Entering states of the download publishes under the own stream only. -/
theorem own_enterAll (s : MarketData D) (states : List DownloadState) :
    ∀ e ∈ (s.enterAll g states).2, Own g e := by
  induction states generalizing s with
  | nil =>
      intro e he
      cases he
  | cons state rest ih =>
      exact List.forall_mem_append.mpr ⟨own_enter s state, ih _⟩

/-- Instrument rows publish under the own stream only. -/
theorem own_handleRows (s : MarketData D) (rows : List ProductRow) :
    ∀ e ∈ (s.handleRows g rows).2, Own g e := by
  have hrow : ∀ (cache : ProductCache) (row : ProductRow), ∀ e ∈ (ProductRow.handle g cache row).2,
      Own g e := by
    intro cache row e he
    cases ProductRow.output_of_mem_handle he with
    | unnamed hsymbol => trivial
    | referenceData product => rfl
    | marketStatus product hkept => rfl
    | statistics product timestamp hkept => rfl
  exact (productRows g).batch_forall hrow _ _

/-- A call of `check_relaxed` publishes under the own stream only. -/
theorem own_checkRelaxed (s : MarketData D) (state : DownloadState) :
    ∀ e ∈ (s.checkRelaxed g dl state).2, Own g e := own_enterAll _ _

/-- An instrument message publishes under the own stream only. -/
theorem own_instrument (s : MarketData D) (message : Json.Instrument) :
    ∀ e ∈ (s.instrument g dl message).2, Own g e := by
  unfold instrument
  split
  · exact List.forall_mem_singleton.mpr trivial
  · exact List.forall_mem_singleton.mpr trivial
  · split
    · exact List.forall_mem_singleton.mpr trivial
    · exact List.forall_mem_append.mpr ⟨own_handleRows _ _, own_checkRelaxed _ _⟩
  · exact List.forall_mem_singleton.mpr trivial
  · split
    · exact own_handleRows _ _
    · simp
  · simp

/-- A quote message publishes under the own stream only. -/
theorem own_quote (message : Json.Quote) : ∀ e ∈ quote g message, Own g e := by
  intro e he
  obtain ⟨item, -, rfl⟩ := List.mem_map.mp he
  rfl

/-- A summary of trades is published under the own stream. -/
theorem own_tradeLoop_dispatch (l : TradeLoop) (isLast : Bool) :
    ∀ e ∈ l.dispatch g isLast, Own g e := by
  unfold TradeLoop.dispatch
  split
  · exact List.forall_mem_singleton.mpr rfl
  · simp

/-- A trade message publishes under the own stream only. -/
theorem own_trade (message : Json.Trade) : ∀ e ∈ trade g message, Own g e := by
  -- the loop appends nothing but summaries
  have hloop : ∀ (items : List Json.TradeDataItem) (l : TradeLoop), (∀ e ∈ l.effects, Own g e) →
      ∀ e ∈ (items.foldl (TradeLoop.item g) l).effects, Own g e := by
    intro items
    induction items with
    | nil => exact fun l h => h
    | cons item items ih =>
        intro l h
        apply ih
        unfold TradeLoop.item
        dsimp only
        split
        · exact List.forall_mem_append.mpr ⟨h, own_tradeLoop_dispatch _ _⟩
        · exact h
  unfold trade
  split
  · simp
  · exact List.forall_mem_append.mpr ⟨hloop _ {} (by simp), own_tradeLoop_dispatch _ _⟩

/-- The updates of a book message are published under the stream of the session. -/
theorem streamId_of_mem_bookUpdates {action : Json.Action} {cache : PriceCache}
    {groups : List (List Json.OrderBookL2DataItem)} :
    ∀ u ∈ (bookUpdates g action cache groups).updates, u.streamId = g.streamId := by
  induction groups generalizing cache with
  | nil => simp [bookUpdates]
  | cons rows rest ih =>
      unfold bookUpdates
      split
      · simp
      · refine List.forall_mem_append.mpr ⟨?_, ih⟩
        unfold runUpdate
        split
        · rintro u ⟨⟩
          · rfl
          · contradiction
        · simp

/-- A book message publishes under the own stream only. -/
theorem own_orderBookL2 (s : MarketData D) (message : Json.OrderBookL2) (badState : List Bool) :
    ∀ e ∈ (s.orderBookL2 g dl message badState).2, Own g e := by
  have heffects : ∀ e ∈ s.bookEffects g message badState, Own g e := by
    refine List.forall_mem_append.mpr ⟨own_assertEffect, fun e he => ?_⟩
    rcases mem_dispatchEffects he with ⟨u, hu, rfl⟩ | rfl | rfl
    · exact streamId_of_mem_bookUpdates u hu
    · trivial
    · exact List.cons_ne_nil _ _
  by_cases hhandled : message.action = .partial_ ∨ s.partialReceived.orderBookL2 = true
  · rw [orderBookL2_eq g dl hhandled]
    split
    · next stop hstop =>
        refine List.forall_mem_append.mpr ⟨heffects, List.forall_mem_singleton.mpr ?_⟩
        rcases stop_of_bookUpdates hstop with rfl | ⟨site, rfl⟩
        · trivial
        · trivial
    -- a snapshot that is handled to its end may go on with the download
    · split
      · exact List.forall_mem_append.mpr ⟨heffects, own_checkRelaxed _ _⟩
      · exact heffects
  · rw [not_or, Bool.not_eq_true] at hhandled
    rw [orderBookL2_dropped hhandled.1 hhandled.2]
    exact own_assertEffect

/-- **The market data session dispatches under its own stream.** -/
theorem own_step (s : MarketData D) (i : Input) : ∀ e ∈ (s.step g dl i).2, Own g e := by
  cases i with
  | ready => exact own_setStatus s .loginSent ""
  | disconnected => exact own_setStatus _ .disconnected ""
  | event event badState =>
      cases event with
      | welcome value => exact own_enterAll _ _
      | instrument message => exact own_instrument s message
      | quote message => exact own_quote message
      | orderBookL2 message => exact own_orderBookL2 s message badState
      | trade message => exact own_trade message
      | funding message => exact own_handleRows s _
      | _ => simp [step, handle, Own]

/-- In every run the session publishes under its own stream only. -/
theorem own_outputs (s : MarketData D) (is : List Input) :
    ∀ e ∈ (marketData g dl).outputs s is, Own g e :=
  (marketData g dl).outputs_forall (fun _ => True) (fun s i _ => ⟨trivial, own_step s i⟩) trivial is

end MarketData

namespace DropCopy

variable {D : Type} {c : Settings} {dl : Stages State D}

variable (c) in
/-- What is dispatched is dispatched under the stream of the session, and where topics are asked for
there is one. -/
def Own : Effect → Prop
  | .dispatch event => event.streamId = c.session.streamId
  | .position update => update.streamId = c.session.streamId
  | .streamStatus value => value.streamId = c.session.streamId
  | .subscribe topics => topics ≠ []
  | _ => True

/-- What is a drop copy's own is published under its stream. -/
theorem Own.streamId {e : Effect} (h : Own c e) {id : ℕ} (hid : e.streamId? = some id) :
    id = c.session.streamId := by
  cases e with
  | dispatch event => exact (Option.some.inj hid).symm.trans h
  | position update => exact (Option.some.inj hid).symm.trans h
  | streamStatus value => exact (Option.some.inj hid).symm.trans h
  | _ => cases hid

/-- A failed assertion is published under no stream. -/
theorem own_assertEffect {condition : Bool} {site : Site} :
    ∀ e ∈ assertEffect condition site, Own c e := by
  unfold assertEffect
  split
  · simp
  · exact List.forall_mem_singleton.mpr trivial

/-- The status of the session is published under its own stream. -/
theorem own_setStatus (s : DropCopy D) (status : ConnectionStatus) (reason : String) :
    ∀ e ∈ (s.setStatus c status reason).2, Own c e := List.forall_mem_singleton.mpr rfl

/-- Entering a state of the download publishes under the own stream only. -/
theorem own_enter (s : DropCopy D) (state : State) : ∀ e ∈ (s.enter c state).2, Own c e := by
  cases state with
  | undefined => exact List.forall_mem_singleton.mpr trivial
  | subscribe =>
      refine List.forall_mem_append.mpr ⟨own_setStatus s .downloading "subscribe", ?_⟩
      exact List.forall_mem_singleton.mpr (List.cons_ne_nil _ _)
  | done => exact List.forall_mem_append.mpr ⟨own_setStatus s .ready "", own_assertEffect⟩

/-- Entering states of the download publishes under the own stream only. -/
theorem own_enterAll (s : DropCopy D) (states : List State) :
    ∀ e ∈ (s.enterAll c states).2, Own c e := by
  induction states generalizing s with
  | nil => simp [enterAll]
  | cons state rest ih => exact List.forall_mem_append.mpr ⟨own_enter s state, ih _⟩

/-- An order message publishes under the own stream only. -/
theorem own_order (s : DropCopy D) (message : Json.Order) :
    ∀ e ∈ (s.order c dl message).2, Own c e := by
  have hitems : ∀ download, ∀ e ∈ (message.data.flatMap fun item =>
      OrderUpdate.dropCopy c.session item download).map Effect.dispatch, Own c e := by
    intro download e he
    obtain ⟨event, hevent, rfl⟩ := List.mem_map.mp he
    obtain ⟨item, -, hitem⟩ := List.mem_flatMap.mp hevent
    unfold OrderUpdate.dropCopy at hitem
    split at hitem
    · cases hitem
    · rw [List.mem_singleton.mp hitem]
      rfl
  unfold order
  dsimp only
  split
  · exact List.forall_mem_append.mpr ⟨hitems _, own_enterAll _ _⟩
  · exact hitems _

/-- The reports of an execution message are published under the own stream. -/
theorem own_execution (lookup : Oms.OrderUpdate → Option OrderRef) (message : Json.Execution) :
    ∀ e ∈ (execution c.session lookup message).map Effect.dispatch, Own c e := by
  intro e he
  obtain ⟨event, hevent, rfl⟩ := List.mem_map.mp he
  obtain ⟨item, -, hitem⟩ := List.mem_flatMap.mp hevent
  unfold executionItem at hitem
  rcases List.mem_cons.mp hitem with rfl | hitem
  · rfl
  · split at hitem
    · cases hitem
    · rw [List.mem_singleton.mp hitem]
      rfl

/-- The positions of a message are published under the own stream. -/
theorem own_position (message : Json.Position) :
    ∀ e ∈ (position c.session message).map Effect.position, Own c e := by
  intro e he
  obtain ⟨update, hupdate, rfl⟩ := List.mem_map.mp he
  obtain ⟨item, -, rfl⟩ := List.mem_map.mp hupdate
  rfl

/-- **A drop copy dispatches under its own stream.** -/
theorem own_step (s : DropCopy D) (i : Input) : ∀ e ∈ (s.step c dl i).2, Own c e := by
  cases i with
  | ready => exact own_setStatus s .loginSent ""
  | disconnected => exact own_setStatus _ .disconnected ""
  | timer now refreshed =>
      show ∀ e ∈ (s.timer c now refreshed).2, Own c e
      unfold timer
      split
      · simp
      · split
        · exact List.forall_mem_singleton.mpr trivial
        · simp
  | event event lookup =>
      cases event with
      | welcome value =>
          refine List.forall_mem_append.mpr ⟨own_enterAll _ _, ?_⟩
          split
          · exact List.forall_mem_singleton.mpr trivial
          · simp
      | order message => exact own_order s message
      | execution message => exact own_execution lookup message
      | position message => exact own_position message
      | unsubscribe message =>
          show ∀ e ∈ unsubscribe message, Own c e
          unfold unsubscribe
          split
          · exact own_assertEffect
          · split
            · simp
            · exact List.forall_mem_singleton.mpr trivial
      | _ => simp [step, handle, Own]

/-- In every run a drop copy publishes under its own stream only. -/
theorem own_outputs (s : DropCopy D) (is : List Input) :
    ∀ e ∈ (dropCopy c dl).outputs s is, Own c e :=
  (dropCopy c dl).outputs_forall (fun _ => True) (fun s i _ => ⟨trivial, own_step s i⟩) trivial is

end DropCopy

namespace OrderRequests

variable {M : Type} {env : Environment M} {credentials : String → Option (String × String)}
  {connections : ℕ} {s : State M}

variable (env credentials connections) in
/-- What is dispatched is dispatched under the stream of a connection of an account. -/
def Own (o : Output) : Prop :=
  ∀ id, o.streamId? = some id → ∃ account, credentials account ≠ none ∧
    ∃ index < connections, id = env.streamId account index

variable (credentials connections) in
/-- The accounts are those of the configuration, and so are those of the calls that have not been
answered. -/
structure Peopled (s : State M) : Prop where
  accounts : ∀ account value, s.accounts account = some value →
    credentials account ≠ none ∧ value.orderEntry.orderEntry.length = connections
  pending : ∀ p ∈ s.pending.held, credentials p.2.account ≠ none ∧ p.2.index < connections

/-- An account that changes but keeps its connections leaves the accounts peopled. -/
theorem Peopled.update (h : Peopled credentials connections s) {account : String}
    {value : Account M} (hsome : s.accounts account = some value) (value' : Account M)
    (hlength : value'.orderEntry.orderEntry.length = value.orderEntry.orderEntry.length) :
    Peopled credentials connections
      { s with accounts := Function.update s.accounts account (some value') } where
  accounts account' w hw := by
    rcases eq_some_of_update hw with ⟨rfl, rfl⟩ | ⟨-, hw⟩
    · rw [hlength]
      exact h.accounts _ _ hsome
    · exact h.accounts _ _ hw
  pending := h.pending

/-- What is published under no stream is no other session's. -/
theorem own_of_none {o : Output} (h : o.streamId? = none) : Own env credentials connections o := by
  intro id hid
  rw [h] at hid
  cases hid

/-- What is published under the stream of a connection of a known account is the order entry's own.
-/
theorem own_of_some {o : Output} {account : String} (haccount : credentials account ≠ none)
    {index : ℕ} (hindex : index < connections)
    (h : o.streamId? = some (env.streamId account index)) :
    Own env credentials connections o := by
  intro id hid
  rw [h, Option.some.injEq] at hid
  exact ⟨account, haccount, index, hindex, hid.symm⟩

/-- The assertions about a request are published under no stream. -/
theorem own_assertions (r : OrderRequest) :
    ∀ o ∈ assertions r, Own env credentials connections o := by
  intro o ho
  obtain ⟨site, rfl⟩ := eq_assertion_of_mem ho
  exact own_of_none rfl

/-- What an answer is dispatched as is under the stream of the connection the call was sent on. -/
theorem streamId_dispatched (flow : OrderEntry.Flow) (parsers : Json.Parsers) (session : Session)
    (request : OrderEntry.Request) (response : RestResponse) :
    ∀ event ∈ (flow.ack parsers session request response).dispatched,
      event.streamId = session.streamId := by
  have hdispatches := OrderEntry.Flow.dispatches parsers session request response flow
  cases hdispatches with
  | orders requestType items htype hcancel hone hevents =>
      rw [hevents, List.forall_mem_map]
      exact fun item _ => rfl
  | failure requestType failure htype hcancel hevents =>
      rw [hevents, List.forall_mem_singleton]
      rfl
  | ack failure hflow hevents =>
      rw [hevents, List.forall_mem_singleton]
      rfl

/-- The status of a connection is published under the stream of that connection, and the accounts
keep their connections. -/
theorem own_setStatus (h : Peopled credentials connections s) (account : String) (index : ℕ)
    (status : ConnectionStatus) :
    Peopled credentials connections (setStatus env s account index status).1 ∧
      ∀ o ∈ (setStatus env s account index status).2, Own env credentials connections o := by
  unfold setStatus
  split
  · exact ⟨h, by simp⟩
  · next value hvalue =>
      obtain ⟨hknown, hlength⟩ := h.accounts _ _ hvalue
      split
      · next hindex =>
          refine ⟨h.update hvalue _ List.length_set, List.forall_mem_singleton.mpr ?_⟩
          exact own_of_some hknown (hlength ▸ hindex) rfl
      · exact ⟨h, by simp⟩

variable (env) in
/-- What a request that is sent is acknowledged with. -/
theorem own_sent (h : Peopled credentials connections s) {value : Account M} {index : ℕ} (now : ℤ)
    {r : OrderRequest} (hvalue : s.accounts r.account = some value)
    (hready : value.orderEntry.ready index = true) :
    Peopled credentials connections (sent env s value index now r).1 ∧
      ∀ o ∈ (sent env s value index now r).2, Own env credentials connections o := by
  obtain ⟨hknown, hlength⟩ := h.accounts _ _ hvalue
  have hindex : index < connections := hlength ▸ lt_of_ready hready
  have hsame := congrArg List.length value.orderEntry.getNext_orderEntry
  -- the call is held for the connection that has sent it
  refine ⟨⟨(h.update hvalue ⟨_, value.orderEntry.getNext.1⟩ hsame).accounts, ?_⟩, ?_⟩
  · refine List.forall_mem_append.mpr ⟨h.pending, List.forall_mem_singleton.mpr ?_⟩
    exact ⟨hknown, hindex⟩
  · refine List.forall_mem_cons.mpr ⟨own_of_none rfl, List.forall_mem_append.mpr ⟨?_, ?_⟩⟩
    · cases r with
      | cancelAllOrders account cancelAllOrders requestId =>
          exact List.forall_mem_singleton.mpr (own_of_some hknown hindex rfl)
      | _ => exact fun o ho => absurd ho List.not_mem_nil
    · exact List.forall_mem_singleton.mpr (own_of_none rfl)

variable (env) in
/-- **The requests dispatch under the streams of the connections**, and this is kept. -/
theorem own_step (h : Peopled credentials connections s) (i : Input) :
    Peopled credentials connections (step env s i).1 ∧
      ∀ o ∈ (step env s i).2, Own env credentials connections o := by
  cases i with
  | connected account index => exact own_setStatus h account index .ready
  | disconnected account index => exact own_setStatus h account index .disconnected
  | upgrade account now =>
      show Peopled credentials connections (upgrade env s account now).1 ∧
        ∀ o ∈ (upgrade env s account now).2, Own env credentials connections o
      unfold upgrade
      split
      · exact ⟨h, by simp⟩
      · next value hvalue =>
          exact ⟨h.update hvalue _ rfl, List.forall_mem_singleton.mpr (own_of_none rfl)⟩
  | request now r =>
      show Peopled credentials connections (request env s now r).1 ∧
        ∀ o ∈ (request env s now r).2, Own env credentials connections o
      have hthrown : ∀ e, ∀ o ∈ assertions r ++ [.thrown e], Own env credentials connections o :=
        fun e => List.forall_mem_append.mpr
          ⟨own_assertions r, List.forall_mem_singleton.mpr (own_of_none rfl)⟩
      rcases request_cases env s now r with ⟨-, hstep⟩ | ⟨_, -, -, hstep⟩ |
        ⟨value, index, hvalue, -, hready, hstep⟩
      · rw [hstep]
        exact ⟨h, hthrown _⟩
      · rw [hstep]
        exact ⟨h, hthrown _⟩
      · rw [hstep]
        obtain ⟨hpeopled, hown⟩ := own_sent env h now hvalue hready
        exact ⟨hpeopled, List.forall_mem_append.mpr ⟨own_assertions r, hown⟩⟩
  | answer ticket response =>
      show Peopled credentials connections (answer env s ticket response).1 ∧
        ∀ o ∈ (answer env s ticket response).2, Own env credentials connections o
      unfold answer
      split
      · exact ⟨h, by simp⟩
      -- an answer is dispatched under the stream of the connection the call was sent on
      · next p hp =>
          obtain ⟨hknown, hindex⟩ := h.pending _ (Tickets.mem_of_find hp)
          refine ⟨⟨h.accounts, fun q hq => h.pending q (List.mem_of_mem_filter hq)⟩, ?_⟩
          rw [List.forall_mem_map]
          intro event hevent
          exact own_of_some hknown hindex
            (congrArg some (streamId_dispatched p.flow _ _ p.request response event hevent))

/-- To begin with, the known accounts have their connections. -/
theorem peopled_init : Peopled credentials connections (init env credentials connections) where
  accounts account value hvalue := by
    obtain ⟨c, hc, rfl⟩ := Option.map_eq_some_iff.mp hvalue
    exact ⟨hc ▸ Option.some_ne_none c, List.length_replicate⟩
  pending := by simp [init, Tickets.none]

/-- In every run the connections publish under their own streams only. -/
theorem own_outputs (is : List Input) :
    ∀ o ∈ (orderRequests env).outputs (init env credentials connections) is,
      Own env credentials connections o :=
  (orderRequests env).outputs_forall (Peopled credentials connections)
    (fun _ i h => own_step env h i) peopled_init is

end OrderRequests

/-! ## All sessions together -/

/-- What the sessions are given besides their streams. -/
structure Surroundings (M D D' : Type) where
  requests : OrderRequests.Environment M
  dropCopy : DropCopy.Settings
  stages : Stages DropCopy.State D
  marketData : Gateway
  download : Download D'

namespace Component

open Controller (Sessions)

variable {M D D' : Type} (u : Surroundings M D D') (sessions : Sessions M) {names : List String}

/-- The surroundings of the requests. -/
def requests : OrderRequests.Environment M :=
  { u.requests with streamId := sessions.orderEntryId }

/-- The settings of a drop copy. -/
def settings (name : String) : DropCopy.Settings :=
  { u.dropCopy with session := ⟨sessions.dropCopyId name, name, u.requests.exchange⟩ }

/-- The surroundings of the market data session. -/
def gateway : Gateway := { u.marketData with streamId := sessions.marketDataId }

/-- The components as machines. -/
def machine :
    (k : Component names) → Machine (State M D D' k) (Input k) (Output k)
  | .orders => orderRequests (requests u sessions)
  | .dropCopy name => RoqBitmex.dropCopy (settings u sessions name) u.stages
  | .marketData => RoqBitmex.marketData (gateway u sessions) u.download

/-- The components when they are constructed: the accounts with their `Crypto`, and no connection
has reported yet. -/
def init : (k : Component names) → State M D D' k
  | .orders =>
      { accounts := fun name => (sessions.accounts name).map fun crypto =>
          ⟨crypto, { orderEntry :=
            ((sessions.orderEntry.lookup name).getD []).map fun _ => .undefined }⟩ }
  | .dropCopy _ => RoqBitmex.DropCopy.init u.stages
  | .marketData => RoqBitmex.MarketData.init u.download

/-- The stream an output is dispatched under. -/
def streamId? : (k : Component names) → Output k → Option ℕ
  | .orders, o => OrderRequests.Output.streamId? o
  | .dropCopy _, e => RoqBitmex.DropCopy.Effect.streamId? e
  | .marketData, e => Effect.streamId? e

/-- The streams of a component. -/
def streams : Component names → List ℕ
  | .orders => (sessions.orderEntry.flatMap Prod.snd).map UInt16.toNat
  | .dropCopy name => [sessions.dropCopyId name]
  | .marketData => [sessions.marketDataId]

end Component

/-- The gateway as a machine. -/
def Controller.Sessions.gateway {M D D' : Type} (sessions : Controller.Sessions M)
    (u : Surroundings M D D') (names : List String) :
    Machine ((k : Component names) → k.State M D D') ((k : Component names) × k.Input)
      ((k : Component names) × k.Output) :=
  Machine.interleave (Component.machine u sessions)

/-! ## The streams of the sessions -/

namespace Controller.Sessions.Complete

variable {M : Type} {mac : Mac M} {config : Config} {names : List String} {connections : ℕ}
  {sessions : Sessions M}

/-- An account that is gone through has an entry. -/
theorem exists_lookup {β : Type} {l : List (String × β)} (h : l.map Prod.fst = names)
    {name : String} (hname : name ∈ names) : ∃ x, l.lookup name = some x ∧ (name, x) ∈ l := by
  rw [← h, List.mem_map] at hname
  obtain ⟨p, hp, heq⟩ := hname
  have hsome : (l.lookup name).isSome :=
    List.lookup_isSome_iff.mpr ⟨p, hp, beq_iff_eq.mpr heq.symm⟩
  obtain ⟨x, hx⟩ := Option.isSome_iff_exists.mp hsome
  obtain ⟨before, after, heq, -⟩ := List.lookup_eq_some_iff.mp hx
  exact ⟨x, hx, heq ▸ List.mem_append_right _ List.mem_cons_self⟩

/-- The connections of an account have streams. -/
theorem orderEntryId_eq (h : sessions.Complete mac config names connections) {account : String}
    (haccount : config.credentials account ≠ none) :
    ∃ ids, (account, ids) ∈ sessions.orderEntry ∧ ids.length = connections ∧
      sessions.orderEntry.lookup account = some ids ∧
      ∀ index (hindex : index < ids.length),
        sessions.orderEntryId account index = ids[index].toNat := by
  obtain ⟨ids, hlookup, hmem⟩ := exists_lookup h.orderEntry ((h.known account).mpr haccount)
  refine ⟨ids, hmem, h.many _ hmem, hlookup, fun index hindex => ?_⟩
  unfold orderEntryId
  rw [hlookup, Option.getD_some, List.getElem?_eq_getElem hindex]
  rfl

/-- The drop copy of an account has a stream. -/
theorem dropCopyId_eq (h : sessions.Complete mac config names connections) {name : String}
    (hname : name ∈ names) :
    ∃ id, (name, id) ∈ sessions.dropCopy ∧ sessions.dropCopyId name = id.toNat := by
  obtain ⟨id, hlookup, hmem⟩ := exists_lookup h.dropCopy hname
  refine ⟨id, hmem, ?_⟩
  unfold dropCopyId
  rw [hlookup]
  rfl

/-- The connections of an account have streams of their own. -/
theorem injOn_orderEntryId (h : sessions.Complete mac config names connections)
    (hround : numberOfSessions names connections ≤ 65536) {account : String}
    (haccount : config.credentials account ≠ none) :
    Set.InjOn (sessions.orderEntryId account) (Set.Iio connections) := by
  obtain ⟨ids, hmem, hlength, -, hids⟩ := h.orderEntryId_eq haccount
  have hstreams := h.distinct.mpr hround
  have hnodup : ids.Nodup := by
    rw [Sessions.streams, List.append_assoc] at hstreams
    exact (List.nodup_flatMap.mp hstreams.of_append_left).1 _ hmem
  intro i hi j hj heq
  rw [hids i (hlength ▸ hi), hids j (hlength ▸ hj), UInt16.toNat_inj] at heq
  exact (hnodup.getElem_inj_iff).mp heq

/-- The stream of a connection is one of the requests'. -/
theorem orderEntryId_mem (h : sessions.Complete mac config names connections) {account : String}
    (haccount : config.credentials account ≠ none) {index : ℕ} (hindex : index < connections) :
    sessions.orderEntryId account index ∈
      Component.streams sessions (.orders : Component names) := by
  obtain ⟨ids, hmem, hlength, -, hids⟩ := h.orderEntryId_eq haccount
  rw [hids index (hlength ▸ hindex)]
  exact List.mem_map_of_mem (List.mem_flatMap.mpr ⟨_, hmem, List.getElem_mem _⟩)

/-- **No stream is used by two components**, if the counter can tell the sessions apart. -/
theorem disjoint_streams (h : sessions.Complete mac config names connections)
    (hround : numberOfSessions names connections ≤ 65536) (k k' : Component names) (hne : k ≠ k') :
    (Component.streams sessions k).Disjoint (Component.streams sessions k') := by
  have hstreams := h.distinct.mpr hround
  rw [Sessions.streams, List.nodup_append'] at hstreams
  obtain ⟨hsessions, -, hmarket⟩ := hstreams
  obtain ⟨-, hdrop, hapart⟩ := List.nodup_append'.mp hsessions
  -- the streams of a component are among those of its kind
  have horders : ∀ t ∈ Component.streams sessions (.orders : Component names),
      ∃ id ∈ sessions.orderEntry.flatMap Prod.snd, t = id.toNat := by
    intro t ht
    obtain ⟨id, hid, rfl⟩ := List.mem_map.mp ht
    exact ⟨id, hid, rfl⟩
  have hdropCopy : ∀ name, ∀ t ∈ Component.streams sessions (.dropCopy name : Component names),
      ∃ id, (name.1, id) ∈ sessions.dropCopy ∧ t = id.toNat := by
    rintro ⟨name, hname⟩ t ht
    obtain ⟨id, hid, heq⟩ := h.dropCopyId_eq hname
    exact ⟨id, hid, (List.mem_singleton.mp ht).trans heq⟩
  have hmarketData : ∀ t ∈ Component.streams sessions (.marketData : Component names),
      t = sessions.marketData.toNat := fun t ht => List.mem_singleton.mp ht
  -- streams of two kinds are two streams, and so are those of two drop copies
  have hod : ∀ name, (Component.streams sessions (.orders : Component names)).Disjoint
      (Component.streams sessions (.dropCopy name : Component names)) := by
    intro name t ht ht'
    obtain ⟨id, hid, rfl⟩ := horders t ht
    obtain ⟨id', hid', heq⟩ := hdropCopy name _ ht'
    rw [UInt16.toNat_inj] at heq
    exact hapart hid (heq ▸ List.mem_map_of_mem hid')
  have hom : (Component.streams sessions (.orders : Component names)).Disjoint
      (Component.streams sessions (.marketData : Component names)) := by
    intro t ht ht'
    obtain ⟨id, hid, rfl⟩ := horders t ht
    have heq := UInt16.toNat_inj.mp (hmarketData _ ht')
    exact hmarket (List.mem_append_left _ hid) (List.mem_singleton.mpr heq)
  have hdm : ∀ name, (Component.streams sessions (.dropCopy name : Component names)).Disjoint
      (Component.streams sessions (.marketData : Component names)) := by
    intro name t ht ht'
    obtain ⟨id, hid, rfl⟩ := hdropCopy name t ht
    have heq := UInt16.toNat_inj.mp (hmarketData _ ht')
    exact hmarket (List.mem_append_right _ (List.mem_map_of_mem hid)) (List.mem_singleton.mpr heq)
  have hdd : ∀ name name', name ≠ name' →
      (Component.streams sessions (.dropCopy name : Component names)).Disjoint
        (Component.streams sessions (.dropCopy name' : Component names)) := by
    intro name name' hnames t ht ht'
    obtain ⟨id, hid, rfl⟩ := hdropCopy name t ht
    obtain ⟨id', hid', heq⟩ := hdropCopy name' _ ht'
    have hsame := List.inj_on_of_nodup_map hdrop hid hid' (UInt16.toNat_inj.mp heq)
    exact hnames (Subtype.ext (congrArg Prod.fst hsame))
  cases k with
  | orders =>
      cases k' with
      | orders => exact absurd rfl hne
      | dropCopy name => exact hod name
      | marketData => exact hom
  | dropCopy name =>
      cases k' with
      | orders => exact (hod name).symm
      | dropCopy name' => exact hdd name name' fun heq => hne (congrArg _ heq)
      | marketData => exact hdm name
  | marketData =>
      cases k' with
      | orders => exact hom.symm
      | dropCopy name => exact (hdm name).symm
      | marketData => exact absurd rfl hne

end Controller.Sessions.Complete

/-! ## Runs of the gateway -/

namespace Component

open Controller (Sessions numberOfSessions)

variable {M D D' : Type} {u : Surroundings M D D'} {config : Config} {names : List String}
  {connections : ℕ} {sessions : Sessions M}

/-- The requests begin as they do by themselves. -/
theorem init_orders (h : sessions.Complete u.requests.mac config names connections) :
    init u sessions (.orders : Component names) =
      OrderRequests.init (requests u sessions) config.credentials connections := by
  have haccounts : ∀ name, (sessions.accounts name).map (fun crypto =>
      (⟨crypto, { orderEntry :=
        ((sessions.orderEntry.lookup name).getD []).map fun _ => .undefined }⟩ :
          OrderRequests.Account M)) =
      (config.credentials name).map fun c =>
        ⟨Crypto.create u.requests.mac c.1 c.2,
          { orderEntry := List.replicate connections .undefined }⟩ := by
    intro name
    rw [h.accounts, Option.map_map]
    cases hname : config.credentials name with
    | none => rfl
    -- an account has as many connections as streams
    | some c =>
        obtain ⟨ids, -, hlength, hlookup, -⟩ :=
          h.orderEntryId_eq (hname ▸ Option.some_ne_none c)
        simp [hlookup, hlength]
  show (⟨_, _⟩ : OrderRequests.State M) = ⟨_, _⟩
  rw [OrderRequests.State.mk.injEq]
  exact ⟨funext haccounts, rfl⟩

/-- **Each component under its own streams.** -/
theorem own_outputs (h : sessions.Complete u.requests.mac config names connections)
    (k : Component names) (is : List k.Input) :
    ∀ o ∈ (machine u sessions k).outputs (init u sessions k) is, ∀ t, k.streamId? o = some t →
      t ∈ streams sessions k := by
  cases k with
  -- the requests are given streams for every account, but use those of the configuration only
  | orders =>
      intro o ho t ht
      rw [init_orders h] at ho
      obtain ⟨account, haccount, index, hindex, rfl⟩ := OrderRequests.own_outputs is o ho t ht
      exact h.orderEntryId_mem haccount hindex
  | dropCopy name =>
      intro o ho t ht
      exact List.mem_singleton.mpr ((DropCopy.own_outputs _ is o ho).streamId ht)
  | marketData =>
      intro o ho t ht
      have hown := MarketData.own_outputs _ is o ho
      cases o with
      | dispatch event =>
          obtain rfl : event.streamId = t := Option.some.inj ht
          exact List.mem_singleton.mpr hown
      | _ => cases ht

/-- What is dispatched under the streams of a component. -/
def dispatchedUnder (ids : List ℕ) (os : List ((k : Component names) × k.Output)) :
    List ((k : Component names) × k.Output) :=
  os.filter fun o => (o.1.streamId? o.2).any (· ∈ ids)

/-- What a component dispatches. -/
def dispatched {k : Component names} (os : List k.Output) : List k.Output :=
  os.filter fun o => (k.streamId? o).isSome

variable (u) in
/-- **The streams are apart.** In every run of a gateway of at most 65536 sessions, with their
inputs in any order, what is dispatched under the streams of a component is what the component
dispatches by itself, of its own inputs that were reached. -/
theorem streams_apart (hnames : names.Perm (config.accounts.map ConfigAccount.name))
    (hround : numberOfSessions names connections ≤ 65536)
    (hcreate : Controller.create u.requests.mac config names connections = .ok sessions)
    (is : List ((k : Component names) × k.Input)) (k : Component names) :
    dispatchedUnder (streams sessions k)
        ((sessions.gateway u names).outputs (init u sessions) is) =
      (dispatched ((machine u sessions k).outputs (init u sessions k)
        (Machine.only k ((sessions.gateway u names).reached (init u sessions) is)))).map
          (Sigma.mk k) := by
  have hcomplete := Controller.complete_of_create hnames hcreate
  exact Machine.marked_outputs (machine u sessions) (hcomplete.disjoint_streams hround)
    (own_outputs hcomplete) is k

variable (u) in
/-- **Requests are routed in the gateway** as they are by themselves, whatever the other sessions
do. -/
theorem routed_apart (hnames : names.Perm (config.accounts.map ConfigAccount.name))
    (hround : numberOfSessions names connections ≤ 65536)
    (hcreate : Controller.create u.requests.mac config names connections = .ok sessions)
    (is : List ((k : Component names) × k.Input)) :
    (sessions.gateway u names).Along (Machine.among .orders OrderRequests.ledger)
      (Machine.onOne .orders ((orderRequests (requests u sessions)).StepSat OrderRequests.ledger
        (fun _ => OrderRequests.Routed (requests u sessions) config.credentials connections)
        OrderRequests.Ledger))
      (init u sessions) {} is := by
  have hcomplete := Controller.complete_of_create hnames hcreate
  -- what the requests do among the others they do in a run of their own
  refine Machine.along_interleave_of_forall (fun is' => ?_) is
  rw [init_orders hcomplete]
  exact OrderRequests.sat_of_books _ _ _
    (fun account haccount => hcomplete.injOn_orderEntryId hround haccount)
    (fun _ _ h => h.1) (fun _ _ h => h.ledger) is'

/-! ### One account -/

/-- What the sessions of a gateway with one account are given. -/
def oneAccount : Surroundings (String × String) (DropCopy.State × ℕ) DownloadState where
  requests := OrderRequests.oneAccount
  dropCopy := DropCopy.keepOrders
  stages := DropCopy.inOrder
  marketData := .keepAll
  download := .inOrder

/-- Its configuration. -/
def oneAccountConfig : Config := .ofAccounts [⟨"A1", "key", "secret"⟩]

/-- Its sessions: two connections, a drop copy and the market data. -/
def oneAccountSessions : Sessions (String × String) :=
  Controller.sessionsOf oneAccount.requests.mac oneAccountConfig ["A1"] 2

/-- The sessions of the account are created. -/
theorem create_oneAccount :
    Controller.create oneAccount.requests.mac oneAccountConfig ["A1"] 2 =
      .ok oneAccountSessions := by
  rw [Controller.create_eq]
  rfl

/-- Inputs of one component. -/
def inputsOf (k : Component names) (is : List k.Input) : List ((k : Component names) × k.Input) :=
  is.map (Sigma.mk k)

/-- All orders are cancelled while the other sessions connect. -/
def busy : List ((k : Component ["A1"]) × k.Input) :=
  inputsOf .marketData (MarketData.lateReady.take 2) ++
    inputsOf .orders (OrderRequests.cancelsAll.take 5) ++
    inputsOf (.dropCopy ⟨"A1", List.mem_singleton_self _⟩) DropCopy.lateReady ++
    inputsOf .orders (OrderRequests.cancelsAll.drop 5) ++
    inputsOf .marketData (MarketData.lateReady.drop 2)

/-- The events of the connections are those the connections dispatch, also when other sessions are
busy in between. -/
theorem streams_apart_busy :
    dispatchedUnder (streams oneAccountSessions (.orders : Component ["A1"]))
        ((oneAccountSessions.gateway oneAccount ["A1"]).outputs
          (init oneAccount oneAccountSessions) busy) =
      (dispatched ((machine oneAccount oneAccountSessions .orders).outputs
        (init oneAccount oneAccountSessions .orders)
        (Machine.only .orders ((oneAccountSessions.gateway oneAccount ["A1"]).reached
          (init oneAccount oneAccountSessions) busy)))).map (Sigma.mk .orders) :=
  streams_apart oneAccount (by decide) (by decide) create_oneAccount busy .orders

/-- The requests of the account are routed also when other sessions are busy in between. -/
theorem routed_apart_busy :
    (oneAccountSessions.gateway oneAccount ["A1"]).Along
      (Machine.among .orders OrderRequests.ledger)
      (Machine.onOne .orders
        ((orderRequests (requests oneAccount oneAccountSessions)).StepSat OrderRequests.ledger
          (fun _ => OrderRequests.Routed (requests oneAccount oneAccountSessions)
            oneAccountConfig.credentials 2)
          OrderRequests.Ledger))
      (init oneAccount oneAccountSessions) {} busy :=
  routed_apart oneAccount (by decide) (by decide) create_oneAccount busy

end Component

end RoqBitmex
