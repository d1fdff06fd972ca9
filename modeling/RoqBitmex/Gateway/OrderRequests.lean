import RoqBitmex.Gateway.CancelRequests
import RoqBitmex.Gateway.Refusals
import RoqBitmex.Gateway.Routing
import RoqBitmex.Library.Tickets
import RoqBitmex.Tools.Crypto

/-! # Order requests

The way of a request through the gateway: `Controller` picks a connection of its account,
`OrderEntry` writes and signs a call and hands it to the REST client with a callback, and the client
runs the callback when the call is answered. The client is not part of the repository; it holds the
callbacks as `Tickets`. `orderRequests` is the machine of all accounts and connections: requests,
answers and changes of the connections come in any order. The drop copies are in it only for the
code they share with the requests of their account. -/

namespace RoqBitmex

universe u

/-! ## Calls -/

/-- `gateway::API`: the paths of the private calls. -/
structure API where
  /-- `order_management.order`. -/
  order : String
  /-- `order_management.order_all`. -/
  orderAll : String
  /-- `ws.realtime`. -/
  realtime : String
  deriving DecidableEq, Repr

/-- `API::create`. -/
def API.create : API where
  order := "/api/v1/order"
  orderAll := "/api/v1/order/all"
  realtime := "/realtime"

/-- The paths of the calls. -/
def API.paths (api : API) : List String := [api.order, api.orderAll, api.realtime]

/-- `web::http::Accept` and `web::http::ContentType`, as far as they are used. -/
inductive MediaType where
  | applicationJson
  deriving DecidableEq, Repr

/-- A `web::rest::Request`. -/
structure RestRequest where
  method : Method
  path : String
  query : String := ""
  accept : MediaType := .applicationJson
  contentType : MediaType := .applicationJson
  headers : String
  body : String
  qualityOfService : QualityOfService
  deriving DecidableEq, Repr

/-- A REST request as the exchange receives it. -/
def RestRequest.call (request : RestRequest) : Crypto.Call :=
  ⟨request.method, request.path, request.headers, request.body⟩

/-! ## What a user asks for -/

/-- A `server::oms::Order`, as far as the requests read it. -/
structure Oms.Order where
  account : String
  externalOrderId : String
  deriving DecidableEq, Repr

/-- A request to cancel all orders. -/
structure CancelAllOrders where
  orderId : UInt64
  exchange : String
  symbol : String
  side : Side
  strategyId : UInt32
  deriving DecidableEq, Repr

/-- A request with what the server hands over with it: its source, its account and identifiers, and
the order it is about. -/
inductive OrderRequest where
  | createOrder (source : UInt8) (account : String) (orderId : UInt64) (createOrder : CreateOrder)
      (requestId : String)
  | modifyOrder (source : UInt8) (account : String) (orderId : UInt64) (version : UInt32)
      (modifyOrder : ModifyOrder) (order : Oms.Order) (requestId previousRequestId : String)
  | cancelOrder (source : UInt8) (account : String) (orderId : UInt64) (version : UInt32)
      (order : Oms.Order) (requestId previousRequestId : String)
  | cancelAllOrders (account : String) (cancelAllOrders : CancelAllOrders) (requestId : String)
  deriving DecidableEq

namespace OrderRequest

/-- The account of a request. -/
def account : OrderRequest → String
  | createOrder _ account _ _ _ => account
  | modifyOrder _ account _ _ _ _ _ _ => account
  | cancelOrder _ account _ _ _ _ _ => account
  | cancelAllOrders account _ _ => account

/-- The order a request is about, if it is about one. -/
def order? : OrderRequest → Option Oms.Order
  | modifyOrder _ _ _ _ _ order _ _ => some order
  | cancelOrder _ _ _ _ order _ _ => some order
  | _ => none

/-- The identifier of a request. -/
def requestId : OrderRequest → String
  | createOrder _ _ _ _ requestId => requestId
  | modifyOrder _ _ _ _ _ _ requestId _ => requestId
  | cancelOrder _ _ _ _ _ requestId _ => requestId
  | cancelAllOrders _ _ requestId => requestId

/-- The flow of a request. -/
def flow : OrderRequest → OrderEntry.Flow
  | createOrder .. => .createOrder
  | modifyOrder .. => .modifyOrder
  | cancelOrder .. => .cancelOrder
  | cancelAllOrders .. => .cancelAllOrders

/-- What the callback of a request captures, and the identifier the client hands back to it. A new
order is the first version. -/
def callback : OrderRequest → OrderEntry.Request
  | createOrder source _ orderId _ requestId => ⟨source, orderId, 1, requestId⟩
  | modifyOrder source _ orderId version _ _ requestId _ => ⟨source, orderId, version, requestId⟩
  | cancelOrder source _ orderId version _ requestId _ => ⟨source, orderId, version, requestId⟩
  | cancelAllOrders _ _ requestId => ⟨0, 0, 0, requestId⟩

end OrderRequest

namespace OrderRequests

open Controller (OrderEntryRR)

/-! ## The gateway -/

/-- What is not part of the repository, or belongs to the settings, the configuration or the
build. -/
structure Environment (M : Type u) where
  /-- The number printer of the encoder. -/
  fmt : Double → String
  mac : Mac M
  /-- `utils::codec::Hex::encode`. -/
  hex : List UInt8 → String
  parsers : Json.Parsers
  /-- `settings.exchange`. -/
  exchange : String
  /-- `settings.rest.expires_timeout`. -/
  expiresTimeout : ℤ
  /-- `settings.rest.allow_order_request_pipeline`. -/
  allowOrderRequestPipeline : Bool
  /-- The streams of the connections of an account. -/
  streamId : String → ℕ → ℕ
  /-- Whether assertions are compiled in. -/
  asserts : Bool

/-- An account: its `Crypto`, which all its sessions share, and its connections. -/
structure Account (M : Type u) where
  crypto : Crypto M
  orderEntry : OrderEntryRR

/-- A call that has not been answered: the connection it was sent on and its callback. -/
structure Pending where
  account : String
  index : ℕ
  flow : OrderEntry.Flow
  request : OrderEntry.Request

/-- The accounts, and the calls that have not been answered. -/
structure State (M : Type u) where
  accounts : String → Option (Account M)
  pending : Tickets Pending := .none

/-- What happens. -/
inductive Input where
  /-- `web::rest::Client::Connected` of a connection. -/
  | connected (account : String) (index : ℕ)
  /-- `web::rest::Client::Disconnected` of a connection. -/
  | disconnected (account : String) (index : ℕ)
  /-- The drop copy of an account connects. -/
  | upgrade (account : String) (now : ℤ)
  /-- A user asks for something. -/
  | request (now : ℤ) (request : OrderRequest)
  /-- A call is answered. -/
  | answer (ticket : ℕ) (response : RestResponse)

/-- The assertions of the controller. -/
inductive Site where
  /-- A request has an account. -/
  | accountEmpty
  /-- The account of a request is that of its order. -/
  | accountOrder
  deriving DecidableEq, Repr

/-- What the gateway does. -/
inductive Output where
  /-- Dispatch the status of a connection. -/
  | streamStatus (account : String) (value : StreamStatus)
  /-- The headers a drop copy connects with. -/
  | upgrade (account : String) (headers : String)
  /-- Hand a call and its callback to the client, under the client's number for it. -/
  | send (ticket : ℕ) (pending : Pending) (requestId : String) (request : RestRequest)
  /-- Dispatch an acknowledgement that a request to cancel all orders has been sent. -/
  | forwarded (ack : CancelAllOrdersAck) (strategyId : UInt32)
  /-- Dispatch what an answer comes to. -/
  | dispatch (event : OmsEvent)
  /-- Return the stream a request was sent on. -/
  | returned (streamId : ℕ)
  /-- Throw. -/
  | thrown (e : Controller.Exception)
  /-- A failed `assert`: the process ends where assertions are compiled in. -/
  | assertion (site : Site)

variable {M : Type u} (env : Environment M)

/-- The effects that end the process. -/
def Environment.halts : Output → Bool
  | .assertion _ => env.asserts
  | _ => false

/-- What a connection publishes under. -/
def Environment.session (account : String) (index : ℕ) : Session :=
  ⟨env.streamId account index, account, env.exchange⟩

/-- What the four request functions of `OrderEntry` have in common: unless the connection is not
ready, a call is signed. -/
def sign (ready : Bool) (crypto : Crypto M) (now : ℤ) (method : Method) (path body : String) :
    Except Controller.Exception (Crypto M × RestRequest) :=
  if ¬ ready then .error (.notReady "not ready")
  else
    let expires := Crypto.computeExpires now env.expiresTimeout
    let (crypto, headers) := crypto.createHeaders env.mac env.hex expires method path body
    .ok (crypto,
      { method := method
        path := path
        headers := headers
        body := body
        qualityOfService := OrderEntry.getQualityOfService env.allowOrderRequestPipeline })

/-- `OrderEntry::create_order`. -/
def createOrder (ready : Bool) (crypto : Crypto M) (now : ℤ) (createOrder : CreateOrder)
    (requestId : String) : Except Controller.Exception (Crypto M × RestRequest) :=
  sign env ready crypto now .post API.create.order
    (Json.Encoder.placeOrder env.fmt createOrder requestId)

/-- `OrderEntry::modify_order`. -/
def modifyOrder (ready : Bool) (crypto : Crypto M) (now : ℤ) (modifyOrder : ModifyOrder)
    (requestId previousRequestId : String) :
    Except Controller.Exception (Crypto M × RestRequest) :=
  sign env ready crypto now .put API.create.order
    (Json.Encoder.modifyOrder env.fmt modifyOrder requestId previousRequestId)

/-- `OrderEntry::cancel_order`. -/
def cancelOrder (ready : Bool) (crypto : Crypto M) (now : ℤ) (order : Oms.Order)
    (requestId previousRequestId : String) :
    Except Controller.Exception (Crypto M × RestRequest) :=
  sign env ready crypto now .delete API.create.order
    (Json.Encoder.cancelOrder order.externalOrderId requestId previousRequestId)

/-- `OrderEntry::cancel_all_orders`, up to its acknowledgement. The encoder writes nothing. -/
def cancelAllOrders (ready : Bool) (crypto : Crypto M) (now : ℤ) :
    Except Controller.Exception (Crypto M × RestRequest) :=
  sign env ready crypto now .delete API.create.orderAll ""

/-- The request function for a request. -/
def send (ready : Bool) (crypto : Crypto M) (now : ℤ) :
    OrderRequest → Except Controller.Exception (Crypto M × RestRequest)
  | .createOrder _ _ _ value requestId => createOrder env ready crypto now value requestId
  | .modifyOrder _ _ _ _ value _ requestId previousRequestId =>
      modifyOrder env ready crypto now value requestId previousRequestId
  | .cancelOrder _ _ _ _ order requestId previousRequestId =>
      cancelOrder env ready crypto now order requestId previousRequestId
  | .cancelAllOrders _ _ _ => cancelAllOrders env ready crypto now

/-- The acknowledgement `OrderEntry::cancel_all_orders` sends once it has sent the call. -/
def forwardedAck (session : Session) : OrderRequest → List Output
  | .cancelAllOrders _ value requestId =>
      [.forwarded
        { streamId := session.streamId
          account := session.account
          orderId := value.orderId
          exchange := value.exchange
          symbol := value.symbol
          side := value.side
          origin := .gateway
          requestStatus := .forwarded
          error := .undefined
          text := ""
          requestId := requestId }
        value.strategyId]
  | _ => []

/-- The assertions of `Controller::operator()` about a request. -/
def assertions (request : OrderRequest) : List Output :=
  (if request.account ≠ "" then [] else [.assertion .accountEmpty]) ++
    match request.order? with
    | some order => if request.account = order.account then [] else [.assertion .accountOrder]
    | none => []

/-- `OrderEntry::operator()` of a connection for a request: it throws, or the call is sent and, if
all orders are to be cancelled, acknowledged. -/
def orderEntry (s : State M) (account : Account M) (index : ℕ) (now : ℤ) (request : OrderRequest) :
    State M × List Output :=
  match send env (account.orderEntry.ready index) account.crypto now request with
  | .error e => (s, [.thrown e])
  | .ok (crypto, rest) =>
      let session := env.session request.account index
      let pending : Pending := ⟨request.account, index, request.flow, request.callback⟩
      ({ accounts :=
          Function.update s.accounts request.account (some { account with crypto := crypto })
         pending := s.pending.issue pending },
        .send s.pending.issued pending request.requestId rest ::
          (forwardedAck session request ++ [.returned session.streamId]))

/-- `Controller::operator()` for a request, with `get_order_entry`: the account's next connection
takes it, and an account without connections is unknown. -/
def request (s : State M) (now : ℤ) (request : OrderRequest) : State M × List Output :=
  match s.accounts request.account with
  -- `get_order_entry` comes after the assertions
  | none => (s, assertions request ++ [.thrown (.unknownAccount request.account)])
  | some account =>
      match account.orderEntry.getNext with
      | (_, .error e) => (s, assertions request ++ [.thrown e])
      | (next, .ok index) =>
          let account := { account with orderEntry := next }
          let s := { s with accounts := Function.update s.accounts request.account (some account) }
          let (s, outputs) := orderEntry env s account index now request
          (s, assertions request ++ outputs)

/-- `OrderEntry::operator()(ConnectionStatus)` of a connection. -/
def setStatus (s : State M) (account : String) (index : ℕ) (status : ConnectionStatus) :
    State M × List Output :=
  match s.accounts account with
  | none => (s, [])
  | some value =>
      if index < value.orderEntry.orderEntry.length then
        let orderEntry :=
          { value.orderEntry with orderEntry := value.orderEntry.orderEntry.set index status }
        ({ s with
            accounts := Function.update s.accounts account
              (some { value with orderEntry := orderEntry }) },
          [.streamStatus account ⟨env.streamId account index, status, ""⟩])
      else (s, [])

/-- `REQUEST_EXPIRES` of the drop copy. -/
def requestExpires : ℤ := 5000000000

/-- `DropCopy::create_upgrade_headers`. -/
def upgrade (s : State M) (account : String) (now : ℤ) : State M × List Output :=
  match s.accounts account with
  | none => (s, [])
  | some value =>
      let expires := Crypto.computeExpires now requestExpires
      let (crypto, headers) :=
        value.crypto.createHeaders env.mac env.hex expires .get API.create.realtime ""
      ({ s with
          accounts := Function.update s.accounts account (some { value with crypto := crypto }) },
        [.upgrade account headers])

/-- The client runs the callback of a call it holds. -/
def answer (s : State M) (ticket : ℕ) (response : RestResponse) :
    State M × List Output :=
  match s.pending.find ticket with
  -- a call is answered once
  | none => (s, [])
  | some p =>
      ({ s with pending := s.pending.settle ticket },
        (p.flow.ack env.parsers (env.session p.account p.index) p.request
          response).dispatched.map .dispatch)

/-- One input. -/
def step (s : State M) : Input → State M × List Output
  | .connected account index => setStatus env s account index .ready
  | .disconnected account index => setStatus env s account index .disconnected
  | .upgrade account now => upgrade env s account now
  | .request now request => OrderRequests.request env s now request
  | .answer ticket response => answer env s ticket response

/-- The gateway when it is constructed: each account has its credentials and a number of connections
that have not reported yet. -/
def init (credentials : String → Option (String × String)) (connections : ℕ) : State M where
  accounts account :=
    (credentials account).map fun c =>
      ⟨Crypto.create env.mac c.1 c.2, { orderEntry := List.replicate connections .undefined }⟩

end OrderRequests

/-- The accounts and connections as a machine. -/
def orderRequests {M : Type u} (env : OrderRequests.Environment M) :
    Machine (OrderRequests.State M) OrderRequests.Input OrderRequests.Output where
  step := OrderRequests.step env
  halts := env.halts

/-! ## What a request does -/

namespace OrderRequest

/-- The method of the call for a request. -/
def method : OrderRequest → Method
  | createOrder .. => .post
  | modifyOrder .. => .put
  | cancelOrder .. => .delete
  | cancelAllOrders .. => .delete

/-- The path of the call for a request. -/
def path : OrderRequest → String
  | cancelAllOrders .. => API.create.orderAll
  | _ => API.create.order

/-- The body of the call for a request. -/
def body (fmt : Double → String) : OrderRequest → String
  | createOrder _ _ _ value requestId => Json.Encoder.placeOrder fmt value requestId
  | modifyOrder _ _ _ _ value _ requestId previousRequestId =>
      Json.Encoder.modifyOrder fmt value requestId previousRequestId
  | cancelOrder _ _ _ _ order requestId previousRequestId =>
      Json.Encoder.cancelOrder order.externalOrderId requestId previousRequestId
  | cancelAllOrders _ _ _ => ""

end OrderRequest

namespace OrderRequests

open Controller (OrderEntryRR)

variable {M : Type u} {env : Environment M}

/-- Only assertions that fail come before a request. -/
theorem eq_assertion_of_mem {r : OrderRequest} {o : Output} (h : o ∈ assertions r) :
    ∃ site, o = .assertion site := by
  unfold assertions at h
  rcases List.mem_append.mp h with h | h
  · split at h
    · cases h
    · exact ⟨.accountEmpty, List.mem_singleton.mp h⟩
  · split at h
    · split at h
      · cases h
      · exact ⟨.accountOrder, List.mem_singleton.mp h⟩
    · cases h

/-- The request functions sign one call each. -/
theorem send_eq (ready : Bool) (crypto : Crypto M) (now : ℤ) (r : OrderRequest) :
    send env ready crypto now r =
      sign env ready crypto now r.method r.path (r.body env.fmt) := by
  cases r <;> rfl

/-- The headers a call is signed with, and the `Crypto` after it. -/
def signed (env : Environment M) (crypto : Crypto M) (now : ℤ) (r : OrderRequest) :
    Crypto M × String :=
  crypto.createHeaders env.mac env.hex (Crypto.computeExpires now env.expiresTimeout) r.method
    r.path (r.body env.fmt)

/-- The call for a request. -/
def restRequest (env : Environment M) (crypto : Crypto M) (now : ℤ) (r : OrderRequest) :
    RestRequest where
  method := r.method
  path := r.path
  headers := (signed env crypto now r).2
  body := r.body env.fmt
  qualityOfService := OrderEntry.getQualityOfService env.allowOrderRequestPipeline

/-- A connection that is ready sends the call. -/
theorem send_of_ready (crypto : Crypto M) (now : ℤ) (r : OrderRequest) :
    send env true crypto now r =
      .ok ((signed env crypto now r).1, restRequest env crypto now r) := by
  rw [send_eq]
  rfl

/-- A connection that is ready is one. -/
theorem lt_of_ready {rr : OrderEntryRR} {i : ℕ} (h : rr.ready i = true) :
    i < rr.orderEntry.length := by
  unfold OrderEntryRR.ready at h
  rw [beq_iff_eq] at h
  exact (List.getElem?_eq_some_iff.mp h).1

/-- A connection that is taken is ready, before the call and after it. -/
theorem ready_of_getNext {rr : OrderEntryRR} {i : ℕ} (h : rr.getNext.2 = .ok i) :
    rr.ready i = true ∧ rr.getNext.1.ready i = true := by
  have hselected := rr.getNext_selected
  rw [h] at hselected
  obtain ⟨offset, hfind, rfl⟩ := Option.map_eq_some_iff.mp hselected.symm
  have hready := List.find?_some hfind
  refine ⟨hready, ?_⟩
  unfold OrderEntryRR.ready at hready ⊢
  rw [rr.getNext_orderEntry]
  exact hready

/-- What a request that is sent comes to. -/
def sent (env : Environment M) (s : State M) (account : Account M) (index : ℕ) (now : ℤ)
    (r : OrderRequest) : State M × List Output :=
  ({ accounts := Function.update s.accounts r.account
      (some ⟨(signed env account.crypto now r).1, account.orderEntry.getNext.1⟩)
     pending := s.pending.issue ⟨r.account, index, r.flow, r.callback⟩ },
    .send s.pending.issued ⟨r.account, index, r.flow, r.callback⟩ r.requestId
        (restRequest env account.crypto now r) ::
      (forwardedAck (env.session r.account index) r ++ [.returned (env.streamId r.account index)]))

/-- **What a request does.** It throws and leaves everything as it is, or the next connection of its
account, which is ready, sends it. -/
theorem request_cases (env : Environment M) (s : State M) (now : ℤ) (r : OrderRequest) :
    (s.accounts r.account = none ∧
        request env s now r = (s, assertions r ++ [.thrown (.unknownAccount r.account)])) ∨
      (∃ account, s.accounts r.account = some account ∧
        account.orderEntry.getNext.2 = .error (.notReady "get_next") ∧
        request env s now r = (s, assertions r ++ [.thrown (.notReady "get_next")])) ∨
      ∃ account index, s.accounts r.account = some account ∧
        account.orderEntry.getNext.2 = .ok index ∧ account.orderEntry.ready index = true ∧
        request env s now r =
          ((sent env s account index now r).1,
            assertions r ++ (sent env s account index now r).2) := by
  unfold request
  cases haccount : s.accounts r.account with
  | none => exact .inl ⟨rfl, rfl⟩
  | some account =>
      refine .inr ?_
      cases hnext : account.orderEntry.getNext with
      | mk next result =>
          have hnext' : account.orderEntry.getNext.1 = next := congrArg Prod.fst hnext
          have hresult : account.orderEntry.getNext.2 = result := congrArg Prod.snd hnext
          cases result with
          -- the connections may be searched in vain, and then nothing changes
          | error e =>
              obtain rfl := OrderEntryRR.getNext_eq_error hresult
              exact .inl ⟨account, rfl, hresult, by simp only [hnext]⟩
          | ok index =>
              -- what is checked once more when the call is made has just been checked
              obtain ⟨hready, hready'⟩ := ready_of_getNext hresult
              refine .inr ⟨account, index, rfl, hresult, hready, ?_⟩
              rw [hnext'] at hready'
              simp only [hnext, orderEntry, hready', send_of_ready, sent, Function.update_idem]
              rfl

/-! ## What every step keeps -/

/-- An entry of a map is the one that was put last, or one that was there. -/
theorem eq_some_of_update {κ β : Type*} [DecidableEq κ] {f : κ → Option β} {k k' : κ} {x y : β}
    (h : Function.update f k (some x) k' = some y) : k' = k ∧ x = y ∨ k' ≠ k ∧ f k' = some y := by
  by_cases heq : k' = k
  · rw [heq, Function.update_self] at h
    exact .inl ⟨heq, Option.some.inj h⟩
  · rw [Function.update_of_ne heq] at h
    exact .inr ⟨heq, h⟩

/-- The accounts of the gateway: those of the configuration, each with its credentials and its
connections, the search for the next of which starts at one of them. -/
structure Sound (credentials : String → Option (String × String)) (connections : ℕ)
    (secret : M → String) (s : State M) : Prop where
  known : ∀ a, s.accounts a = none ↔ credentials a = none
  key : ∀ a account, s.accounts a = some account →
    credentials a = some (account.crypto.key, secret account.crypto.mac)
  length : ∀ a account, s.accounts a = some account →
    account.orderEntry.orderEntry.length = connections
  index : ∀ a account, s.accounts a = some account → 0 < connections →
    account.orderEntry.index < connections

variable {credentials : String → Option (String × String)} {connections : ℕ} {secret : M → String}
  {s : State M}

/-- One account may go on with the same credentials and as many connections. -/
theorem Sound.update (h : Sound credentials connections secret s) {a : String}
    {account : Account M} (hsome : s.accounts a = some account) (account' : Account M)
    (hkey : account'.crypto.key = account.crypto.key)
    (hsecret : secret account'.crypto.mac = secret account.crypto.mac)
    (hlength : account'.orderEntry.orderEntry.length = account.orderEntry.orderEntry.length)
    (hindex : 0 < connections → account'.orderEntry.index < connections)
    (pending : Tickets Pending) :
    Sound credentials connections secret
      ⟨Function.update s.accounts a (some account'), pending⟩ where
  known b := by
    by_cases hb : b = a
    · subst hb
      have hne : credentials b ≠ none := fun hnone => by
        rw [← h.known b, hsome] at hnone
        cases hnone
      simp [hne]
    · simp only [Function.update_of_ne hb]
      exact h.known b
  key b value hvalue := by
    rcases eq_some_of_update hvalue with ⟨rfl, rfl⟩ | ⟨-, hvalue⟩
    · rw [hkey, hsecret]
      exact h.key b account hsome
    · exact h.key b value hvalue
  length b value hvalue := by
    rcases eq_some_of_update hvalue with ⟨rfl, rfl⟩ | ⟨-, hvalue⟩
    · exact hlength.trans (h.length b account hsome)
    · exact h.length b value hvalue
  index b value hvalue := by
    rcases eq_some_of_update hvalue with ⟨rfl, rfl⟩ | ⟨-, hvalue⟩
    · exact hindex
    · exact h.index b value hvalue

/-- Before the first call every account signs with its own secret. -/
theorem sound_init {hmac : String → String → List UInt8} {text : M → String}
    (h : env.mac.Computes hmac secret text) :
    Sound credentials connections secret (init env credentials connections) where
  known a := by simp [init]
  key a account haccount := by
    obtain ⟨c, hc, rfl⟩ := Option.map_eq_some_iff.mp haccount
    rw [hc]
    simp [Crypto.create, h.create]
  length a account haccount := by
    obtain ⟨c, -, rfl⟩ := Option.map_eq_some_iff.mp haccount
    exact List.length_replicate
  index a account haccount hpos := by
    obtain ⟨c, -, rfl⟩ := Option.map_eq_some_iff.mp haccount
    exact hpos

/-- The search for the next connection stays among them. -/
theorem index_getNext {rr : OrderEntryRR} (hlength : rr.orderEntry.length = connections)
    (hindex : 0 < connections → rr.index < connections) (hpos : 0 < connections) :
    rr.getNext.1.index < connections :=
  ((OrderEntryRR.safe_getNext hlength hindex).index_lt hpos).2

/-- **Every input keeps the accounts sound.** -/
theorem sound_step {hmac : String → String → List UInt8} {text : M → String}
    (henv : env.mac.Computes hmac secret text) (h : Sound credentials connections secret s)
    (i : Input) : Sound credentials connections secret ((orderRequests env).next s i) := by
  have hstatus : ∀ account index status,
      Sound credentials connections secret (setStatus env s account index status).1 := by
    intro account index status
    unfold setStatus
    split
    · exact h
    · next value hvalue =>
        split
        · let rr :=
            { value.orderEntry with orderEntry := value.orderEntry.orderEntry.set index status }
          have hlength : rr.orderEntry.length = value.orderEntry.orderEntry.length :=
            List.length_set
          exact h.update hvalue { value with orderEntry := rr } rfl rfl hlength
            (h.index account value hvalue) s.pending
        · exact h
  cases i with
  | connected account index => exact hstatus account index .ready
  | disconnected account index => exact hstatus account index .disconnected
  | upgrade account now =>
      show Sound credentials connections secret (upgrade env s account now).1
      unfold upgrade
      split
      · exact h
      · next value hvalue =>
          obtain ⟨hkey, hsecret⟩ := Crypto.createHeaders_keeps env.hex henv value.crypto
            (Crypto.computeExpires now requestExpires) .get API.create.realtime ""
          let crypto := (value.crypto.createHeaders env.mac env.hex
            (Crypto.computeExpires now requestExpires) .get API.create.realtime "").1
          exact h.update hvalue { value with crypto := crypto } hkey hsecret rfl
            (h.index account value hvalue) s.pending
  | request now r =>
      show Sound credentials connections secret (request env s now r).1
      rcases request_cases env s now r with ⟨-, hstep⟩ | ⟨_, -, -, hstep⟩ |
        ⟨account, index, haccount, -, -, hstep⟩
      · rw [hstep]
        exact h
      · rw [hstep]
        exact h
      · rw [hstep]
        -- a call changes the `Crypto` it is signed with and where the next search starts
        obtain ⟨hkey, hsecret⟩ := Crypto.createHeaders_keeps env.hex henv account.crypto
          (Crypto.computeExpires now env.expiresTimeout) r.method r.path (r.body env.fmt)
        refine h.update haccount ⟨_, _⟩ hkey hsecret ?_ ?_ _
        · exact congrArg List.length account.orderEntry.getNext_orderEntry
        · exact index_getNext (h.length _ _ haccount) (h.index _ _ haccount)
  | answer ticket response =>
      show Sound credentials connections secret (answer env s ticket response).1
      unfold answer
      split
      · exact h
      · exact ⟨h.known, h.key, h.length, h.index⟩

/-! ## A gateway with one account -/

/-- Lower-case hexadecimal digits. -/
def hexEncode (bytes : List UInt8) : String :=
  .ofList (bytes.flatMap fun byte =>
    [Nat.digitChar (byte.toNat / 16), Nat.digitChar (byte.toNat % 16)])

/-- The digests, by HMAC-SHA256, of two texts. -/
def digestOf (secret text : String) : List UInt8 :=
  if secret = "secret" ∧ text = "GET/realtime1518064236" then
    [3, 141, 196, 166, 176, 255, 5, 238, 66, 244, 34, 122, 190, 18, 124, 239, 228, 197, 81, 165,
      180, 144, 14, 87, 35, 75, 7, 183, 39, 81, 137, 195]
  else if secret = "secret" ∧ text = "DELETE/api/v1/order/all1518064236" then
    [155, 73, 78, 31, 106, 185, 0, 49, 1, 33, 241, 21, 234, 150, 147, 13, 100, 202, 157, 56, 9,
      112, 142, 57, 90, 92, 139, 207, 99, 154, 22, 27]
  else []

/-- The surroundings of a gateway with one account. -/
def oneAccount : Environment (String × String) where
  fmt _ := "0"
  mac := Mac.recording digestOf
  hex := hexEncode
  parsers := OrderEntry.arrayParsers
  exchange := "bitmex"
  expiresTimeout := 5000000000
  allowOrderRequestPipeline := true
  streamId _ index := index + 2
  asserts := true

/-- The credentials of the account. -/
def oneAccountCredentials (account : String) : Option (String × String) :=
  if account = "A1" then some ("key", "secret") else none

/-- All orders are cancelled, over the second connection: the first one is down. -/
def cancelsAll : List Input :=
  [.connected "A1" 0, .connected "A1" 1, .upgrade "A1" 1518064231000000000, .disconnected "A1" 0,
    .request 1518064231000000000 (.cancelAllOrders "A1" ⟨0, "", "", .undefined, 0⟩ "r1"),
    .answer 0 (OrderEntry.success "[]"), .disconnected "A1" 1,
    .request 1518064232000000000 (.cancelAllOrders "A1" ⟨0, "", "", .undefined, 0⟩ "r2")]

end OrderRequests

end RoqBitmex
