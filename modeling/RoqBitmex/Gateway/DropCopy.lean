import RoqBitmex.Gateway.Api
import RoqBitmex.Gateway.OrderUpdate
import RoqBitmex.Gateway.Position
import RoqBitmex.Library.Machine
import RoqBitmex.Library.Stages
import RoqBitmex.Protocol.Parser

/-! # The drop-copy session

`DropCopy` as a machine: its inputs are the connection's events, the messages of the exchange and
the timer, its outputs the effects of the handlers. `core::Download` is not part of the repository,
so a session is given one. Durations and instants are counts of nanoseconds. -/

namespace RoqBitmex

universe u

namespace DropCopy

/-- `DropCopy::State`: the states of the download. -/
inductive State where
  | undefined
  | subscribe
  | done
  deriving DecidableEq, Repr

/-- The value `DropCopy::download` returns for a state: how many answers to wait for. -/
def State.count : State → Nat
  | .undefined => 0
  | .subscribe => 1
  | .done => 0

/-- The states a download goes through after a state. -/
def State.after : State → List State
  | .undefined => [.subscribe, .done]
  | .subscribe => [.done]
  | .done => []

/-- The places where the process can end. -/
inductive Site where
  /-- `log::fatal` for a message of the public tables. -/
  | unexpectedTable
  /-- `log::fatal` for an unsubscribe acknowledgement that is neither success nor failure. -/
  | unsubscribe
  /-- The assertion that an unsubscribe acknowledgement is not both. -/
  | unsubscribeSuccess
  /-- `assert(false)` for an undefined download state. -/
  | downloadState
  /-- The assertion that a session becomes ready once. -/
  | downloadReady
  deriving DecidableEq, Repr

/-- What a handler does. -/
inductive Effect where
  /-- Dispatch an order report, its response or a trade. -/
  | dispatch (event : OmsEvent)
  /-- Dispatch a position. -/
  | position (update : PositionUpdate)
  /-- Dispatch the status of the connection. -/
  | streamStatus (value : StreamStatus)
  /-- `send_subscribe`: the topics are named after their tables. -/
  | subscribe (topics : List Json.Table)
  /-- `send_cancel_all_after`: the timeout in milliseconds. -/
  | cancelAllAfter (milliseconds : Int)
  /-- Close the connection. -/
  | close
  /-- `log::fatal`: the process ends. -/
  | fatal (site : Site)
  /-- A failed `assert`: the process ends where assertions are compiled in. -/
  | assertion (site : Site)
  deriving DecidableEq, Repr

/-- What the session takes from its account, its settings and its build. -/
structure Settings where
  session : Session
  /-- `settings.ws.cancel_on_disconnect`. -/
  cancelOnDisconnect : Bool
  /-- `settings.ws.cancel_all_after`. -/
  cancelAllAfter : Int
  /-- Whether assertions are compiled in. -/
  asserts : Bool

/-- The effects that end the process. -/
def Settings.halts (c : Settings) : Effect → Bool
  | .fatal _ => true
  | .assertion _ => c.asserts
  | _ => false

/-- An assertion: no effect when it holds. -/
def assertEffect (condition : Bool) (site : Site) : List Effect :=
  if condition then [] else [.assertion site]

end DropCopy

/-- The state of the session. -/
structure DropCopy (D : Type u) where
  ready : Bool := false
  nextCancelAllAfter : Int := 0
  connectionStatus : ConnectionStatus := .undefined
  download : D
  /-- `partial_received_.order`. -/
  partialReceived : Bool := false

namespace DropCopy

variable {D : Type u} (c : Settings) (dl : Stages State D)

/-- The session when it is constructed. -/
def init : DropCopy D where
  download := dl.idle

/-! ## The download -/

/-- `DropCopy::operator()(ConnectionStatus, reason)`. -/
def setStatus (s : DropCopy D) (status : ConnectionStatus) (reason : String) :
    DropCopy D × List Effect :=
  ({ s with connectionStatus := status }, [.streamStatus ⟨c.session.streamId, status, reason⟩])

/-- `DropCopy::download`: what the session does when the download enters a state. -/
def enter (s : DropCopy D) : State → DropCopy D × List Effect
  | .undefined => (s, [.assertion .downloadState])
  | .subscribe =>
      let (s, effects) := s.setStatus c .downloading "subscribe"
      (s, effects ++ [.subscribe [.execution, .order, .margin, .position]])
  | .done =>
      let (s, effects) := s.setStatus c .ready ""
      -- the assertion is about the flag before it is set
      ({ s with ready := true }, effects ++ assertEffect (!s.ready) .downloadReady)

/-- The states a call of the download enters, one after another. -/
def enterAll (s : DropCopy D) : List State → DropCopy D × List Effect
  | [] => (s, [])
  | state :: rest =>
      let (s, effects) := s.enter c state
      let (s, effects') := enterAll s rest
      (s, effects ++ effects')

/-- `download_.begin()`. -/
def begin (s : DropCopy D) : DropCopy D × List Effect :=
  let (download, entered) := dl.begin State.count s.download
  enterAll c { s with download := download } entered

/-- `download_.check_relaxed(state)`. -/
def checkRelaxed (s : DropCopy D) (state : State) : DropCopy D × List Effect :=
  let (download, entered) := dl.checkRelaxed State.count s.download state
  enterAll c { s with download := download } entered

/-! ## The handlers -/

/-- `DropCopy::operator()(web::socket::Client::Ready)`. -/
def socketReady (s : DropCopy D) : DropCopy D × List Effect := s.setStatus c .loginSent ""

/-- `DropCopy::operator()(web::socket::Client::Disconnected)`. -/
def socketDisconnected (s : DropCopy D) : DropCopy D × List Effect :=
  setStatus c
    { s with
      ready := false
      nextCancelAllAfter := 0
      partialReceived := false
      download := dl.reset s.download }
    .disconnected ""

/-- `DropCopy::send_cancel_all_after`. -/
def sendCancelAllAfter (timeout : Int) : Effect := .cancelAllAfter (timeout.tdiv 1000000)

/-- `DropCopy::operator()(Event<Timer>)`, given what `refresh` of the connection returns. -/
def timer (s : DropCopy D) (now : Int) (refreshed : Bool) : DropCopy D × List Effect :=
  if ¬ refreshed then (s, [])
  else if c.cancelOnDisconnect ∧ c.cancelAllAfter ≠ 0 ∧ s.ready ∧ s.nextCancelAllAfter ≤ now then
    ({ s with nextCancelAllAfter := now + c.cancelAllAfter.tdiv 4 },
      [sendCancelAllAfter c.cancelAllAfter])
  else (s, [])

/-- `DropCopy::operator()(Trace<Welcome>)`. -/
def welcome (s : DropCopy D) : DropCopy D × List Effect :=
  let (s, effects) := s.begin c dl
  (s, effects ++
    if ¬ c.cancelOnDisconnect ∨ c.cancelAllAfter = 0 then [sendCancelAllAfter 0] else [])

/-- `DropCopy::operator()(Trace<Unsubscribe>)`. -/
def unsubscribe (message : Json.Unsubscribe) : List Effect :=
  if message.success then assertEffect (!message.failure) .unsubscribeSuccess
  else if message.failure then []
  else [.fatal .unsubscribe]

/-- `DropCopy::operator()(Trace<Order>)`. -/
def order (s : DropCopy D) (message : Json.Order) : DropCopy D × List Effect :=
  let download := !s.partialReceived && decide (message.action = .partial_)
  let effects :=
    (message.data.flatMap fun item => OrderUpdate.dropCopy c.session item download).map .dispatch
  if download then
    let (s, effects') := checkRelaxed c dl { s with partialReceived := true } .subscribe
    (s, effects ++ effects')
  else (s, effects)

/-- The handler overloads of `DropCopy`, given the order the dispatcher matches with each update it
is handed. -/
def handle (s : DropCopy D) (event : Json.Event) (lookup : Oms.OrderUpdate → Option OrderRef) :
    DropCopy D × List Effect :=
  match event with
  | .welcome _ => s.welcome c dl
  | .error _ => (s, [.close])
  -- acknowledgements are only logged
  | .subscribe _ => (s, [])
  | .unsubscribe message => (s, unsubscribe message)
  -- the public tables are not expected on this connection
  | .instrument _ => (s, [.fatal .unexpectedTable])
  | .quote _ => (s, [.fatal .unexpectedTable])
  | .orderBookL2 _ => (s, [.fatal .unexpectedTable])
  | .trade _ => (s, [.fatal .unexpectedTable])
  | .funding _ => (s, [.fatal .unexpectedTable])
  | .liquidation => (s, [.fatal .unexpectedTable])
  | .settlement => (s, [.fatal .unexpectedTable])
  | .cancelAllAfter _ => (s, [])
  | .order message => s.order c dl message
  | .execution message => (s, (execution c.session lookup message).map .dispatch)
  | .margin => (s, [])
  | .position message => (s, (position c.session message).map .position)

/-- What happens to the session: the connection is ready or lost, a message arrives, with the
dispatcher's matches for the updates it leads to, or the timer fires. -/
inductive Input where
  | ready
  | disconnected
  | event (event : Json.Event) (lookup : Oms.OrderUpdate → Option OrderRef)
  | timer (now : Int) (refreshed : Bool)

/-- One input. -/
def step (s : DropCopy D) : Input → DropCopy D × List Effect
  | .ready => s.socketReady c
  | .disconnected => s.socketDisconnected c dl
  | .event event lookup => s.handle c dl event lookup
  | .timer now refreshed => s.timer c now refreshed

end DropCopy

/-- The session as a machine. -/
def dropCopy (c : DropCopy.Settings) {D : Type u} (dl : Stages DropCopy.State D) :
    Machine (DropCopy D) DropCopy.Input DropCopy.Effect where
  step := DropCopy.step c dl
  halts := c.halts

end RoqBitmex
