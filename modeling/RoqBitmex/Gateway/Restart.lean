import RoqBitmex.Gateway.Lifecycle
import RoqBitmex.Library.Lockstep

/-! # A new connection is a new session

What a session does on a connection does not depend on the connections before it, nor on how its
download is represented: after a disconnect it puts out what a new session would that was given its
caches (`MarketData.restart`). A drop copy has none, so that it starts over
(`DropCopy.startsOver`). -/

namespace RoqBitmex

universe u v

/-! ## Market data -/

namespace MarketData

variable {D : Type u} {D' : Type v} {g : Gateway} {dl : Download D} {dl' : Download D'}
  {stage : D → DownloadState × ℕ} {stage' : D' → DownloadState × ℕ}

/-- A new session with the caches of another one. -/
def afresh (s : MarketData D) (dl' : Download D') : MarketData D' :=
  { init dl' with productCache := s.productCache, priceCache := s.priceCache }

/-- Two sessions with the same snapshots received and the same caches. -/
structure SameData (s : MarketData D) (s' : MarketData D') : Prop where
  partialReceived : s.partialReceived = s'.partialReceived
  productCache : s.productCache = s'.productCache
  priceCache : s.priceCache = s'.priceCache

/-- Two sessions in one phase with the same data: their downloads may be represented differently,
and what they announced last may differ. -/
structure Twins (stage : D → DownloadState × ℕ) (stage' : D' → DownloadState × ℕ) (p : Phase)
    (s : MarketData D) (s' : MarketData D') : Prop extends SameData s s' where
  left : InPhase stage s p
  right : InPhase stage' s' p

namespace Phase

/-- What an answer for a state of the download puts out. -/
def answered (g : Gateway) : Phase → DownloadState → List Effect
  | instrument _, .instrument =>
      [.dispatch (.streamStatus ⟨g.streamId, .downloading, "order-book-l2"⟩),
        .subscribe [.quote, .orderBookL2, .trade, .funding, .liquidation, .settlement]]
  | orderBookL2, .orderBookL2 => [.dispatch (.streamStatus ⟨g.streamId, .ready, ""⟩)]
  | _, _ => []

end Phase

/-- A call of `check_relaxed` puts out what the phase has. -/
theorem checkRelaxed_effects (hdl : dl.Follows stage) {s : MarketData D} {p : Phase}
    (hstate : (stage s.download).1 = p.state)
    (hcount : p.state.count = 1 → stage s.download = (p.state, 1))
    (hready : s.ready = decide (p = .done)) {state : DownloadState}
    (hanswer : state = .instrument ∨ state = .orderBookL2) :
    (s.checkRelaxed g dl state).2 = p.answered g state := by
  by_cases hother : p.state = state
  · rcases hanswer with rfl | rfl
    · cases p with
      | instrument spent =>
          obtain ⟨d, -, hcall⟩ := checkRelaxed_instrument (g := g) hdl (hcount rfl)
          rw [hcall]
          rfl
      | _ => cases hother
    · cases p with
      | orderBookL2 =>
          obtain ⟨d, -, hcall⟩ := checkRelaxed_orderBookL2 (g := g) hdl (hcount rfl)
          rw [hcall, hready]
          rfl
      | _ => cases hother
  -- an answer that is not waited for goes nowhere
  · obtain ⟨d, -, hcall⟩ := checkRelaxed_other (g := g) (s := s) hdl (hstate ▸ hother)
    rw [hcall]
    cases p with
    | instrument spent =>
        rcases hanswer with rfl | rfl
        · exact absurd rfl hother
        · rfl
    | orderBookL2 =>
        rcases hanswer with rfl | rfl
        · rfl
        · exact absurd rfl hother
    | _ => rfl

/-- A call of `check_relaxed` is answered alike. -/
theorem alike_checkRelaxed (hdl : dl.Follows stage) (hdl' : dl'.Follows stage') {p : Phase}
    {s : MarketData D} {s' : MarketData D'} (hdata : SameData s s')
    (hstate : (stage s.download).1 = p.state)
    (hcount : p.state.count = 1 → stage s.download = (p.state, 1))
    (hready : s.ready = decide (p = .done))
    (hstate' : (stage' s'.download).1 = p.state)
    (hcount' : p.state.count = 1 → stage' s'.download = (p.state, 1))
    (hready' : s'.ready = decide (p = .done)) {state : DownloadState}
    (hanswer : state = .instrument ∨ state = .orderBookL2) :
    Machine.Alike SameData (s.checkRelaxed g dl state) (s'.checkRelaxed g dl' state) := by
  obtain ⟨hflags, hproducts, hprices, -⟩ := checkRelaxed_frame g dl s state
  obtain ⟨hflags', hproducts', hprices', -⟩ := checkRelaxed_frame g dl' s' state
  refine ⟨?_, ?_, ?_, ?_⟩
  · rw [checkRelaxed_effects hdl hstate hcount hready hanswer,
      checkRelaxed_effects hdl' hstate' hcount' hready' hanswer]
  · rw [hflags, hflags', hdata.partialReceived]
  · rw [hproducts, hproducts', hdata.productCache]
  · rw [hprices, hprices', hdata.priceCache]

/-- Rows are answered alike. -/
theorem alike_handleRows {s : MarketData D} {s' : MarketData D'} (h : SameData s s')
    (rows : List ProductRow) :
    Machine.Alike SameData (s.handleRows g rows) (s'.handleRows g rows) := by
  unfold handleRows
  rw [h.productCache]
  exact ⟨rfl, h.partialReceived, rfl, h.priceCache⟩

/-- Twins answer an instrument message alike. -/
theorem alike_instrument (hdl : dl.Follows stage) (hdl' : dl'.Follows stage') {p : Phase}
    {s : MarketData D} {s' : MarketData D'} (h : Twins stage stage' p s s')
    (message : Json.Instrument) :
    Machine.Alike SameData (s.instrument g dl message) (s'.instrument g dl' message) := by
  unfold instrument
  rw [h.partialReceived]
  cases message.action with
  | partial_ =>
      dsimp only
      split
      · exact ⟨rfl, h.toSameData⟩
      -- the products may have been changed by the rows when the download is told
      · have hflag : SameData
            { s with partialReceived := { s'.partialReceived with instrument := true } }
            { s' with partialReceived := { s'.partialReceived with instrument := true } } :=
          ⟨rfl, h.productCache, h.priceCache⟩
        obtain ⟨hrows, hdata⟩ := alike_handleRows (g := g) hflag (message.data.map .partial_)
        obtain ⟨hcall, hdata'⟩ := alike_checkRelaxed (g := g) hdl hdl' hdata h.left.state
          h.left.count h.left.ready h.right.state h.right.count h.right.ready (Or.inl rfl)
        exact ⟨congrArg₂ (· ++ ·) hrows hcall, hdata'⟩
  | update =>
      dsimp only
      split
      · exact alike_handleRows h.toSameData _
      · exact ⟨rfl, h.toSameData⟩
  | _ => exact ⟨rfl, h.toSameData⟩

/-- What the rows of a book message come to is the same. -/
theorem bookResult_eq {s : MarketData D} {s' : MarketData D'} (h : SameData s s')
    (message : Json.OrderBookL2) : s.bookResult g message = s'.bookResult g message := by
  rw [bookResult, bookResult, h.priceCache]

/-- Twins answer a book message alike. -/
theorem alike_orderBookL2 (hdl : dl.Follows stage) (hdl' : dl'.Follows stage') {p : Phase}
    {s : MarketData D} {s' : MarketData D'} (h : Twins stage stage' p s s')
    (message : Json.OrderBookL2) (badState : List Bool) :
    Machine.Alike SameData (s.orderBookL2 g dl message badState)
      (s'.orderBookL2 g dl' message badState) := by
  -- what is published depends on the prices, which are the same
  have hresult := bookResult_eq (g := g) h.toSameData message
  have hafter : SameData (s.afterBook g message badState) (s'.afterBook g message badState) := by
    unfold afterBook
    rw [hresult, h.partialReceived]
    exact ⟨rfl, h.productCache, rfl⟩
  have heffects : s.bookEffects g message badState = s'.bookEffects g message badState := by
    unfold bookEffects
    rw [hresult]
  by_cases hhandled : message.action = .partial_ ∨ s.partialReceived.orderBookL2 = true
  · have hhandled' : message.action = .partial_ ∨ s'.partialReceived.orderBookL2 = true :=
      h.partialReceived ▸ hhandled
    rw [orderBookL2_eq g dl hhandled, orderBookL2_eq g dl' hhandled', hresult, heffects]
    cases (s'.bookResult g message).stop with
    | some stop => exact ⟨rfl, hafter⟩
    | none =>
        dsimp only
        split
        · obtain ⟨hcall, hdata⟩ := alike_checkRelaxed (g := g) hdl hdl' hafter h.left.state
            h.left.count h.left.ready h.right.state h.right.count h.right.ready (Or.inr rfl)
          exact ⟨congrArg _ hcall, hdata⟩
        · exact ⟨rfl, hafter⟩
  · have hhandled' : ¬ (message.action = .partial_ ∨ s'.partialReceived.orderBookL2 = true) :=
      h.partialReceived ▸ hhandled
    rw [not_or, Bool.not_eq_true] at hhandled hhandled'
    rw [orderBookL2_dropped hhandled.1 hhandled.2, orderBookL2_dropped hhandled'.1 hhandled'.2]
    exact ⟨rfl, h.toSameData⟩

/-- **Twins answer alike.** -/
theorem alike_step (hdl : dl.Follows stage) (hdl' : dl'.Follows stage')
    {a : Script Phase Control} {s : MarketData D} {s' : MarketData D'}
    (h : Twins stage stage' a.phase s s') {i : Input} (hok : GreetsOnce s' a i) :
    Machine.Alike SameData (s.step g dl i) (s'.step g dl' i) := by
  cases i with
  | ready => exact ⟨rfl, h.partialReceived, h.productCache, h.priceCache⟩
  -- the flags are cleared and the caches are kept
  | disconnected => exact ⟨rfl, rfl, h.productCache, h.priceCache⟩
  | event event badState =>
      cases event with
      | welcome value =>
          obtain ⟨d, -, hbegin⟩ := begin_eq (g := g) hdl (h.left.state.trans hok)
          obtain ⟨d', -, hbegin'⟩ := begin_eq (g := g) hdl' (h.right.state.trans hok)
          show Machine.Alike SameData (s.begin g dl) (s'.begin g dl')
          rw [hbegin, hbegin']
          exact ⟨rfl, h.partialReceived, h.productCache, h.priceCache⟩
      | instrument message => exact alike_instrument hdl hdl' h message
      | orderBookL2 message => exact alike_orderBookL2 hdl hdl' h message badState
      | funding message => exact alike_handleRows h.toSameData _
      | _ => exact ⟨rfl, h.toSameData⟩

/-- The script is the same. -/
theorem script_eq {s : MarketData D} {s' : MarketData D'} (h : SameData s s') (p : Phase)
    (i : Input) : script g s p i = script g s' p i := by
  cases i with
  | event event badState =>
      cases event with
      | orderBookL2 message =>
          have hresult := bookResult_eq (g := g) h message
          have hhandled : s.Handled message ↔ s'.Handled message := by
            unfold Handled
            rw [h.partialReceived]
          simp only [script, hhandled, hresult]
      | _ => rfl
  | _ => rfl

/-- Twins stay twins, in the phase of the script. -/
theorem twins_step (hdl : dl.Follows stage) (hdl' : dl'.Follows stage')
    {a : Script Phase Control} {s : MarketData D} {s' : MarketData D'}
    (h : Twins stage stage' a.phase s s') {i : Input} (hok : GreetsOnce s' a i) :
    Machine.Alike (Twins stage stage' (script g s' a.phase i).1) (s.step g dl i)
      (s'.step g dl' i) := by
  have hok' : GreetsOnce s a i := hok
  obtain ⟨hsame, hdata⟩ := alike_step (g := g) hdl hdl' h hok
  have hleft := (scripted_step (g := g) hdl h.left hok').2
  rw [script_eq h.toSameData] at hleft
  exact ⟨hsame, hdata, hleft, (scripted_step (g := g) hdl' h.right hok).2⟩

/-- **A new connection is a new session.** From whatever state it loses its connection, a session
puts out along every run what a new session with its caches puts out, whichever of two downloads
that go through the stages in order either of them uses, if the exchange greets once on a
connection. -/
theorem restart (hdl : dl.Follows stage) (hdl' : dl'.Follows stage') (s : MarketData D)
    (is : List Input)
    (h : (marketData g dl').Along ((Script.monitor (script g)).ofMarks Effect.control?) GreetsOnce
      (s.afresh dl') ⟨.idle false, []⟩ is) :
    (marketData g dl).outputs ((marketData g dl).next s .disconnected) is =
      (marketData g dl').outputs (s.afresh dl') is := by
  refine Machine.outputs_eq_of_lockstep ?_
    (fun (a : Script Phase Control) (s : MarketData D) (s' : MarketData D') =>
      Twins stage stage' a.phase s s') ?_ ?_ h
  · rfl
  · intro a s s' i htwins hok
    obtain ⟨hsame, hnext⟩ := twins_step (g := g) hdl hdl' htwins hok
    refine ⟨hsame, ?_⟩
    rw [Machine.after, Script.phase_outputs]
    exact hnext
  -- a download that is reset is where one that has not begun is
  · refine ⟨⟨rfl, rfl, rfl⟩, ⟨hdl.reset s.download, ?_, rfl, rfl⟩, ⟨hdl'.idle, ?_, rfl, rfl⟩⟩
    all_goals rintro ⟨⟩

/-- A session that is ready. -/
def readySession : MarketData DownloadState where
  ready := true
  connectionStatus := .ready
  download := .done
  partialReceived := ⟨true, true⟩
  priceCache := Function.update (fun _ => none) 1 (some 10)

/-- A session that was ready is greeted again. -/
theorem restart_lateReady :
    (marketData .keepAll .inOrder).outputs
        ((marketData .keepAll .inOrder).next readySession .disconnected) lateReady =
      (marketData .keepAll .inOrder).outputs (readySession.afresh .inOrder) lateReady :=
  restart Download.follows_inOrder Download.follows_inOrder readySession lateReady
    (by decide +kernel)

end MarketData

/-! ## Drop copy -/

namespace DropCopy

variable {D : Type u} {D' : Type v} {c : Settings} {dl : Stages State D} {dl' : Stages State D'}
  {stage : D → State × ℕ} {stage' : D' → State × ℕ}

/-- Two sessions in one phase that are to keep their orders until the same time: their downloads may
be represented differently, and what they announced last may differ. -/
structure Twins (stage : D → State × ℕ) (stage' : D' → State × ℕ) (p : Phase) (s : DropCopy D)
    (s' : DropCopy D') : Prop where
  nextCancelAllAfter : s.nextCancelAllAfter = s'.nextCancelAllAfter
  left : InPhase stage s p
  right : InPhase stage' s' p

/-- Twins are ready together. -/
theorem Twins.ready {p : Phase} {s : DropCopy D} {s' : DropCopy D'}
    (h : Twins stage stage' p s s') : s.ready = s'.ready := h.left.ready.trans h.right.ready.symm

/-- Twins have received the same. -/
theorem Twins.partialReceived {p : Phase} {s : DropCopy D} {s' : DropCopy D'}
    (h : Twins stage stage' p s s') : s.partialReceived = s'.partialReceived :=
  h.left.spent.trans h.right.spent.symm

/-- Two sessions that are to keep their orders until the same time. -/
def SameTime (s : DropCopy D) (s' : DropCopy D') : Prop :=
  s.nextCancelAllAfter = s'.nextCancelAllAfter

/-- An order snapshot is answered alike, once the flag has been set for it. -/
theorem alike_checkRelaxed (hdl : Follows dl stage) (hdl' : Follows dl' stage') {p : Phase}
    {s : DropCopy D} {s' : DropCopy D'} (h : Twins stage stage' p s s') :
    Machine.Alike SameTime (checkRelaxed c dl { s with partialReceived := true } .subscribe)
      (checkRelaxed c dl' { s' with partialReceived := true } .subscribe) := by
  by_cases hwaits : p.state = .subscribe
  · have hcount : p.state.count = 1 := by
      rw [hwaits]
      rfl
    have hstage := h.left.count hcount
    have hstage' := h.right.count hcount
    rw [hwaits] at hstage hstage'
    obtain ⟨d, -, hcall⟩ := checkRelaxed_subscribe (c := c)
      (s := { s with partialReceived := true }) hdl hstage
    obtain ⟨d', -, hcall'⟩ := checkRelaxed_subscribe (c := c)
      (s := { s' with partialReceived := true }) hdl' hstage'
    rw [hcall, hcall', h.ready]
    exact ⟨rfl, h.nextCancelAllAfter⟩
  · obtain ⟨d, -, hcall⟩ := checkRelaxed_other (c := c)
      (s := { s with partialReceived := true }) hdl (h.left.state.symm ▸ hwaits)
    obtain ⟨d', -, hcall'⟩ := checkRelaxed_other (c := c)
      (s := { s' with partialReceived := true }) hdl' (h.right.state.symm ▸ hwaits)
    rw [hcall, hcall']
    exact ⟨rfl, h.nextCancelAllAfter⟩

/-- **Twins answer alike.** -/
theorem alike_step (hdl : Follows dl stage) (hdl' : Follows dl' stage')
    {a : Script Phase Control} {s : DropCopy D} {s' : DropCopy D'}
    (h : Twins stage stage' a.phase s s') {i : Input} (hok : GreetsOnce s' a i) :
    Machine.Alike SameTime (s.step c dl i) (s'.step c dl' i) := by
  cases i with
  | ready => exact ⟨rfl, h.nextCancelAllAfter⟩
  | disconnected => exact ⟨rfl, rfl⟩
  | timer now refreshed =>
      -- the timer looks at the flag, which follows from the phase, and at the time
      show Machine.Alike SameTime (s.timer c now refreshed) (s'.timer c now refreshed)
      unfold timer
      rw [h.ready, h.nextCancelAllAfter]
      split
      · exact ⟨rfl, h.nextCancelAllAfter⟩
      · split
        · exact ⟨rfl, rfl⟩
        · exact ⟨rfl, h.nextCancelAllAfter⟩
  | event event lookup =>
      cases event with
      | welcome value =>
          obtain ⟨d, -, hbegin⟩ := begin_eq (c := c) hdl (h.left.state.trans hok)
          obtain ⟨d', -, hbegin'⟩ := begin_eq (c := c) hdl' (h.right.state.trans hok)
          show Machine.Alike SameTime (s.welcome c dl) (s'.welcome c dl')
          unfold welcome
          rw [hbegin, hbegin']
          exact ⟨rfl, h.nextCancelAllAfter⟩
      | order message =>
          show Machine.Alike SameTime (s.order c dl message) (s'.order c dl' message)
          rw [order_eq, order_eq, h.partialReceived]
          split
          · obtain ⟨hcall, htime⟩ := alike_checkRelaxed (c := c) hdl hdl' h
            exact ⟨congrArg _ hcall, htime⟩
          · exact ⟨rfl, h.nextCancelAllAfter⟩
      | _ => exact ⟨rfl, h.nextCancelAllAfter⟩

/-- **A drop copy starts over.** From whatever state it loses its connection, a drop copy puts out
along every run what a new one does, whichever of two downloads that go through the stages in order
either of them uses, if the exchange greets once on a connection. -/
theorem startsOver (hdl : Follows dl stage) (hdl' : Follows dl' stage') (s : DropCopy D)
    (is : List Input)
    (h : (dropCopy c dl').Along ((Script.monitor script).ofMarks Effect.control?) GreetsOnce
      (init dl') ⟨.idle false, []⟩ is) :
    (dropCopy c dl).outputs ((dropCopy c dl).next s .disconnected) is =
      (dropCopy c dl').outputs (init dl') is := by
  refine Machine.outputs_eq_of_lockstep ?_
    (fun (a : Script Phase Control) (s : DropCopy D) (s' : DropCopy D') =>
      Twins stage stage' a.phase s s') ?_ ?_ h
  · rfl
  · intro a s s' i htwins hok
    have hok' : GreetsOnce s a i := hok
    obtain ⟨hsame, htime⟩ := alike_step (c := c) hdl hdl' htwins hok
    refine ⟨hsame, htime, ?_, ?_⟩
    · rw [Machine.after, Script.phase_outputs]
      exact (scripted_step (c := c) hdl htwins.left hok').2
    · rw [Machine.after, Script.phase_outputs]
      exact (scripted_step (c := c) hdl' htwins.right hok).2
  · refine ⟨rfl, ⟨hdl.reset s.download, ?_, rfl, rfl⟩, ⟨hdl'.idle, ?_, rfl, rfl⟩⟩
    all_goals rintro ⟨⟩

/-- A drop copy that was ready is greeted again. -/
theorem startsOver_lateReady :
    (dropCopy keepOrders inOrder).outputs
        ((dropCopy keepOrders inOrder).next
          ⟨true, 5, .ready, (State.done, 0), true⟩ .disconnected) lateReady =
      (dropCopy keepOrders inOrder).outputs (init inOrder) lateReady :=
  startsOver (Stages.follows_inOrder _ _ _) (Stages.follows_inOrder _ _ _) _ lateReady
    (by decide +kernel)

end DropCopy

end RoqBitmex
