import RoqBitmex.Gateway.BookSession
import RoqBitmex.Library.Stages

/-! # When the market data session is ready

A session announces that it is ready when its download is done. `MarketData.announces` says what has
come before on the connection: the snapshots it waits for, each of them whole, and no announcement.
The socket's own event that it is ready is not expected then; it takes the announced status back and
leaves the flag alone. -/

namespace RoqBitmex

universe u

/-! ## What has been announced -/

/-- What has become of the announcement on a connection: whether it has been made, and whether the
socket has reported itself ready after it. -/
structure Standing where
  published : Bool := false
  late : Bool := false
  deriving DecidableEq

namespace Standing

/-- The socket reports itself ready. -/
def socketReady (a : Standing) : Standing := { a with late := a.published }

/-- A status is announced. -/
def announce (a : Standing) (status : ConnectionStatus) : Standing :=
  { a with published := a.published || decide (status = .ready) }

/-- The flag of a session says whether it has been announced ready, and its status says ready as
long as the socket has not reported itself after that. -/
structure Agrees (a : Standing) (ready : Bool) (status : ConnectionStatus) : Prop where
  published : a.published = ready
  late : a.late = true → ready = true
  status : status = .ready ↔ ready = true ∧ a.late = false

variable {a : Standing} {ready : Bool} {status : ConnectionStatus}

/-- A status other than ready goes with a connection that has seen nothing. -/
theorem agrees_of_ne (h : status ≠ .ready) : Agrees {} false status where
  published := rfl
  late hlate := by cases hlate
  status := by simp [h]

/-- The status of a session that has not connected goes with a connection that has seen nothing. -/
theorem agrees_undefined : Agrees {} false .undefined := agrees_of_ne (by decide)

/-- The status of a session that is down goes with a connection that has seen nothing. -/
theorem agrees_disconnected : Agrees {} false .disconnected := agrees_of_ne (by decide)

/-- When the socket is ready, the session waits for the greeting. -/
theorem Agrees.socketReady (h : a.Agrees ready status) :
    a.socketReady.Agrees ready .loginSent where
  published := h.published
  late hlate := by rw [← h.published]; exact hlate
  status := by simp [Standing.socketReady, h.published]

/-- While it downloads, a session that is not ready does not become so. -/
theorem Agrees.downloading (h : a.Agrees false status) :
    (a.announce .downloading).Agrees false .downloading where
  published := by simp [announce, h.published]
  late := h.late
  status := by simp

/-- A session that is not ready becomes so. -/
theorem Agrees.done (h : a.Agrees false status) : (a.announce .ready).Agrees true .ready where
  published := by simp [announce]
  late _ := rfl
  status := by
    have hlate : a.late = false := Bool.eq_false_iff.mpr fun hlate => by cases h.late hlate
    simp [announce, hlate]

end Standing

/-! ## Market data -/

/-- The calls of a download. -/
def Download.toStages {D : Type u} (dl : Download D) : Stages DownloadState D where
  idle := dl.idle
  reset := dl.reset
  begin := dl.begin
  checkRelaxed := dl.checkRelaxed

/-- What the session relies on of its download. -/
abbrev Download.Follows {D : Type u} (dl : Download D) (stage : D → DownloadState × ℕ) : Prop :=
  dl.toStages.Follows DownloadState.count .undefined DownloadState.after stage

/-- A download that leaves a state with the first answer is as is relied on. -/
theorem Download.follows_inOrder : Download.inOrder.Follows fun d => (d, d.count) where
  idle := rfl
  reset _ := rfl
  begin _ _ := rfl
  other d s h := by
    have hne : d ≠ s := h
    simp [Download.toStages, Download.inOrder, hne]
  more d s n h := by
    obtain ⟨rfl, hcount⟩ := Prod.mk.inj h
    cases d <;> cases hcount
  last d s h := by
    obtain ⟨rfl, hcount⟩ := Prod.mk.inj h
    cases d with
    | instrument => rfl
    | orderBookL2 => rfl
    | _ => cases hcount

namespace MarketData

variable {D : Type u}

/-- What has happened on a connection. -/
structure Connection where
  standing : Standing := {}
  /-- The exchange has greeted. -/
  welcomed : Bool := false
  /-- An instrument snapshot has been received. -/
  instrument : Bool := false
  /-- A book snapshot has been received and has reached its end. -/
  orderBookL2 : Bool := false
  /-- The message being handled is about the books, and an update it leads to is refused. -/
  refused : Bool := false
  deriving DecidableEq

/-- What has happened on a connection, along a run. -/
def connection (g : Gateway) : Monitor (MarketData D) Input Effect Connection where
  input s a
    | .ready => { a with standing := a.standing.socketReady, refused := false }
    | .disconnected => {}
    | .event (.welcome _) _ => { a with welcomed := true, refused := false }
    | .event (.instrument message) _ =>
        { a with
          instrument := a.instrument || decide (message.action = .partial_)
          refused := false }
    | .event (.orderBookL2 message) badState =>
        { a with
          orderBookL2 := a.orderBookL2 ||
            (decide (message.action = .partial_) && (s.bookResult g message).stop.isNone)
          refused := refused (s.bookResult g message).updates badState }
    | _ => { a with refused := false }
  output a
    | .dispatch (.streamStatus value) =>
        { a with standing := a.standing.announce value.connectionStatus }
    | _ => a

/-- The exchange greets once on a connection. -/
def WelcomedOnce (_ : MarketData D) (a : Connection) : Input → Prop
  | .event (.welcome _) _ => a.welcomed = false
  | _ => True

instance (s : MarketData D) (a : Connection) : ∀ i, Decidable (WelcomedOnce s a i)
  | .event (.welcome _) _ => inferInstanceAs (Decidable (_ = _))
  | .event (.error _) _ | .event (.subscribe _) _ | .event (.unsubscribe _) _
  | .event (.instrument _) _ | .event (.quote _) _ | .event (.orderBookL2 _) _
  | .event (.trade _) _ | .event (.funding _) _ | .event .liquidation _ | .event .settlement _
  | .event (.cancelAllAfter _) _ | .event (.order _) _ | .event (.execution _) _
  | .event .margin _ | .event (.position _) _ | .ready | .disconnected => isTrue trivial

/-- What an effect may come after: it is announced that the session is ready after both snapshots
and once, and a request for anything but the instruments is sent after their snapshot, or answers
the refusal of a book update. No assertion of the download fails. -/
def InTurn (a : Connection) : Effect → Prop
  | .dispatch (.streamStatus value) =>
      value.connectionStatus = .ready →
        a.instrument = true ∧ a.orderBookL2 = true ∧ a.standing.published = false
  | .subscribe topics =>
      topics = [.instrument] ∨ a.instrument = true ∨ (a.refused = true ∧ topics = [.orderBookL2])
  | .assertion .downloadState => False
  | .assertion .downloadReady => False
  | _ => True

variable {g : Gateway} {dl : Download D} {stage : D → DownloadState × ℕ}

/-- Where the session stands, given what has happened on the connection. -/
structure InStage (stage : D → DownloadState × ℕ) (s : MarketData D) (a : Connection) : Prop where
  agrees : a.standing.Agrees s.ready s.connectionStatus
  fresh : a.welcomed = false → (stage s.download).1 = .undefined
  ready : s.ready = true ↔ (stage s.download).1 = .done
  stage : (stage s.download).1 = .undefined ∨ stage s.download = (.instrument, 1) ∨
    (stage s.download = (.orderBookL2, 1) ∧ a.instrument = true) ∨
    ((stage s.download).1 = .done ∧ a.instrument = true ∧ a.orderBookL2 = true)

/-- Effects that have no part in the download. -/
def Aside (refusal : Bool) : Effect → Prop
  | .dispatch (.streamStatus _) => False
  | .subscribe topics => refusal = true ∧ topics = [.orderBookL2]
  | .assertion .downloadState => False
  | .assertion .downloadReady => False
  | _ => True

/-- A session whose part in the download is as before. -/
structure SameStage (s s' : MarketData D) : Prop where
  ready : s'.ready = s.ready
  connectionStatus : s'.connectionStatus = s.connectionStatus
  download : s'.download = s.download

/-- A session may go on with more behind it. -/
theorem InStage.of_same {s s' : MarketData D} {a a' : Connection} (h : InStage stage s a)
    (hs : SameStage s s') (hstanding : a'.standing = a.standing)
    (hwelcomed : a'.welcomed = a.welcomed)
    (hinstrument : a.instrument = true → a'.instrument = true)
    (hbook : a.orderBookL2 = true → a'.orderBookL2 = true) : InStage stage s' a' where
  agrees := by
    rw [hs.ready, hs.connectionStatus, hstanding]
    exact h.agrees
  fresh := by
    rw [hs.download, hwelcomed]
    exact h.fresh
  ready := by
    rw [hs.ready, hs.download]
    exact h.ready
  stage := by
    rw [hs.download]
    rcases h.stage with hd | hd | ⟨hd, hi⟩ | ⟨hd, hi, hb⟩
    · exact Or.inl hd
    · exact Or.inr (Or.inl hd)
    · exact Or.inr (Or.inr (Or.inl ⟨hd, hinstrument hi⟩))
    · exact Or.inr (Or.inr (Or.inr ⟨hd, hinstrument hi, hbook hb⟩))

/-- A greeting leaves the stage of the download as it is. -/
theorem InStage.welcome {s : MarketData D} {a : Connection} (h : InStage stage s a) :
    InStage stage s { a with welcomed := true, refused := false } where
  agrees := h.agrees
  fresh hfresh := by cases hfresh
  ready := h.ready
  stage := h.stage

/-- A session that is not ready is in a stage before the last. -/
theorem InStage.ready_eq_false {s : MarketData D} {a : Connection} (h : InStage stage s a)
    (hstage : (stage s.download).1 ≠ .done) : s.ready = false :=
  Bool.eq_false_iff.mpr fun hready => hstage (h.ready.mp hready)

/-! ### Effects outside the download -/

/-- A failed assertion of a book message is beside the download. -/
theorem aside_assertEffect {refusal condition : Bool} :
    ∀ e ∈ assertEffect condition .bookAction, Aside refusal e := by
  intro e he
  obtain ⟨-, rfl⟩ := eq_of_mem_assertEffect he
  trivial

/-- What an instrument row publishes is beside the download. -/
theorem aside_of_isEffectOf {refusal : Bool} {symbol : String} {e : Effect}
    (h : ProductRow.IsEffectOf symbol e) : Aside refusal e := by
  cases e with
  | dispatch event => cases event <;> simp_all [ProductRow.IsEffectOf, Aside]
  | assertion site => cases site <;> simp_all [ProductRow.IsEffectOf, Aside]
  | _ => exact h.elim

/-- What instrument rows publish is beside the download. -/
theorem aside_handleRows {refusal : Bool} (s : MarketData D) (rows : List ProductRow) :
    ∀ e ∈ (s.handleRows g rows).2, Aside refusal e := by
  intro e he
  obtain ⟨symbol, hsymbol⟩ := isEffectOf_handleRows s rows e he
  exact aside_of_isEffectOf hsymbol

/-- Updates are handed over, and refusals answered, outside the download. -/
theorem aside_dispatchEffects (us : List MarketByPriceUpdate) (badState : List Bool) :
    ∀ e ∈ dispatchEffects us badState, Aside (refused us badState) e := by
  intro e he
  rcases mem_dispatchEffects he with ⟨u, -, rfl⟩ | rfl | rfl
  · trivial
  · trivial
  · exact ⟨refused_of_subscribe_mem he, rfl⟩

/-- An effect beside the download keeps the turns. -/
theorem passes_of_aside {a : Connection} {e : Effect} (h : Aside a.refused e) :
    (connection (D := D) g).Passes InTurn a e := by
  constructor
  · cases e with
    | dispatch event => cases event <;> trivial
    | subscribe topics => exact Or.inr (Or.inr h)
    | assertion site => cases site <;> trivial
    | _ => trivial
  · cases e with
    | dispatch event =>
        cases event with
        | streamStatus value => exact h.elim
        | _ => rfl
    | _ => rfl

variable (g) in
/-- The outputs of a handler are in turn and keep the session where it stands. -/
abbrev Keeps (stage : D → DownloadState × ℕ) (a : Connection) (r : MarketData D × List Effect) :
    Prop :=
  (connection g).Keeps InTurn (InStage stage) a r

/-- A step whose effects are beside the download keeps the stage, the session and the turns. -/
theorem keeps_of_aside {a : Connection} {r : MarketData D × List Effect} (h : InStage stage r.1 a)
    (haside : ∀ e ∈ r.2, Aside a.refused e) : Keeps g stage a r :=
  Monitor.Keeps.of_passes h fun e he => passes_of_aside (haside e he)

/-- What a book message publishes is beside the download, but for the refusals it announces. -/
theorem aside_bookEffects (s : MarketData D) (message : Json.OrderBookL2) (badState : List Bool) :
    ∀ e ∈ s.bookEffects g message badState,
      Aside (refused (s.bookResult g message).updates badState) e := by
  intro e he
  rcases List.mem_append.mp he with h | h
  · exact aside_assertEffect e h
  · exact aside_dispatchEffects _ _ e h

/-! ### Calls of the download -/

/-- A download that has not begun goes on to the instruments. -/
theorem begin_eq (hdl : dl.Follows stage) {s : MarketData D}
    (hstage : (stage s.download).1 = .undefined) :
    ∃ d, stage d = (.instrument, 1) ∧
      s.begin g dl = ({ s with download := d, connectionStatus := .downloading },
        [.dispatch (.streamStatus ⟨g.streamId, .downloading, "accounts"⟩),
          .dispatch (.streamStatus ⟨g.streamId, .downloading, "instrument"⟩),
          .subscribe [.instrument]]) := by
  obtain ⟨hnext, hentered⟩ := Prod.mk.inj (hdl.begin s.download hstage)
  have hdl' : (dl.begin DownloadState.count s.download).2 = [.accounts, .instrument] := hentered
  refine ⟨(dl.begin DownloadState.count s.download).1, hnext, ?_⟩
  simp [begin, hdl', enterAll, enter, setStatus]

/-- An answer for another stage is not waited for. -/
theorem checkRelaxed_other (hdl : dl.Follows stage) {s : MarketData D} {state : DownloadState}
    (hstage : (stage s.download).1 ≠ state) :
    ∃ d, stage d = stage s.download ∧
      s.checkRelaxed g dl state = ({ s with download := d }, []) := by
  obtain ⟨hnext, hentered⟩ := Prod.mk.inj (hdl.other s.download state hstage)
  have hdl' : (dl.checkRelaxed DownloadState.count s.download state).2 = [] := hentered
  refine ⟨(dl.checkRelaxed DownloadState.count s.download state).1, hnext, ?_⟩
  simp [checkRelaxed, hdl', enterAll]

/-- The answer for the instruments leads on to the books. -/
theorem checkRelaxed_instrument (hdl : dl.Follows stage) {s : MarketData D}
    (hstage : stage s.download = (.instrument, 1)) :
    ∃ d, stage d = (.orderBookL2, 1) ∧
      s.checkRelaxed g dl .instrument = ({ s with download := d, connectionStatus := .downloading },
        [.dispatch (.streamStatus ⟨g.streamId, .downloading, "order-book-l2"⟩),
          .subscribe [.quote, .orderBookL2, .trade, .funding, .liquidation, .settlement]]) := by
  obtain ⟨hnext, hentered⟩ := Prod.mk.inj (hdl.last s.download .instrument hstage)
  have hdl' : (dl.checkRelaxed DownloadState.count s.download .instrument).2 = [.orderBookL2] :=
    hentered
  refine ⟨(dl.checkRelaxed DownloadState.count s.download .instrument).1, hnext, ?_⟩
  simp [checkRelaxed, hdl', enterAll, enter, setStatus]

/-- The answer for the books ends the download. -/
theorem checkRelaxed_orderBookL2 (hdl : dl.Follows stage) {s : MarketData D}
    (hstage : stage s.download = (.orderBookL2, 1)) :
    ∃ d, (stage d).1 = .done ∧
      s.checkRelaxed g dl .orderBookL2 =
        ({ s with download := d, connectionStatus := .ready, ready := true },
          .dispatch (.streamStatus ⟨g.streamId, .ready, ""⟩) ::
            assertEffect (!s.ready) .downloadReady) := by
  obtain ⟨hnext, hentered⟩ := Prod.mk.inj (hdl.last s.download .orderBookL2 hstage)
  have hdl' : (dl.checkRelaxed DownloadState.count s.download .orderBookL2).2 = [.done] := hentered
  refine ⟨(dl.checkRelaxed DownloadState.count s.download .orderBookL2).1,
    congrArg Prod.fst hnext, ?_⟩
  simp [checkRelaxed, hdl', enterAll, enter, setStatus]

/-- The greeting begins the download. -/
theorem keeps_begin (hdl : dl.Follows stage) {s : MarketData D} {a : Connection}
    (h : InStage stage s a) (hstage : (stage s.download).1 = .undefined)
    (hwelcomed : a.welcomed = true) : Keeps g stage a (s.begin g dl) := by
  obtain ⟨d, hd, hbegin⟩ := begin_eq (g := g) hdl hstage
  have hready : s.ready = false := h.ready_eq_false (by simp [hstage])
  have hagrees : a.standing.Agrees false s.connectionStatus := hready ▸ h.agrees
  rw [hbegin]
  refine ⟨?_, ?_⟩
  · simp [InTurn]
  · refine ⟨?_, ?_, ?_, Or.inr (Or.inl hd)⟩
    · have hnow : ((a.standing.announce .downloading).announce .downloading).Agrees false
          .downloading := hagrees.downloading.downloading
      rw [← hready] at hnow
      exact hnow
    · intro hfresh
      rw [show a.welcomed = false from hfresh] at hwelcomed
      cases hwelcomed
    · simp [hd, hready]

/-- An answer that is not waited for keeps the session where it stands. -/
theorem keeps_other (hdl : dl.Follows stage) {s : MarketData D} {a : Connection}
    (h : InStage stage s a) {state : DownloadState} (hstage : (stage s.download).1 ≠ state) :
    Keeps g stage a (s.checkRelaxed g dl state) := by
  obtain ⟨d, hd, hcall⟩ := checkRelaxed_other (g := g) hdl hstage
  rw [hcall]
  refine keeps_of_aside ⟨h.agrees, ?_, ?_, ?_⟩ (by simp)
  · rw [hd]
    exact h.fresh
  · rw [hd]
    exact h.ready
  · rw [hd]
    exact h.stage

/-- The instruments' snapshot leads on to the books, or is not waited for. -/
theorem keeps_instrument (hdl : dl.Follows stage) {s : MarketData D} {a : Connection}
    (h : InStage stage s a) (hinstrument : a.instrument = true) :
    Keeps g stage a (s.checkRelaxed g dl .instrument) := by
  by_cases hstage : stage s.download = (.instrument, 1)
  · obtain ⟨d, hd, hcall⟩ := checkRelaxed_instrument (g := g) hdl hstage
    have hready : s.ready = false := h.ready_eq_false (by simp [hstage])
    have hagrees : a.standing.Agrees false s.connectionStatus := hready ▸ h.agrees
    rw [hcall]
    refine ⟨?_, ?_⟩
    · simp [InTurn, connection, hinstrument]
    · refine ⟨?_, ?_, ?_, Or.inr (Or.inr (Or.inl ⟨hd, hinstrument⟩))⟩
      · have hnow := hagrees.downloading
        rw [← hready] at hnow
        exact hnow
      · intro hfresh
        have hundefined := h.fresh hfresh
        rw [hstage] at hundefined
        cases hundefined
      · simp [hd, hready]
  · have hother : (stage s.download).1 ≠ .instrument := by
      rcases h.stage with hd | hd | ⟨hd, -⟩ | ⟨hd, -⟩
      · simp [hd]
      · exact absurd hd hstage
      · simp [hd]
      · simp [hd]
    exact keeps_other hdl h hother

/-- A book snapshot that reaches its end makes the session ready, or is not waited for. -/
theorem keeps_orderBookL2 (hdl : dl.Follows stage) {s : MarketData D} {a : Connection}
    (h : InStage stage s a) (hbook : a.orderBookL2 = true) :
    Keeps g stage a (s.checkRelaxed g dl .orderBookL2) := by
  by_cases hstage : (stage s.download).1 = .orderBookL2
  · obtain ⟨hone, hinstrument⟩ : stage s.download = (.orderBookL2, 1) ∧ a.instrument = true := by
      rcases h.stage with hd | hd | hd | ⟨hd, -⟩
      · rw [hd] at hstage; cases hstage
      · rw [hd] at hstage; cases hstage
      · exact hd
      · rw [hd] at hstage; cases hstage
    obtain ⟨d, hd, hcall⟩ := checkRelaxed_orderBookL2 (g := g) hdl hone
    have hready : s.ready = false := h.ready_eq_false (by simp [hstage])
    have hagrees : a.standing.Agrees false s.connectionStatus := hready ▸ h.agrees
    have hpublished : a.standing.published = false := hagrees.published
    rw [hcall, hready]
    refine ⟨?_, ?_⟩
    · simp [InTurn, assertEffect, hinstrument, hbook, hpublished]
    · refine ⟨hagrees.done, ?_, ?_, Or.inr (Or.inr (Or.inr ⟨hd, hinstrument, hbook⟩))⟩
      · intro hfresh
        have hundefined := h.fresh hfresh
        rw [hstage] at hundefined
        cases hundefined
      · simp [hd]
  · exact keeps_other hdl h hstage

/-! ### Messages -/

variable (g dl) in
/-- An instrument message works on the session outside the download, and a first snapshot then calls
it. -/
theorem instrument_split (refusal : Bool) (s : MarketData D) (message : Json.Instrument) :
    ∃ s' es, SameStage s s' ∧ (∀ e ∈ es, Aside refusal e) ∧
      (s.instrument g dl message = (s', es) ∨
        message.action = .partial_ ∧ s.instrument g dl message =
          ((s'.checkRelaxed g dl .instrument).1, es ++ (s'.checkRelaxed g dl .instrument).2)) := by
  have hsame : SameStage s s := ⟨rfl, rfl, rfl⟩
  cases haction : message.action with
  | partial_ =>
      cases hreceived : s.partialReceived.instrument with
      | true =>
          refine ⟨s, [.assertion .instrumentPartial], hsame, by simp [Aside], Or.inl ?_⟩
          simp [instrument, haction, hreceived]
      | false =>
          let s₁ : MarketData D :=
            { s with partialReceived := { s.partialReceived with instrument := true } }
          refine ⟨(s₁.handleRows g (message.data.map .partial_)).1,
            (s₁.handleRows g (message.data.map .partial_)).2, ⟨rfl, rfl, rfl⟩,
            aside_handleRows _ _, Or.inr ⟨rfl, ?_⟩⟩
          simp [instrument, haction, hreceived, s₁]
  | update =>
      cases hreceived : s.partialReceived.instrument with
      | true =>
          refine ⟨(s.handleRows g (message.data.map .update)).1,
            (s.handleRows g (message.data.map .update)).2, ⟨rfl, rfl, rfl⟩, aside_handleRows _ _,
            Or.inl ?_⟩
          simp [instrument, haction, hreceived]
      | false => exact ⟨s, [], hsame, by simp, Or.inl (by simp [instrument, haction, hreceived])⟩
  | delete => exact ⟨s, [], hsame, by simp, Or.inl (by simp [instrument, haction])⟩
  | insert =>
      exact ⟨s, [.assertion .instrumentInsert], hsame, by simp [Aside],
        Or.inl (by simp [instrument, haction])⟩
  | _ =>
      exact ⟨s, [.fatal .instrumentAction], hsame, by simp [Aside],
        Or.inl (by simp [instrument, haction])⟩

variable (g dl) in
/-- A book message works on the session outside the download, and a snapshot that reaches its end
then calls it. -/
theorem orderBookL2_split (s : MarketData D) (message : Json.OrderBookL2) (badState : List Bool) :
    ∃ s' es, SameStage s s' ∧
      (∀ e ∈ es, Aside (refused (s.bookResult g message).updates badState) e) ∧
      (s.orderBookL2 g dl message badState = (s', es) ∨
        (message.action = .partial_ ∧ (s.bookResult g message).stop = none) ∧
          s.orderBookL2 g dl message badState =
            ((s'.checkRelaxed g dl .orderBookL2).1,
              es ++ (s'.checkRelaxed g dl .orderBookL2).2)) := by
  have hsame : SameStage s (s.afterBook g message badState) := ⟨rfl, rfl, rfl⟩
  by_cases hhandled : message.action = .partial_ ∨ s.partialReceived.orderBookL2 = true
  · rw [orderBookL2_eq g dl hhandled]
    cases hstop : (s.bookResult g message).stop with
    | some stop =>
        -- the message ends early: the download is not told
        refine ⟨_, _, hsame, fun e he => ?_, Or.inl rfl⟩
        rcases List.mem_append.mp he with h | h
        · exact aside_bookEffects s message badState e h
        · rw [List.mem_singleton.mp h]
          rcases stop_of_bookUpdates hstop with rfl | ⟨site, rfl⟩
          · trivial
          · trivial
    | none =>
        refine ⟨_, _, hsame, aside_bookEffects s message badState, ?_⟩
        by_cases hsnapshot : message.action = .partial_
        · simp only [if_pos hsnapshot]
          exact Or.inr ⟨⟨hsnapshot, trivial⟩, trivial⟩
        · simp only [if_neg hsnapshot]
          exact Or.inl trivial
  · rw [not_or, Bool.not_eq_true] at hhandled
    exact ⟨s, _, ⟨rfl, rfl, rfl⟩, aside_assertEffect,
      Or.inl (orderBookL2_dropped hhandled.1 hhandled.2)⟩

/-! ### Any input -/

/-- What a quote message publishes is beside the download. -/
theorem aside_quote (message : Json.Quote) : ∀ e ∈ quote g message, Aside false e := by
  intro e he
  obtain ⟨item, -, rfl⟩ := List.mem_map.mp he
  trivial

/-- What a trade message publishes is beside the download. -/
theorem aside_trade (message : Json.Trade) : ∀ e ∈ trade g message, Aside false e := by
  intro e he
  obtain ⟨value, isLast, rfl⟩ := exists_tradeSummary_of_mem_trade message e he
  trivial

/-- An input is answered in turn. -/
theorem keeps_step (hdl : dl.Follows stage) {s : MarketData D} {a : Connection} {i : Input}
    (h : InStage stage s a) (hok : WelcomedOnce s a i) :
    Keeps g stage ((connection g).input s a i) (s.step g dl i) := by
  have hsame : SameStage s s := ⟨rfl, rfl, rfl⟩
  -- a message that is not about the download leaves what has happened as it is
  have haside : ∀ {s' : MarketData D} {es : List Effect}, SameStage s s' →
      (∀ e ∈ es, Aside false e) → Keeps g stage { a with refused := false } (s', es) := by
    intro s' es hs hes
    exact keeps_of_aside (h.of_same hs rfl rfl id id) hes
  cases i with
  | ready =>
      refine ⟨by simp [step, socketReady, setStatus, InTurn, connection], ?_⟩
      refine ⟨?_, h.fresh, h.ready, h.stage⟩
      simpa [step, socketReady, setStatus, connection, Standing.announce] using
        h.agrees.socketReady
  | disconnected =>
      have hreset : (stage (dl.reset s.download)).1 = .undefined := hdl.reset s.download
      refine ⟨by simp [step, socketDisconnected, setStatus, InTurn, connection], ?_⟩
      refine ⟨Standing.agrees_disconnected, fun _ => hreset, ?_, Or.inl hreset⟩
      simp [step, socketDisconnected, setStatus, hreset]
  | event event badState =>
      cases event with
      | welcome value =>
          have hwelcomed : a.welcomed = false := hok
          exact keeps_begin hdl h.welcome (h.fresh hwelcomed) rfl
      | instrument message =>
          obtain ⟨s', es, hs, hes, hcall⟩ := instrument_split g dl false s message
          have hnow : InStage stage s' ((connection g).input s a
              (.event (.instrument message) badState)) :=
            h.of_same hs rfl rfl (fun hi => by simp [connection, hi]) id
          rcases hcall with hcall | ⟨haction, hcall⟩
          · rw [step, handle, hcall]
            exact keeps_of_aside hnow hes
          · rw [step, handle, hcall]
            exact Monitor.Keeps.prepend (fun e he => passes_of_aside (hes e he))
              (keeps_instrument hdl hnow (by simp [connection, haction]))
      | orderBookL2 message =>
          obtain ⟨s', es, hs, hes, hcall⟩ := orderBookL2_split g dl s message badState
          have hnow : InStage stage s' ((connection g).input s a
              (.event (.orderBookL2 message) badState)) :=
            h.of_same hs rfl rfl id (fun hb => by simp [connection, hb])
          rcases hcall with hcall | ⟨⟨haction, hend⟩, hcall⟩
          · rw [step, handle, hcall]
            exact keeps_of_aside hnow hes
          · rw [step, handle, hcall]
            exact Monitor.Keeps.prepend (fun e he => passes_of_aside (hes e he))
              (keeps_orderBookL2 hdl hnow (by simp [connection, haction, hend]))
      | quote message => exact haside hsame (aside_quote message)
      | trade message => exact haside hsame (aside_trade message)
      | funding message => exact haside ⟨rfl, rfl, rfl⟩ (aside_handleRows s _)
      | _ => exact haside hsame (by simp [Aside])

/-- What holds along every run of the session. -/
def Announces (g : Gateway) (dl : Download D) (is : List Input) : Prop :=
  (marketData g dl).Sat (connection g) (fun _ => InTurn)
    (fun s a => a.standing.Agrees s.ready s.connectionStatus) (init dl) {} is

/-- In every run in which the exchange greets at most once on a connection, what is announced is in
turn. -/
theorem announces (hdl : dl.Follows stage) (is : List Input)
    (h : (marketData g dl).Along (connection g) WelcomedOnce (init dl) {} is) :
    Announces g dl is := by
  have hidle : (stage dl.idle).1 = .undefined := hdl.idle
  refine Machine.sat_of_along (InStage stage) (fun s a i hin hok => ?_) ?_ h
  · exact Machine.stepSat_of_keeps (fun _ _ h => h.agrees) (keeps_step hdl hin hok)
  · refine ⟨Standing.agrees_undefined, fun _ => hidle, ?_, Or.inl hidle⟩
    simp [init, hidle]

end MarketData

end RoqBitmex
