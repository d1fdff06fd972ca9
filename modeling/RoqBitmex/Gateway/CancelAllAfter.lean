import RoqBitmex.Gateway.DropCopy

/-! # The dead man's switch

With `cancel_on_disconnect` the session asks the exchange, again and again, to cancel all orders
after a while; otherwise it disarms that once it is greeted. `Beats` is what keeps the switch from
firing on a connection that is alive, and `beats_iff` says that it fails only for a time-out that is
cut to no milliseconds, which disarms the switch. -/

namespace RoqBitmex

universe v

namespace DropCopy

variable {D : Type v}

/-! ## What is sent -/

/-- A `cancelAllAfter` message. -/
def isCancelAllAfter : Effect → Bool
  | .cancelAllAfter _ => true
  | _ => false

/-- The times at which a connection has been kept alive. -/
structure Beat where
  /-- The time of the last timer event. -/
  ticked : Option Int := none
  /-- The time of the last `cancelAllAfter` on this connection. -/
  sent : Option Int := none
  deriving DecidableEq

/-- The times at which a connection has been kept alive, along a run. -/
def beat : Monitor (DropCopy D) Input Effect Beat where
  input _ a
    | .timer now _ => { a with ticked := some now }
    | .disconnected => { a with sent := none }
    | _ => a
  output a
    | .cancelAllAfter _ => { a with sent := a.ticked }
    | _ => a

/-- The `cancelAllAfter` messages an input leads to. -/
def sends (c : Settings) (dl : Stages State D) (s : DropCopy D) (i : Input) : List Effect :=
  ((dropCopy c dl).out s i).filter isCancelAllAfter

/-- The clock does not go back, the timer fires at most `d` after it fired last, and the connection
of a session that is ready is refreshed. -/
def Timely (d : Int) (s : DropCopy D) (a : Beat) : Input → Prop
  | .timer now refreshed =>
      0 ≤ now ∧ (∀ t ∈ a.ticked, t ≤ now ∧ now ≤ t + d) ∧ (s.ready = true → refreshed = true)
  | _ => True

instance (d : Int) (s : DropCopy D) (a : Beat) : ∀ i, Decidable (Timely d s a i)
  | .timer _ _ => inferInstanceAs (Decidable (_ ∧ _ ∧ _))
  | .ready | .disconnected | .event _ _ => isTrue trivial

/-- An input keeps the switch alive: what is sent does not disarm it, nothing is sent but at a timer
event that finds the session ready, the first such event on a connection sends, and two messages on
a connection are a quarter of the time-out apart, and `d` more at most. -/
structure Beats (c : Settings) (dl : Stages State D) (d : Int) (s : DropCopy D) (a : Beat)
    (i : Input) : Prop where
  positive : ∀ ms, .cancelAllAfter ms ∈ sends c dl s i → 0 < ms
  ready : sends c dl s i ≠ [] → s.ready = true ∧ ∃ now refreshed, i = .timer now refreshed
  first : ∀ now refreshed, i = .timer now refreshed → s.ready = true → a.sent = none →
    (sends c dl s i).length = 1
  gap : ∀ now refreshed sent, i = .timer now refreshed → a.sent = some sent →
    sends c dl s i ≠ [] → c.cancelAllAfter / 4 ≤ now - sent ∧
      now - sent ≤ c.cancelAllAfter / 4 + d ∧ c.cancelAllAfter / 4 + d < c.cancelAllAfter

/-- An input disarms the switch and does nothing else with it: once if the exchange greets. -/
structure Disarms (c : Settings) (dl : Stages State D) (s : DropCopy D) (i : Input) : Prop where
  zero : ∀ ms, .cancelAllAfter ms ∈ sends c dl s i → ms = 0
  welcome : ∀ message lookup, i = .event (.welcome message) lookup →
    (dropCopy c dl).stops s i = false → sends c dl s i = [.cancelAllAfter 0]
  other : (∀ message lookup, i ≠ .event (.welcome message) lookup) → sends c dl s i = []

/-- A timer event finds the session ready only if the time-out is a millisecond or more. -/
def WholeMillisecond (c : Settings) (s : DropCopy D) (_ : Beat) : Input → Prop
  | .timer _ _ => s.ready = true → 1000000 ≤ c.cancelAllAfter
  | _ => True

instance (c : Settings) (s : DropCopy D) (a : Beat) : ∀ i, Decidable (WholeMillisecond c s a i)
  | .timer _ _ => inferInstanceAs (Decidable (_ → _))
  | .ready | .disconnected | .event _ _ => isTrue trivial

variable {c : Settings} {dl : Stages State D} {s : DropCopy D}

/-! ## Handlers that leave the switch alone -/

/-- A handler leaves the switch alone: it sends no `cancelAllAfter`, and a session that is ready
stays so. -/
structure Calm (s : DropCopy D) (r : DropCopy D × List Effect) : Prop where
  next : r.1.nextCancelAllAfter = s.nextCancelAllAfter
  ready : s.ready = true → r.1.ready = true
  effects : ∀ e ∈ r.2, isCancelAllAfter e = false

/-- Handlers one after another. -/
theorem Calm.append {r r' : DropCopy D × List Effect} (h : Calm s r) (h' : Calm r.1 r') :
    Calm s (r'.1, r.2 ++ r'.2) where
  next := h'.next.trans h.next
  ready hready := h'.ready (h.ready hready)
  effects e he := (List.mem_append.mp he).elim (h.effects e) (h'.effects e)

/-- Effects that are something else leave the switch alone. -/
theorem calm_of_effects {effects : List Effect} (h : ∀ e ∈ effects, isCancelAllAfter e = false) :
    Calm s (s, effects) where
  next := rfl
  ready := id
  effects := h

/-- A failed assertion is no `cancelAllAfter`. -/
theorem calm_assertEffect (condition : Bool) (site : Site) :
    ∀ e ∈ assertEffect condition site, isCancelAllAfter e = false := by
  cases condition <;> simp [assertEffect, isCancelAllAfter]

/-- Announcing a status leaves the switch alone. -/
theorem calm_setStatus (status : ConnectionStatus) (reason : String) :
    Calm s (s.setStatus c status reason) where
  next := rfl
  ready := id
  effects := by simp [setStatus, isCancelAllAfter]

/-- Entering a state of the download leaves the switch alone. -/
theorem calm_enter (state : State) : Calm s (s.enter c state) := by
  cases state with
  | undefined => exact calm_of_effects (by simp [isCancelAllAfter])
  | subscribe =>
      exact (calm_setStatus .downloading "subscribe").append
        (calm_of_effects (by simp [isCancelAllAfter]))
  | done =>
      have hstatus : Calm s (s.setStatus c .ready "") := calm_setStatus .ready ""
      refine ⟨rfl, fun _ => rfl, fun e he => ?_⟩
      rcases List.mem_append.mp he with he | he
      · exact hstatus.effects e he
      · exact calm_assertEffect _ _ e he

/-- The states of the download leave the switch alone. -/
theorem calm_enterAll (states : List State) : Calm s (s.enterAll c states) := by
  induction states generalizing s with
  | nil => exact calm_of_effects (by simp)
  | cons state rest ih => exact (calm_enter state).append ih

/-- Beginning the download leaves the switch alone. -/
theorem calm_begin : Calm s (s.begin c dl) := by
  have h : Calm { s with download := (dl.begin State.count s.download).1 } (s.begin c dl) :=
    calm_enterAll _
  exact ⟨h.next, h.ready, h.effects⟩

/-- A call of `check_relaxed` leaves the switch alone. -/
theorem calm_checkRelaxed (state : State) : Calm s (s.checkRelaxed c dl state) := by
  have h : Calm { s with download := (dl.checkRelaxed State.count s.download state).1 }
      (s.checkRelaxed c dl state) := calm_enterAll _
  exact ⟨h.next, h.ready, h.effects⟩

/-- Dispatching events leaves the switch alone. -/
theorem calm_dispatch (events : List OmsEvent) :
    ∀ e ∈ events.map Effect.dispatch, isCancelAllAfter e = false := by
  simp [isCancelAllAfter]

/-- An order message leaves the switch alone. -/
theorem calm_order (message : Json.Order) : Calm s (s.order c dl message) := by
  unfold order
  dsimp only
  split
  · have hcheck : Calm { s with partialReceived := true }
        (checkRelaxed c dl { s with partialReceived := true } .subscribe) := calm_checkRelaxed _
    refine ⟨hcheck.next, hcheck.ready, fun e he => ?_⟩
    rcases List.mem_append.mp he with he | he
    · exact calm_dispatch _ e he
    · exact hcheck.effects e he
  · exact calm_of_effects (calm_dispatch _)

/-- An acknowledgement to unsubscribe leaves the switch alone. -/
theorem calm_unsubscribe (message : Json.Unsubscribe) :
    ∀ e ∈ unsubscribe message, isCancelAllAfter e = false := by
  unfold unsubscribe
  split
  · exact calm_assertEffect _ _
  · split <;> simp [isCancelAllAfter]

/-- A message leaves the switch alone, but for the greeting. -/
theorem calm_handle {event : Json.Event} (lookup : Oms.OrderUpdate → Option OrderRef)
    (h : ∀ message, event ≠ .welcome message) : Calm s (s.handle c dl event lookup) := by
  cases event with
  | welcome message => exact absurd rfl (h message)
  | unsubscribe message => exact calm_of_effects (calm_unsubscribe message)
  | order message => exact calm_order message
  | execution message => exact calm_of_effects (calm_dispatch _)
  | position message => exact calm_of_effects (by simp [isCancelAllAfter])
  | _ => exact calm_of_effects (by simp [isCancelAllAfter])

/-! ## The timer and the greeting -/

/-- The switch is in use. -/
def Settings.Armed (c : Settings) : Prop := c.cancelOnDisconnect = true ∧ c.cancelAllAfter ≠ 0

/-- A timer event that is due sends. -/
theorem step_timer_of_due (harmed : c.Armed) {now : Int} (hready : s.ready = true)
    (hdue : s.nextCancelAllAfter ≤ now) :
    (dropCopy c dl).step s (.timer now true) =
      ({ s with nextCancelAllAfter := now + c.cancelAllAfter.tdiv 4 },
        [sendCancelAllAfter c.cancelAllAfter]) := by
  have hif : c.cancelOnDisconnect ∧ c.cancelAllAfter ≠ 0 ∧ s.ready ∧
      s.nextCancelAllAfter ≤ now := ⟨harmed.1, harmed.2, hready, hdue⟩
  exact if_pos hif

/-- A timer event that is not does nothing. -/
theorem step_timer_of_not_due {now : Int} {refreshed : Bool}
    (h : ¬ (c.Armed ∧ s.ready = true ∧ s.nextCancelAllAfter ≤ now)) :
    (dropCopy c dl).step s (.timer now refreshed) = (s, []) := by
  have hif : ¬ (c.cancelOnDisconnect ∧ c.cancelAllAfter ≠ 0 ∧ s.ready ∧
      s.nextCancelAllAfter ≤ now) := fun hdue => h ⟨⟨hdue.1, hdue.2.1⟩, hdue.2.2⟩
  cases refreshed with
  | false => rfl
  | true => exact if_neg hif

/-- Every input but the timer and the loss of the connection leaves a switch in use alone. -/
theorem calm_step (harmed : c.Armed) {i : Input}
    (htimer : ∀ now refreshed, i ≠ .timer now refreshed) (hlost : i ≠ .disconnected) :
    Calm s ((dropCopy c dl).step s i) := by
  cases i with
  | ready => exact calm_setStatus .loginSent ""
  | disconnected => exact absurd rfl hlost
  | timer now refreshed => exact absurd rfl (htimer now refreshed)
  | event event lookup =>
      by_cases hwelcome : ∃ message, event = .welcome message
      · obtain ⟨message, rfl⟩ := hwelcome
        have hoff : ¬ (¬ c.cancelOnDisconnect = true ∨ c.cancelAllAfter = 0) := by
          rintro (h | h)
          · exact h harmed.1
          · exact harmed.2 h
        have hstep : (dropCopy c dl).step s (.event (.welcome message) lookup) =
            ((s.begin c dl).1, (s.begin c dl).2 ++ []) :=
          congrArg (fun effects => ((s.begin c dl).1, (s.begin c dl).2 ++ effects)) (if_neg hoff)
        rw [hstep, List.append_nil]
        exact calm_begin
      · exact calm_handle lookup fun message h => hwelcome ⟨message, h⟩

/-- Nothing is sent by handlers that put out something else. -/
theorem sends_eq_nil {i : Input}
    (h : ∀ e ∈ ((dropCopy c dl).step s i).2, isCancelAllAfter e = false) : sends c dl s i = [] := by
  refine List.filter_eq_nil_iff.mpr fun e he => ?_
  rw [h e (Machine.mem_of_mem_visible he)]
  exact Bool.false_ne_true

/-- What is sent by an input that puts out one message. -/
theorem sends_eq_singleton {i : Input} {s' : DropCopy D} {timeout : Int}
    (h : (dropCopy c dl).step s i = (s', [sendCancelAllAfter timeout])) :
    sends c dl s i = [sendCancelAllAfter timeout] := by
  unfold sends Machine.out
  rw [h]
  rfl

/-- Where the connection is lost nothing is sent. -/
theorem sends_disconnected : sends c dl s .disconnected = [] := by
  apply sends_eq_nil
  intro e he
  exact (calm_setStatus _ _).effects e he

/-! ## Alive -/

/-- The next message is due a quarter of the time-out after the last one on the connection, and at
once if there is none. -/
def InStep (c : Settings) (s : DropCopy D) (a : Beat) : Prop :=
  match a.sent with
  | none => s.nextCancelAllAfter = 0
  | some sent =>
      s.ready = true ∧ 1000000 ≤ c.cancelAllAfter ∧
        s.nextCancelAllAfter = sent + c.cancelAllAfter / 4 ∧
        ∃ t, a.ticked = some t ∧ sent ≤ t ∧ t < sent + c.cancelAllAfter / 4

/-- An input that leaves the switch alone keeps it in step. -/
theorem InStep.of_calm {a : Beat} {r : DropCopy D × List Effect} (h : InStep c s a)
    (hcalm : Calm s r) : InStep c r.1 a := by
  unfold InStep at h ⊢
  split at h
  · rw [hcalm.next]
    exact h
  · exact ⟨hcalm.ready h.1, h.2.1, hcalm.next.trans h.2.2.1, h.2.2.2⟩

/-- A time-out is cut to some milliseconds exactly when it is one or more. -/
theorem tdiv_pos_iff {timeout : Int} (h : 0 < timeout) :
    0 < timeout.tdiv 1000000 ↔ 1000000 ≤ timeout := by
  rw [Int.tdiv_eq_ediv_of_nonneg h.le]
  omega

section Alive

variable {d : Int} {a : Beat}

/-- Inputs that send nothing keep the switch alive, unless one is the first timer event that finds
the session ready. -/
theorem beats_of_nil {i : Input} (h : sends c dl s i = [])
    (hfirst : ∀ now refreshed, i = .timer now refreshed → s.ready = true → a.sent ≠ none) :
    Beats c dl d s a i := by
  constructor
  · intro ms hms
    rw [h] at hms
    cases hms
  · intro hne
    exact absurd h hne
  · intro now refreshed hi hready hsent
    exact absurd hsent (hfirst now refreshed hi hready)
  · intro now refreshed sent hi hsent hne
    exact absurd h hne

/-- A timer event that is due keeps the switch alive exactly when the time-out is not cut to
nothing. -/
theorem beats_due_iff (harmed : c.Armed) (hpos : 0 < c.cancelAllAfter)
    (hd : 2 * d ≤ c.cancelAllAfter) (hstep : InStep c s a) {now : Int}
    (htimely : Timely d s a (.timer now true)) (hready : s.ready = true)
    (hdue : s.nextCancelAllAfter ≤ now) :
    Beats c dl d s a (.timer now true) ↔ 1000000 ≤ c.cancelAllAfter := by
  have hsends : sends c dl s (.timer now true) = [sendCancelAllAfter c.cancelAllAfter] :=
    sends_eq_singleton (step_timer_of_due harmed hready hdue)
  constructor
  · intro h
    apply (tdiv_pos_iff hpos).mp
    apply h.positive
    rw [hsends]
    exact List.mem_singleton.mpr rfl
  · intro hwhole
    constructor
    · intro ms hms
      rw [hsends] at hms
      obtain ⟨rfl⟩ := List.mem_singleton.mp hms
      exact (tdiv_pos_iff hpos).mpr hwhole
    · intro _
      exact ⟨hready, now, true, rfl⟩
    · intro _ _ _ _ _
      rw [hsends]
      rfl
    -- the last message was a quarter of the time-out ago, and the timer came at most `d` before
    · rintro now' refreshed sent ⟨⟩ hsent _
      unfold InStep at hstep
      rw [hsent] at hstep
      obtain ⟨-, -, hnext, t, ht, hle, hlt⟩ := hstep
      have hgap := htimely.2.1 t ht
      omega

/-- The history of an input that sends nothing. -/
theorem after_of_calm {i : Input}
    (h : ∀ e ∈ ((dropCopy c dl).step s i).2, isCancelAllAfter e = false) :
    (dropCopy c dl).after beat s a i = beat.input s a i := by
  refine Monitor.outputs_of_forall (fun e he a => ?_) _
  have hother := h e (Machine.mem_of_mem_visible he)
  cases e with
  | cancelAllAfter ms => cases hother
  | _ => rfl

/-- A timer event that is due, with a time-out that is not cut to nothing, keeps the switch in
step. -/
theorem inStep_due (harmed : c.Armed) (hwhole : 1000000 ≤ c.cancelAllAfter) {now : Int}
    (hready : s.ready = true) (hdue : s.nextCancelAllAfter ≤ now) :
    InStep c ((dropCopy c dl).next s (.timer now true))
      ((dropCopy c dl).after beat s a (.timer now true)) := by
  have hdo : (dropCopy c dl).step s (.timer now true) = _ := step_timer_of_due harmed hready hdue
  have hafter : (dropCopy c dl).after beat s a (.timer now true) = ⟨some now, some now⟩ := by
    unfold Machine.after Machine.out
    rw [hdo]
    rfl
  rw [Machine.next, hdo, hafter]
  refine ⟨hready, hwhole, ?_, now, rfl, le_refl now, ?_⟩
  · rw [Int.tdiv_eq_ediv_of_nonneg (by omega)]
  · omega

/-- A timer event that is not due keeps the switch alive and in step: nothing has to be sent before
the session is ready, and not again within a quarter of the time-out. -/
theorem beats_early (harmed : c.Armed) (hstep : InStep c s a) {now : Int} {refreshed : Bool}
    (htimely : Timely d s a (.timer now refreshed))
    (hearly : ¬ (c.Armed ∧ s.ready = true ∧ s.nextCancelAllAfter ≤ now)) :
    Beats c dl d s a (.timer now refreshed) ∧ (s.ready = true → 1000000 ≤ c.cancelAllAfter) ∧
      InStep c s { a with ticked := some now } := by
  have hcalm : ∀ e ∈ ((dropCopy c dl).step s (.timer now refreshed)).2,
      isCancelAllAfter e = false := by
    rw [step_timer_of_not_due hearly]
    simp
  unfold InStep at hstep ⊢
  cases hsent : a.sent with
  | none =>
      rw [hsent] at hstep
      -- a message would be due if the session were ready
      have hready : s.ready ≠ true := by
        intro hready
        refine hearly ⟨harmed, hready, ?_⟩
        rw [show s.nextCancelAllAfter = 0 from hstep]
        exact htimely.1
      refine ⟨?_, fun h => absurd h hready, hstep⟩
      exact beats_of_nil (sends_eq_nil hcalm) fun _ _ _ h => absurd h hready
  | some sent =>
      rw [hsent] at hstep
      obtain ⟨hready, hwhole, hat, t, ht, hle, hlt⟩ := hstep
      have htime := htimely.2.1 t ht
      -- the session is ready, so it is only the time that is not there yet
      have hbefore : now < s.nextCancelAllAfter := by
        by_contra hlate
        exact hearly ⟨harmed, hready, by omega⟩
      refine ⟨?_, fun _ => hwhole, hready, hwhole, hat, now, rfl, by omega, by omega⟩
      apply beats_of_nil (sends_eq_nil hcalm)
      intro _ _ _ _
      rw [hsent]
      exact Option.some_ne_none sent

/-- A timer event keeps the switch alive exactly when it finds the session ready only with a
time-out of a millisecond or more, and then keeps it in step. -/
theorem beats_timer_iff (harmed : c.Armed) (hpos : 0 < c.cancelAllAfter)
    (hd : 2 * d ≤ c.cancelAllAfter) (hstep : InStep c s a) {now : Int} {refreshed : Bool}
    (htimely : Timely d s a (.timer now refreshed)) :
    (Beats c dl d s a (.timer now refreshed) ↔ (s.ready = true → 1000000 ≤ c.cancelAllAfter)) ∧
      ((s.ready = true → 1000000 ≤ c.cancelAllAfter) →
        InStep c ((dropCopy c dl).next s (.timer now refreshed))
          ((dropCopy c dl).after beat s a (.timer now refreshed))) := by
  by_cases hdue : c.Armed ∧ s.ready = true ∧ s.nextCancelAllAfter ≤ now
  · obtain ⟨-, hready, hnow⟩ := hdue
    obtain rfl : refreshed = true := htimely.2.2 hready
    rw [beats_due_iff harmed hpos hd hstep htimely hready hnow]
    exact ⟨⟨fun h _ => h, fun h => h hready⟩,
      fun hwhole => inStep_due harmed (hwhole hready) hready hnow⟩
  · obtain ⟨hbeats, hwhole, hkeeps⟩ :=
      @beats_early D c dl s d a harmed hstep now refreshed htimely hdue
    have hdo : (dropCopy c dl).step s (.timer now refreshed) = (s, []) :=
      step_timer_of_not_due hdue
    have hnext : (dropCopy c dl).next s (.timer now refreshed) = s := congrArg Prod.fst hdo
    have hafter : (dropCopy c dl).after beat s a (.timer now refreshed) =
        { a with ticked := some now } := by
      apply after_of_calm
      rw [hdo]
      simp
    rw [hnext, hafter]
    exact ⟨iff_of_true hbeats hwhole, fun _ => hkeeps⟩

/-- **One input keeps the switch alive exactly when it meets the condition**, and then keeps it in
step. -/
theorem beats_step_iff (harmed : c.Armed) (hpos : 0 < c.cancelAllAfter)
    (hd : 2 * d ≤ c.cancelAllAfter) (hstep : InStep c s a) {i : Input}
    (htimely : Timely d s a i) :
    (Beats c dl d s a i ↔ WholeMillisecond c s a i) ∧
      (WholeMillisecond c s a i →
        InStep c ((dropCopy c dl).next s i) ((dropCopy c dl).after beat s a i)) := by
  by_cases htimer : ∃ now refreshed, i = .timer now refreshed
  · obtain ⟨now, refreshed, rfl⟩ := htimer
    exact beats_timer_iff harmed hpos hd hstep htimely
  have hother : ∀ now refreshed, i ≠ .timer now refreshed :=
    fun now refreshed h => htimer ⟨now, refreshed, h⟩
  have hwhole : WholeMillisecond c s a i := by
    cases i with
    | timer now refreshed => exact absurd rfl (hother now refreshed)
    | _ => trivial
  -- losing the connection forgets what was sent on it, and the next message is due at once
  by_cases hlost : i = .disconnected
  · subst hlost
    refine ⟨iff_of_true ?_ hwhole, fun _ => ?_⟩
    · exact beats_of_nil sends_disconnected fun now refreshed h => absurd h (hother now refreshed)
    · have hcalm : ∀ e ∈ ((dropCopy c dl).step s .disconnected).2, isCancelAllAfter e = false :=
        fun e he => (calm_setStatus _ _).effects e he
      rw [after_of_calm hcalm]
      rfl
  · have hcalm : Calm s ((dropCopy c dl).step s i) := calm_step harmed hother hlost
    refine ⟨iff_of_true ?_ hwhole, fun _ => ?_⟩
    · exact beats_of_nil (sends_eq_nil hcalm.effects)
        fun now refreshed h => absurd h (hother now refreshed)
    · have hinput : beat.input s a i = a := by
        cases i with
        | timer now refreshed => exact absurd rfl (hother now refreshed)
        | disconnected => exact absurd rfl hlost
        | _ => rfl
      rw [after_of_calm hcalm.effects, hinput]
      exact hstep.of_calm hcalm

end Alive

/-! ## Disarmed -/

/-- A greeting disarms a switch that is not in use. -/
theorem disarms_welcome (h : ¬ c.Armed) (message : Json.Welcome)
    (lookup : Oms.OrderUpdate → Option OrderRef) :
    Disarms c dl s (.event (.welcome message) lookup) := by
  have hoff : ¬ c.cancelOnDisconnect = true ∨ c.cancelAllAfter = 0 := by
    by_contra hon
    rw [not_or, not_not] at hon
    exact h hon
  have hstep : (dropCopy c dl).step s (.event (.welcome message) lookup) =
      ((s.begin c dl).1, (s.begin c dl).2 ++ [sendCancelAllAfter 0]) :=
    congrArg (fun effects => ((s.begin c dl).1, (s.begin c dl).2 ++ effects)) (if_pos hoff)
  have hbegin : ((s.begin c dl).2.filter isCancelAllAfter) = [] := by
    refine List.filter_eq_nil_iff.mpr fun e he => ?_
    rw [calm_begin.effects e he]
    exact Bool.false_ne_true
  constructor
  · intro ms hms
    have hmem := Machine.mem_of_mem_visible (List.mem_of_mem_filter hms)
    rw [hstep] at hmem
    rcases List.mem_append.mp hmem with hmem | hmem
    · have hcalm := calm_begin.effects _ hmem
      cases hcalm
    · obtain ⟨rfl⟩ := List.mem_singleton.mp hmem
      rfl
  · intro _ _ _ hlive
    unfold sends
    rw [Machine.out_of_stops_eq_false hlive, hstep, List.filter_append, hbegin]
    rfl
  · intro hnot
    exact absurd rfl (hnot message lookup)

/-- Where a switch is not in use nothing but a greeting sends. -/
theorem sends_eq_nil_of_not_armed (h : ¬ c.Armed) {i : Input}
    (hwelcome : ∀ message lookup, i ≠ .event (.welcome message) lookup) : sends c dl s i = [] := by
  apply sends_eq_nil
  cases i with
  | ready => exact (calm_setStatus .loginSent "").effects
  | disconnected => exact fun e he => (calm_setStatus _ _).effects e he
  | timer now refreshed =>
      rw [step_timer_of_not_due fun hdue => h hdue.1]
      simp
  | event event lookup =>
      refine (calm_handle lookup fun message hevent => ?_).effects
      exact hwelcome message lookup (congrArg (Input.event · lookup) hevent)

/-- **One input disarms a switch that is not in use.** -/
theorem disarms_step (h : ¬ c.Armed) (i : Input) : Disarms c dl s i := by
  by_cases hwelcome : ∃ message lookup, i = .event (.welcome message) lookup
  · obtain ⟨message, lookup, rfl⟩ := hwelcome
    exact disarms_welcome h message lookup
  · have hother : ∀ message lookup, i ≠ .event (.welcome message) lookup :=
      fun message lookup hi => hwelcome ⟨message, lookup, hi⟩
    have hsends : sends c dl s i = [] := sends_eq_nil_of_not_armed h hother
    -- other inputs send nothing, so there is nothing to say of them
    constructor
    · intro ms hms
      rw [hsends] at hms
      cases hms
    · intro message lookup hi _
      exact absurd hi (hother message lookup)
    · exact fun _ => hsends

/-! ## Runs -/

/-- An account with a time-out. -/
def cancelAfter (timeout : Int) : Settings where
  session := ⟨2, "A1", "BITMEX"⟩
  cancelOnDisconnect := true
  cancelAllAfter := timeout
  asserts := true

/-- The session becomes ready, the timer fires, and once more after `pause`. -/
def greetedAndTimed (pause : Int) : List Input :=
  [.ready, .event (.welcome ⟨"Welcome"⟩) fun _ => none,
    .event (.order ⟨.partial_, [{ symbol := "XBTUSD", orderId := "o1" }]⟩) fun _ => none,
    .timer 1000000000 true, .timer (1000000000 + pause) true]

end DropCopy

end RoqBitmex
