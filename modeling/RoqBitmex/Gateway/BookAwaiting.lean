import RoqBitmex.Gateway.BookSession

/-! # Incremental updates while a snapshot is awaited

After a refused update, and after a disconnect, the books are out of date until the next snapshot.
The flag `partial_received_.order_book_l2` is meant to hold incremental updates back until then, but
it is read once for each message: the rest of a message with a refused update is still published,
and a snapshot with a refused update sets the flag again at its end. `received` follows what has
come in, without looking at the flag, and `noIncremental_iff` says in its terms exactly which runs
are free of incremental updates while a snapshot is awaited. -/

namespace RoqBitmex

universe u

namespace MarketData

variable {D : Type u} {g : Gateway} {dl : Download D}

/-- Whether a snapshot is awaited: from the moment the session subscribes again or loses the
connection until a snapshot starts being processed. -/
def awaiting : Monitor (MarketData D) Input Effect Bool where
  input _ a
    | .event (.orderBookL2 message) _ => if message.action = .partial_ then false else a
    | .disconnected => true
    | _ => a
  output a
    | .unsubscribe .orderBookL2 => true
    | _ => a

/-- No incremental update goes out while a snapshot is awaited. -/
def NoIncremental (_ : MarketData D) (a : Bool) : Effect → Prop
  | .dispatch (.marketByPriceUpdate u) => u.updateType = .incremental → a = false
  | _ => True

instance (s : MarketData D) (a : Bool) (e : Effect) : Decidable (NoIncremental s a e) := by
  unfold NoIncremental
  split <;> infer_instance

/-! ## What has been received -/

/-- The runs of a book message that are published. -/
def publishedRuns (g : Gateway) (s : MarketData D) (message : Json.OrderBookL2) :
    List (List Json.OrderBookL2DataItem) :=
  RoqBitmex.publishedRuns g message.action s.priceCache (message.data.splitBy Book.continues)

/-- Whether the dispatcher refuses one of the runs of a book message that are published. -/
def refusedRun (g : Gateway) (s : MarketData D) (message : Json.OrderBookL2)
    (badState : List Bool) : Bool :=
  (badState.take (s.publishedRuns g message).length).any id

/-- What has been received of the books. -/
structure Received where
  /-- A snapshot has come, and since then neither has the connection been lost nor a run of an
  incremental message been refused. -/
  snapshot : Bool := false
  /-- A run of the last snapshot was refused. -/
  refused : Bool := false

/-- Follow what is received of the books. The flag is not looked at: the session only tells which
runs of a message are published, by its price cache. -/
def received (g : Gateway) : Monitor (MarketData D) Input Effect Received where
  input s b
    | .event (.orderBookL2 message) badState =>
        if message.action = .partial_ then ⟨true, s.refusedRun g message badState⟩
        else { b with snapshot := b.snapshot && !s.refusedRun g message badState }
    | .disconnected => { b with snapshot := false }
    | _ => b
  output b _ := b

/-- An incremental message that comes after a snapshot and has a run to publish finds that no run of
that snapshot was refused, and of its own runs none but the last is. -/
def RefusedLast (g : Gateway) (s : MarketData D) (b : Received) : Input → Prop
  | .event (.orderBookL2 message) badState =>
      message.action ≠ .partial_ → b.snapshot = true → s.publishedRuns g message ≠ [] →
        b.refused = false ∧
          (badState.take ((s.publishedRuns g message).length - 1)).any id = false
  | _ => True

/-- The flag and the history of what is awaited, in terms of what has been received: the flag is up
after a snapshot, and then a snapshot is awaited if a run of that one was refused. -/
structure Stands (s : MarketData D) (a : Bool) (b : Received) : Prop where
  flag : s.partialReceived.orderBookL2 = b.snapshot
  awaited : b.snapshot = true → a = b.refused

/-! ## One message -/

/-- An effect that concerns no book is no incremental update. -/
theorem noIncremental_of_not_isBookEffect {s : MarketData D} {e : Effect} (h : ¬ IsBookEffect e)
    (a : Bool) : NoIncremental s a e := by
  cases e with
  | dispatch event =>
      cases event with
      | marketByPriceUpdate u => exact absurd trivial h
      | _ => trivial
  | _ => trivial

/-- An effect that concerns no book leaves the history alone. -/
theorem awaiting_output_of_not_isBookEffect {e : Effect} (h : ¬ IsBookEffect e) (a : Bool) :
    (awaiting (D := D)).output a e = a := by
  cases e with
  | unsubscribe topic => exact absurd trivial h
  | _ => rfl

/-- Snapshots are no incremental updates. -/
theorem holds_dispatchEffects_of_snapshot {s : MarketData D} {us : List MarketByPriceUpdate}
    (hus : ∀ u ∈ us, u.updateType = .snapshot) (a : Bool) (badState : List Bool) :
    (awaiting (D := D)).Holds (NoIncremental s) a (dispatchEffects us badState) := by
  induction us generalizing a badState with
  | nil => trivial
  | cons u us ih =>
      rw [dispatchEffects, Monitor.holds_cons, Monitor.holds_append]
      refine ⟨fun h => ?_, ?_, ih (fun u' hu' => hus u' (by simp [hu'])) _ _⟩
      · rw [hus u (by simp)] at h
        cases h
      · split
        · exact ⟨trivial, trivial, trivial⟩
        · trivial

/-- Incremental updates go out while no snapshot is awaited exactly when none was awaited before and
nothing but the last one is refused. -/
theorem holds_dispatchEffects_iff {s : MarketData D} {us : List MarketByPriceUpdate}
    (hus : ∀ u ∈ us, u.updateType = .incremental) (a : Bool) (badState : List Bool) :
    (awaiting (D := D)).Holds (NoIncremental s) a (dispatchEffects us badState) ↔
      (a = true → us = []) ∧ (badState.take (us.length - 1)).any id = false := by
  induction us generalizing a badState with
  | nil => simp [dispatchEffects]
  | cons u us ih =>
      have hu : NoIncremental s a (.dispatch (.marketByPriceUpdate u)) ↔ a = false := by
        simp [NoIncremental, hus u (by simp)]
      rw [dispatchEffects, Monitor.holds_cons, Monitor.holds_append, hu,
        ih (fun u' hu' => hus u' (by simp [hu']))]
      have hsame : (awaiting (D := D)).output a (.dispatch (.marketByPriceUpdate u)) = a := rfl
      rw [hsame]
      cases a with
      | true => simp
      | false =>
          -- a refusal here is harmless only if nothing follows
          rcases badState with _ | ⟨answer, badState⟩
          · simp
          · cases answer with
            | false => cases us <;> simp
            | true =>
                have hawait : (awaiting (D := D)).outputs false
                    [.unsubscribe .orderBookL2, .subscribe [.orderBookL2]] = true := rfl
                cases us with
                | nil => simp [NoIncremental]
                | cons u' us => simp [hawait]

/-- Effects that concern no book pass, whatever the history. -/
theorem holds_of_not_isBookEffect (s : MarketData D) {es : List Effect}
    (h : ∀ e ∈ es, ¬ IsBookEffect e) (a : Bool) :
    (awaiting (D := D)).Holds (NoIncremental s) a es :=
  Monitor.holds_of_forall (fun e he => noIncremental_of_not_isBookEffect (h e he)) a

/-- A handled book message is free of incremental updates while a snapshot is awaited exactly when
its updates are. -/
theorem holds_out_iff {s s' : MarketData D} {message : Json.OrderBookL2}
    (h : message.action = .partial_ ∨ s.partialReceived.orderBookL2 = true) (a : Bool)
    (badState : List Bool) :
    (awaiting (D := D)).Holds (NoIncremental s') a
        ((marketData g dl).out s (.event (.orderBookL2 message) badState)) ↔
      (awaiting (D := D)).Holds (NoIncremental s') a
        (dispatchEffects (s.bookResult g message).updates badState) := by
  obtain ⟨tail, hstep⟩ := orderBookL2_handled g dl h badState
  obtain ⟨tail', hvisible, htail⟩ := hstep.visible
  have hout : (marketData g dl).out s (.event (.orderBookL2 message) badState) = _ := hvisible
  have hassert := not_isBookEffect_assertEffect (message.action ≠ .unknownInternal) .bookAction
  rw [hout, Monitor.holds_append, Monitor.holds_append,
    Monitor.outputs_of_forall fun e he a => awaiting_output_of_not_isBookEffect (hassert e he) a]
  constructor
  · rintro ⟨-, h, -⟩
    exact h
  · intro h
    exact ⟨holds_of_not_isBookEffect s' hassert a, h, holds_of_not_isBookEffect s' htail _⟩

/-- As many updates go out as there are runs to publish. -/
theorem length_updates (s : MarketData D) (message : Json.OrderBookL2) :
    (s.bookResult g message).updates.length = (s.publishedRuns g message).length :=
  length_bookUpdates fun _ h => List.ne_nil_of_mem_splitBy h

/-- An update is refused exactly when a run is. -/
theorem refused_eq_refusedRun (s : MarketData D) (message : Json.OrderBookL2)
    (badState : List Bool) :
    refused (s.bookResult g message).updates badState = s.refusedRun g message badState := by
  rw [refused, refusedRun, length_updates]

/-- A book message is free of incremental updates while a snapshot is awaited exactly when it meets
the condition. -/
theorem stepSat_orderBookL2_iff {s : MarketData D} {a : Bool} {b : Received} (h : Stands s a b)
    (message : Json.OrderBookL2) (badState : List Bool) :
    (marketData g dl).StepSat awaiting NoIncremental (fun _ _ => True) s a
        (.event (.orderBookL2 message) badState) ↔
      RefusedLast g s b (.event (.orderBookL2 message) badState) := by
  have hnil : (s.bookResult g message).updates = [] ↔ s.publishedRuns g message = [] := by
    rw [← List.length_eq_zero_iff, length_updates, List.length_eq_zero_iff]
  let i : Input := .event (.orderBookL2 message) badState
  have hgood : (marketData g dl).StepSat awaiting NoIncremental (fun _ _ => True) s a i ↔
      (awaiting (D := D)).Holds (NoIncremental ((marketData g dl).next s i))
        (awaiting.input s a i) ((marketData g dl).out s i) :=
    ⟨fun h => h.1, fun h => ⟨h, fun _ => trivial⟩⟩
  rw [hgood]
  by_cases haction : message.action = .partial_
  · -- a snapshot publishes no incremental update at all
    rw [holds_out_iff (Or.inl haction)]
    refine iff_of_true (holds_dispatchEffects_of_snapshot (fun u hu => ?_) _ _)
      fun h => absurd haction h
    rw [updateType_of_mem_bookUpdates hu, if_pos haction]
  · have hinput : awaiting.input s a (.event (.orderBookL2 message) badState) = a :=
      if_neg haction
    cases hsnapshot : b.snapshot with
    | false =>
        have hflag : s.partialReceived.orderBookL2 = false := h.flag.trans hsnapshot
        -- the message is dropped, and the condition asks nothing of it
        refine iff_of_true (Machine.holds_visible ?_) fun _ h => ?_
        · rw [show (marketData g dl).step s (.event (.orderBookL2 message) badState) =
            s.orderBookL2 g dl message badState from rfl, orderBookL2_dropped haction hflag]
          exact holds_of_not_isBookEffect _ (not_isBookEffect_assertEffect _ _) _
        · rw [hsnapshot] at h
          cases h
    | true =>
        have hflag : s.partialReceived.orderBookL2 = true := h.flag.trans hsnapshot
        -- the message is handled as increments, one for each run
        rw [holds_out_iff (Or.inr hflag), hinput, holds_dispatchEffects_iff, length_updates, hnil,
          h.awaited hsnapshot]
        · constructor
          · rintro ⟨hrefused, hlast⟩ - - hne
            exact ⟨Bool.eq_false_iff.mpr fun h => hne (hrefused h), hlast⟩
          · intro h
            refine ⟨fun hrefused => by_contra fun hne => ?_, ?_⟩
            · rw [(h haction hsnapshot hne).1] at hrefused
              cases hrefused
            · by_cases hne : s.publishedRuns g message = []
              · rw [hne]
                rfl
              · exact (h haction hsnapshot hne).2
        · intro u hu
          rw [updateType_of_mem_bookUpdates hu, if_neg haction]

/-- An input that is no book message publishes no incremental update, and asks for nothing. -/
theorem stepSat_of_other (s : MarketData D) (a : Bool) {i : Input}
    (hother : ∀ message badState, i ≠ .event (.orderBookL2 message) badState) :
    (marketData g dl).StepSat awaiting NoIncremental (fun _ _ => True) s a i :=
  ⟨Machine.holds_visible (holds_of_not_isBookEffect _ (not_isBookEffect_of_step s hother) _),
    fun _ => trivial⟩

/-! ## The flag -/

/-- After updates a snapshot is awaited if one was before, or if one of them is refused. -/
theorem awaiting_dispatchEffects (us : List MarketByPriceUpdate) (a : Bool)
    (badState : List Bool) :
    (awaiting (D := D)).outputs a (dispatchEffects us badState) = (a || refused us badState) := by
  induction us generalizing a badState with
  | nil => simp [dispatchEffects, refused]
  | cons u us ih =>
      rw [dispatchEffects, Monitor.outputs_cons, Monitor.outputs_append, ih]
      rcases badState with _ | ⟨answer, badState⟩
      · simp [awaiting, refused]
      · cases answer with
        | false => simp [awaiting, refused]
        | true => simp [awaiting, refused]

variable (dl) in
/-- What is awaited after a handled book message. -/
theorem awaiting_after_handled {s : MarketData D} {message : Json.OrderBookL2}
    (h : message.action = .partial_ ∨ s.partialReceived.orderBookL2 = true) (a : Bool)
    (badState : List Bool) :
    (marketData g dl).after awaiting s a (.event (.orderBookL2 message) badState) =
      (awaiting.input s a (.event (.orderBookL2 message) badState) ||
        s.refusedRun g message badState) := by
  obtain ⟨tail, hstep⟩ := orderBookL2_handled g dl h badState
  obtain ⟨tail', hvisible, htail⟩ := hstep.visible
  have hout : (marketData g dl).out s (.event (.orderBookL2 message) badState) = _ := hvisible
  have hassert := not_isBookEffect_assertEffect (message.action ≠ .unknownInternal) .bookAction
  rw [Machine.after, hout, Monitor.outputs_append, Monitor.outputs_append,
    Monitor.outputs_of_forall fun e he a => awaiting_output_of_not_isBookEffect (hassert e he) a,
    Monitor.outputs_of_forall fun e he a => awaiting_output_of_not_isBookEffect (htail e he) a,
    awaiting_dispatchEffects, refused_eq_refusedRun]

/-- Effects that concern no book leave what is awaited alone. -/
theorem awaiting_after_of_silent {s : MarketData D} {i : Input}
    (h : ∀ e ∈ ((marketData g dl).step s i).2, ¬ IsBookEffect e) (a : Bool) :
    (marketData g dl).after awaiting s a i = awaiting.input s a i :=
  Monitor.outputs_of_forall
    (fun e he => awaiting_output_of_not_isBookEffect (h e (Machine.mem_of_mem_visible he))) _

/-- What has been received is not changed by what the session puts out. -/
theorem received_after (s : MarketData D) (b : Received) (i : Input) :
    (marketData g dl).after (received g) s b i = (received g).input s b i :=
  Monitor.outputs_of_forall (fun _ _ _ => rfl) _

/-- **A snapshot that ends early ends the process**: what it lacks is a price, a size or a side. -/
theorem stops_of_snapshot {s : MarketData D} {message : Json.OrderBookL2} {badState : List Bool}
    {stop : Effect} (haction : message.action = .partial_)
    (hstop : (s.bookResult g message).stop = some stop) :
    (marketData g dl).stops s (.event (.orderBookL2 message) badState) = true := by
  have hfatal : ∃ site, stop = .fatal site := by
    rw [bookResult, haction] at hstop
    obtain ⟨row, -, cache, levels, cache', hrow⟩ := exists_of_bookUpdates_stop hstop
    rcases bookLevel_error hrow with rfl | hsite
    · -- a row of a snapshot has no price but its own, and without it ends the process
      obtain ⟨hprice, -⟩ := bookLevel_close hrow
      have hnan : row.price = .nan := hprice
      rw [bookLevel, hnan] at hrow
      cases hrow
    · exact hsite
  obtain ⟨site, rfl⟩ := hfatal
  obtain ⟨tail, hstep⟩ := orderBookL2_handled g dl (Or.inl haction) badState
  show (s.orderBookL2 g dl message badState).2.any g.halts = true
  rw [hstep.effects, hstep.tail_of_stop _ hstop]
  simp [Gateway.halts]

/-- After a snapshot the flag is up, and a snapshot is awaited if a run of this one was refused. -/
theorem stands_snapshot {s : MarketData D} {message : Json.OrderBookL2} {badState : List Bool}
    (haction : message.action = .partial_)
    (hlive : (marketData g dl).stops s (.event (.orderBookL2 message) badState) = false)
    (a : Bool) (b : Received) :
    let i : Input := .event (.orderBookL2 message) badState
    Stands ((marketData g dl).next s i) ((marketData g dl).after awaiting s a i)
      ((received g).input s b i) := by
  intro i
  obtain ⟨tail, hstep⟩ := orderBookL2_handled g dl (Or.inl haction) badState
  have hflag : ((marketData g dl).next s i).partialReceived.orderBookL2 = _ :=
    hstep.partialReceived
  -- a snapshot that is survived has reached its end, where it sets the flag
  have hend : (s.bookResult g message).stop = none := by
    cases hstop : (s.bookResult g message).stop with
    | none => rfl
    | some stop =>
        rw [stops_of_snapshot haction hstop] at hlive
        cases hlive
  have hinput : (received g).input s b i = ⟨true, s.refusedRun g message badState⟩ :=
    if_pos haction
  have hstart : awaiting.input s a i = false := if_pos haction
  rw [hinput]
  refine ⟨?_, fun _ => ?_⟩
  · rw [hflag, decide_eq_true ⟨haction, hend⟩, Bool.true_or]
  · rw [awaiting_after_handled dl (Or.inl haction), hstart, Bool.false_or]

/-- An incremental message that is handled clears the flag where it is refused. -/
theorem stands_increment {s : MarketData D} {a : Bool} {b : Received} (h : Stands s a b)
    {message : Json.OrderBookL2} (haction : message.action ≠ .partial_)
    (hup : s.partialReceived.orderBookL2 = true) (badState : List Bool) :
    let i : Input := .event (.orderBookL2 message) badState
    Stands ((marketData g dl).next s i) ((marketData g dl).after awaiting s a i)
      ((received g).input s b i) := by
  intro i
  obtain ⟨tail, hstep⟩ := orderBookL2_handled g dl (Or.inr hup) badState
  have hflag : ((marketData g dl).next s i).partialReceived.orderBookL2 = _ :=
    hstep.partialReceived
  have hsnapshot : b.snapshot = true := h.flag.symm.trans hup
  have hinput : (received g).input s b i =
      { b with snapshot := b.snapshot && !s.refusedRun g message badState } := if_neg haction
  have hstart : awaiting.input s a i = a := if_neg haction
  rw [hinput]
  refine ⟨?_, fun hkept => ?_⟩
  · rw [hflag, refused_eq_refusedRun, decide_eq_false fun h => haction h.1, Bool.false_or, h.flag]
  · have hnone : s.refusedRun g message badState = false := by
      simpa [hsnapshot] using hkept
    rw [awaiting_after_handled dl (Or.inr hup), hnone, Bool.or_false, hstart]
    exact h.awaited hsnapshot

/-- A message that is dropped changes nothing. -/
theorem stands_dropped {s : MarketData D} {a : Bool} {b : Received} (h : Stands s a b)
    {message : Json.OrderBookL2} (haction : message.action ≠ .partial_)
    (hdown : s.partialReceived.orderBookL2 = false) (badState : List Bool) :
    let i : Input := .event (.orderBookL2 message) badState
    Stands ((marketData g dl).next s i) ((marketData g dl).after awaiting s a i)
      ((received g).input s b i) := by
  intro i
  have hdropped : (marketData g dl).step s i = _ := orderBookL2_dropped haction hdown
  have hsnapshot : b.snapshot = false := h.flag.symm.trans hdown
  have hinput : (received g).input s b i =
      { b with snapshot := b.snapshot && !s.refusedRun g message badState } := if_neg haction
  rw [hinput, hsnapshot, Bool.false_and]
  refine ⟨?_, fun h => by cases h⟩
  rw [Machine.next, hdropped]
  exact hdown

/-- Other inputs change nothing, but for a lost connection, which clears the flag. -/
theorem stands_other {s : MarketData D} {a : Bool} {b : Received} (h : Stands s a b) {i : Input}
    (hother : ∀ message badState, i ≠ .event (.orderBookL2 message) badState) :
    Stands ((marketData g dl).next s i) ((marketData g dl).after awaiting s a i)
      ((received g).input s b i) := by
  rw [awaiting_after_of_silent (not_isBookEffect_of_step s hother)]
  by_cases hdisconnected : i = .disconnected
  · subst hdisconnected
    exact ⟨rfl, fun h => by cases h⟩
  · have hframe : ((marketData g dl).next s i).partialReceived.orderBookL2 = _ :=
      (step_frame s hother hdisconnected).2
    have hsame : awaiting.input s a i = a ∧ (received g).input s b i = b := by
      cases i with
      | ready => exact ⟨rfl, rfl⟩
      | disconnected => exact absurd rfl hdisconnected
      | event event badState =>
          cases event with
          | orderBookL2 message => exact absurd rfl (hother message badState)
          | _ => exact ⟨rfl, rfl⟩
    rw [hsame.1, hsame.2]
    exact ⟨hframe.trans h.flag, h.awaited⟩

/-- **The step lemma.** What has been received goes on saying how the flag and the history stand. -/
theorem stands_next {s : MarketData D} {a : Bool} {b : Received} {i : Input} (h : Stands s a b)
    (hlive : (marketData g dl).stops s i = false) :
    Stands ((marketData g dl).next s i) ((marketData g dl).after awaiting s a i)
      ((marketData g dl).after (received g) s b i) := by
  rw [received_after]
  by_cases hbook : ∃ message badState, i = .event (.orderBookL2 message) badState
  · obtain ⟨message, badState, rfl⟩ := hbook
    by_cases haction : message.action = .partial_
    · exact stands_snapshot haction hlive a b
    · cases hflag : s.partialReceived.orderBookL2 with
      | true => exact stands_increment h haction hflag badState
      | false => exact stands_dropped h haction hflag badState
  · exact stands_other h fun message badState heq => hbook ⟨message, badState, heq⟩

/-! ## Runs -/

/-- **Exact silence while a snapshot is awaited.** In a run of the session, no incremental update
goes out while a snapshot is awaited exactly when every message of the run that is reached meets the
condition. -/
theorem noIncremental_iff (g : Gateway) (dl : Download D) (is : List Input) :
    (marketData g dl).Sat awaiting NoIncremental (fun _ _ => True) (init dl) false is ↔
      (marketData g dl).Along (received g) (RefusedLast g) (init dl) {} is := by
  have hstart : Stands (init dl) false {} := ⟨rfl, fun _ => rfl⟩
  refine Machine.along_iff_of_related Stands (fun s a b i h => ?_)
    (fun s a b i h hlive => stands_next h hlive) hstart is
  by_cases hbook : ∃ message badState, i = .event (.orderBookL2 message) badState
  · obtain ⟨message, badState, rfl⟩ := hbook
    exact stepSat_orderBookL2_iff h message badState
  · have hother : ∀ message badState, i ≠ .event (.orderBookL2 message) badState :=
      fun message badState h => hbook ⟨message, badState, h⟩
    refine iff_of_true (stepSat_of_other s a hother) ?_
    cases i with
    | event event badState =>
        cases event with
        | orderBookL2 message => exact absurd rfl (hother message badState)
        | _ => trivial
    | _ => trivial

/-- A snapshot of two books, and an update of both whose first half is refused. -/
def refusedUpdate : List Input :=
  [.event (.orderBookL2
      { action := .partial_
        data :=
          [⟨"XBTUSD", 1, .buy, .num 10, .num 5, 0⟩, ⟨"ETHUSD", 2, .sell, .num 20, .num 5, 0⟩] }) [],
   .event (.orderBookL2
      { action := .update
        data :=
          [⟨"XBTUSD", 1, .buy, .nan, .num 7, 0⟩, ⟨"ETHUSD", 2, .sell, .nan, .num 8, 0⟩] }) [true]]

/-- The second half of a refused update goes out while a snapshot is awaited. -/
theorem refusedUpdate_not_silent :
    ¬ (marketData .keepAll .inOrder).Sat awaiting NoIncremental (fun _ _ => True)
        (init .inOrder) false refusedUpdate := by
  decide +kernel

end MarketData

end RoqBitmex
