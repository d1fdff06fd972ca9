import RoqBitmex.Gateway.Feed

/-! # Which feeds end the process

A well-formed feed ends the process in two ways: the acknowledgement of an unsubscribe request,
which the parser does not know, and an inserted instrument. `survives_iff` says that there is no
other one. What carries the run is a balance: on a connection that has been greeted, the instrument
snapshot is owed once or has been received once. -/

namespace RoqBitmex

universe u

variable {D : Type u} {g : Gateway} {dl : Download D}

/-! ## Ends of the process -/

/-- The places where the form of a message, or its order, can end the process. The names of products
and the states of the download are not up to messages. -/
def Site.OfMessage : Site → Prop
  | .productSymbol | .downloadState | .downloadReady => False
  | _ => True

/-- An effect that does not end the process in such a place, whether or not assertions are compiled
in. -/
def Survives : Effect → Prop
  | .fatal site | .assertion site => ¬ site.OfMessage
  | _ => True

instance (site : Site) : Decidable site.OfMessage := by
  unfold Site.OfMessage
  split <;> infer_instance

instance (e : Effect) : Decidable (Survives e) := by
  unfold Survives
  split <;> infer_instance

/-- The two kinds of messages that a feed has to do without. -/
def Benign (_ : MarketData D) (_ : Exchange) : FeedInput → Prop
  | .text (.ok frame) _ =>
      ¬ frame.IsKind .unsubscribe ∧ ¬ (frame.IsKind .instrument ∧ frame.action = some .insert)
  | _ => True

/-- What the session relies on of the download: a call of `begin` enters no state twice, and an
answer for a state leads to later states only. -/
structure Download.Lawful (dl : Download D) : Prop where
  begin_nodup : ∀ count d, (dl.begin count d).2.Nodup
  checkRelaxed_after : ∀ count d state, ∀ entered ∈ (dl.checkRelaxed count d state).2,
    entered ∈ state.after

/-- Walking enters some of the states, in order. -/
theorem DownloadState.walk_sublist (count : DownloadState → Nat) (state : DownloadState)
    (states : List DownloadState) : (walk count state states).2.Sublist states := by
  induction states generalizing state with
  | nil => exact List.Sublist.slnil
  | cons next rest ih =>
      rw [walk]
      split
      · exact (ih next).cons_cons next
      · exact (List.nil_sublist rest).cons_cons next

/-- Entering the states in order is lawful. -/
theorem Download.lawful_inOrder : Download.inOrder.Lawful where
  begin_nodup count _ := (DownloadState.walk_sublist count _ _).nodup (by decide)
  checkRelaxed_after count d state entered hentered := by
    unfold Download.inOrder at hentered
    simp only at hentered
    split at hentered
    · exact (DownloadState.walk_sublist count _ _).subset hentered
    · cases hentered

namespace MarketData

/-- The process survives an effect of the download. -/
theorem IsDownloadEffect.survives {e : Effect} (h : IsDownloadEffect e) : Survives e := by
  cases e with
  | assertion site => cases site <;> first | exact fun h' => h' | exact h.elim
  | fatal site => exact h.elim
  | _ => trivial

end MarketData

/-- The process survives what an instrument row publishes. -/
theorem ProductRow.survives_of_isEffectOf {symbol : String} {e : Effect}
    (h : ProductRow.IsEffectOf symbol e) : Survives e := by
  cases e with
  | assertion site => cases site <;> first | exact fun h' => h' | exact h.elim
  | fatal site => exact h.elim
  | _ => trivial

/-- The process survives the updates of a book message and their refusals. -/
theorem survives_dispatchEffects (us : List MarketByPriceUpdate) (badState : List Bool) :
    ∀ e ∈ dispatchEffects us badState, Survives e := by
  intro e he
  rcases mem_dispatchEffects he with ⟨u, -, rfl⟩ | rfl | rfl <;> trivial

/-! ## Requests for a table -/

/-- How often an effect subscribes to a table. -/
def Effect.asks (t : Json.Table) : Effect → Nat
  | .subscribe topics => topics.count t
  | _ => 0

/-- How often effects subscribe to a table. -/
def asked (t : Json.Table) : List Effect → Nat
  | [] => 0
  | e :: es => e.asks t + asked t es

@[simp] theorem asked_nil (t : Json.Table) : asked t [] = 0 := rfl

@[simp] theorem asked_cons (t : Json.Table) (e : Effect) (es : List Effect) :
    asked t (e :: es) = e.asks t + asked t es := rfl

/-- Effects subscribe to a table as often as their parts do. -/
@[simp] theorem asked_append (t : Json.Table) (es es' : List Effect) :
    asked t (es ++ es') = asked t es + asked t es' := by
  induction es with
  | nil => simp
  | cons e es ih =>
      rw [List.cons_append, asked_cons, asked_cons, ih]
      omega

/-- Effects that subscribe to nothing ask for nothing. -/
theorem asked_eq_zero {t : Json.Table} {es : List Effect} (h : ∀ e ∈ es, e.asks t = 0) :
    asked t es = 0 := by
  induction es with
  | nil => rfl
  | cons e es ih =>
      rw [asked_cons, h e (by simp), ih fun e' he' => h e' (by simp [he'])]

/-- Handing over updates does not ask for the instruments. -/
theorem asked_dispatchEffects (us : List MarketByPriceUpdate) (badState : List Bool) :
    asked .instrument (dispatchEffects us badState) = 0 := by
  refine asked_eq_zero fun e he => ?_
  rcases mem_dispatchEffects he with ⟨u, -, rfl⟩ | rfl | rfl <;> rfl

/-- A subscribe request owes a snapshot for each of its topics. -/
theorem snapshots_subscribe (topics : List Json.Table) (a : Exchange) (t : Json.Table) :
    (topics.foldl Exchange.subscribe a).snapshots t = a.snapshots t + topics.count t := by
  induction topics generalizing a with
  | nil => rfl
  | cons topic topics ih =>
      rw [List.foldl_cons, ih, List.count_cons]
      show Function.update a.snapshots topic _ t + _ = _
      by_cases h : t = topic
      · subst h
        rw [Function.update_self, if_pos (by simp)]
        omega
      · rw [Function.update_of_ne h, if_neg (by simpa using fun h' => h h'.symm)]
        omega

/-- Subscribing to topics leaves it at whether the session has been greeted. -/
theorem welcomed_subscribe (topics : List Json.Table) (a : Exchange) :
    (topics.foldl Exchange.subscribe a).welcomed = a.welcomed := by
  induction topics generalizing a with
  | nil => rfl
  | cons topic topics ih => rw [List.foldl_cons, ih]; rfl

/-- What effects add to what is owed: a snapshot for each request, and no greeting. -/
theorem exchange_outputs (t : Json.Table) (a : Exchange) (es : List Effect) :
    ((exchange (D := D)).outputs a es).snapshots t = a.snapshots t + asked t es ∧
      ((exchange (D := D)).outputs a es).welcomed = a.welcomed := by
  induction es generalizing a with
  | nil => exact ⟨rfl, rfl⟩
  | cons e es ih =>
      have hrequest : (a.request e).snapshots t = a.snapshots t + e.asks t ∧
          (a.request e).welcomed = a.welcomed := by
        cases e with
        | subscribe topics => exact ⟨snapshots_subscribe topics a t, welcomed_subscribe topics a⟩
        | _ => exact ⟨rfl, rfl⟩
      obtain ⟨hsnapshots, hwelcomed⟩ := ih (a.request e)
      rw [Monitor.outputs_cons, asked_cons]
      show ((exchange (D := D)).outputs (a.request e) es).snapshots t = _ ∧ _
      constructor
      · rw [hsnapshots, hrequest.1]
        omega
      · exact hwelcomed.trans hrequest.2

namespace MarketData

/-! ## What the download asks for -/

/-- Entering states asks for the instruments once for each time their state is entered. -/
theorem asked_enterAll (s : MarketData D) (states : List DownloadState) :
    asked .instrument (s.enterAll g states).2 = states.count .instrument := by
  induction states generalizing s with
  | nil => rfl
  | cons state rest ih =>
      have hassert : asked .instrument (assertEffect (!s.ready) .downloadReady) = 0 := by
        cases s.ready <;> rfl
      have henter : asked .instrument (s.enter g state).2 =
          if state = .instrument then 1 else 0 := by
        cases state with
        | done => rw [enter, setStatus, asked_append, hassert]; rfl
        | _ => rfl
      show asked .instrument ((s.enter g state).2 ++ ((s.enter g state).1.enterAll g rest).2) = _
      rw [asked_append, henter, ih, List.count_cons]
      by_cases h : state = .instrument
      · rw [if_pos h, if_pos (by simpa using h)]
        omega
      · rw [if_neg h, if_neg (by simpa using h)]
        omega

/-- A lawful download asks for the instruments at most once when it begins. -/
theorem asked_begin (hdl : dl.Lawful) (s : MarketData D) :
    asked .instrument (s.begin g dl).2 ≤ 1 := by
  show asked .instrument (enterAll g _ (dl.begin DownloadState.count s.download).2).2 ≤ 1
  rw [asked_enterAll]
  exact List.nodup_iff_count_le_one.mp (hdl.begin_nodup _ _) _

/-- A lawful download that goes on asks for no instruments. -/
theorem asked_checkRelaxed (hdl : dl.Lawful) (s : MarketData D) {state : DownloadState}
    (hstate : DownloadState.instrument ∉ state.after) :
    asked .instrument (s.checkRelaxed g dl state).2 = 0 := by
  show asked .instrument
    (enterAll g _ (dl.checkRelaxed DownloadState.count s.download state).2).2 = 0
  rw [asked_enterAll, List.count_eq_zero]
  exact fun h => hstate (hdl.checkRelaxed_after _ _ _ _ h)

/-! ## Handlers -/

/-- An answer that does not end the process and does not touch the subscription of the instruments.
-/
structure Quiet (s : MarketData D) (r : MarketData D × List Effect) : Prop where
  survives : ∀ e ∈ r.2, Survives e
  unasked : asked .instrument r.2 = 0
  received : r.1.partialReceived.instrument = s.partialReceived.instrument

/-- Handling rows of products is quiet. -/
theorem quiet_handleRows (s : MarketData D) (rows : List ProductRow) :
    Quiet s (s.handleRows g rows) := by
  have heffects := isEffectOf_handleRows (g := g) s rows
  refine ⟨fun e he => ?_, asked_eq_zero fun e he => ?_, rfl⟩
  · obtain ⟨symbol, h⟩ := heffects e he
    exact ProductRow.survives_of_isEffectOf h
  · obtain ⟨symbol, h⟩ := heffects e he
    cases e with
    | subscribe topics => exact h.elim
    | _ => rfl

/-- An instrument message is quiet if it is an update or a deletion. -/
theorem quiet_instrument {s : MarketData D} {message : Json.Instrument}
    (haction : message.action = .update ∨ message.action = .delete) :
    Quiet s (s.instrument g dl message) := by
  have hnothing : Quiet s (s, []) := ⟨by simp, rfl, rfl⟩
  rcases haction with haction | haction
  · simp only [instrument, haction]
    split
    · exact quiet_handleRows s _
    · exact hnothing
  · simp only [instrument, haction]
    exact hnothing

/-- A first instrument snapshot does not end the process, asks for nothing and has been received. -/
theorem instrument_snapshot (hdl : dl.Lawful) {s : MarketData D} {message : Json.Instrument}
    (haction : message.action = .partial_) (hfirst : s.partialReceived.instrument = false) :
    (∀ e ∈ (s.instrument g dl message).2, Survives e) ∧
      asked .instrument (s.instrument g dl message).2 = 0 ∧
      (s.instrument g dl message).1.partialReceived.instrument = true := by
  let s₁ : MarketData D :=
    { s with partialReceived := { s.partialReceived with instrument := true } }
  let s₂ := (s₁.handleRows g (message.data.map .partial_)).1
  have hrows : Quiet s₁ (s₁.handleRows g (message.data.map .partial_)) := quiet_handleRows s₁ _
  obtain ⟨hreceived, -, -, hdownload⟩ := checkRelaxed_frame g dl s₂ .instrument
  have hstep : s.instrument g dl message =
      ((s₂.checkRelaxed g dl .instrument).1,
        (s₁.handleRows g (message.data.map .partial_)).2 ++
          (s₂.checkRelaxed g dl .instrument).2) := by
    simp only [instrument, haction, hfirst, Bool.false_eq_true, if_false]
    rfl
  rw [hstep]
  refine ⟨fun e he => ?_, ?_, ?_⟩
  · rcases List.mem_append.mp he with h | h
    · exact hrows.survives e h
    · exact (hdownload e h).survives
  · rw [asked_append, hrows.unasked, asked_checkRelaxed hdl _ (by decide)]
  · exact (congrArg PartialReceived.instrument hreceived).trans hrows.received

/-- A book message is quiet if its action was parsed and its rows are well formed. -/
theorem quiet_orderBookL2 (hdl : dl.Lawful) {s : MarketData D} {message : Json.OrderBookL2}
    (hparsed : message.action ≠ .undefinedInternal ∧ message.action ≠ .unknownInternal)
    (hrows : ∀ row ∈ message.data, (row.side = .buy ∨ row.side = .sell) ∧
      (message.action = .partial_ ∨ message.action = .insert →
        row.price.isNaN = false ∧ row.size.isNaN = false)) (badState : List Bool) :
    Quiet s (s.orderBookL2 g dl message badState) := by
  have hassert : assertEffect (message.action ≠ .unknownInternal) .bookAction = [] := by
    rw [decide_eq_true hparsed.2, assertEffect_true]
  by_cases hhandled : message.action = .partial_ ∨ s.partialReceived.orderBookL2 = true
  · obtain ⟨tail, hstep⟩ := orderBookL2_handled g dl hhandled badState
    -- the message reaches its end or closes the connection
    have htail : (∀ e ∈ tail, Survives e) ∧ asked .instrument tail = 0 := by
      cases hstop : (s.bookResult g message).stop with
      | none =>
          refine ⟨fun e he => (hstep.isDownloadEffect_of_end hstop e he).survives, ?_⟩
          rcases hstep.tail_of_end hstop with rfl | ⟨s', rfl⟩
          · rfl
          · exact asked_checkRelaxed hdl s' (by decide)
      | some stop =>
          obtain ⟨row, hrow, cache, levels, cache', herror⟩ := exists_of_bookUpdates_stop hstop
          rw [List.flatten_splitBy] at hrow
          obtain ⟨hside, hpriced⟩ := hrows row hrow
          obtain rfl := bookLevel_error_eq_close hparsed hside hpriced herror
          rw [hstep.tail_of_stop _ hstop]
          exact ⟨by simp [Survives], rfl⟩
    refine ⟨?_, ?_, hstep.instrument⟩
    · intro e he
      rw [hstep.effects, hassert, List.nil_append] at he
      rcases List.mem_append.mp he with h | h
      · exact survives_dispatchEffects _ _ e h
      · exact htail.1 e h
    · rw [hstep.effects, hassert, List.nil_append, asked_append, asked_dispatchEffects, htail.2]
  · rw [not_or, Bool.not_eq_true] at hhandled
    rw [orderBookL2_dropped hhandled.1 hhandled.2, hassert]
    exact ⟨by simp, rfl, rfl⟩

/-! ## Messages -/

/-- A message that goes to a handler is what the handler makes of it. -/
theorem parse_of_helper {s : MarketData D} {f : Json.Frame} {event : Json.Event}
    (h : Json.Parser.dispatch f g.allowUnknownEventTypes = .helper event) (badState : List Bool) :
    s.parse g dl (.ok f) badState = s.handle g dl event badState := by
  rw [parse, h]
  show (((marketData g dl).batch s [.event event badState]).1,
    ((marketData g dl).batch s [.event event badState]).2) = _
  rw [Machine.batch_cons, Machine.batch_nil, List.append_nil]
  rfl

/-- The handler of a table's messages. -/
theorem parse_of_isKind {s : MarketData D} {f : Json.Frame} {k : Json.Kind} {t : Json.Table}
    (hk : k.table = some t) (hkind : f.IsKind k) {event : Json.Event}
    (h : Json.Parser.dispatchTable f g.allowUnknownEventTypes t = .helper event)
    (badState : List Bool) : s.parse g dl (.ok f) badState = s.handle g dl event badState := by
  obtain ⟨htable, hinfo, hsubscribe, herror, hnow⟩ := (Json.isKind_table_iff hk).mp hkind
  refine parse_of_helper ?_ badState
  rw [Json.dispatch_eq_dispatchTable hinfo hsubscribe herror hnow, htable]
  exact h

/-- The actions the exchange sends. -/
def IsAction (action : Json.Action) : Prop :=
  action ≠ .undefinedInternal ∧ action ≠ .unknownInternal

/-- A message about a public table other than the instruments is quiet. -/
theorem quiet_parse (hdl : dl.Lawful) {s : MarketData D} {f : Json.Frame} {k : Json.Kind}
    {t : Json.Table} (hk : k.table = some t) (hpublic : t.IsPublic) (hkind : f.IsKind k)
    {action : Json.Action} (hf : f.action = some action) (haction : IsAction action)
    (hrows : t = .orderBookL2 → Exchange.FormsRows f) (hother : t ≠ .instrument)
    (badState : List Bool) : Quiet s (s.parse g dl (.ok f) badState) := by
  cases t with
  | instrument => exact absurd rfl hother
  | orderBookL2 =>
      rw [parse_of_isKind hk hkind rfl]
      have haction' : (Json.OrderBookL2.ofFrame f).action = action := by
        show f.action.getD _ = _
        rw [hf]
        rfl
      refine quiet_orderBookL2 hdl (haction' ▸ haction) (fun row hrow => ?_) badState
      obtain ⟨rows, hdata, hrow'⟩ := Json.OrderBookL2.mem_data_ofFrame hrow
      obtain ⟨hside, hpriced⟩ := hrows rfl rows hdata row hrow'
      rw [haction']
      rw [hf, Option.some.injEq, Option.some.injEq] at hpriced
      exact ⟨hside, hpriced⟩
  | quote =>
      rw [parse_of_isKind hk hkind rfl]
      have heffects : ∀ e ∈ quote g (.ofFrame f), ∃ value, e = .dispatch (.topOfBook value) := by
        intro e he
        obtain ⟨item, -, rfl⟩ := List.mem_map.mp he
        exact ⟨_, rfl⟩
      refine ⟨fun e he => ?_, asked_eq_zero fun e he => ?_, rfl⟩
      · obtain ⟨value, rfl⟩ := heffects e he
        trivial
      · obtain ⟨value, rfl⟩ := heffects e he
        rfl
  | trade =>
      rw [parse_of_isKind hk hkind rfl]
      refine ⟨fun e he => ?_, asked_eq_zero fun e he => ?_, rfl⟩
      · obtain ⟨value, isLast, rfl⟩ := exists_tradeSummary_of_mem_trade _ e he
        trivial
      · obtain ⟨value, isLast, rfl⟩ := exists_tradeSummary_of_mem_trade _ e he
        rfl
  | funding =>
      rw [parse_of_isKind hk hkind rfl]
      exact quiet_handleRows s _
  | liquidation =>
      rw [parse_of_isKind hk hkind rfl]
      exact ⟨by simp [handle], rfl, rfl⟩
  | settlement =>
      rw [parse_of_isKind hk hkind rfl]
      exact ⟨by simp [handle], rfl, rfl⟩
  | _ => exact hpublic.elim

/-! ## The balance -/

/-- The balance: on a connection that has been greeted the instrument snapshot is owed or has been
received, once. -/
def InstrumentBalance (s : MarketData D) (a : Exchange) : Prop :=
  a.snapshots .instrument + s.partialReceived.instrument.toNat ≤ a.welcomed.toNat

/-- A message about a table reduces what is owed if it is the snapshot. -/
theorem send_of_isKind {a : Exchange} {f : Json.Frame} {k : Json.Kind} {t : Json.Table}
    (hk : k.table = some t) (hkind : f.IsKind k) :
    a.send f =
      if f.action = some .partial_ then { a with snapshots := Exchange.debit a.snapshots t }
      else a := by
  obtain ⟨htable, hinfo, hsubscribe, -, -⟩ := (Json.isKind_table_iff hk).mp hkind
  simp only [Exchange.send, hinfo, hsubscribe, htable, Option.isSome_none, Bool.false_eq_true,
    if_false]

/-- An answer that does not end the process and keeps the balance. -/
structure Stays (a : Exchange) (r : MarketData D × List Effect) : Prop where
  survives : ∀ e ∈ r.2, Survives e
  balance : a.snapshots .instrument + asked .instrument r.2 +
    r.1.partialReceived.instrument.toNat ≤ a.welcomed.toNat

/-- A quiet answer to a message that leaves the balance alone keeps it. -/
theorem Quiet.stays {s : MarketData D} {a : Exchange} {r : MarketData D × List Effect}
    (h : Quiet s r) (hbalance : InstrumentBalance s a) : Stays a r where
  survives := h.survives
  balance := by
    rw [h.unasked, h.received]
    exact hbalance

/-- The greeting: nothing was owed or received, and the instruments are asked for once. -/
theorem stays_greeting (hdl : dl.Lawful) {s : MarketData D} {a : Exchange} {f : Json.Frame}
    (hbalance : InstrumentBalance s a) (hkind : f.IsKind .welcome) (hfirst : a.welcomed = false)
    (badState : List Bool) : Stays (a.send f) (s.parse g dl (.ok f) badState) := by
  unfold InstrumentBalance at hbalance
  obtain ⟨hreceived, -, -, heffects⟩ := begin_frame g dl s
  have hsent : a.send f = { a with welcomed := true } := by
    obtain ⟨x, hx, -⟩ := hkind
    simp [Exchange.send, hx]
  have hasked : asked .instrument (s.begin g dl).2 ≤ 1 := asked_begin hdl s
  rw [parse_of_helper (Json.dispatch_welcome hkind), hsent]
  refine ⟨fun e he => (heffects e he).survives, ?_⟩
  show a.snapshots .instrument + asked .instrument (s.begin g dl).2 +
    (s.begin g dl).1.partialReceived.instrument.toNat ≤ 1
  rw [hreceived]
  rw [hfirst, Bool.toNat_false] at hbalance
  omega

/-- The instrument snapshot: it was owed, so it has not been received. -/
theorem stays_instrument_snapshot (hdl : dl.Lawful) {s : MarketData D} {a : Exchange}
    {f : Json.Frame} (hbalance : InstrumentBalance s a) {k : Json.Kind}
    (hk : k.table = some .instrument) (hkind : f.IsKind k) (haction : f.action = some .partial_)
    (hdue : 0 < a.snapshots .instrument) (badState : List Bool) :
    Stays (a.send f) (s.parse g dl (.ok f) badState) := by
  unfold InstrumentBalance at hbalance
  have hfirst : s.partialReceived.instrument = false := by
    by_contra h
    rw [Bool.not_eq_false] at h
    rw [h, Bool.toNat_true] at hbalance
    have hle : a.welcomed.toNat ≤ 1 := Bool.toNat_le _
    omega
  have haction' : (Json.Instrument.ofFrame f).action = .partial_ := by
    show f.action.getD _ = _
    rw [haction]
    rfl
  obtain ⟨hsurvives, hasked, hreceived⟩ := instrument_snapshot (g := g) hdl haction' hfirst
  rw [send_of_isKind hk hkind, if_pos haction, parse_of_isKind hk hkind rfl]
  refine ⟨hsurvives, ?_⟩
  show Function.update a.snapshots .instrument (a.snapshots .instrument - 1) .instrument +
    asked .instrument (s.instrument g dl (.ofFrame f)).2 +
    (s.instrument g dl (.ofFrame f)).1.partialReceived.instrument.toNat ≤ a.welcomed.toNat
  rw [Function.update_self, hasked, hreceived, Bool.toNat_true]
  omega

/-- A change of instruments that inserts none is quiet. -/
theorem quiet_instrument_change {s : MarketData D} {f : Json.Frame} {k : Json.Kind}
    (hk : k.table = some .instrument) (hkind : f.IsKind k)
    (haction : f.action = some .update ∨ f.action = some .delete) (badState : List Bool) :
    Quiet s (s.parse g dl (.ok f) badState) := by
  have haction' : (Json.Instrument.ofFrame f).action = .update ∨
      (Json.Instrument.ofFrame f).action = .delete := by
    show f.action.getD _ = _ ∨ f.action.getD _ = _
    rcases haction with h | h
    · rw [h]
      exact Or.inl rfl
    · rw [h]
      exact Or.inr rfl
  rw [parse_of_isKind hk hkind rfl]
  exact quiet_instrument haction'

/-- **A benign message.** It does not end the process, and keeps the balance. -/
theorem stays_of_benign (hdl : dl.Lawful) {s : MarketData D} {a : Exchange} {f : Json.Frame}
    {badState : List Bool} (hbalance : InstrumentBalance s a) (hsend : a.MaySend f)
    (hbenign : Benign s a (.text (.ok f) badState)) :
    Stays (a.send f) (s.parse g dl (.ok f) badState) := by
  obtain ⟨hunsubscribe, hinsert⟩ := hbenign
  rcases hsend with ⟨hkind, hfirst⟩ | ⟨hkind, topic, hacknowledges, hdue⟩ | ⟨hkind, -, -, -⟩ |
    ⟨k, t, hk, hpublic, hkind, haction, hdue, hrows⟩ | ⟨k, t, hk, hpublic, hkind, haction, hrows⟩
  · exact stays_greeting hdl hbalance hkind hfirst badState
  · -- an acknowledgement that the parser knows
    have hsent : (a.send f).snapshots = a.snapshots ∧ (a.send f).welcomed = a.welcomed := by
      simp [Exchange.send, hacknowledges, hkind.2]
    rw [parse_of_helper (Json.dispatch_subscribe hkind)]
    refine ⟨by simp [handle], ?_⟩
    rw [hsent.1, hsent.2]
    exact hbalance
  · exact absurd hkind hunsubscribe
  · by_cases ht : t = .instrument
    · subst ht
      exact stays_instrument_snapshot hdl hbalance hk hkind haction hdue badState
    · have hquiet : Quiet s (s.parse g dl (.ok f) badState) :=
        quiet_parse hdl hk hpublic hkind haction ⟨by decide, by decide⟩ hrows ht badState
      rw [send_of_isKind hk hkind, if_pos haction]
      refine hquiet.stays ?_
      show Function.update a.snapshots t _ .instrument + _ ≤ _
      rw [Function.update_of_ne (Ne.symm ht)]
      exact hbalance
  · have hchange : ¬ f.action = some .partial_ := by
      rcases haction with h | h | h <;> simp [h]
    rw [send_of_isKind hk hkind, if_neg hchange]
    by_cases ht : t = .instrument
    · subst ht
      have hkind' : f.IsKind .instrument :=
        (Json.isKind_table_iff rfl).mpr ((Json.isKind_table_iff hk).mp hkind)
      have haction' : f.action = some .update ∨ f.action = some .delete :=
        haction.resolve_left fun h => hinsert ⟨hkind', h⟩
      exact (quiet_instrument_change hk hkind haction' badState).stays hbalance
    · have hquiet : Quiet s (s.parse g dl (.ok f) badState) := by
        rcases haction with h | h | h
        all_goals
          exact quiet_parse hdl hk hpublic hkind h ⟨by decide, by decide⟩ hrows ht badState
      exact hquiet.stays hbalance

/-- **The other messages.** Each ends the process at once. -/
theorem parse_of_not_benign {s : MarketData D} {a : Exchange} {f : Json.Frame}
    {badState : List Bool} (h : ¬ Benign s a (.text (.ok f) badState)) :
    ∃ e, (s.parse g dl (.ok f) badState).2 = [e] ∧ ¬ Survives e := by
  have hcases : f.IsKind .unsubscribe ∨ f.IsKind .instrument ∧ f.action = some .insert := by
    by_contra hnot
    exact h (not_or.mp hnot)
  rcases hcases with hkind | ⟨hkind, haction⟩
  · refine ⟨.fatal .parser, ?_, fun h => h trivial⟩
    rw [parse, Json.dispatch_unsubscribe hkind]
    rfl
  · refine ⟨.assertion .instrumentInsert, ?_, fun h => h trivial⟩
    have haction' : (Json.Instrument.ofFrame f).action = .insert := by
      show f.action.getD _ = _
      rw [haction]
      rfl
    rw [parse_of_isKind (k := .instrument) rfl hkind rfl]
    show (s.instrument g dl (.ofFrame f)).2 = _
    simp only [instrument, haction']

end MarketData

section Feed

open MarketData

/-- **One input.** It does not end the process exactly when it is benign. -/
theorem stepSat_iff_benign (hdl : dl.Lawful) {s : MarketData D} {a : Exchange} {i : FeedInput}
    (hbalance : InstrumentBalance s a) (hwf : WellFormed s a i) :
    (marketFeed g dl).StepSat exchange (fun _ _ e => Survives e) (fun _ _ => True) s a i ↔
      Benign s a i := by
  have hgood : (∀ e ∈ ((marketFeed g dl).step s i).2, Survives e) →
      (marketFeed g dl).StepSat exchange (fun _ _ e => Survives e) (fun _ _ => True) s a i :=
    fun h => ⟨Machine.holds_visible (Monitor.holds_of_forall (fun e he _ => h e he) _),
      fun _ => trivial⟩
  cases i with
  | ready =>
      exact iff_of_true (hgood (by simp [marketFeed, receive, socketReady, setStatus, Survives]))
        trivial
  | disconnected =>
      exact iff_of_true
        (hgood (by simp [marketFeed, receive, socketDisconnected, setStatus, Survives])) trivial
  | text text badState =>
      cases text with
      | error what => exact hwf.elim
      | ok f =>
          constructor
          · intro h
            by_contra hnot
            obtain ⟨e, heffects, he⟩ :
                ∃ e, (s.parse g dl (.ok f) badState).2 = [e] ∧ ¬ Survives e :=
              parse_of_not_benign hnot
            have hout : (marketFeed g dl).out s (.text (.ok f) badState) = [e] := by
              show (marketFeed g dl).visible (s.parse g dl (.ok f) badState).2 = [e]
              rw [heffects, Machine.visible, Machine.visible_nil, ite_self]
            have hholds := h.1
            rw [hout] at hholds
            exact he hholds.1
          · intro h
            exact hgood (stays_of_benign hdl hbalance hwf h).survives

/-- A benign input keeps the balance. -/
theorem balanced_next (hdl : dl.Lawful) {s : MarketData D} {a : Exchange} {i : FeedInput}
    (hbalance : InstrumentBalance s a) (hwf : WellFormed s a i) (hbenign : Benign s a i)
    (hstops : (marketFeed g dl).stops s i = false) :
    InstrumentBalance ((marketFeed g dl).next s i) ((marketFeed g dl).after exchange s a i) := by
  have hout : (marketFeed g dl).out s i = ((marketFeed g dl).step s i).2 :=
    Machine.out_of_stops_eq_false hstops
  obtain ⟨hsnapshots, hwelcomed⟩ := exchange_outputs (D := D) .instrument
    (exchange.input s a i) ((marketFeed g dl).step s i).2
  rw [Machine.after, hout, InstrumentBalance, hsnapshots, hwelcomed]
  cases i with
  | ready => exact hbalance
  | disconnected => exact Nat.le_refl 0
  | text text badState =>
      cases text with
      | error what => exact hwf.elim
      | ok f => exact (stays_of_benign hdl hbalance hwf hbenign).balance

/-- **Exactly the benign feeds survive.** Along a well-formed run of the session on its socket, no
message ends the process exactly when each is benign. -/
theorem survives_iff (hdl : dl.Lawful) {is : List FeedInput}
    (hwf : (marketFeed g dl).Along exchange WellFormed (init dl) {} is) :
    (marketFeed g dl).Sat exchange (fun _ _ e => Survives e) (fun _ _ => True) (init dl) {} is ↔
      (marketFeed g dl).Along exchange Benign (init dl) {} is :=
  Machine.sat_iff_along InstrumentBalance
    (fun _ _ _ hbalance hwf => stepSat_iff_benign hdl hbalance hwf)
    (fun _ _ _ hbalance hwf hbenign hstops => balanced_next hdl hbalance hwf hbenign hstops)
    (Nat.le_refl 0) hwf

/-- Rows with a side, a price and a size can be sent with any action. -/
theorem formsRows_of_priced {f : Json.Frame} {rows : List Json.OrderBookL2DataItem}
    (hdata : f.data = .orderBookL2 rows)
    (h : ∀ row ∈ rows, (row.side = .buy ∨ row.side = .sell) ∧
      row.price.isNaN = false ∧ row.size.isNaN = false) : Exchange.FormsRows f := by
  intro rows' hdata' row hrow
  obtain rfl : rows = rows' := Json.Data.orderBookL2.inj (hdata.symm.trans hdata')
  obtain ⟨hside, hpriced⟩ := h row hrow
  exact ⟨hside, fun _ => hpriced⟩

/-- The greeting of a connection. -/
def greeting : FeedInput := .text (.ok { info := some "Welcome to the BitMEX Realtime API." }) []

/-- A feed with an update before its instrument snapshot, and with a book snapshot that is refused
and sent again. -/
def benignFeed : List FeedInput :=
  [greeting,
   .text (.ok { subscribe := some "instrument", success := some true }) [],
   .text (.ok { table := some .instrument, action := some .update,
                data := .instrument [{ symbol := "XBTUSD", markPrice := .num 5 }] }) [],
   .text (.ok { table := some .instrument, action := some .partial_,
                data := .instrument [{ symbol := "XBTUSD", tickSize := .num 1 }] }) [],
   .text (.ok { table := some .orderBookL2, action := some .partial_,
                data := .orderBookL2 [⟨"XBTUSD", 1, .buy, .num 10, .num 5, 0⟩] }) [true],
   .text (.ok { table := some .orderBookL2, action := some .partial_,
                data := .orderBookL2 [⟨"XBTUSD", 1, .buy, .num 10, .num 6, 0⟩] }) []]

/-- It is well formed, and survives because it is benign. -/
theorem survives_iff_benignFeed :
    (marketFeed .keepAll .inOrder).Sat exchange (fun _ _ e => Survives e) (fun _ _ => True)
        (init .inOrder) {} benignFeed ↔
      (marketFeed .keepAll .inOrder).Along exchange Benign (init .inOrder) {} benignFeed := by
  refine survives_iff Download.lawful_inOrder ⟨.welcome ⟨_, rfl, by decide⟩ rfl, fun _ =>
    ⟨.subscribed ⟨⟨_, rfl, by decide⟩, rfl⟩ "instrument" rfl ?_, fun _ =>
    ⟨.change .instrument .instrument rfl trivial ⟨rfl, rfl, rfl, rfl, rfl⟩ (by decide) nofun,
      fun _ =>
    ⟨.snapshot .instrument .instrument rfl trivial ⟨rfl, rfl, rfl, rfl, rfl⟩ rfl ?_ nofun, fun _ =>
    ⟨.snapshot .orderBookL2 .orderBookL2 rfl trivial ⟨rfl, rfl, rfl, rfl, rfl⟩ rfl ?_
      fun _ => formsRows_of_priced rfl (by decide), fun _ =>
    ⟨.snapshot .orderBookL2 .orderBookL2 rfl trivial ⟨rfl, rfl, rfl, rfl, rfl⟩ rfl ?_
      fun _ => formsRows_of_priced rfl (by decide), fun _ => trivial⟩⟩⟩⟩⟩⟩
  all_goals decide +kernel

/-- A feed that acknowledges the requests with which the session answers a refused book snapshot. -/
def acknowledgedUnsubscribe : List FeedInput :=
  [greeting,
   .text (.ok { table := some .instrument, action := some .partial_, data := .instrument [] }) [],
   .text (.ok { table := some .orderBookL2, action := some .partial_,
                data := .orderBookL2 [⟨"XBTUSD", 1, .buy, .num 10, .num 5, 0⟩] }) [true],
   .text (.ok { unsubscribe := some "orderBookL2", success := some true }) []]

/-- A feed that inserts an instrument before the snapshot. -/
def insertedInstrument : List FeedInput :=
  [greeting,
   .text (.ok { table := some .instrument, action := some .insert,
                data := .instrument [{ symbol := "XBTUSD", tickSize := .num 1 }] }) []]

/-- Both are well formed, and end the process. -/
theorem wellFormed_not_survives :
    ((marketFeed .keepAll .inOrder).Along exchange WellFormed (init .inOrder) {}
        acknowledgedUnsubscribe ∧
      ¬ (marketFeed .keepAll .inOrder).Sat exchange (fun _ _ e => Survives e) (fun _ _ => True)
          (init .inOrder) {} acknowledgedUnsubscribe) ∧
    (marketFeed .keepAll .inOrder).Along exchange WellFormed (init .inOrder) {}
        insertedInstrument ∧
      ¬ (marketFeed .keepAll .inOrder).Sat exchange (fun _ _ e => Survives e) (fun _ _ => True)
          (init .inOrder) {} insertedInstrument := by
  refine ⟨⟨⟨.welcome ⟨_, rfl, by decide⟩ rfl, fun _ =>
    ⟨.snapshot .instrument .instrument rfl trivial ⟨rfl, rfl, rfl, rfl, rfl⟩ rfl ?_ nofun, fun _ =>
    ⟨.snapshot .orderBookL2 .orderBookL2 rfl trivial ⟨rfl, rfl, rfl, rfl, rfl⟩ rfl ?_
      fun _ => formsRows_of_priced rfl (by decide), fun _ =>
    ⟨.unsubscribed ⟨rfl, Or.inl rfl, rfl, rfl, rfl, rfl, rfl⟩ "orderBookL2" rfl ?_,
      fun _ => trivial⟩⟩⟩⟩, ?_⟩,
    ⟨.welcome ⟨_, rfl, by decide⟩ rfl, fun _ =>
    ⟨.change .instrument .instrument rfl trivial ⟨rfl, rfl, rfl, rfl, rfl⟩ (by decide) nofun,
      fun _ => trivial⟩⟩, ?_⟩
  all_goals decide +kernel

end Feed

end RoqBitmex
