import RoqBitmex.Gateway.MarketData
import RoqBitmex.Gateway.BookRows

/-! # Book messages in the session

What `MarketData::operator()(Trace<OrderBookL2>)` does to the session and puts out, in terms of what
the rows of the message come to. -/

namespace RoqBitmex

universe u

namespace MarketData

variable {D : Type u} {g : Gateway} {dl : Download D}

/-! ## What a book message does -/

/-- What the rows of a book message come to. -/
def bookResult (g : Gateway) (s : MarketData D) (message : Json.OrderBookL2) : BookResult :=
  bookUpdates g message.action s.priceCache (message.data.splitBy Book.continues)

/-- A book message before the snapshot is dropped. -/
theorem orderBookL2_dropped {s : MarketData D} {message : Json.OrderBookL2} {badState : List Bool}
    (haction : message.action ≠ .partial_) (hflag : s.partialReceived.orderBookL2 = false) :
    s.orderBookL2 g dl message badState =
      (s, assertEffect (message.action ≠ .unknownInternal) .bookAction) := by
  simp [orderBookL2, haction, hflag]

/-- The session once the rows of a book message have been handled. The flag is set at the end of a
snapshot, whatever became of it in between. -/
def afterBook (g : Gateway) (s : MarketData D) (message : Json.OrderBookL2) (badState : List Bool) :
    MarketData D :=
  { s with
    priceCache := (s.bookResult g message).priceCache
    partialReceived :=
      { s.partialReceived with
        orderBookL2 :=
          decide (message.action = .partial_ ∧ (s.bookResult g message).stop = none) ||
            s.partialReceived.orderBookL2 && !refused (s.bookResult g message).updates badState } }

/-- The effects of the rows of a book message. -/
def bookEffects (g : Gateway) (s : MarketData D) (message : Json.OrderBookL2)
    (badState : List Bool) : List Effect :=
  assertEffect (message.action ≠ .unknownInternal) .bookAction ++
    dispatchEffects (s.bookResult g message).updates badState

variable (g dl) in
/-- **What a handled book message does**: a snapshot, or any book message after one. -/
theorem orderBookL2_eq {s : MarketData D} {message : Json.OrderBookL2}
    (h : message.action = .partial_ ∨ s.partialReceived.orderBookL2 = true)
    (badState : List Bool) :
    s.orderBookL2 g dl message badState =
      match (s.bookResult g message).stop with
      | some stop => (s.afterBook g message badState, s.bookEffects g message badState ++ [stop])
      | none =>
          if message.action = .partial_ then
            let r := (s.afterBook g message badState).checkRelaxed g dl .orderBookL2
            (r.1, s.bookEffects g message badState ++ r.2)
          else (s.afterBook g message badState, s.bookEffects g message badState) := by
  have hhandled : ¬ (¬ message.action = .partial_ ∧ ¬ s.partialReceived.orderBookL2 = true) := by
    rw [not_and_or, not_not, not_not]
    exact h
  rw [orderBookL2, if_neg hhandled]
  simp only [Book.run_eq]
  cases hstop : (s.bookResult g message).stop with
  | some stop =>
      rw [bookResult] at hstop
      simp [hstop, afterBook, bookEffects, bookResult, Book.after]
  | none =>
      rw [bookResult] at hstop
      by_cases hsnapshot : message.action = .partial_
      · rw [hsnapshot] at hstop
        simp [hstop, hsnapshot, afterBook, bookEffects, bookResult, Book.after]
      · simp [hstop, hsnapshot, afterBook, bookEffects, bookResult, Book.after]

/-- What a book message that is not dropped does: its updates go out one after another, and then
comes the effect that ends it early, or the download goes on after a snapshot. -/
structure BookStep (g : Gateway) (dl : Download D) (s : MarketData D) (message : Json.OrderBookL2)
    (badState : List Bool) (r : MarketData D × List Effect) (tail : List Effect) : Prop where
  effects : r.2 = assertEffect (message.action ≠ .unknownInternal) .bookAction ++
    (dispatchEffects (s.bookResult g message).updates badState ++ tail)
  tail_of_stop : ∀ stop, (s.bookResult g message).stop = some stop → tail = [stop]
  tail_of_end : (s.bookResult g message).stop = none →
    tail = [] ∨ ∃ s' : MarketData D, tail = (s'.checkRelaxed g dl .orderBookL2).2
  instrument : r.1.partialReceived.instrument = s.partialReceived.instrument
  productCache : r.1.productCache = s.productCache
  priceCache : r.1.priceCache = (s.bookResult g message).priceCache
  partialReceived : r.1.partialReceived.orderBookL2 =
    (decide (message.action = .partial_ ∧ (s.bookResult g message).stop = none) ||
      s.partialReceived.orderBookL2 && !refused (s.bookResult g message).updates badState)

variable (g dl) in
/-- A snapshot, and any book message after one, is handled. -/
theorem orderBookL2_handled {s : MarketData D} {message : Json.OrderBookL2}
    (h : message.action = .partial_ ∨ s.partialReceived.orderBookL2 = true)
    (badState : List Bool) :
    ∃ tail, BookStep g dl s message badState (s.orderBookL2 g dl message badState) tail := by
  rw [orderBookL2_eq g dl h]
  cases hstop : (s.bookResult g message).stop with
  | some stop =>
      refine ⟨[stop], by simp [bookEffects], ?_, ?_, rfl, rfl, rfl, rfl⟩
      · intro stop' hstop'
        rw [Option.some.inj (hstop.symm.trans hstop')]
      · intro hend
        rw [hstop] at hend
        cases hend
  | none =>
      have hno : ∀ stop, (s.bookResult g message).stop ≠ some stop := by simp [hstop]
      by_cases hsnapshot : message.action = .partial_
      · obtain ⟨hreceived, hproducts, hcache, -⟩ :=
          checkRelaxed_frame g dl (s.afterBook g message badState) .orderBookL2
        simp only [if_pos hsnapshot]
        refine ⟨((s.afterBook g message badState).checkRelaxed g dl .orderBookL2).2,
          by simp [bookEffects], fun stop h => absurd h (hno stop), fun _ => Or.inr ⟨_, rfl⟩, ?_,
          hproducts, hcache, ?_⟩
        · exact Eq.trans (congrArg PartialReceived.instrument hreceived) rfl
        · exact Eq.trans (congrArg PartialReceived.orderBookL2 hreceived) rfl
      · simp only [if_neg hsnapshot]
        exact ⟨[], by simp [bookEffects], fun stop h => absurd h (hno stop), fun _ => Or.inl rfl,
          rfl, rfl, rfl, rfl⟩

/-- A message that reaches its end is followed by what the download does. -/
theorem BookStep.isDownloadEffect_of_end {s : MarketData D} {message : Json.OrderBookL2}
    {badState : List Bool} {r : MarketData D × List Effect} {tail : List Effect}
    (h : BookStep g dl s message badState r tail) (hstop : (s.bookResult g message).stop = none) :
    ∀ e ∈ tail, IsDownloadEffect e := by
  intro e he
  rcases h.tail_of_end hstop with rfl | ⟨s', rfl⟩
  · cases he
  · obtain ⟨-, -, -, htail⟩ := checkRelaxed_frame g dl s' .orderBookL2
    exact htail e he

/-- Handing over updates does not end the process. -/
theorem halts_dispatchEffects (us : List MarketByPriceUpdate) (badState : List Bool) :
    ∀ e ∈ dispatchEffects us badState, g.halts e = false := by
  intro e he
  rcases mem_dispatchEffects he with ⟨u, -, rfl⟩ | rfl | rfl <;> rfl

/-- What is visible of a handled book message: the assertion about its action, its updates, and
effects that concern no book. -/
theorem BookStep.visible {s : MarketData D} {message : Json.OrderBookL2} {badState : List Bool}
    {r : MarketData D × List Effect} {tail : List Effect}
    (h : BookStep g dl s message badState r tail) :
    ∃ tail', (marketData g dl).visible r.2 =
        assertEffect (message.action ≠ .unknownInternal) .bookAction ++
          (dispatchEffects (s.bookResult g message).updates badState ++ tail') ∧
      ∀ e ∈ tail', ¬ IsBookEffect e := by
  have htail : ∀ e ∈ (marketData g dl).visible tail, ¬ IsBookEffect e := by
    intro e he
    have hmem : e ∈ tail := Machine.mem_of_mem_visible he
    cases hstop : (s.bookResult g message).stop with
    | none => exact (h.isDownloadEffect_of_end hstop e hmem).not_isBookEffect
    | some stop =>
        rw [h.tail_of_stop stop hstop, List.mem_singleton] at hmem
        rcases stop_of_bookUpdates hstop with rfl | ⟨site, rfl⟩
        · exact hmem ▸ fun h => h
        · exact hmem ▸ fun h => h
  have hdispatch : (dispatchEffects (s.bookResult g message).updates badState).any
      (marketData g dl).halts = false := by
    rw [List.any_eq_false]
    intro e he
    rw [show (marketData g dl).halts e = g.halts e from rfl, halts_dispatchEffects _ _ e he]
    exact Bool.false_ne_true
  rw [h.effects, Machine.visible_append, Machine.visible_append, hdispatch,
    Machine.visible_of_any_eq_false hdispatch]
  by_cases haction : message.action = .unknownInternal
  · -- without a known action there are no updates, whether or not the assertion ends the process
    have hnone : (s.bookResult g message).updates = [] :=
      bookUpdates_of_unparsed (Or.inr haction) _ _
    rw [hnone]
    cases hasserts : g.asserts with
    | true =>
        refine ⟨[], ?_, by simp⟩
        simp [assertEffect, haction, Machine.visible, marketData, Gateway.halts, hasserts,
          dispatchEffects]
    | false =>
        refine ⟨(marketData g dl).visible tail, ?_, htail⟩
        simp [assertEffect, haction, Machine.visible, marketData, Gateway.halts, hasserts,
          dispatchEffects]
  · refine ⟨(marketData g dl).visible tail, ?_, htail⟩
    simp [assertEffect, haction]

/-- The assertion about an action concerns no book. -/
theorem not_isBookEffect_assertEffect (condition : Bool) (site : Site) :
    ∀ e ∈ assertEffect condition site, ¬ IsBookEffect e := by
  intro e he
  obtain ⟨-, rfl⟩ := eq_of_mem_assertEffect he
  exact fun h => h

/-! ## The updates of a symbol -/

/-- The book updates of a symbol among the effects of a run. -/
def updatesFor (symbol : String) (es : List Effect) : List MarketByPriceUpdate :=
  es.filterMap fun
    | .dispatch (.marketByPriceUpdate u) => if u.symbol = symbol then some u else none
    | _ => none

/-- The updates for a symbol are those of each part. -/
@[simp] theorem updatesFor_append (symbol : String) (es es' : List Effect) :
    updatesFor symbol (es ++ es') = updatesFor symbol es ++ updatesFor symbol es' :=
  List.filterMap_append

/-- Effects that concern no book are no updates. -/
theorem updatesFor_eq_nil {symbol : String} {es : List Effect} (h : ∀ e ∈ es, ¬ IsBookEffect e) :
    updatesFor symbol es = [] := by
  rw [updatesFor, List.filterMap_eq_nil_iff]
  intro e he
  cases e with
  | dispatch event =>
      cases event with
      | marketByPriceUpdate u => exact absurd trivial (h _ he)
      | _ => rfl
  | _ => rfl

/-- Handing over updates puts out the updates, whatever is refused. -/
theorem updatesFor_dispatchEffects (symbol : String) (us : List MarketByPriceUpdate)
    (badState : List Bool) :
    updatesFor symbol (dispatchEffects us badState) = us.filter fun u => u.symbol = symbol := by
  induction us generalizing badState with
  | nil => rfl
  | cons u us ih =>
      -- a refusal adds requests, which are no updates
      have hresubscribe : updatesFor symbol
          (if badState.headD false then [.unsubscribe .orderBookL2, .subscribe [.orderBookL2]]
            else []) = [] := by
        split <;> rfl
      rw [dispatchEffects, ← List.singleton_append, updatesFor_append, updatesFor_append, ih,
        hresubscribe, List.nil_append, List.filter_cons]
      by_cases hu : u.symbol = symbol <;> simp [updatesFor, hu]

/-- A book message that is handled publishes the updates its rows come to. -/
theorem updatesFor_out_handled {s : MarketData D} {message : Json.OrderBookL2}
    (h : message.action = .partial_ ∨ s.partialReceived.orderBookL2 = true)
    (symbol : String) (badState : List Bool) :
    updatesFor symbol ((marketData g dl).out s (.event (.orderBookL2 message) badState)) =
      (s.bookResult g message).updates.filter fun u => u.symbol = symbol := by
  obtain ⟨tail, hstep⟩ := orderBookL2_handled g dl h badState
  obtain ⟨tail', hvisible, htail⟩ := hstep.visible
  have hout : (marketData g dl).out s (.event (.orderBookL2 message) badState) = _ := hvisible
  rw [hout, updatesFor_append, updatesFor_append, updatesFor_dispatchEffects,
    updatesFor_eq_nil htail,
    updatesFor_eq_nil (not_isBookEffect_assertEffect _ _), List.nil_append, List.append_nil]

/-- A book message that is dropped publishes nothing. -/
theorem updatesFor_out_dropped {s : MarketData D} {message : Json.OrderBookL2}
    (haction : message.action ≠ .partial_) (hflag : s.partialReceived.orderBookL2 = false)
    (symbol : String) (badState : List Bool) :
    updatesFor symbol ((marketData g dl).out s (.event (.orderBookL2 message) badState)) = [] := by
  refine updatesFor_eq_nil fun e he => ?_
  have hmem : e ∈ (s.orderBookL2 g dl message badState).2 := Machine.mem_of_mem_visible he
  rw [orderBookL2_dropped haction hflag] at hmem
  exact not_isBookEffect_assertEffect _ _ e hmem

end MarketData

end RoqBitmex
