import RoqBitmex.Gateway.BookSession
import RoqBitmex.Gateway.ProductPublished

/-! # Products in the session

What the session does with its products is a batch of rows (`productBatching`): the rows of the
first instrument snapshot of a connection, of the instrument updates after it, and of funding
messages. -/

namespace RoqBitmex

universe u

namespace MarketData

variable {D : Type u} {g : Gateway} {dl : Download D}

/-- The rows an input is handled as. -/
def rowsOf (s : MarketData D) : Input → List ProductRow
  | .event (.instrument message) _ =>
      match message.action with
      | .partial_ => if s.partialReceived.instrument then [] else message.data.map .partial_
      | .update => if s.partialReceived.instrument then message.data.map .update else []
      | _ => []
  | .event (.funding message) _ => message.data.map .funding
  | _ => []

/-- The effects that concern products. -/
def isProductEffect : Effect → Bool
  | .dispatch (.referenceData _) => true
  | .dispatch (.marketStatus _) => true
  | .dispatch (.statisticsUpdate _) => true
  | _ => false

/-- An effect of the download concerns no product. -/
theorem IsDownloadEffect.isProductEffect_eq_false {e : Effect} (h : IsDownloadEffect e) :
    isProductEffect e = false := by
  cases e with
  | dispatch event => cases event <;> first | exact h.elim | rfl
  | _ => rfl

/-- An assertion concerns no product. -/
theorem isProductEffect_assertEffect (condition : Bool) (site : Site) :
    ∀ e ∈ assertEffect condition site, isProductEffect e = false := by
  intro e he
  obtain ⟨-, rfl⟩ := eq_of_mem_assertEffect he
  rfl

/-- Handing over book updates concerns no product. -/
theorem isProductEffect_dispatchEffects (us : List MarketByPriceUpdate) (badState : List Bool) :
    ∀ e ∈ dispatchEffects us badState, isProductEffect e = false := by
  intro e he
  rcases mem_dispatchEffects he with ⟨u, -, rfl⟩ | rfl | rfl <;> rfl

variable (g dl) in
/-- A book message concerns no product. -/
theorem orderBookL2_rows (s : MarketData D) (message : Json.OrderBookL2) (badState : List Bool) :
    (∀ e ∈ (s.orderBookL2 g dl message badState).2, isProductEffect e = false) ∧
      (s.orderBookL2 g dl message badState).1.productCache = s.productCache := by
  by_cases hhandled : message.action = .partial_ ∨ s.partialReceived.orderBookL2 = true
  · obtain ⟨tail, hstep⟩ := orderBookL2_handled g dl hhandled badState
    refine ⟨fun e he => ?_, hstep.productCache⟩
    rw [hstep.effects] at he
    rcases List.mem_append.mp he with h | he
    · exact isProductEffect_assertEffect _ _ e h
    rcases List.mem_append.mp he with h | h
    · exact isProductEffect_dispatchEffects _ _ e h
    cases hstop : (s.bookResult g message).stop with
    | none => exact (hstep.isDownloadEffect_of_end hstop e h).isProductEffect_eq_false
    | some stop =>
        rw [hstep.tail_of_stop stop hstop, List.mem_singleton] at h
        rcases stop_of_bookUpdates hstop with rfl | ⟨site, rfl⟩ <;> rw [h] <;> rfl
  · rw [not_or, Bool.not_eq_true] at hhandled
    rw [orderBookL2_dropped hhandled.1 hhandled.2]
    exact ⟨isProductEffect_assertEffect _ _, rfl⟩

/-- An instrument message is handled as its rows. -/
theorem instrument_rows (s : MarketData D) (message : Json.Instrument) (badState : List Bool) :
    let rows := s.rowsOf (.event (.instrument message) badState)
    ∃ tail, (s.instrument g dl message).2 = ((productRows g).batch s.productCache rows).2 ++ tail ∧
      (∀ e ∈ tail, isProductEffect e = false) ∧
      (s.instrument g dl message).1.productCache =
        ((productRows g).batch s.productCache rows).1 := by
  cases haction : message.action with
  | partial_ =>
      simp only [rowsOf, instrument, haction]
      cases s.partialReceived.instrument with
      | true => exact ⟨_, rfl, by simp [isProductEffect], rfl⟩
      | false =>
          let s₁ : MarketData D :=
            { s with partialReceived := { s.partialReceived with instrument := true } }
          obtain ⟨-, hproducts, -, heffects⟩ := checkRelaxed_frame g dl
            (s₁.handleRows g (message.data.map .partial_)).1 .instrument
          exact ⟨_, rfl, fun e he => (heffects e he).isProductEffect_eq_false, hproducts⟩
  | update =>
      simp only [rowsOf, instrument, haction]
      cases s.partialReceived.instrument with
      | true => exact ⟨[], (List.append_nil _).symm, by simp, rfl⟩
      | false => exact ⟨[], rfl, by simp, rfl⟩
  | _ =>
      simp only [rowsOf, instrument, haction]
      exact ⟨_, rfl, by simp [isProductEffect], rfl⟩

variable (g dl) in
/-- **What an input does to the products**: its rows are handled one after another, and the rest of
its effects concern no product. -/
theorem step_rows (s : MarketData D) (i : Input) :
    ∃ tail, (s.step g dl i).2 = ((productRows g).batch s.productCache (s.rowsOf i)).2 ++ tail ∧
      (∀ e ∈ tail, isProductEffect e = false) ∧
      (s.step g dl i).1.productCache = ((productRows g).batch s.productCache (s.rowsOf i)).1 := by
  cases i with
  | ready => exact ⟨_, rfl, by simp [isProductEffect], rfl⟩
  | disconnected => exact ⟨_, rfl, by simp [isProductEffect], rfl⟩
  | event event badState =>
      cases event with
      | welcome value =>
          obtain ⟨-, hproducts, -, heffects⟩ := begin_frame g dl s
          exact ⟨_, rfl, fun e he => (heffects e he).isProductEffect_eq_false, hproducts⟩
      | instrument message => exact instrument_rows s message badState
      | quote message =>
          refine ⟨_, rfl, fun e he => ?_, rfl⟩
          obtain ⟨item, -, rfl⟩ := List.mem_map.mp he
          rfl
      | orderBookL2 message =>
          obtain ⟨heffects, hproducts⟩ := orderBookL2_rows g dl s message badState
          exact ⟨_, rfl, heffects, hproducts⟩
      | trade message =>
          refine ⟨_, rfl, fun e he => ?_, rfl⟩
          obtain ⟨value, isLast, rfl⟩ := exists_tradeSummary_of_mem_trade message e he
          rfl
      | funding message => exact ⟨[], by simp; rfl, by simp, rfl⟩
      | _ => exact ⟨_, rfl, by simp [isProductEffect], rfl⟩

/-- **The session refines the rows.** What an input of the session does to the products, and what it
publishes of them, is what its rows do and publish. -/
def productBatching (g : Gateway) (dl : Download D) :
    Batching (marketData g dl) (productRows g) where
  view := MarketData.productCache
  inputs := rowsOf
  own := isProductEffect
  next_eq s i _ := by
    obtain ⟨-, -, -, hproducts⟩ := step_rows g dl s i
    exact hproducts
  out_eq s i := by
    obtain ⟨tail, heffects, htail, -⟩ := step_rows g dl s i
    have hvisible : ∀ es, (marketData g dl).visible es = (productRows g).visible es := by
      intro es
      induction es with
      | nil => rfl
      | cons e es ih => rw [Machine.visible, Machine.visible, ih]; rfl
    have hnone : ((productRows g).visible tail).filter isProductEffect = [] := by
      rw [List.filter_eq_nil_iff]
      intro e he
      rw [htail e (Machine.mem_of_mem_visible he)]
      exact Bool.false_ne_true
    have hout : (marketData g dl).out s i = (marketData g dl).visible (s.step g dl i).2 := rfl
    rw [hout, heffects, hvisible, Machine.visible_append, Machine.visible_batch, List.filter_append]
    split
    · rw [List.filter_nil, List.append_nil]
    · rw [hnone, List.append_nil]
  stops_of_any s i h := by
    obtain ⟨tail, heffects, -, -⟩ := step_rows g dl s i
    have hstops : (marketData g dl).stops s i = (s.step g dl i).2.any g.halts := rfl
    rw [hstops, heffects, List.any_append, Bool.or_eq_true]
    exact Or.inl h

/-- What has been published of the products is the same for the session and for the rows. -/
theorem watches_published (g : Gateway) (dl : Download D) :
    (productBatching g dl).Watches published published where
  input' _ _ _ := rfl
  input _ _ _ := rfl
  output := rfl
  own a e h := by
    cases e with
    | dispatch event =>
        cases event with
        | referenceData v => cases h
        | marketStatus v => cases h
        | statisticsUpdate v => cases h
        | _ => rfl
    | _ => rfl

end MarketData

end RoqBitmex
