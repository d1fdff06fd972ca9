import RoqBitmex.Gateway.ProductRows

/-! # What is published of products

`Published` is what a consumer knows of the products: the last reference data, the last market
status and the last entry of each statistic, by symbol. Rows of a symbol that is kept publish
exactly what they change of its statistics and its state (`rowCoherent`), so what is known of these
is what is cached, and nothing is left to publish (`Settled`). -/

namespace RoqBitmex

universe u v

open Json (InstrumentDataItem FundingDataItem)

/-! ## The history -/

/-- What has been published last: reference data, market status and statistics, by symbol. -/
structure Published where
  reference : String → Option ReferenceData := fun _ => none
  status : String → Option MarketStatus := fun _ => none
  statistics : String → StatisticsType → Option Statistics := fun _ _ => none

/-- An effect seen by the consumer. -/
def Published.see (a : Published) : Effect → Published
  | .dispatch (.referenceData v) =>
      { a with reference := Function.update a.reference v.symbol (some v) }
  | .dispatch (.marketStatus v) => { a with status := Function.update a.status v.symbol (some v) }
  | .dispatch (.statisticsUpdate v) =>
      { a with
        statistics := Function.update a.statistics v.symbol
          (record (·.type) (a.statistics v.symbol) v.statistics) }
  | _ => a

/-- The history of what has been published. -/
def published {σ : Type u} {ι : Type v} : Monitor σ ι Effect Published where
  input _ a _ := a
  output := Published.see

/-- The market statuses among effects. -/
def marketStatuses (es : List Effect) : List MarketStatus :=
  es.filterMap fun
    | .dispatch (.marketStatus v) => some v
    | _ => none

/-- The statistics updates among effects. -/
def statisticsUpdates (es : List Effect) : List StatisticsUpdate :=
  es.filterMap fun
    | .dispatch (.statisticsUpdate v) => some v
    | _ => none

/-! ## The product of a symbol -/

/-- The product of a symbol: a blank one before there is one. -/
def productOf (cache : ProductCache) (symbol : String) : Product := (cache symbol).getD {}

namespace Product

/-- A product with nothing left to publish. -/
structure Clean (p : Product) : Prop where
  referenceDataDirty : p.referenceDataDirty = false
  marketStatusDirty : p.marketStatusDirty = false
  statistics : p.statistics = []

/-- A product that has been cleared is clean. -/
theorem clean_clear (p : Product) : p.clear.Clean := ⟨rfl, rfl, rfl⟩

/-- A blank product is clean. -/
theorem clean_blank : ({} : Product).Clean := ⟨rfl, rfl, rfl⟩

/-- Clearing a clean product changes nothing. -/
theorem Clean.clear_eq {p : Product} (h : p.Clean) : p.clear = p := by
  cases p
  obtain ⟨h₁, h₂, h₃⟩ := h
  cases h₁
  cases h₂
  cases h₃
  rfl

/-- Clearing a product leaves its cached statistics as they are. -/
@[simp] theorem cached_clear (p : Product) : p.clear.cached = p.cached := by
  funext type
  cases type <;> rfl

@[simp] theorem state_clear (p : Product) : p.clear.state = p.state := rfl

/-- A statistic that a row changes is set. -/
theorem cached_update_ne_blank {p : Product} {item : InstrumentDataItem} {type : StatisticsType}
    (h : (p.update item).cached type ≠ p.cached type) :
    (p.update item).cached type ≠ ({} : Product).cached type := by
  have hplain : ∀ {x v : Double} {type : StatisticsType},
      ({ type := type, value := keep .nan x v } : Statistics) ≠ { type := type, value := x } →
      ({ type := type, value := keep .nan x v } : Statistics) ≠
        { type := type, value := .nan } := by
    intro x v type hne heq
    have hchanged : keep .nan x v ≠ x := fun h => hne (by rw [h])
    exact keep_ne_absent_of_ne hchanged (congrArg Statistics.value heq)
  cases type with
  | fundingRate =>
      intro heq
      have hrate : fundingRateOf p.fundingRate item ≠ p.fundingRate :=
        fun hsame => h (congrArg fundingStatistic hsame)
      have hvalue : (fundingRateOf p.fundingRate item).value = .nan := congrArg Statistics.value heq
      -- a rate that changes its period only has a value as well
      cases hitem : item.fundingRate with
      | nan => exact hrate (by simp [fundingRateOf, hitem])
      | num x => simp [fundingRateOf, hitem, keep] at hvalue
  | _ => exact hplain h

end Product

/-- What a row leaves of a product: the statistics it changed are to be published, the state is
flagged if it changed, and what changed is set. -/
structure Found (p q : Product) : Prop where
  statistics : q.statistics = changes StatisticsType.all p.cached q.cached
  marketStatusDirty : q.marketStatusDirty = decide (q.state ≠ p.state)
  cached : ∀ type, q.cached type ≠ p.cached type → q.cached type ≠ ({} : Product).cached type
  state : q.state ≠ p.state → q.state ≠ .undefinedInternal

/-- A row applied to a clean product. -/
theorem found_update {p : Product} (hp : p.Clean) (item : InstrumentDataItem) :
    Found p (p.update item) where
  statistics := by rw [Product.update_statistics, hp.statistics, List.nil_append]
  marketStatusDirty := by
    rw [Product.update_marketStatusDirty, hp.marketStatusDirty, Bool.false_or]
  cached _ := Product.cached_update_ne_blank
  state := keep_ne_absent_of_ne

/-- A row that creates the product: the constructor takes the reference data first, which changes no
statistic and no state. -/
theorem found_ofInstrument (item : InstrumentDataItem) : Found {} (Product.ofInstrument item) := by
  have hpre : ∀ pre : Product, pre.Clean → pre.cached = ({} : Product).cached →
      pre.state = ({} : Product).state → Found {} (pre.update item) := by
    intro pre hclean hcached hstate
    have hfound := found_update hclean item
    refine ⟨?_, ?_, ?_, ?_⟩
    · rw [← hcached]
      exact hfound.statistics
    · rw [← hstate]
      exact hfound.marketStatusDirty
    · rw [← hcached]
      exact fun type h => hcached ▸ hfound.cached type h
    · rw [← hstate]
      exact hfound.state
  apply hpre
  · exact ⟨rfl, rfl, rfl⟩
  · funext type
    cases type <;> rfl
  · rfl

/-- No row at all. -/
theorem found_self {p : Product} (hp : p.Clean) : Found p p where
  statistics := by rw [hp.statistics, changes_self]
  marketStatusDirty := by simp [hp.marketStatusDirty]
  cached _ h := absurd rfl h
  state h := absurd rfl h

namespace ProductRow

/-- The product after a row, before it is cleared. -/
def found (cache : ProductCache) : ProductRow → Product
  | .partial_ item | .update item => findProduct cache item
  | .funding item => productOf cache item.symbol

/-- Whether a row publishes the reference data. -/
def announces (cache : ProductCache) : ProductRow → Bool
  | .partial_ _ => true
  | .update item => (findProduct cache item).referenceDataDirty
  | .funding _ => false

/-- The time of a row. -/
def timestamp : ProductRow → Int
  | .partial_ item | .update item => item.timestamp
  | .funding item => item.timestamp

/-- The product a row leaves, next to the one before it. -/
theorem found_found {cache : ProductCache} {row : ProductRow}
    (hclean : (productOf cache row.symbol).Clean) :
    Found (productOf cache row.symbol) (found cache row) := by
  have hfind : ∀ item : InstrumentDataItem, (productOf cache item.symbol).Clean →
      Found (productOf cache item.symbol) (findProduct cache item) := by
    intro item hclean
    cases hproduct : cache item.symbol with
    | none =>
        simpa [productOf, findProduct, hproduct] using found_ofInstrument item
    | some p =>
        have hp : p.Clean := by simpa [productOf, hproduct] using hclean
        simpa [productOf, findProduct, hproduct] using found_update hp item
  cases row with
  | partial_ item => exact hfind item hclean
  | update item => exact hfind item hclean
  | funding item => exact found_self hclean

/-- Applying a row to the product it has found changes nothing. -/
theorem findProduct_update (cache : ProductCache) (item : InstrumentDataItem) :
    (findProduct cache item).update item = findProduct cache item := by
  rw [findProduct]
  cases cache item.symbol with
  | none => exact Product.update_update _ item
  | some p => exact Product.update_update p item

/-- A funding row finds the product there is, or a blank one. -/
theorem findProductFunding_eq (cache : ProductCache) (item : FundingDataItem) :
    findProductFunding cache item = productOf cache item.symbol := by
  unfold findProductFunding productOf
  cases cache item.symbol with
  | none => rfl
  | some p => rfl

/-- **What a row does**, for a symbol that is kept and whose product is clean. -/
theorem handle_eq {g : Gateway} {cache : ProductCache} {row : ProductRow}
    (hkept : g.discardSymbol row.symbol = false) (hclean : (productOf cache row.symbol).Clean) :
    handle g cache row =
      (Function.update cache row.symbol (some (found cache row).clear),
        (if announces cache row then
            publishReferenceData g (found cache row) row.symbol false
          else []) ++
          publishMarketStatus g (found cache row) row.symbol ++
          publishStatistics g (found cache row) row.symbol row.timestamp) := by
  cases row with
  | partial_ item =>
      have hkept' : g.discardSymbol item.symbol = false := hkept
      simp [handle, handlePartial, hkept', found, announces, symbol, timestamp]
  | update item =>
      have hkept' : g.discardSymbol item.symbol = false := hkept
      simp [handle, handleUpdate, hkept', found, announces, symbol, timestamp, findProduct_update]
      rfl
  | funding item =>
      have hclean' : (productOf cache item.symbol).Clean := hclean
      simp [handle, handleFunding, Product.updateFunding, findProductFunding_eq, found, announces,
        symbol, hclean'.clear_eq, publishMarketStatus, publishStatistics, hclean'.marketStatusDirty,
        hclean'.statistics]

/-- The events of one kind among the effects of a row of a symbol that is kept: one for each record
it publishes, in the order of the source. -/
theorem filterMap_handle {β : Type*} {g : Gateway} {cache : ProductCache} {row : ProductRow}
    (hkept : g.discardSymbol row.symbol = false) (hclean : (productOf cache row.symbol).Clean)
    {pick : Effect → Option β} (hassert : ∀ site, pick (.assertion site) = none) :
    (handle g cache row).2.filterMap pick =
      (if announces cache row then
          (pick (.dispatch (.referenceData
            ((found cache row).referenceData g row.symbol false)))).toList
        else []) ++
        (if (found cache row).marketStatusDirty then
          (pick (.dispatch (.marketStatus ((found cache row).marketStatus g row.symbol)))).toList
        else []) ++
        (if (found cache row).statistics ≠ [] then
          (pick (.dispatch (.statisticsUpdate
            ((found cache row).statisticsUpdate g row.symbol row.timestamp)))).toList
        else []) := by
  -- the assertion before a record is not picked
  have hrecord : ∀ event : MarketEvent,
      (assertEffect (row.symbol ≠ "") .productSymbol ++ [Effect.dispatch event]).filterMap pick =
        (pick (.dispatch event)).toList := by
    intro event
    have hnone : (assertEffect (row.symbol ≠ "") .productSymbol).filterMap pick = [] := by
      rw [List.filterMap_eq_nil_iff]
      intro e he
      obtain ⟨-, rfl⟩ := eq_of_mem_assertEffect he
      exact hassert _
    rw [List.filterMap_append, hnone, List.nil_append, List.filterMap_cons, List.filterMap_nil]
    cases pick (.dispatch event) <;> rfl
  rw [handle_eq hkept hclean, List.filterMap_append, List.filterMap_append, publishReferenceData,
    publishMarketStatus, publishStatistics, ← hrecord, ← hrecord, ← hrecord]
  split <;> split <;> split <;> rfl

/-! ## What the consumer sees -/

section See

variable {σ : Type u} {ι : Type v} {g : Gateway}

/-- An assertion is not seen. -/
theorem see_assertEffect (condition : Bool) (site : Site) (a : Published) :
    (published (σ := σ) (ι := ι)).outputs a (assertEffect condition site) = a := by
  cases condition <;> rfl

/-- A consumer sees the reference data that are published. -/
theorem outputs_publishReferenceData (q : Product) (symbol : String) (discard : Bool)
    (a : Published) :
    (published (σ := σ) (ι := ι)).outputs a (publishReferenceData g q symbol discard) =
      { a with
        reference := Function.update a.reference symbol
          (some (q.referenceData g symbol discard)) } := by
  rw [publishReferenceData, Monitor.outputs_append, see_assertEffect]
  rfl

/-- A consumer sees a market status if one is due. -/
theorem outputs_publishMarketStatus (q : Product) (symbol : String) (a : Published) :
    (published (σ := σ) (ι := ι)).outputs a (publishMarketStatus g q symbol) =
      if q.marketStatusDirty then
        { a with status := Function.update a.status symbol (some (q.marketStatus g symbol)) }
      else a := by
  rw [publishMarketStatus]
  split
  · rw [Monitor.outputs_append, see_assertEffect]
    rfl
  · rfl

/-- A consumer sees the statistics that are published. -/
theorem outputs_publishStatistics (q : Product) (symbol : String) (timestamp : Int)
    (a : Published) :
    (published (σ := σ) (ι := ι)).outputs a (publishStatistics g q symbol timestamp) =
      { a with
        statistics := Function.update a.statistics symbol
          (record (·.type) (a.statistics symbol) q.statistics) } := by
  rw [publishStatistics]
  split
  · rw [Monitor.outputs_append, see_assertEffect]
    rfl
  · rename_i hempty
    rw [not_not.mp hempty, record_nil, Function.update_eq_self]
    rfl

/-- **What is seen of a row** of a symbol that is kept and whose product is clean. -/
theorem outputs_handle {cache : ProductCache} {row : ProductRow}
    (hkept : g.discardSymbol row.symbol = false) (hclean : (productOf cache row.symbol).Clean)
    (a : Published) :
    (published (σ := σ) (ι := ι)).outputs a (handle g cache row).2 =
      { reference :=
          if announces cache row then
            Function.update a.reference row.symbol
              (some ((found cache row).referenceData g row.symbol false))
          else a.reference
        status :=
          if (found cache row).marketStatusDirty then
            Function.update a.status row.symbol (some ((found cache row).marketStatus g row.symbol))
          else a.status
        statistics := Function.update a.statistics row.symbol
          (record (·.type) (a.statistics row.symbol) (found cache row).statistics) } := by
  rw [handle_eq hkept hclean, Monitor.outputs_append, Monitor.outputs_append,
    outputs_publishStatistics, outputs_publishMarketStatus]
  by_cases hannounces : announces cache row = true
  · rw [if_pos hannounces, if_pos hannounces, outputs_publishReferenceData]
    split <;> rfl
  · rw [if_neg hannounces, if_neg hannounces, Monitor.outputs_nil]
    split <;> rfl

/-- The product after a row of a symbol that is kept and whose product is clean. -/
theorem productOf_handle {cache : ProductCache} {row : ProductRow}
    (hkept : g.discardSymbol row.symbol = false) (hclean : (productOf cache row.symbol).Clean) :
    productOf (handle g cache row).1 row.symbol = (found cache row).clear := by
  rw [handle_eq hkept hclean]
  show (Function.update cache row.symbol (some (found cache row).clear) row.symbol).getD {} = _
  rw [Function.update_self]
  rfl

/-- Effects of another symbol's row leave what is known of a symbol alone. -/
theorem outputs_frame {symbol other : String} (hne : symbol ≠ other) {es : List Effect}
    (h : ∀ e ∈ es, IsEffectOf other e) (a : Published) :
    let a' := (published (σ := σ) (ι := ι)).outputs a es
    a'.reference symbol = a.reference symbol ∧ a'.status symbol = a.status symbol ∧
      a'.statistics symbol = a.statistics symbol := by
  have hsee : ∀ e ∈ es, ∀ a : Published, (a.see e).reference symbol = a.reference symbol ∧
      (a.see e).status symbol = a.status symbol ∧
      (a.see e).statistics symbol = a.statistics symbol := by
    intro e he a
    have he' := h e he
    cases e with
    | dispatch event =>
        cases event with
        | referenceData v =>
            have hv : v.symbol = other := he'
            exact ⟨Function.update_of_ne (hv ▸ hne) _ _, rfl, rfl⟩
        | marketStatus v =>
            have hv : v.symbol = other := he'
            exact ⟨rfl, Function.update_of_ne (hv ▸ hne) _ _, rfl⟩
        | statisticsUpdate v =>
            have hv : v.symbol = other := he'
            exact ⟨rfl, rfl, Function.update_of_ne (hv ▸ hne) _ _⟩
        | _ => exact ⟨rfl, rfl, rfl⟩
    | _ => exact ⟨rfl, rfl, rfl⟩
  induction es generalizing a with
  | nil => exact ⟨rfl, rfl, rfl⟩
  | cons e es ih =>
      obtain ⟨h₁, h₂, h₃⟩ := ih (fun e' he' => h e' (by simp [he'])) (a.see e)
        fun e' he' => hsee e' (by simp [he'])
      obtain ⟨k₁, k₂, k₃⟩ := hsee e (by simp) a
      exact ⟨h₁.trans k₁, h₂.trans k₂, h₃.trans k₃⟩

end See

/-- A row touches the product of its symbol only. -/
theorem handle_frame (g : Gateway) (cache : ProductCache) (row : ProductRow) {symbol : String}
    (hne : symbol ≠ row.symbol) : (handle g cache row).1 symbol = cache symbol := by
  cases row with
  | partial_ item =>
      simp only [handle, handlePartial]
      split
      · exact Function.update_of_ne hne _ _
      · exact Function.update_of_ne hne _ _
  | update item =>
      simp only [handle, handleUpdate]
      split
      · rfl
      · exact Function.update_of_ne hne _ _
  | funding item =>
      simp only [handle, handleFunding]
      split
      · exact Function.update_of_ne hne _ _
      · exact Function.update_of_ne hne _ _

end ProductRow

/-- The history after a row that does not halt: all its effects are seen. -/
theorem after_productRows {g : Gateway} {cache : ProductCache} {row : ProductRow}
    (hstops : (productRows g).stops cache row = false) (a : Published) :
    (productRows g).after published cache a row =
      (published (σ := ProductCache) (ι := ProductRow)).outputs a
        (ProductRow.handle g cache row).2 := by
  rw [Machine.after, Machine.out_of_stops_eq_false hstops]
  rfl

end RoqBitmex
