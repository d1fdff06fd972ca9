import RoqBitmex.Gateway.ProductSession

/-! # Reference data before everything else

Market status and statistics of a symbol should follow its reference data, and the reference data
that were published last should be the cached ones. A product that is created by an update has its
reference data taken from the row before the row is applied, so nothing is flagged, and one that is
created by a funding message has none: `announced_of_run` says which rows have to be kept away. -/

namespace RoqBitmex

universe u

open Json (InstrumentDataItem)

open ProductRow

variable {g : Gateway}

/-- No market status and no statistics go out for a symbol that is kept before its reference data.
-/
def AfterReference (g : Gateway) (_ : ProductCache) (a : Published) : Effect → Prop
  | .dispatch (.marketStatus v) =>
      g.discardSymbol v.symbol = false → (a.reference v.symbol).isSome = true
  | .dispatch (.statisticsUpdate v) =>
      g.discardSymbol v.symbol = false → (a.reference v.symbol).isSome = true
  | _ => True

namespace Product

/-- A product without reference data. -/
structure ReferenceBlank (p : Product) : Prop where
  reference : p.reference = ({} : Product).reference
  quoteCurrency : p.quoteCurrency = ""
  settlCurrency : p.settlCurrency = ""

/-- A blank product has blank reference data. -/
theorem referenceBlank_blank : ({} : Product).ReferenceBlank := ⟨rfl, rfl, rfl⟩

/-! ## What is new in a row -/

/-- A row has reference data that are new to a product, among those that are followed. -/
def ReferenceIsNew (p : Product) (item : InstrumentDataItem) : Prop :=
  IsNew .nan p.tickSize item.tickSize ∨
    IsNew .nan p.multiplier item.multiplier ∨
    IsNew .nan p.lotSize item.lotSize ∨
    IsNew .nan p.optionStrikePrice item.optionStrikePrice ∨
    IsNew "" p.underlyingSymbol item.underlyingSymbol ∨
    IsNew 0 p.expiry item.expiry ∨
    IsNew 0 p.settle item.settle

/-- A row has a funding rate, and the rate or its period is new. -/
def FundingRateIsNew (rate : FundingRate) (item : InstrumentDataItem) : Prop :=
  item.fundingRate ≠ .nan ∧
    (IsNew .nan rate.value item.fundingRate ∨
      IsNew 0 rate.beginTimeUtc (toSeconds item.timestamp) ∨
      toSeconds item.timestamp ≠ 0 ∧
        IsNew 0 rate.endTimeUtc (toSeconds item.timestamp + stripTimePart item.fundingInterval))

/-- A row has a statistic that is new to a product. -/
def StatisticIsNew (p : Product) (item : InstrumentDataItem) : Prop :=
  IsNew .nan p.settlementPrice item.markPrice ∨
    IsNew .nan p.openInterest item.openInterest ∨
    IsNew .nan p.indicativeSettlePrice item.indicativeSettlePrice ∨
    IsNew .nan p.limitUpPrice item.limitUpPrice ∨
    IsNew .nan p.limitDownPrice item.limitDownPrice ∨
    IsNew .nan p.fairPrice item.fairPrice ∨
    FundingRateIsNew p.fundingRate item ∨
    IsNew .nan p.indicativeFundingRate item.indicativeFundingRate

/-- A row has a state that is new to a product. -/
def StateIsNew (p : Product) (item : InstrumentDataItem) : Prop :=
  IsNew .undefinedInternal p.state item.state

/-- A row that carries nothing a product caches. -/
def BlankRow (item : InstrumentDataItem) : Prop :=
  item.quoteCurrency = "" ∧ item.settlCurrency = "" ∧ ¬ ({} : Product).ReferenceIsNew item ∧
    ¬ ({} : Product).StateIsNew item ∧ ¬ ({} : Product).StatisticIsNew item

instance (p : Product) (item : InstrumentDataItem) : Decidable (p.ReferenceIsNew item) := by
  unfold ReferenceIsNew
  infer_instance

instance (rate : FundingRate) (item : InstrumentDataItem) :
    Decidable (FundingRateIsNew rate item) := by
  unfold FundingRateIsNew
  infer_instance

instance (p : Product) (item : InstrumentDataItem) : Decidable (p.StatisticIsNew item) := by
  unfold StatisticIsNew
  infer_instance

instance (p : Product) (item : InstrumentDataItem) : Decidable (p.StateIsNew item) := by
  unfold StateIsNew
  infer_instance

instance (item : InstrumentDataItem) : Decidable (BlankRow item) := by
  unfold BlankRow
  infer_instance

/-- The reference data that are followed change when some are new. -/
theorem update_reference_ne_iff {p : Product} {item : InstrumentDataItem} :
    (p.update item).reference ≠ p.reference ↔ p.ReferenceIsNew item := by
  simp only [reference, update, ReferenceIsNew, ne_eq, Reference.mk.injEq, not_and_or,
    ← keep_ne_iff]

/-- The funding rate changes when it is new. -/
theorem fundingRateOf_ne_iff {rate : FundingRate} {item : InstrumentDataItem} :
    fundingRateOf rate item ≠ rate ↔ FundingRateIsNew rate item := by
  obtain ⟨value, beginTimeUtc, endTimeUtc⟩ := rate
  rw [FundingRateIsNew]
  cases hitem : item.fundingRate with
  | nan => simp [fundingRateOf, hitem]
  | num x =>
      simp only [fundingRateOf, hitem, Double.isNaN_num, Bool.false_eq_true, if_false, ne_eq,
        FundingRate.mk.injEq, not_and_or, ← keep_ne_iff]
      -- the end of the period is new only if there is a beginning
      by_cases hbegin : toSeconds item.timestamp = 0
      · simp [hbegin]
      · simp [hbegin]

/-- Two products have the same statistics when they have the same values. -/
theorem cached_eq_iff {p q : Product} :
    q.cached = p.cached ↔
      q.settlementPrice = p.settlementPrice ∧ q.openInterest = p.openInterest ∧
        q.indicativeSettlePrice = p.indicativeSettlePrice ∧ q.limitUpPrice = p.limitUpPrice ∧
        q.limitDownPrice = p.limitDownPrice ∧ q.fairPrice = p.fairPrice ∧
        q.fundingRate = p.fundingRate ∧ q.indicativeFundingRate = p.indicativeFundingRate := by
  constructor
  · intro h
    have hvalue : ∀ type, (q.cached type).value = (p.cached type).value := fun type => by rw [h]
    exact ⟨hvalue .settlementPrice, hvalue .openInterest, hvalue .preSettlementPrice,
      hvalue .upperLimitPrice, hvalue .lowerLimitPrice, hvalue .indexValue,
      fundingStatistic_inj.mp (congrFun h .fundingRate), hvalue .fundingRatePrediction⟩
  · rintro ⟨h₁, h₂, h₃, h₄, h₅, h₆, h₇, h₈⟩
    funext type
    cases type <;> simp only [cached, h₁, h₂, h₃, h₄, h₅, h₆, h₇, h₈]

/-- The statistics change when one is new. -/
theorem update_cached_ne_iff {p : Product} {item : InstrumentDataItem} :
    (p.update item).cached ≠ p.cached ↔ p.StatisticIsNew item := by
  rw [ne_eq, cached_eq_iff]
  simp only [update, StatisticIsNew, not_and_or, ← keep_ne_iff, ← fundingRateOf_ne_iff, ne_eq]

/-- A row that carries nothing leaves a blank product. -/
theorem ofInstrument_of_blankRow {item : InstrumentDataItem} (h : BlankRow item) :
    ofInstrument item = {} := by
  obtain ⟨hquote, hsettl, hreference, hstate, hstatistic⟩ := h
  simp only [ReferenceIsNew, not_or, not_isNew_absent] at hreference
  obtain ⟨h₁, h₂, h₃, h₄, h₅, h₆, h₇⟩ := hreference
  have hblank : ofInstrument item = ({} : Product).update item := by
    rw [ofInstrument, hquote, hsettl, h₁, h₂, h₃, h₄, h₅, h₆, h₇]
  rw [StateIsNew, not_isNew_absent] at hstate
  simp only [StatisticIsNew, not_or, not_isNew_absent, ← fundingRateOf_ne_iff,
    not_not] at hstatistic
  obtain ⟨k₁, k₂, k₃, k₄, k₅, k₆, k₇, k₈⟩ := hstatistic
  rw [hblank]
  simp only [update, statistic, h₁, h₂, h₃, h₄, h₅, h₆, h₇, hstate, k₁, k₂, k₃, k₄, k₅, k₆, k₇, k₈,
    keep_absent, ne_eq, not_true_eq_false, if_false, decide_false, Bool.or_false, List.append_nil]

end Product

/-- The reference data of every symbol that is kept, once they are due (they have been published, or
some are cached), are published as they are cached. -/
def ReferenceCoherent (g : Gateway) (cache : ProductCache) (a : Published) : Prop :=
  ∀ symbol, g.discardSymbol symbol = false →
    (a.reference symbol).isSome = true ∨ ¬ (productOf cache symbol).ReferenceBlank →
      a.reference symbol = some ((productOf cache symbol).referenceData g symbol false)

/-- The condition on a row: an update of a symbol that is kept and whose reference data have not
been published carries nothing at all if the symbol is unknown, and else has reference data that are
new, or neither a state nor a statistic that is. -/
def RowAnnounces (g : Gateway) (cache : ProductCache) (a : Published) : ProductRow → Prop
  | .update item => g.discardSymbol item.symbol = false → a.reference item.symbol = none →
      match cache item.symbol with
      | none => Product.BlankRow item
      | some p => p.ReferenceIsNew item ∨ ¬ p.StateIsNew item ∧ ¬ p.StatisticIsNew item
  | _ => True

instance (cache : ProductCache) (a : Published) (row : ProductRow) :
    Decidable (RowAnnounces g cache a row) := by
  unfold RowAnnounces
  repeat' split
  all_goals infer_instance

instance (cache : ProductCache) (a : Published) (e : Effect) :
    Decidable (AfterReference g cache a e) := by
  unfold AfterReference
  split <;> infer_instance

/-- A symbol whose reference data are published as they are cached, or that has none. -/
structure AnnouncedFor (g : Gateway) (cache : ProductCache) (a : Published) (symbol : String) :
    Prop where
  clean : (productOf cache symbol).Clean
  known : (a.reference symbol).isSome = true → (cache symbol).isSome = true
  reference : a.reference symbol = some ((productOf cache symbol).referenceData g symbol false) ∨
    a.reference symbol = none ∧ (productOf cache symbol).ReferenceBlank

/-- Every symbol that is kept is announced or blank. -/
def Announced (g : Gateway) (cache : ProductCache) (a : Published) : Prop :=
  ∀ symbol, g.discardSymbol symbol = false → AnnouncedFor g cache a symbol

/-- Nothing is cached and nothing is known. -/
theorem announced_init : Announced g (fun _ => none) {} :=
  fun _ _ => ⟨Product.clean_blank, nofun, Or.inr ⟨rfl, Product.referenceBlank_blank⟩⟩

/-- The invariant says what it should. -/
theorem Announced.referenceCoherent {cache : ProductCache} {a : Published}
    (h : Announced g cache a) : ReferenceCoherent g cache a := by
  intro symbol hkept hdue
  rcases (h symbol hkept).reference with hsome | ⟨hnone, hblank⟩
  · exact hsome
  · rcases hdue with hdue | hdue
    · rw [hnone] at hdue
      cases hdue
    · exact absurd hblank hdue

/-- After the reference data of a symbol everything may be published of it. -/
theorem holds_of_announced {cache : ProductCache} {a : Published} {symbol : String}
    (ha : (a.reference symbol).isSome = true) {es : List Effect}
    (hes : ∀ e ∈ es, IsEffectOf symbol e) :
    (published (σ := ProductCache) (ι := ProductRow)).Holds (AfterReference g cache) a es := by
  induction es generalizing a with
  | nil => trivial
  | cons e es ih =>
      have he := hes e (by simp)
      have hsee : AfterReference g cache a e ∧ ((a.see e).reference symbol).isSome = true := by
        cases e with
        | dispatch event =>
            cases event with
            | referenceData v =>
                obtain rfl : v.symbol = symbol := he
                exact ⟨trivial, by simp [Published.see]⟩
            | marketStatus v =>
                obtain rfl : v.symbol = symbol := he
                exact ⟨fun _ => ha, ha⟩
            | statisticsUpdate v =>
                obtain rfl : v.symbol = symbol := he
                exact ⟨fun _ => ha, ha⟩
            | _ => exact ⟨trivial, ha⟩
        | _ => exact ⟨trivial, ha⟩
      exact ⟨hsee.1, ih hsee.2 fun e' he' => hes e' (by simp [he'])⟩

/-- Two products with the same reference data. -/
structure SameReference (p q : Product) : Prop where
  reference : q.reference = p.reference
  quoteCurrency : q.quoteCurrency = p.quoteCurrency
  settlCurrency : q.settlCurrency = p.settlCurrency

/-- Products with the same reference data publish the same. -/
theorem SameReference.referenceData_eq {p q : Product} (h : SameReference p q) (symbol : String)
    (discard : Bool) : q.referenceData g symbol discard = p.referenceData g symbol discard := by
  obtain ⟨hreference, hquote, hsettl⟩ := h
  simp only [Product.reference, Reference.mk.injEq] at hreference
  obtain ⟨h₁, h₂, h₃, h₄, h₅, h₆, h₇⟩ := hreference
  simp only [Product.referenceData, hquote, hsettl, h₁, h₂, h₃, h₄, h₅, h₆, h₇]

/-- Products with the same reference data are blank together. -/
theorem SameReference.blank {p q : Product} (h : SameReference p q) (hp : p.ReferenceBlank) :
    q.ReferenceBlank :=
  ⟨h.reference.trans hp.reference, h.quoteCurrency.trans hp.quoteCurrency,
    h.settlCurrency.trans hp.settlCurrency⟩

/-- A row that flags no reference data leaves them alone. -/
theorem sameReference_update {p : Product} (hp : p.Clean) {item : InstrumentDataItem}
    (hdirty : (p.update item).referenceDataDirty = false) : SameReference p (p.update item) := by
  rw [Product.update_referenceDataDirty, hp.referenceDataDirty, Bool.false_or] at hdirty
  have hsame : (p.update item).reference = p.reference := by simpa using hdirty
  exact ⟨hsame, rfl, rfl⟩

/-- A row without a new state and new statistics leaves nothing to publish of these. -/
theorem quiet_update {p : Product} (hp : p.Clean) {item : InstrumentDataItem}
    (hstate : ¬ p.StateIsNew item) (hstatistic : ¬ p.StatisticIsNew item) :
    (p.update item).marketStatusDirty = false ∧ (p.update item).statistics = [] := by
  have hfound := found_update hp item
  constructor
  · rw [hfound.marketStatusDirty, decide_eq_false_iff_not]
    exact fun h => hstate (keep_ne_iff.mp h)
  · have hcached : (p.update item).cached = p.cached := by
      by_contra h
      exact hstatistic (Product.update_cached_ne_iff.mp h)
    rw [hfound.statistics, hcached, changes_self]

/-- A row of a symbol that is kept publishes the reference data, or leaves them alone; and then it
comes after them, or publishes neither status nor statistics. -/
theorem announces_or {cache : ProductCache} {a : Published} {row : ProductRow}
    (hkept : g.discardSymbol row.symbol = false) (hinv : AnnouncedFor g cache a row.symbol)
    (hok : RowAnnounces g cache a row) :
    announces cache row = true ∨
      SameReference (productOf cache row.symbol) (found cache row) ∧
        ((a.reference row.symbol).isSome = true ∨
          (found cache row).marketStatusDirty = false ∧ (found cache row).statistics = []) := by
  have hclean := hinv.clean
  cases hannounces : announces cache row with
  | true => exact Or.inl rfl
  | false =>
      refine Or.inr ?_
      cases row with
      | partial_ item => cases hannounces
      | funding item =>
          exact ⟨⟨rfl, rfl, rfl⟩, Or.inr ⟨hclean.marketStatusDirty, hclean.statistics⟩⟩
      | update item =>
          have hdirty : (findProduct cache item).referenceDataDirty = false := hannounces
          show SameReference (productOf cache item.symbol) (findProduct cache item) ∧
            ((a.reference item.symbol).isSome = true ∨
              (findProduct cache item).marketStatusDirty = false ∧
                (findProduct cache item).statistics = [])
          cases hproduct : cache item.symbol with
          | none =>
              -- an unknown symbol has not been announced, so the row carries nothing
              have hnone : a.reference item.symbol = none := by
                by_contra hne
                have hknown := hinv.known (Option.isSome_iff_ne_none.mpr hne)
                rw [show (ProductRow.update item).symbol = item.symbol from rfl, hproduct] at hknown
                cases hknown
              have hblank := hok hkept hnone
              rw [hproduct] at hblank
              rw [findProduct, hproduct, productOf, hproduct]
              simp only at hblank ⊢
              rw [Product.ofInstrument_of_blankRow hblank]
              exact ⟨⟨rfl, rfl, rfl⟩, Or.inr ⟨rfl, rfl⟩⟩
          | some p =>
              have hp : p.Clean := by simpa [productOf, symbol, hproduct] using hclean
              rw [findProduct, hproduct] at hdirty ⊢
              rw [productOf, hproduct]
              simp only [Option.getD_some] at hdirty ⊢
              have hsame : SameReference p (p.update item) := sameReference_update hp hdirty
              refine ⟨hsame, ?_⟩
              cases hnone : a.reference item.symbol with
              | some v => exact Or.inl rfl
              | none =>
                  have hquiet := hok hkept hnone
                  rw [hproduct] at hquiet
                  obtain ⟨hstate, hstatistic⟩ := hquiet.resolve_left fun h =>
                    Product.update_reference_ne_iff.mpr h hsame.reference
                  exact Or.inr (quiet_update hp hstate hstatistic)

/-- The reference data themselves may be published at any time. -/
theorem holds_publishReferenceData (cache : ProductCache) (a : Published) (q : Product)
    (symbol : String) (discard : Bool) :
    (published (σ := ProductCache) (ι := ProductRow)).Holds (AfterReference g cache) a
      (publishReferenceData g q symbol discard) := by
  refine Monitor.holds_of_forall (fun e he a => ?_) a
  rcases List.mem_append.mp he with h | h
  · obtain ⟨-, rfl⟩ := eq_of_mem_assertEffect h
    trivial
  · rw [List.mem_singleton.mp h]
    trivial

/-- **One row.** What a row publishes comes after the reference data. -/
theorem holds_handle {cache : ProductCache} {a : Published} {row : ProductRow}
    (hinv : Announced g cache a) (hok : RowAnnounces g cache a row) (cache' : ProductCache) :
    (published (σ := ProductCache) (ι := ProductRow)).Holds (AfterReference g cache') a
      (handle g cache row).2 := by
  have heffects := isEffectOf_handle (g := g) cache row
  cases hdiscard : g.discardSymbol row.symbol with
  | true =>
      -- nothing is required of a symbol that is discarded
      refine Monitor.holds_of_forall (fun e he a => ?_) a
      have he' := heffects e he
      have hfree : ∀ symbol, symbol = row.symbol → g.discardSymbol symbol = false →
          (a.reference symbol).isSome = true := by
        intro symbol hsymbol hkept
        rw [hsymbol, hdiscard] at hkept
        cases hkept
      cases e with
      | dispatch event =>
          cases event with
          | marketStatus v => exact hfree v.symbol he'
          | statisticsUpdate v => exact hfree v.symbol he'
          | _ => trivial
      | _ => trivial
  | false =>
      have hrow := hinv _ hdiscard
      by_cases ha : (a.reference row.symbol).isSome = true
      · exact holds_of_announced ha heffects
      · rw [handle_eq hdiscard hrow.clean] at heffects ⊢
        rcases announces_or hdiscard hrow hok with hannounces | ⟨-, hquiet⟩
        · -- the reference data come first
          rw [if_pos hannounces, List.append_assoc] at heffects ⊢
          rw [Monitor.holds_append, outputs_publishReferenceData]
          refine ⟨holds_publishReferenceData _ _ _ _ _, ?_⟩
          refine holds_of_announced (?_ : Option.isSome (Function.update a.reference row.symbol _
            row.symbol) = true) fun e he => heffects e (List.mem_append_right _ he)
          rw [Function.update_self]
          rfl
        · -- neither status nor statistics
          obtain ⟨hstatus, hstatistics⟩ := hquiet.resolve_left ha
          rw [publishMarketStatus, publishStatistics, hstatus, hstatistics]
          simp only [Bool.false_eq_true, if_false, ne_eq, not_true_eq_false, List.append_nil]
          split
          · exact holds_publishReferenceData _ _ _ _ _
          · trivial

/-- **The row lemma.** A row that meets the condition and does not halt keeps every symbol that is
kept announced or blank. -/
theorem announced_next {cache : ProductCache} {a : Published} {row : ProductRow}
    (hinv : Announced g cache a) (hok : RowAnnounces g cache a row)
    (hstops : (productRows g).stops cache row = false) :
    Announced g ((productRows g).next cache row)
      ((productRows g).after published cache a row) := by
  intro symbol hkept
  rw [after_productRows hstops]
  by_cases hsymbol : symbol = row.symbol
  · subst hsymbol
    have hrow := hinv _ hkept
    have hproduct :
        productOf ((productRows g).next cache row) row.symbol = (found cache row).clear :=
      productOf_handle hkept hrow.clean
    have hknown : ((productRows g).next cache row row.symbol).isSome = true := by
      show ((handle g cache row).1 row.symbol).isSome = true
      rw [handle_eq hkept hrow.clean]
      show (Function.update cache row.symbol _ row.symbol).isSome = true
      rw [Function.update_self]
      rfl
    refine ⟨hproduct ▸ Product.clean_clear _, fun _ => hknown, ?_⟩
    rw [hproduct, outputs_handle hkept hrow.clean]
    show (if announces cache row then Function.update a.reference row.symbol _
      else a.reference) row.symbol = _ ∨ (if announces cache row then
        Function.update a.reference row.symbol _ else a.reference) row.symbol = none ∧ _
    by_cases hannounces : announces cache row = true
    · rw [if_pos hannounces, Function.update_self]
      exact Or.inl rfl
    · obtain ⟨hsame, -⟩ := (announces_or hkept hrow hok).resolve_left hannounces
      have hclear : SameReference (productOf cache row.symbol) (found cache row).clear :=
        ⟨hsame.reference, hsame.quoteCurrency, hsame.settlCurrency⟩
      rw [if_neg hannounces]
      rcases hrow.reference with h | ⟨h, hblank⟩
      · exact Or.inl (h.trans (congrArg some (hclear.referenceData_eq _ _).symm))
      · exact Or.inr ⟨h, hclear.blank hblank⟩
  · have hcache : (productRows g).next cache row symbol = cache symbol :=
      handle_frame g cache row hsymbol
    obtain ⟨hreference, -, -⟩ := outputs_frame (σ := ProductCache) (ι := ProductRow) hsymbol
      (isEffectOf_handle (g := g) cache row) a
    have hproduct : productOf ((productRows g).next cache row) symbol = productOf cache symbol := by
      rw [productOf, productOf, hcache]
    obtain ⟨hclean, hknown, hpublished⟩ := hinv symbol hkept
    refine ⟨hproduct ▸ hclean, fun h => ?_, ?_⟩
    · rw [hcache]
      exact hknown (hreference ▸ h)
    · rw [hreference, hproduct]
      exact hpublished

namespace MarketData

variable {D : Type u} {dl : Download D}

/-- An input after which the reference data are in order: what it publishes of the products is what
its rows publish; for each row, status and statistics go out after the reference data, and
afterwards the reference data are published as they are cached; and so they are after the input. -/
structure InputAnnounced (g : Gateway) (dl : Download D) (s : MarketData D) (a : Published)
    (i : Input) : Prop where
  rows : (productRows g).Sat published (AfterReference g) (ReferenceCoherent g) s.productCache a
    (s.rowsOf i)
  outputs : ((marketData g dl).out s i).filter isProductEffect =
    ((productRows g).outputs s.productCache (s.rowsOf i)).filter isProductEffect
  coherent : (marketData g dl).stops s i = false →
    ReferenceCoherent g ((marketData g dl).next s i).productCache
      ((marketData g dl).after published s a i)

/-- The condition on an input: its rows meet theirs. -/
def InputAnnounces (g : Gateway) (s : MarketData D) (a : Published) (i : Input) : Prop :=
  (productRows g).Along published (RowAnnounces g) s.productCache a (s.rowsOf i)

/-- **Reference data first.** In a run whose rows meet the condition, market status and statistics
go out after the reference data, and the reference data that were published last are the cached
ones. -/
theorem announced_of_run {is : List Input}
    (hok : (marketData g dl).Along published (InputAnnounces g) (init dl) {} is) :
    (marketData g dl).Along published (InputAnnounced g dl) (init dl) {} is := by
  have hstep : ∀ cache a row, Announced g cache a → RowAnnounces g cache a row →
      (productRows g).StepSat published (AfterReference g) (ReferenceCoherent g) cache a row ∧
        ((productRows g).stops cache row = false →
          Announced g ((productRows g).next cache row)
            ((productRows g).after published cache a row)) :=
    fun cache a row hinv hok =>
      ⟨⟨Machine.holds_visible (holds_handle hinv hok _),
        fun hstops => (announced_next hinv hok hstops).referenceCoherent⟩,
        announced_next hinv hok⟩
  refine Machine.along_of_along (fun _ _ => True) (fun s a i _ h => ⟨?_, fun _ => trivial⟩) trivial
    (Batching.along_of_along (Announced g) (watches_published g dl) hstep announced_init hok)
  exact ⟨h.1, (productBatching g dl).out_eq s i, fun hs => (h.2 hs).referenceCoherent⟩

instance (s : MarketData D) (a : Published) (i : Input) : Decidable (InputAnnounces g s a i) := by
  unfold InputAnnounces
  infer_instance

/-- A product of a snapshot and its statistics, and a product that is created by a row with nothing
in it and gets its reference data and its state later. -/
def announcedRows : List Input :=
  [.event (.instrument
      { action := .partial_
        data :=
          [{ symbol := "XBTUSD", tickSize := .num 1, lotSize := .num 100, state := .open_ }] }) [],
   .event (.instrument
      { action := .update
        data := [{ symbol := "XBTUSD", markPrice := .num 5 }, { symbol := "ETHUSD" }] }) [],
   .event (.instrument
      { action := .update
        data := [{ symbol := "ETHUSD", tickSize := .num 2, state := .open_ }] }) []]

/-- They meet the condition. -/
theorem announced_of_run_announcedRows :
    (marketData .keepAll .inOrder).Along published (InputAnnounced .keepAll .inOrder)
      (init .inOrder) {} announcedRows :=
  announced_of_run (by decide +kernel)

/-- An update of a symbol that no snapshot had. -/
def unannouncedRow : List Input :=
  [.event (.instrument { action := .partial_, data := [] }) [],
   .event (.instrument
      { action := .update
        data := [{ symbol := "XBTUSD", tickSize := .num 1, state := .open_ }] }) []]

/-- Its market status goes out, and its reference data do not. -/
theorem unannouncedRow_not_announced :
    ¬ (marketData .keepAll .inOrder).Along published (InputAnnounced .keepAll .inOrder)
        (init .inOrder) {} unannouncedRow := by
  rintro ⟨-, hrun⟩
  obtain ⟨⟨⟨⟨hstatus, -⟩, -⟩, -, -⟩, -⟩ := hrun (by decide +kernel)
  revert hstatus
  decide +kernel

end MarketData

end RoqBitmex
