import RoqBitmex.Gateway.ProductAnnounced
import RoqBitmex.Gateway.ProductCoherence

/-! # Funding periods

The period of a funding rate is the instrument's funding interval, which comes as a time of the
first day of the year 2000 (`year2000`) and, like every member of a row, only when it has changed.
A product caches the rate and its period, not the interval: a period is made of the row's own
interval, so it is empty after a row without one, and an interval of a day or more is cut.
`periods_iff` says in which runs of rows every entry has the right period. -/

namespace RoqBitmex

open Json (InstrumentDataItem)

/-! ## Times of day -/

/-- 2000-01-01T00:00:00Z in milliseconds, which stands for an interval of zero. -/
def year2000 : Int := 946684800000

/-- A funding interval on the wire: absent, or 2000-01-01T00:00:00Z plus the interval. -/
def IsInterval (time : Int) : Prop := time = 0 ∨ year2000 ≤ time

instance (time : Int) : Decidable (IsInterval time) := inferInstanceAs (Decidable (_ ∨ _))

/-- An interval of whole seconds and less than a day. -/
def OfWholeSeconds (time : Int) : Prop := time < year2000 + 86400000 ∧ time % 1000 = 0

instance (time : Int) : Decidable (OfWholeSeconds time) := inferInstanceAs (Decidable (_ ∧ _))

@[simp] theorem stripTimePart_zero : stripTimePart 0 = 0 := rfl

/-- The seconds of an interval are those of its time of day. -/
theorem stripTimePart_of_year2000_le {time : Int} (h : year2000 ≤ time) :
    stripTimePart time = (time - year2000) / 1000 % 86400 := by
  unfold stripTimePart toSeconds
  unfold year2000 at h ⊢
  rw [Int.tdiv_eq_ediv_of_nonneg (by omega), Int.tmod_eq_emod_of_nonneg (by omega)]
  omega

/-- **A time of day is the interval** exactly for intervals of whole seconds and less than a day. -/
theorem stripTimePart_eq_iff {time : Int} (h : year2000 ≤ time) :
    stripTimePart time * 1000 = time - year2000 ↔ OfWholeSeconds time := by
  rw [stripTimePart_of_year2000_le h]
  unfold OfWholeSeconds
  unfold year2000 at h ⊢
  omega

/-! ## The entries of a row -/

namespace ProductRow

/-- The entries `Product::update` appends to the statistics when a row is applied. -/
def appended (cache : ProductCache) (item : InstrumentDataItem) : List Statistics :=
  (findProduct cache item).statistics.drop (productOf cache item.symbol).statistics.length

/-- A row appends the statistics it changed. -/
theorem appended_eq_changes (cache : ProductCache) (item : InstrumentDataItem) :
    appended cache item = changes StatisticsType.all (productOf cache item.symbol).cached
      (findProduct cache item).cached := by
  unfold appended productOf findProduct
  cases cache item.symbol with
  | none => exact (found_ofInstrument item).statistics
  | some p => exact (congrArg _ (Product.update_statistics p item)).trans (List.drop_left)

/-- The funding rate after a row. -/
theorem fundingRate_findProduct (cache : ProductCache) (item : InstrumentDataItem) :
    (findProduct cache item).fundingRate =
      Product.fundingRateOf (productOf cache item.symbol).fundingRate item := by
  unfold findProduct productOf
  cases cache item.symbol <;> rfl

/-- **The funding entries of a row**: the cached rate with its period, if one of them is new. -/
theorem mem_appended_fundingRate {cache : ProductCache} {item : InstrumentDataItem}
    {e : Statistics} :
    e ∈ appended cache item ∧ e.type = .fundingRate ↔
      Product.FundingRateIsNew (productOf cache item.symbol).fundingRate item ∧
        e = Product.fundingStatistic
          (Product.fundingRateOf (productOf cache item.symbol).fundingRate item) := by
  rw [appended_eq_changes, mem_changes, ← Product.fundingRateOf_ne_iff,
    ← fundingRate_findProduct]
  constructor
  · rintro ⟨⟨type, -, hchanged, rfl⟩, htype⟩
    rw [Product.cached_type] at htype
    subst htype
    exact ⟨fun hsame => hchanged (congrArg Product.fundingStatistic hsame), rfl⟩
  · rintro ⟨hchanged, rfl⟩
    refine ⟨⟨.fundingRate, Product.mem_all _, ?_, rfl⟩, rfl⟩
    exact fun hsame => hchanged (Product.fundingStatistic_inj.mp hsame)

/-! ## Rows one after another -/

/-- The instrument rows as a machine on the product cache: it puts out what the rows append. -/
def instrumentRows : Machine ProductCache InstrumentDataItem Statistics where
  step cache item :=
    (Function.update cache item.symbol (some (findProduct cache item)), appended cache item)
  halts _ := false

/-- The interval in effect with a row: its own, or the one before it. -/
def interval (before : String → Int) (item : InstrumentDataItem) : Int :=
  keep 0 (before item.symbol) item.fundingInterval

/-- The history of the funding intervals: the most recent one of each symbol, or zero. -/
def intervals : Monitor ProductCache InstrumentDataItem Statistics (String → Int) where
  input _ before item := Function.update before item.symbol (interval before item)
  output before _ := before

/-- The funding entries of a row with a time, when an interval is known, have the row's time and
the interval in effect. -/
def PeriodIsInterval (cache : ProductCache) (before : String → Int) (item : InstrumentDataItem) :
    Prop :=
  item.timestamp ≠ 0 → interval before item ≠ 0 →
    ∀ e ∈ appended cache item, e.type = .fundingRate →
      e.beginTimeUtc = toSeconds item.timestamp ∧
        (e.endTimeUtc - e.beginTimeUtc) * 1000 = interval before item - year2000

/-- The row's period begins or ends in the very second of the epoch, which is taken for no time. -/
def AtEpoch (item : InstrumentDataItem) : Prop :=
  toSeconds item.timestamp = 0 ∨
    toSeconds item.timestamp + stripTimePart item.fundingInterval = 0

/-- The period that is cached already begins with the row and lasts for an interval. -/
def IsCached (rate : FundingRate) (item : InstrumentDataItem) (interval : Int) : Prop :=
  (toSeconds item.timestamp = 0 → rate.beginTimeUtc = 0) ∧
    (rate.endTimeUtc - toSeconds item.timestamp) * 1000 = interval - year2000

instance (item : InstrumentDataItem) : Decidable (AtEpoch item) :=
  inferInstanceAs (Decidable (_ ∨ _))

instance (rate : FundingRate) (item : InstrumentDataItem) (interval : Int) :
    Decidable (IsCached rate item interval) := inferInstanceAs (Decidable (_ ∧ _))

/-- A row with a time that changes the rate or its period, when an interval is known, carries the
interval, unless that is zero, and it is one of whole seconds and less than a day. -/
def CarriesInterval (cache : ProductCache) (before : String → Int) (item : InstrumentDataItem) :
    Prop :=
  item.timestamp ≠ 0 → interval before item ≠ 0 →
    Product.FundingRateIsNew (productOf cache item.symbol).fundingRate item →
    if AtEpoch item then
      IsCached (productOf cache item.symbol).fundingRate item (interval before item)
    else
      (item.fundingInterval ≠ 0 ∨ interval before item = year2000) ∧
        OfWholeSeconds (interval before item)

instance (cache : ProductCache) (before : String → Int) (item : InstrumentDataItem) :
    Decidable (PeriodIsInterval cache before item) := by
  unfold PeriodIsInterval
  infer_instance

instance (cache : ProductCache) (before : String → Int) (item : InstrumentDataItem) :
    Decidable (CarriesInterval cache before item) := by
  unfold CarriesInterval
  infer_instance

/-- The time of day of a row's interval is the interval in effect if the row carries it, unless that
is zero, and it is short enough. -/
theorem stripTimePart_eq_interval_iff {before : String → Int} {item : InstrumentDataItem}
    (hitem : IsInterval item.fundingInterval) :
    stripTimePart item.fundingInterval * 1000 = interval before item - year2000 ↔
      (item.fundingInterval ≠ 0 ∨ interval before item = year2000) ∧
        OfWholeSeconds (interval before item) := by
  -- an absent interval has no time of day, whatever interval is in effect
  by_cases habsent : item.fundingInterval = 0
  · have hold : interval before item = before item.symbol := by
      rw [interval, habsent, keep_absent]
    rw [hold, habsent, stripTimePart_zero]
    unfold OfWholeSeconds year2000
    omega
  · have hown : interval before item = item.fundingInterval := keep_of_ne habsent
    rw [hown, stripTimePart_eq_iff (hitem.resolve_left habsent)]
    simp [habsent]

/-- The period after a row with a rate. -/
theorem fundingRateOf_period {rate : FundingRate} {item : InstrumentDataItem}
    (hvalue : item.fundingRate ≠ .nan) :
    (Product.fundingRateOf rate item).beginTimeUtc =
        keep 0 rate.beginTimeUtc (toSeconds item.timestamp) ∧
      (Product.fundingRateOf rate item).endTimeUtc =
        keep 0 rate.endTimeUtc
          (if toSeconds item.timestamp ≠ 0 then
            toSeconds item.timestamp + stripTimePart item.fundingInterval
          else 0) := by
  have hpresent : item.fundingRate.isNaN = false := Double.isNaN_eq_false_of_ne hvalue
  unfold Product.fundingRateOf
  rw [hpresent]
  exact ⟨rfl, rfl⟩

/-- The period after a row with a rate is the interval in effect if the row carries that, or if it
is left alone and right already. -/
theorem fundingRateOf_period_iff {rate : FundingRate} {before : String → Int}
    {item : InstrumentDataItem} (hitem : IsInterval item.fundingInterval)
    (hvalue : item.fundingRate ≠ .nan) :
    (Product.fundingRateOf rate item).beginTimeUtc = toSeconds item.timestamp ∧
        ((Product.fundingRateOf rate item).endTimeUtc -
          (Product.fundingRateOf rate item).beginTimeUtc) * 1000 =
            interval before item - year2000 ↔
      if AtEpoch item then IsCached rate item (interval before item)
      else
        (item.fundingInterval ≠ 0 ∨ interval before item = year2000) ∧
          OfWholeSeconds (interval before item) := by
  obtain ⟨hbegins, hends⟩ := @fundingRateOf_period rate item hvalue
  rw [hbegins, hends]
  by_cases hbegin : toSeconds item.timestamp = 0
  · -- the row has no time for the code, and neither end of the period is touched
    have hepoch : AtEpoch item := Or.inl hbegin
    rw [if_pos hepoch, if_neg (not_not.mpr hbegin), hbegin, keep_absent, keep_absent]
    unfold IsCached
    omega
  · rw [if_pos hbegin, keep_of_ne hbegin]
    by_cases hend : toSeconds item.timestamp + stripTimePart item.fundingInterval = 0
    · have hepoch : AtEpoch item := Or.inr hend
      rw [if_pos hepoch, hend, keep_absent]
      unfold IsCached
      omega
    · have hepoch : ¬ AtEpoch item := not_or.mpr ⟨hbegin, hend⟩
      rw [if_neg hepoch, keep_of_ne hend, add_sub_cancel_left,
        stripTimePart_eq_interval_iff hitem]
      exact ⟨fun h => h.2, fun h => ⟨rfl, h⟩⟩

/-- **One row**: its funding entries have the right period exactly under the condition. -/
theorem periodIsInterval_iff {cache : ProductCache} {before : String → Int}
    {item : InstrumentDataItem} (hitem : IsInterval item.fundingInterval) :
    PeriodIsInterval cache before item ↔ CarriesInterval cache before item := by
  unfold PeriodIsInterval CarriesInterval
  refine imp_congr_right fun _ => imp_congr_right fun _ => ?_
  constructor
  · intro h hnew
    obtain ⟨hmem, htype⟩ := mem_appended_fundingRate.mpr ⟨hnew, rfl⟩
    exact (fundingRateOf_period_iff hitem hnew.1).mp (h _ hmem htype)
  · intro h e hmem htype
    obtain ⟨hnew, rfl⟩ := mem_appended_fundingRate.mp ⟨hmem, htype⟩
    exact (fundingRateOf_period_iff hitem hnew.1).mpr (h hnew)

variable (cache : ProductCache) (before : String → Int) (items : List InstrumentDataItem)

/-- **The funding period is the funding interval** in exactly the runs of rows where every row that
changes the rate or its period carries the interval, and that is one of whole seconds and less than
a day. -/
theorem periodIsInterval_run_iff (hitems : ∀ item ∈ items, IsInterval item.fundingInterval) :
    instrumentRows.Along intervals PeriodIsInterval cache before items ↔
      instrumentRows.Along intervals CarriesInterval cache before items :=
  Machine.along_iff_along (fun _ _ => True) (fun _ _ _ _ hitem => periodIsInterval_iff hitem)
    (fun _ _ _ _ _ _ _ => trivial) trivial (Machine.along_of_forall_mem hitems cache before)

/-- A row with a rate and an interval of eight hours, and one with a rate and the same interval. -/
def repeatedInterval : List InstrumentDataItem :=
  [{ symbol := "XBTUSD", fundingRate := .num (1 / 10000),
     fundingInterval := year2000 + 28800000, timestamp := 1759219200000 },
   { symbol := "XBTUSD", fundingRate := .num (2 / 10000),
     fundingInterval := year2000 + 28800000, timestamp := 1759248000000 }]

/-- Both periods are of eight hours. -/
theorem periodIsInterval_repeatedInterval :
    instrumentRows.Along intervals PeriodIsInterval (fun _ => none) (fun _ => 0) repeatedInterval :=
  (periodIsInterval_run_iff (fun _ => none) (fun _ => 0) repeatedInterval (by decide +kernel)).mpr
    (by decide +kernel)

/-- A row with a rate and an interval of eight hours, and one with a new rate only. -/
def omittedInterval : List InstrumentDataItem :=
  [{ symbol := "XBTUSD", fundingRate := .num (1 / 10000),
     fundingInterval := year2000 + 28800000, timestamp := 1759219200000 },
   { symbol := "XBTUSD", fundingRate := .num (2 / 10000), timestamp := 1759248000000 }]

/-- The second period is empty. -/
theorem omittedInterval_not_periodIsInterval :
    (∀ item ∈ omittedInterval, IsInterval item.fundingInterval) ∧
      ¬ instrumentRows.Along intervals PeriodIsInterval (fun _ => none) (fun _ => 0)
          omittedInterval := by
  constructor
  · decide +kernel
  · decide +kernel

end ProductRow

end RoqBitmex
