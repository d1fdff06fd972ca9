import RoqBitmex.Gateway.Api
import RoqBitmex.Protocol.Json
import RoqBitmex.Library.Journal
import Mathlib.Tactic.Common

/-! # Products

A `Product` caches the instrument rows of a symbol: its reference data, its state and its
statistics, with flags for what has changed since it was last published and the list of statistics
to publish. `utils::update` assigns a value that is present and new, and reports whether it did, so
a cached member is a cell in the sense of `keep`, and the list is a journal of changes
(`update_statistics`). -/

namespace RoqBitmex

open Json (InstrumentDataItem FundingDataItem State)

/-- A cached funding rate with the period it applies to, in seconds. -/
structure FundingRate where
  value : Double := .nan
  beginTimeUtc : Int := 0
  endTimeUtc : Int := 0
  deriving DecidableEq, Repr

/-- A `Product`. -/
structure Product where
  referenceDataDirty : Bool := false
  quoteCurrency : String := ""
  settlCurrency : String := ""
  tickSize : Double := .nan
  multiplier : Double := .nan
  lotSize : Double := .nan
  optionStrikePrice : Double := .nan
  underlyingSymbol : String := ""
  expiry : Int := 0
  settle : Int := 0
  marketStatusDirty : Bool := false
  state : State := .undefinedInternal
  settlementPrice : Double := .nan
  openInterest : Double := .nan
  indicativeSettlePrice : Double := .nan
  limitUpPrice : Double := .nan
  limitDownPrice : Double := .nan
  fairPrice : Double := .nan
  fundingRate : FundingRate := {}
  indicativeFundingRate : Double := .nan
  statistics : List Statistics := []
  deriving DecidableEq, Repr

/-- The members of the reference data that `Product::update` follows. -/
structure Reference where
  tickSize : Double
  multiplier : Double
  lotSize : Double
  optionStrikePrice : Double
  underlyingSymbol : String
  expiry : Int
  settle : Int
  deriving DecidableEq, Repr

/-- `duration_cast` from the wire's milliseconds to seconds. -/
def toSeconds (time : Int) : Int := time.tdiv 1000

/-- `strip_time_part`: the seconds of a time within its day. -/
def stripTimePart (time : Int) : Int := (toSeconds time).tmod 86400

/-- The statistics in the order `Product::update` goes through them. -/
def StatisticsType.all : List StatisticsType :=
  [.settlementPrice, .openInterest, .preSettlementPrice, .upperLimitPrice, .lowerLimitPrice,
    .indexValue, .fundingRate, .fundingRatePrediction]

namespace Product

/-! ## Updates -/

/-- The statistic appended when a plain value changes. -/
def statistic (type : StatisticsType) (cached value : Double) : List Statistics :=
  if keep .nan cached value ≠ cached then [{ type := type, value := keep .nan cached value }]
  else []

/-- The funding rate after a row: its period starts at the row's time and lasts for the interval,
and an absent rate leaves all of it alone. -/
def fundingRateOf (rate : FundingRate) (item : InstrumentDataItem) : FundingRate :=
  if item.fundingRate.isNaN then rate
  else
    let beginTimeUtc := toSeconds item.timestamp
    let endTimeUtc :=
      if beginTimeUtc ≠ 0 then beginTimeUtc + stripTimePart item.fundingInterval else 0
    { value := keep .nan rate.value item.fundingRate
      beginTimeUtc := keep 0 rate.beginTimeUtc beginTimeUtc
      endTimeUtc := keep 0 rate.endTimeUtc endTimeUtc }

/-- The statistic of a funding rate. -/
def fundingStatistic (rate : FundingRate) : Statistics where
  type := .fundingRate
  value := rate.value
  beginTimeUtc := rate.beginTimeUtc
  endTimeUtc := rate.endTimeUtc

/-- The reference data a product follows. -/
def reference (p : Product) : Reference where
  tickSize := p.tickSize
  multiplier := p.multiplier
  lotSize := p.lotSize
  optionStrikePrice := p.optionStrikePrice
  underlyingSymbol := p.underlyingSymbol
  expiry := p.expiry
  settle := p.settle

/-- `Product::update(InstrumentDataItem)`. -/
def update (p : Product) (item : InstrumentDataItem) : Product where
  referenceDataDirty := p.referenceDataDirty
    || keep .nan p.tickSize item.tickSize ≠ p.tickSize
    || keep .nan p.multiplier item.multiplier ≠ p.multiplier
    || keep .nan p.lotSize item.lotSize ≠ p.lotSize
    || keep .nan p.optionStrikePrice item.optionStrikePrice ≠ p.optionStrikePrice
    || keep "" p.underlyingSymbol item.underlyingSymbol ≠ p.underlyingSymbol
    || keep 0 p.expiry item.expiry ≠ p.expiry
    || keep 0 p.settle item.settle ≠ p.settle
  quoteCurrency := p.quoteCurrency
  settlCurrency := p.settlCurrency
  tickSize := keep .nan p.tickSize item.tickSize
  multiplier := keep .nan p.multiplier item.multiplier
  lotSize := keep .nan p.lotSize item.lotSize
  optionStrikePrice := keep .nan p.optionStrikePrice item.optionStrikePrice
  underlyingSymbol := keep "" p.underlyingSymbol item.underlyingSymbol
  expiry := keep 0 p.expiry item.expiry
  settle := keep 0 p.settle item.settle
  marketStatusDirty := p.marketStatusDirty || keep .undefinedInternal p.state item.state ≠ p.state
  state := keep .undefinedInternal p.state item.state
  settlementPrice := keep .nan p.settlementPrice item.markPrice
  openInterest := keep .nan p.openInterest item.openInterest
  indicativeSettlePrice := keep .nan p.indicativeSettlePrice item.indicativeSettlePrice
  limitUpPrice := keep .nan p.limitUpPrice item.limitUpPrice
  limitDownPrice := keep .nan p.limitDownPrice item.limitDownPrice
  fairPrice := keep .nan p.fairPrice item.fairPrice
  fundingRate := fundingRateOf p.fundingRate item
  indicativeFundingRate := keep .nan p.indicativeFundingRate item.indicativeFundingRate
  statistics := p.statistics
    ++ statistic .settlementPrice p.settlementPrice item.markPrice
    ++ statistic .openInterest p.openInterest item.openInterest
    ++ statistic .preSettlementPrice p.indicativeSettlePrice item.indicativeSettlePrice
    ++ statistic .upperLimitPrice p.limitUpPrice item.limitUpPrice
    ++ statistic .lowerLimitPrice p.limitDownPrice item.limitDownPrice
    ++ statistic .indexValue p.fairPrice item.fairPrice
    ++ (if fundingRateOf p.fundingRate item ≠ p.fundingRate then
          [fundingStatistic (fundingRateOf p.fundingRate item)]
        else [])
    ++ statistic .fundingRatePrediction p.indicativeFundingRate item.indicativeFundingRate

/-- `Product::update(FundingDataItem)`: the product is left alone, and nothing is reported. -/
def updateFunding (p : Product) (_ : FundingDataItem) : Product × Bool := (p, false)

/-- `Product::Product(InstrumentDataItem)`: the reference data are taken from the row before the row
is applied. -/
def ofInstrument (item : InstrumentDataItem) : Product :=
  update
    { quoteCurrency := item.quoteCurrency
      settlCurrency := item.settlCurrency
      tickSize := item.tickSize
      multiplier := item.multiplier
      lotSize := item.lotSize
      optionStrikePrice := item.optionStrikePrice
      underlyingSymbol := item.underlyingSymbol
      expiry := item.expiry
      settle := item.settle }
    item

/-- `Product::Product(FundingDataItem)`. -/
def ofFunding (_ : FundingDataItem) : Product := {}

/-- `Product::clear`. -/
def clear (p : Product) : Product :=
  { p with referenceDataDirty := false, marketStatusDirty := false, statistics := [] }

/-! ## What is published -/

/-- `Product::reference_data`. -/
def referenceData (g : Gateway) (p : Product) (symbol : String) (discard : Bool) :
    ReferenceData where
  streamId := g.streamId
  exchange := g.exchange
  symbol := symbol
  baseCurrency := p.settlCurrency
  quoteCurrency := p.quoteCurrency
  tickSize := p.tickSize
  multiplier := p.multiplier
  minNotional := .nan
  minTradeVol := p.lotSize
  maxTradeVol := .nan
  tradeVolStepSize := p.lotSize
  strikePrice := p.optionStrikePrice
  underlying := p.underlyingSymbol
  settlementDate := g.safeCastDate p.settle
  expiryDatetime := g.safeCastTime p.expiry
  expiryDatetimeUtc := g.safeCastTime p.expiry
  discard := discard

/-- `Product::market_status`. -/
def marketStatus (g : Gateway) (p : Product) (symbol : String) : MarketStatus where
  streamId := g.streamId
  exchange := g.exchange
  symbol := symbol
  tradingStatus := p.state.map

/-- `Product::statistics_update`. -/
def statisticsUpdate (g : Gateway) (p : Product) (symbol : String) (timestamp : Int) :
    StatisticsUpdate where
  streamId := g.streamId
  exchange := g.exchange
  symbol := symbol
  statistics := p.statistics
  updateType := .incremental
  exchangeTimeUtc := nanoseconds timestamp

/-! ## Cells and their journal -/

/-- The cached statistic of a type, as it is published. -/
def cached (p : Product) : StatisticsType → Statistics
  | .settlementPrice => { type := .settlementPrice, value := p.settlementPrice }
  | .openInterest => { type := .openInterest, value := p.openInterest }
  | .preSettlementPrice => { type := .preSettlementPrice, value := p.indicativeSettlePrice }
  | .upperLimitPrice => { type := .upperLimitPrice, value := p.limitUpPrice }
  | .lowerLimitPrice => { type := .lowerLimitPrice, value := p.limitDownPrice }
  | .indexValue => { type := .indexValue, value := p.fairPrice }
  | .fundingRate => fundingStatistic p.fundingRate
  | .fundingRatePrediction => { type := .fundingRatePrediction, value := p.indicativeFundingRate }

/-- A statistic is cached under its type. -/
@[simp] theorem cached_type (p : Product) (type : StatisticsType) :
    (p.cached type).type = type := by
  cases type <;> rfl

/-- Every type is among all types. -/
theorem mem_all (type : StatisticsType) : type ∈ StatisticsType.all := by
  cases type <;> decide

/-- No type is listed twice. -/
theorem nodup_all : StatisticsType.all.Nodup := by decide

/-- A funding rate applied twice is applied once. -/
theorem fundingRateOf_fundingRateOf (rate : FundingRate) (item : InstrumentDataItem) :
    fundingRateOf (fundingRateOf rate item) item = fundingRateOf rate item := by
  by_cases h : item.fundingRate.isNaN = true
  · simp [fundingRateOf, h]
  · simp [fundingRateOf, h]

/-- Two funding rates are published alike only if they are equal. -/
theorem fundingStatistic_inj {r r' : FundingRate} :
    fundingStatistic r = fundingStatistic r' ↔ r = r' := by
  obtain ⟨v, b, e⟩ := r
  obtain ⟨v', b', e'⟩ := r'
  simp [fundingStatistic]

/-- A plain statistic is appended when its entry changes. -/
theorem statistic_eq (type : StatisticsType) (x v : Double) :
    statistic type x v =
      if ({ type := type, value := keep .nan x v } : Statistics) ≠ { type := type, value := x } then
        [{ type := type, value := keep .nan x v }]
      else [] := by
  simp [statistic]

/-- **The list is a journal.** A row appends the cached statistics it changed, in a fixed order. -/
theorem update_statistics (p : Product) (item : InstrumentDataItem) :
    (p.update item).statistics =
      p.statistics ++ changes StatisticsType.all p.cached (p.update item).cached := by
  have hfunding : (if fundingRateOf p.fundingRate item ≠ p.fundingRate then
        [fundingStatistic (fundingRateOf p.fundingRate item)] else []) =
      if (p.update item).cached .fundingRate ≠ p.cached .fundingRate then
        [(p.update item).cached .fundingRate] else [] := by
    simp [cached, update, fundingStatistic_inj]
  simp only [StatisticsType.all, changes_cons, changes_nil, List.append_nil]
  rw [← hfunding]
  simp only [update, statistic_eq, cached, List.append_assoc]

/-- The reference data are flagged when a row changes one that is followed. -/
theorem update_referenceDataDirty (p : Product) (item : InstrumentDataItem) :
    (p.update item).referenceDataDirty =
      (p.referenceDataDirty || decide ((p.update item).reference ≠ p.reference)) := by
  simp only [update, reference, ne_eq, Reference.mk.injEq, not_and_or, Bool.decide_or,
    Bool.or_assoc]

/-- The status is flagged when a row changes the state. -/
theorem update_marketStatusDirty (p : Product) (item : InstrumentDataItem) :
    (p.update item).marketStatusDirty =
      (p.marketStatusDirty || decide ((p.update item).state ≠ p.state)) := rfl

/-! ## A row applied twice -/

/-- **A row is idempotent.** Applied a second time, it changes nothing at all. -/
theorem update_update (p : Product) (item : InstrumentDataItem) :
    (p.update item).update item = p.update item := by
  simp [update, statistic, fundingRateOf_fundingRateOf]

end Product

end RoqBitmex
