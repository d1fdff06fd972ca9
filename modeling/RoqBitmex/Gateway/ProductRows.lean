import RoqBitmex.Gateway.Product
import RoqBitmex.Library.Machine

/-! # Instrument and funding rows

What `MarketData` does with one row of an `instrument` snapshot, of an `instrument` update and of a
`funding` message: it finds or creates the symbol's product, applies the row, publishes what has
changed and clears the product's flags. The rows are the inputs of a machine, `productRows`, whose
state is the product cache; a message is a batch of them. -/

namespace RoqBitmex

open Json (InstrumentDataItem FundingDataItem)

/-- `product_cache_`: the products by symbol. -/
abbrev ProductCache := String → Option Product

/-- A row, by the path it is handled on. -/
inductive ProductRow where
  /-- A row of the first `instrument` snapshot of a connection. -/
  | partial_ (item : InstrumentDataItem)
  /-- A row of an `instrument` update after the snapshot. -/
  | update (item : InstrumentDataItem)
  /-- A row of a `funding` message. -/
  | funding (item : FundingDataItem)
  deriving DecidableEq, Repr

/-- The symbol of a row. -/
def ProductRow.symbol : ProductRow → String
  | .partial_ item | .update item => item.symbol
  | .funding item => item.symbol

namespace ProductRow

variable (g : Gateway)

/-- `MarketData::find_product(InstrumentDataItem)`: a new product, or the cached one with the row
applied. -/
def findProduct (cache : ProductCache) (item : InstrumentDataItem) : Product :=
  match cache item.symbol with
  | none => .ofInstrument item
  | some product => product.update item

/-- `MarketData::find_product(FundingDataItem)`. -/
def findProductFunding (cache : ProductCache) (item : FundingDataItem) : Product :=
  match cache item.symbol with
  | none => .ofFunding item
  | some product => (product.updateFunding item).1

/-- Dispatch the reference data of a product. -/
def publishReferenceData (product : Product) (symbol : String) (discard : Bool) : List Effect :=
  assertEffect (symbol ≠ "") .productSymbol ++
    [.dispatch (.referenceData (product.referenceData g symbol discard))]

/-- Dispatch the market status of a product, if it has changed. -/
def publishMarketStatus (product : Product) (symbol : String) : List Effect :=
  if product.marketStatusDirty then
    assertEffect (symbol ≠ "") .productSymbol ++
      [.dispatch (.marketStatus (product.marketStatus g symbol))]
  else []

/-- Dispatch the statistics of a product, if some have changed. -/
def publishStatistics (product : Product) (symbol : String) (timestamp : Int) : List Effect :=
  if product.statistics ≠ [] then
    assertEffect (symbol ≠ "") .productSymbol ++
      [.dispatch (.statisticsUpdate (product.statisticsUpdate g symbol timestamp))]
  else []

/-- A row of a snapshot. The reference data are always published, the rest only for a symbol that is
kept; a discarded product is not cleared. -/
def handlePartial (cache : ProductCache) (item : InstrumentDataItem) :
    ProductCache × List Effect :=
  let discard := g.discardSymbol item.symbol
  let product := findProduct cache item
  if discard then
    (Function.update cache item.symbol (some product),
      publishReferenceData g product item.symbol discard)
  else
    (Function.update cache item.symbol (some product.clear),
      publishReferenceData g product item.symbol discard ++
        publishMarketStatus g product item.symbol ++
        publishStatistics g product item.symbol item.timestamp)

/-- A row of an update. The row is applied by `find_product` and then once more. -/
def handleUpdate (cache : ProductCache) (item : InstrumentDataItem) : ProductCache × List Effect :=
  if g.discardSymbol item.symbol then (cache, [])
  else
    let product := (findProduct cache item).update item
    (Function.update cache item.symbol (some product.clear),
      (if product.referenceDataDirty then
          publishReferenceData g product item.symbol (g.discardSymbol item.symbol)
        else []) ++
        publishMarketStatus g product item.symbol ++
        publishStatistics g product item.symbol item.timestamp)

/-- A row of a funding message. -/
def handleFunding (cache : ProductCache) (item : FundingDataItem) : ProductCache × List Effect :=
  let (product, updated) := (findProductFunding cache item).updateFunding item
  if updated then
    (Function.update cache item.symbol (some product.clear),
      publishStatistics g product item.symbol item.timestamp)
  else (Function.update cache item.symbol (some product), [])

/-- What a row does. -/
def handle (cache : ProductCache) : ProductRow → ProductCache × List Effect
  | .partial_ item => handlePartial g cache item
  | .update item => handleUpdate g cache item
  | .funding item => handleFunding g cache item

/-! ## The effects of a row -/

/-- The effects of handling a row of a symbol: its records, and the assertion that it has a name. -/
def IsEffectOf (symbol : String) : Effect → Prop
  | .dispatch (.referenceData value) => value.symbol = symbol
  | .dispatch (.marketStatus value) => value.symbol = symbol
  | .dispatch (.statisticsUpdate value) => value.symbol = symbol
  | .assertion .productSymbol => symbol = ""
  | _ => False

variable {g}

variable (g) in
/-- What a row of a symbol puts out: reference data that say whether the symbol is discarded, and
the rest where it is kept. -/
inductive Output (symbol : String) : Effect → Prop
  | unnamed : symbol = "" → Output symbol (.assertion .productSymbol)
  | referenceData (product : Product) : Output symbol
      (.dispatch (.referenceData (product.referenceData g symbol (g.discardSymbol symbol))))
  | marketStatus (product : Product) : g.discardSymbol symbol = false →
      Output symbol (.dispatch (.marketStatus (product.marketStatus g symbol)))
  | statistics (product : Product) (timestamp : Int) : g.discardSymbol symbol = false →
      Output symbol (.dispatch (.statisticsUpdate (product.statisticsUpdate g symbol timestamp)))

/-- The assertion that a row has a name is an output of the row. -/
theorem output_of_mem_assert {symbol : String} {e : Effect}
    (he : e ∈ assertEffect (symbol ≠ "") .productSymbol) : Output g symbol e := by
  obtain ⟨hsymbol, rfl⟩ := eq_of_mem_assertEffect he
  have hempty : symbol = "" := by simpa using hsymbol
  exact .unnamed hempty

/-- Reference data are an output of the row. -/
theorem output_of_mem_referenceData {product : Product} {symbol : String} {e : Effect}
    (he : e ∈ publishReferenceData g product symbol (g.discardSymbol symbol)) :
    Output g symbol e := by
  rcases List.mem_append.mp he with h | h
  · exact output_of_mem_assert h
  · rw [List.mem_singleton.mp h]
    exact .referenceData product

/-- A market status is an output of a row whose symbol is kept. -/
theorem output_of_mem_marketStatus {product : Product} {symbol : String} {e : Effect}
    (hkept : g.discardSymbol symbol = false) (he : e ∈ publishMarketStatus g product symbol) :
    Output g symbol e := by
  rw [publishMarketStatus] at he
  split at he
  · rcases List.mem_append.mp he with h | h
    · exact output_of_mem_assert h
    · rw [List.mem_singleton.mp h]
      exact .marketStatus product hkept
  · cases he

/-- Statistics are an output of a row whose symbol is kept. -/
theorem output_of_mem_statistics {product : Product} {symbol : String} {timestamp : Int}
    {e : Effect} (hkept : g.discardSymbol symbol = false)
    (he : e ∈ publishStatistics g product symbol timestamp) : Output g symbol e := by
  rw [publishStatistics] at he
  split at he
  · rcases List.mem_append.mp he with h | h
    · exact output_of_mem_assert h
    · rw [List.mem_singleton.mp h]
      exact .statistics product timestamp hkept
  · cases he

/-- What is published for a row is an output of the row. -/
theorem output_of_mem_handle {cache : ProductCache} {row : ProductRow} {e : Effect}
    (he : e ∈ (handle g cache row).2) : Output g row.symbol e := by
  cases row with
  | partial_ item =>
      simp only [handle, handlePartial] at he
      split at he
      · exact output_of_mem_referenceData he
      · rename_i hkept
        rw [Bool.not_eq_true] at hkept
        rcases List.mem_append.mp he with h | h
        · rcases List.mem_append.mp h with h | h
          · exact output_of_mem_referenceData h
          · exact output_of_mem_marketStatus hkept h
        · exact output_of_mem_statistics hkept h
  | update item =>
      simp only [handle, handleUpdate] at he
      split at he
      · cases he
      · rename_i hkept
        rw [Bool.not_eq_true] at hkept
        rcases List.mem_append.mp he with h | h
        · rcases List.mem_append.mp h with h | h
          · split at h
            · exact output_of_mem_referenceData h
            · cases h
          · exact output_of_mem_marketStatus hkept h
        · exact output_of_mem_statistics hkept h
  | funding item => simp [handle, handleFunding, Product.updateFunding] at he

/-- **A row speaks of its own symbol only.** -/
theorem isEffectOf_handle (cache : ProductCache) (row : ProductRow) :
    ∀ e ∈ (handle g cache row).2, IsEffectOf row.symbol e := by
  intro e he
  cases output_of_mem_handle he with
  | unnamed hsymbol => exact hsymbol
  | referenceData product => rfl
  | marketStatus product hkept => rfl
  | statistics product timestamp hkept => rfl

end ProductRow

/-- The rows as a machine on the product cache. -/
def productRows (g : Gateway) : Machine ProductCache ProductRow Effect where
  step := ProductRow.handle g
  halts := g.halts

end RoqBitmex
