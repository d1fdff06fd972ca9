import RoqBitmex.Gateway.ProductAnnounced

/-! # Reference data and the rows they come from

The reference data of a symbol should not depend on which row created its product: each member
should be the most recent present value of the rows (`IsLatest`). A product follows the rows in all
of them but the two currencies, which it takes from the row it is created by and never again, so
`isLatest_iff` is about these only. -/

namespace RoqBitmex

universe u

open Json (InstrumentDataItem FundingDataItem)

/-- The reference data a product follows, after a row. -/
def Reference.after (r : Reference) (item : InstrumentDataItem) : Reference where
  tickSize := keep .nan r.tickSize item.tickSize
  multiplier := keep .nan r.multiplier item.multiplier
  lotSize := keep .nan r.lotSize item.lotSize
  optionStrikePrice := keep .nan r.optionStrikePrice item.optionStrikePrice
  underlyingSymbol := keep "" r.underlyingSymbol item.underlyingSymbol
  expiry := keep 0 r.expiry item.expiry
  settle := keep 0 r.settle item.settle

namespace Product

/-- A row updates the reference data of a product as its members say. -/
@[simp] theorem reference_update (p : Product) (item : InstrumentDataItem) :
    (p.update item).reference = p.reference.after item := rfl

/-- A product that is created by a row has the reference data of a blank one after the row. -/
@[simp] theorem reference_ofInstrument (item : InstrumentDataItem) :
    (ofInstrument item).reference = ({} : Product).reference.after item := by
  unfold ofInstrument
  rw [reference_update]
  simp only [reference, Reference.after, keep_self, absent_keep]

end Product

namespace ProductRow

/-! ## The rows of a symbol -/

/-- The rows that reach the product of a symbol: its own, without updates while it is discarded. -/
def Reaches (g : Gateway) (symbol : String) : ProductRow → Bool
  | .partial_ item => item.symbol = symbol
  | .update item => item.symbol = symbol && !g.discardSymbol item.symbol
  | .funding item => item.symbol = symbol

/-- The instrument row of a row, if it is one. -/
def item? : ProductRow → Option InstrumentDataItem
  | .partial_ item | .update item => some item
  | .funding _ => none

section Latest

variable {β : Type u} [DecidableEq β]

/-- The most recent present value of a member of the rows. -/
def latest (absent : β) (field : InstrumentDataItem → β) (rows : List ProductRow) : β :=
  lastPresent absent ((rows.filterMap item?).map field)

variable {absent : β} {field : InstrumentDataItem → β}

/-- The latest value after an instrument row is the row's, if it has one. -/
theorem latest_concat_of_item {rows : List ProductRow} {row : ProductRow}
    {item : InstrumentDataItem} (h : row.item? = some item) :
    latest absent field (rows ++ [row]) = keep absent (latest absent field rows) (field item) := by
  simp [latest, h]

/-- A funding row leaves the latest value as it is. -/
theorem latest_concat_of_funding {rows : List ProductRow} {row : ProductRow}
    (h : row.item? = none) :
    latest absent field (rows ++ [row]) = latest absent field rows := by
  simp [latest, h]

end Latest

/-- The value of a text member in the first of the rows, if that is an instrument row. -/
def firstValue (field : InstrumentDataItem → String) (rows : List ProductRow) : String :=
  ((rows.head?.bind item?).map field).getD ""

/-- The first value is that of the first row, whatever rows follow. -/
theorem firstValue_concat_of_ne_nil {field : InstrumentDataItem → String} {rows : List ProductRow}
    (h : rows ≠ []) (row : ProductRow) :
    firstValue field (rows ++ [row]) = firstValue field rows := by
  unfold firstValue
  rw [List.head?_append_of_ne_nil _ h]

/-- The most recent present values of the members a product follows. -/
def latestReference (rows : List ProductRow) : Reference where
  tickSize := latest .nan (·.tickSize) rows
  multiplier := latest .nan (·.multiplier) rows
  lotSize := latest .nan (·.lotSize) rows
  optionStrikePrice := latest .nan (·.optionStrikePrice) rows
  underlyingSymbol := latest "" (·.underlyingSymbol) rows
  expiry := latest 0 (·.expiry) rows
  settle := latest 0 (·.settle) rows

/-- The latest reference data after an instrument row has the row's members. -/
theorem latestReference_concat_of_item {rows : List ProductRow} {row : ProductRow}
    {item : InstrumentDataItem} (h : row.item? = some item) :
    latestReference (rows ++ [row]) = (latestReference rows).after item := by
  simp only [latestReference, Reference.after, latest_concat_of_item h]

/-- A funding row leaves the latest reference data as they are. -/
theorem latestReference_concat_of_funding {rows : List ProductRow} {row : ProductRow}
    (h : row.item? = none) : latestReference (rows ++ [row]) = latestReference rows := by
  simp only [latestReference, latest_concat_of_funding h]

/-- Reference data whose every member is the most recent present value of the rows. -/
structure IsLatest (g : Gateway) (rows : List ProductRow) (v : ReferenceData) : Prop where
  baseCurrency : v.baseCurrency = latest "" (·.settlCurrency) rows
  quoteCurrency : v.quoteCurrency = latest "" (·.quoteCurrency) rows
  tickSize : v.tickSize = latest .nan (·.tickSize) rows
  multiplier : v.multiplier = latest .nan (·.multiplier) rows
  minTradeVol : v.minTradeVol = latest .nan (·.lotSize) rows
  tradeVolStepSize : v.tradeVolStepSize = latest .nan (·.lotSize) rows
  strikePrice : v.strikePrice = latest .nan (·.optionStrikePrice) rows
  underlying : v.underlying = latest "" (·.underlyingSymbol) rows
  settlementDate : v.settlementDate = g.safeCastDate (latest 0 (·.settle) rows)
  expiryDatetime : v.expiryDatetime = g.safeCastTime (latest 0 (·.expiry) rows)
  expiryDatetimeUtc : v.expiryDatetimeUtc = g.safeCastTime (latest 0 (·.expiry) rows)

/-! ## The product and its rows -/

variable {g : Gateway}

/-- A product that has followed rows: it exists if there are some, and it has the most recent
present value of every member but the currencies, which are the first row's. -/
structure Follows (rows : List ProductRow) (product : Option Product) : Prop where
  created : product = none ↔ rows = []
  reference : (product.getD {}).reference = latestReference rows
  quoteCurrency : (product.getD {}).quoteCurrency = firstValue (·.quoteCurrency) rows
  settlCurrency : (product.getD {}).settlCurrency = firstValue (·.settlCurrency) rows

/-- Before the first row there is no product. -/
theorem follows_nil : Follows [] none where
  created := by simp
  reference := rfl
  quoteCurrency := rfl
  settlCurrency := rfl

/-- The reference data of a product are all that matters. -/
theorem Follows.of_sameReference {rows : List ProductRow} {p q : Product}
    (h : Follows rows (some p)) (hsame : SameReference p q) : Follows rows (some q) where
  created := by simpa using h.created
  reference := hsame.reference.trans h.reference
  quoteCurrency := hsame.quoteCurrency.trans h.quoteCurrency
  settlCurrency := hsame.settlCurrency.trans h.settlCurrency

/-- An instrument row is followed. -/
theorem Follows.findProduct {rows : List ProductRow} {cache : ProductCache} {row : ProductRow}
    {item : InstrumentDataItem} (h : Follows rows (cache item.symbol))
    (hitem : row.item? = some item) : Follows (rows ++ [row]) (some (findProduct cache item)) := by
  unfold ProductRow.findProduct
  cases hproduct : cache item.symbol with
  | none =>
      rw [hproduct] at h
      -- the row creates the product, and its currencies are taken now or never
      obtain rfl : rows = [] := h.created.mp rfl
      constructor
      · simp
      · rw [latestReference_concat_of_item hitem]
        exact Product.reference_ofInstrument item
      · simp only [firstValue, List.nil_append, List.head?_cons, Option.bind_some, hitem]
        rfl
      · simp only [firstValue, List.nil_append, List.head?_cons, Option.bind_some, hitem]
        rfl
  | some p =>
      rw [hproduct] at h
      -- the product was created by an earlier row, whose currencies it keeps
      have hne : rows ≠ [] := fun hnil => Option.some_ne_none p (h.created.mpr hnil)
      constructor
      · simp
      · rw [latestReference_concat_of_item hitem, ← h.reference]
        rfl
      · rw [firstValue_concat_of_ne_nil hne, ← h.quoteCurrency]
        rfl
      · rw [firstValue_concat_of_ne_nil hne, ← h.settlCurrency]
        rfl

/-- A funding row creates a product if there is none, and brings it nothing. -/
theorem Follows.funding {rows : List ProductRow} {product : Option Product} {row : ProductRow}
    (h : Follows rows product) (hitem : row.item? = none) :
    Follows (rows ++ [row]) (some (product.getD {})) := by
  have hfirst : ∀ field, firstValue field (rows ++ [row]) = firstValue field rows := by
    intro field
    by_cases hnil : rows = []
    · simp [firstValue, hnil, hitem]
    · exact firstValue_concat_of_ne_nil hnil row
  constructor
  · simp
  · rw [latestReference_concat_of_funding hitem]
    exact h.reference
  · rw [hfirst]
    exact h.quoteCurrency
  · rw [hfirst]
    exact h.settlCurrency

/-- A row that reaches a product is of its symbol. -/
theorem symbol_of_reaches {symbol : String} {row : ProductRow} (h : row.Reaches g symbol = true) :
    row.symbol = symbol := by
  cases row with
  | partial_ item => exact of_decide_eq_true h
  | update item => exact of_decide_eq_true (Bool.and_eq_true _ _ ▸ h).1
  | funding item => exact of_decide_eq_true h

/-- An instrument row that reaches the product leaves the reference data of the product it finds. -/
theorem exists_handle_of_item {cache : ProductCache} {row : ProductRow} {item : InstrumentDataItem}
    (hitem : row.item? = some item) (hreaches : row.Reaches g item.symbol = true) :
    ∃ p, (handle g cache row).1 item.symbol = some p ∧
      SameReference (findProduct cache item) p := by
  cases row with
  | partial_ item' =>
      obtain rfl : item' = item := Option.some.inj hitem
      simp only [handle, handlePartial]
      split
      · exact ⟨_, Function.update_self _ _ _, rfl, rfl, rfl⟩
      · exact ⟨_, Function.update_self _ _ _, rfl, rfl, rfl⟩
  | update item' =>
      obtain rfl : item' = item := Option.some.inj hitem
      have hkept : ¬ g.discardSymbol item'.symbol = true := by simpa [Reaches] using hreaches
      simp only [handle, handleUpdate, if_neg hkept, findProduct_update]
      exact ⟨_, Function.update_self _ _ _, rfl, rfl, rfl⟩
  | funding item' => cases hitem

/-- A funding row leaves the product there is, or a blank one. -/
theorem handle_funding (cache : ProductCache) (item : FundingDataItem) :
    (handle g cache (.funding item)).1 item.symbol = some (productOf cache item.symbol) := by
  simp only [handle, handleFunding, Product.updateFunding, findProductFunding_eq,
    Bool.false_eq_true, if_false, Function.update_self]

/-- Other rows leave a product alone. -/
theorem handle_of_not_reaches {cache : ProductCache} {symbol : String} {row : ProductRow}
    (h : row.Reaches g symbol = false) : (handle g cache row).1 symbol = cache symbol := by
  by_cases hsymbol : symbol = row.symbol
  · subst hsymbol
    cases row with
    | partial_ item => exact absurd rfl (of_decide_eq_false h)
    | update item =>
        have hdiscard : g.discardSymbol item.symbol = true := by
          simpa [Reaches, ProductRow.symbol] using h
        simp only [handle, handleUpdate, if_pos hdiscard]
    | funding item => exact absurd rfl (of_decide_eq_false h)
  · exact handle_frame g cache row hsymbol

/-- **One row.** A row that reaches a symbol's product is followed, and others leave it alone. -/
theorem Follows.handle {symbol : String} {rows : List ProductRow} {cache : ProductCache}
    (h : Follows rows (cache symbol)) (row : ProductRow) :
    Follows (if row.Reaches g symbol then rows ++ [row] else rows)
      ((ProductRow.handle g cache row).1 symbol) := by
  cases hreaches : row.Reaches g symbol with
  | false =>
      rw [if_neg Bool.false_ne_true, handle_of_not_reaches hreaches]
      exact h
  | true =>
      rw [if_pos rfl]
      obtain rfl := symbol_of_reaches hreaches
      cases row with
      | funding item =>
          rw [symbol, handle_funding]
          exact h.funding rfl
      | partial_ item =>
          obtain ⟨p, hproduct, hsame⟩ := @exists_handle_of_item g cache _ item rfl hreaches
          rw [symbol, hproduct]
          exact (h.findProduct rfl).of_sameReference hsame
      | update item =>
          obtain ⟨p, hproduct, hsame⟩ := @exists_handle_of_item g cache _ item rfl hreaches
          rw [symbol, hproduct]
          exact (h.findProduct rfl).of_sameReference hsame

/-- The rows that reach the product of a symbol. -/
def reaching (g : Gateway) (symbol : String) (rows : List ProductRow) : List ProductRow :=
  rows.filter (·.Reaches g symbol)

/-- The rows that reach a symbol's product are those before, and the last one if it does. -/
theorem reaching_concat (symbol : String) (rows : List ProductRow) (row : ProductRow) :
    reaching g symbol (rows ++ [row]) =
      if row.Reaches g symbol then reaching g symbol rows ++ [row] else reaching g symbol rows := by
  unfold reaching
  rw [List.filter_append, List.filter_singleton]
  cases row.Reaches g symbol with
  | true => rfl
  | false => exact List.append_nil _

/-- The product cache after rows, from the start. -/
def cacheOf (g : Gateway) (rows : List ProductRow) : ProductCache :=
  ((productRows g).batch (fun _ => none) rows).1

/-- **All rows.** The product of a symbol has followed the rows that reach it. -/
theorem follows_cacheOf (symbol : String) (rows : List ProductRow) :
    Follows (reaching g symbol rows) (cacheOf g rows symbol) := by
  have hstep : ∀ before cache row, Follows (reaching g symbol before) (cache symbol) →
      Follows (reaching g symbol (before ++ [row])) ((productRows g).next cache row symbol) := by
    intro before cache row h
    rw [reaching_concat]
    exact h.handle row
  have hstart : Follows (reaching g symbol []) ((fun _ => none : ProductCache) symbol) :=
    follows_nil
  exact @Machine.inv_batch _ _ _ (productRows g)
    (fun before cache => Follows (reaching g symbol before) (cache symbol)) hstep [] _ hstart rows

variable (g) in
/-- **Reference data are the most recent present values** exactly when the row that creates the
product, if it is an instrument row, carries the most recent present currencies. -/
theorem isLatest_iff (symbol : String) (discard : Bool) (rows : List ProductRow) :
    IsLatest g (reaching g symbol rows)
        ((productOf (cacheOf g rows) symbol).referenceData g symbol discard) ↔
      firstValue (·.settlCurrency) (reaching g symbol rows) =
          latest "" (·.settlCurrency) (reaching g symbol rows) ∧
        firstValue (·.quoteCurrency) (reaching g symbol rows) =
          latest "" (·.quoteCurrency) (reaching g symbol rows) := by
  obtain ⟨-, hreference, hquote, hsettl⟩ := @follows_cacheOf g symbol rows
  rw [← hsettl, ← hquote]
  constructor
  · intro h
    exact ⟨h.baseCurrency, h.quoteCurrency⟩
  -- the other members have been followed all along
  · rintro ⟨hbase, hcounter⟩
    simp only [Product.reference, latestReference, Reference.mk.injEq] at hreference
    obtain ⟨htick, hmultiplier, hlot, hstrike, hunderlying, hexpiry, hsettle⟩ := hreference
    exact ⟨hbase, hcounter, htick, hmultiplier, hlot, hlot, hstrike, hunderlying,
      congrArg g.safeCastDate hsettle, congrArg g.safeCastTime hexpiry,
      congrArg g.safeCastTime hexpiry⟩

/-- A funding row, and then the row of a snapshot. -/
def fundingFirst : List ProductRow :=
  [.funding { symbol := "XBTUSD" },
   .partial_
     { symbol := "XBTUSD", quoteCurrency := "USD", settlCurrency := "XBt", tickSize := .num 1 }]

/-- The currencies are missing. -/
theorem fundingFirst_not_isLatest :
    ¬ IsLatest .keepAll (reaching .keepAll "XBTUSD" fundingFirst)
        ((productOf (cacheOf .keepAll fundingFirst) "XBTUSD").referenceData .keepAll "XBTUSD"
          false) := by
  intro h
  have hbase := h.baseCurrency
  revert hbase
  decide +kernel

end ProductRow

end RoqBitmex
