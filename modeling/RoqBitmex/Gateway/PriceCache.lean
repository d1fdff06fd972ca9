import RoqBitmex.Gateway.Api
import Mathlib.Data.List.DropRight
import Mathlib.Logic.Function.Basic

/-! # The price cache

Rows that update or delete a level of a book need not carry its price. `PriceCache` remembers the
price an id was sent with, under the id alone. -/

namespace RoqBitmex

/-- `PriceCache`: the price each id was sent with. -/
abbrev PriceCache := UInt64 → Option ℚ

namespace PriceCache

open Json (Action)

/-- `PriceCache::operator()`: the cache after the call and the price and size to use, or the
`log::fatal` it ends in. -/
def call (cache : PriceCache) (action : Action) (id : UInt64) (price size : Double) :
    Except Site (PriceCache × Double × ℚ) :=
  match action with
  | .undefinedInternal | .unknownInternal => .error .priceCacheAction
  | .partial_ | .insert =>
      match price, size with
      | .num p, .num q =>
          match cache id with
          | none => .ok (Function.update cache id (some p), .num p, q)
          | some previous =>
              -- at a different price the entry stays as it is
              if p = previous then .ok (cache, .num previous, q) else .ok (cache, .num p, q)
      | _, _ => .error .priceCachePrice
  -- a known id overrides the price of the row
  | .update =>
      match cache id with
      | some p => .ok (cache, .num p, size.orZero)
      | none => .ok (cache, price, size.orZero)
  | .delete =>
      match cache id with
      | some p => .ok (Function.update cache id none, .num p, size.orZero)
      | none => .ok (cache, price, size.orZero)

/-! ## What a call answers -/

/-- The price a call answers: rows that update or delete take the one their id was sent with. -/
def price (cache : PriceCache) (action : Action) (id : UInt64) (price : Double) : Double :=
  match action with
  | .update | .delete => ((cache id).map .num).getD price
  | _ => price

/-- The cache with the price of a new row, unless its id has one. -/
def enter (cache : PriceCache) (id : UInt64) (price : Double) : PriceCache :=
  match cache id with
  | some _ => cache
  | none => (price.value?.map fun p => Function.update cache id (some p)).getD cache

/-- The cache after a call. -/
def after (cache : PriceCache) (action : Action) (id : UInt64) (price : Double) : PriceCache :=
  match action with
  | .partial_ | .insert => cache.enter id price
  | .delete => Function.update cache id none
  | _ => cache

/-- **What a call answers.** A call that does not end the process answers with the price, the size
of the row and the cache above. -/
theorem call_eq {cache cache' : PriceCache} {action : Action} {id : UInt64}
    {price size price' : Double} {size' : ℚ}
    (h : cache.call action id price size = .ok (cache', price', size')) :
    cache' = cache.after action id price ∧ price' = cache.price action id price ∧
      size' = size.orZero := by
  -- a snapshot row and an inserted one are handled alike
  have hnew : ∀ {p q : ℚ}, price = .num p → size = .num q →
      (match cache id with
        | none => Except.ok (Function.update cache id (some p), Double.num p, q)
        | some previous =>
            if p = previous then .ok (cache, .num previous, q) else .ok (cache, .num p, q)) =
        (.ok (cache', price', size') : Except Site _) →
      cache' = cache.enter id price ∧ price' = price ∧ size' = size.orZero := by
    rintro p q rfl rfl h
    rw [enter]
    cases hid : cache id with
    | none =>
        rw [hid] at h
        cases h
        exact ⟨rfl, rfl, rfl⟩
    | some previous =>
        rw [hid] at h
        simp only at h
        split at h
        · rename_i hsame
          cases h
          exact ⟨rfl, by rw [hsame], rfl⟩
        · cases h
          exact ⟨rfl, rfl, rfl⟩
  unfold call at h
  unfold after PriceCache.price
  cases action with
  | undefinedInternal => cases h
  | unknownInternal => cases h
  | update =>
      cases hid : cache id with
      | none => rw [hid] at h; cases h; exact ⟨rfl, rfl, rfl⟩
      | some p => rw [hid] at h; cases h; exact ⟨rfl, rfl, rfl⟩
  | delete =>
      cases hid : cache id with
      | none =>
          -- nothing is cached, so erasing the id changes nothing
          have hsame : Function.update cache id none = cache := by
            rw [← hid, Function.update_eq_self]
          rw [hid] at h
          cases h
          exact ⟨hsame.symm, rfl, rfl⟩
      | some p => rw [hid] at h; cases h; exact ⟨rfl, rfl, rfl⟩
  | partial_ =>
      cases price with
      | nan => cases h
      | num p =>
          cases size with
          | nan => cases h
          | num q => exact hnew rfl rfl h
  | insert =>
      cases price with
      | nan => cases h
      | num p =>
          cases size with
          | nan => cases h
          | num q => exact hnew rfl rfl h

/-- A call does not end the process: its action was parsed, and a new row has a price and a size. -/
theorem exists_call_eq_ok (cache : PriceCache) {action : Action} (id : UInt64) {price size : Double}
    (hparsed : action ≠ .undefinedInternal ∧ action ≠ .unknownInternal)
    (hpriced : action = .partial_ ∨ action = .insert → price.isNaN = false ∧ size.isNaN = false) :
    ∃ x, cache.call action id price size = .ok x := by
  -- a new row: price and size are numbers, and each of the three cases answers
  have hnew : action = .partial_ ∨ action = .insert →
      ∃ x, cache.call action id price size = .ok x := by
    intro haction
    obtain ⟨hprice, hsize⟩ := hpriced haction
    obtain ⟨p, rfl⟩ := Double.exists_of_isNaN_eq_false hprice
    obtain ⟨q, rfl⟩ := Double.exists_of_isNaN_eq_false hsize
    unfold call
    rcases haction with rfl | rfl
    all_goals
      simp only
      cases cache id with
      | none => exact ⟨_, rfl⟩
      | some previous =>
          simp only
          split
          · exact ⟨_, rfl⟩
          · exact ⟨_, rfl⟩
  cases action with
  | undefinedInternal => exact absurd rfl hparsed.1
  | unknownInternal => exact absurd rfl hparsed.2
  | partial_ => exact hnew (Or.inl rfl)
  | insert => exact hnew (Or.inr rfl)
  | update =>
      unfold call
      cases cache id with
      | none => exact ⟨_, rfl⟩
      | some p => exact ⟨_, rfl⟩
  | delete =>
      unfold call
      cases cache id with
      | none => exact ⟨_, rfl⟩
      | some p => exact ⟨_, rfl⟩

/-- A call leaves the prices of other ids alone. -/
theorem after_of_ne (cache : PriceCache) (action : Action) {id id' : UInt64} (price : Double)
    (h : id' ≠ id) : cache.after action id price id' = cache id' := by
  have henter : cache.enter id price id' = cache id' := by
    rw [enter]
    cases cache id with
    | some p => rfl
    | none =>
        cases price with
        | nan => rfl
        | num p => exact Function.update_of_ne h _ _
  cases action with
  | delete => exact Function.update_of_ne h _ _
  | partial_ => exact henter
  | insert => exact henter
  | _ => rfl

/-- What a call answers and remembers for its id depends on what is cached for the id. -/
theorem call_congr {cache cache' : PriceCache} (action : Action) {id : UInt64} (price : Double)
    (h : cache id = cache' id) :
    cache.price action id price = cache'.price action id price ∧
      cache.after action id price id = cache'.after action id price id := by
  have henter : cache.enter id price id = cache'.enter id price id := by
    rw [enter, enter, ← h]
    cases hid : cache id with
    | some p => exact h
    | none =>
        cases price with
        | nan => exact h
        | num p => simp
  cases action with
  | update => exact ⟨by rw [PriceCache.price, PriceCache.price, h], h⟩
  | delete => exact ⟨by rw [PriceCache.price, PriceCache.price, h], by simp [after]⟩
  | partial_ => exact ⟨rfl, henter⟩
  | insert => exact ⟨rfl, henter⟩
  | _ => exact ⟨rfl, h⟩

/-! ## Where the prices come from -/

/-- A row that deletes an id. -/
def deletes (id : UInt64) (x : Action × Json.OrderBookL2DataItem) : Bool :=
  decide (x.1 = .delete) && decide (x.2.id = id)

/-- The price at which a new row lists an id. -/
def lists (id : UInt64) (x : Action × Json.OrderBookL2DataItem) : Option ℚ :=
  if (x.1 = .partial_ ∨ x.1 = .insert) ∧ x.2.id = id then x.2.price.value? else none

/-- The price an id is listed at after rows: the one of the first new row since the id was last
deleted, and before any deletion the one it was listed at to begin with. -/
def listed (start : PriceCache) (rows : List (Action × Json.OrderBookL2DataItem)) : PriceCache :=
  fun id =>
    (if rows.any (deletes id) then none else start id).or
      ((rows.rtakeWhile fun x => !deletes id x).findSome? (lists id))

@[simp] theorem listed_nil (start : PriceCache) : listed start [] = start := by
  funext id
  simp [listed]

/-- **The cache is the first listing.** One more row does to the listings what a call does to the
cache: later listings of an id are ignored, and only a deletion makes room for a new one. -/
theorem listed_concat (start : PriceCache) (rows : List (Action × Json.OrderBookL2DataItem))
    (action : Action) (row : Json.OrderBookL2DataItem) :
    listed start (rows ++ [(action, row)]) =
      (listed start rows).after action row.id row.price := by
  funext id
  by_cases hdelete : deletes id (action, row) = true
  · -- the id is deleted: nothing listed before counts
    obtain ⟨haction, hid⟩ : action = .delete ∧ row.id = id := by simpa [deletes] using hdelete
    have hnone : listed start (rows ++ [(action, row)]) id = none := by
      rw [listed, List.any_append, List.any_cons, hdelete, Bool.true_or, Bool.or_true, if_pos rfl,
        List.rtakeWhile_concat_neg _ _ _ (by simp [hdelete])]
      rfl
    rw [hnone, haction, hid, after, Function.update_self]
  · -- a new row of the id lists it, if nothing before it does
    have hconcat : listed start (rows ++ [(action, row)]) id =
        (listed start rows id).or (lists id (action, row)) := by
      rw [Bool.not_eq_true] at hdelete
      rw [listed, listed, List.any_append, List.any_cons, hdelete, List.any_nil, Bool.or_false,
        Bool.or_false, List.rtakeWhile_concat_pos _ _ _ (by simp [hdelete]),
        List.findSome?_append, Option.or_assoc, List.findSome?_singleton]
    rw [hconcat]
    by_cases hid : row.id = id
    · have henter : (listed start rows id).or row.price.value? =
          (listed start rows).enter row.id row.price id := by
        rw [enter, hid]
        cases hlisted : listed start rows id with
        | some x => simp [hlisted]
        | none => cases row.price <;> simp [hlisted]
      have hlists : action = .partial_ ∨ action = .insert →
          lists id (action, row) = row.price.value? := fun h => if_pos ⟨h, hid⟩
      cases action with
      | delete => exact absurd (by simp [deletes, hid]) hdelete
      | partial_ => exact (congrArg _ (hlists (Or.inl rfl))).trans henter
      | insert => exact (congrArg _ (hlists (Or.inr rfl))).trans henter
      | _ => simp [lists, after]
    · rw [after_of_ne _ _ _ (Ne.symm hid), lists, if_neg fun h => hid h.2, Option.or_none]

end PriceCache

end RoqBitmex
