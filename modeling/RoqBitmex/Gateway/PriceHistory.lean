import RoqBitmex.Gateway.PriceCache
import RoqBitmex.Library.Machine

/-! # Histories of the price cache

The calls of a `PriceCache`, one after another. An id keeps the price it was first sent with until
it is deleted: a row that sends it again is answered its own price and leaves the entry alone, so a
later update gets the first price and not the last. `lastWriter_iff` says that this is the only
difference from a cache that remembers the last price. -/

namespace RoqBitmex

open Json (Action OrderBookL2DataItem)

namespace PriceCache

/-- A call, written as the action and the row it is made for. -/
abbrev Call := Action × OrderBookL2DataItem

/-- The price and the size a call answers, or the place where it ends the process. -/
abbrev Answer := Except Site (Double × ℚ)

/-- The cache after a call, and its answer. -/
def answered (cache : PriceCache) :
    Except Site (PriceCache × Double × ℚ) → PriceCache × List Answer
  | .ok (cache', price, size) => (cache', [.ok (price, size)])
  | .error site => (cache, [.error site])

/-- The calls as a machine on the cache. -/
def calls : Machine PriceCache Call Answer where
  step cache call := cache.answered (cache.call call.1 call.2.id call.2.price call.2.size)
  halts answer := !answer.isOk

/-- A cache without entries. -/
def empty : PriceCache := fun _ => none

/-- A call whose action was parsed, with a price and a size if it sends an id. -/
def WellFormed (call : Call) : Prop :=
  (call.1 ≠ .undefinedInternal ∧ call.1 ≠ .unknownInternal) ∧
    (call.1 = .partial_ ∨ call.1 = .insert →
      call.2.price.isNaN = false ∧ call.2.size.isNaN = false)

instance (call : Call) : Decidable (WellFormed call) :=
  inferInstanceAs (Decidable (_ ∧ (_ → _)))

/-- The calls made so far. -/
def past : Monitor PriceCache Call Answer (List Call) where
  input _ before call := before ++ [call]
  output before _ := before

/-- The price an id was sent with last, since it was last deleted. -/
def lastSent (before : List Call) (id : UInt64) : Option ℚ :=
  (before.rtakeWhile fun call => !deletes id call).reverse.findSome? (lists id)

/-- The answer of a cache that remembers the last price: a row that updates or deletes an id gets
the price the id was sent with last, a row that sends an id gets its own. -/
def LastWriter (before : List Call) (call : Call) : Answer → Prop
  | .error _ => False
  | .ok (price, _) =>
      (call.1 = .update ∨ call.1 = .delete →
        ∀ p ∈ lastSent before call.2.id, price = .num p) ∧
        (call.1 = .partial_ ∨ call.1 = .insert → price = call.2.price)

instance (before : List Call) (call : Call) : ∀ answer, Decidable (LastWriter before call answer)
  | .error _ => isFalse id
  | .ok _ => inferInstanceAs (Decidable (_ ∧ _))

/-- A row that updates or deletes an id finds that the id was sent last at the price it was sent
first, since it was last deleted. -/
def Unmoved (before : List Call) (call : Call) : Prop :=
  call.1 = .update ∨ call.1 = .delete → empty.listed before call.2.id = lastSent before call.2.id

instance (before : List Call) (call : Call) : Decidable (Unmoved before call) :=
  inferInstanceAs (Decidable (_ → _))

/-- The answers to the calls for an id. -/
def answersFor (id : UInt64) (cache : PriceCache) (cs : List Call) : List Answer :=
  (calls.collect (fun cache call => if call.2.id = id then calls.out cache call else [])
    cache cs).flatten

/-! ## One call -/

/-- What a well-formed call does. -/
theorem step_calls (cache : PriceCache) {call : Call} (h : WellFormed call) :
    calls.step cache call = (cache.after call.1 call.2.id call.2.price,
      [.ok (cache.price call.1 call.2.id call.2.price, call.2.size.orZero)]) := by
  obtain ⟨⟨cache', price, size⟩, hcall⟩ := cache.exists_call_eq_ok call.2.id h.1 h.2
  obtain ⟨hcache, hprice, hsize⟩ := call_eq hcall
  show cache.answered (cache.call call.1 call.2.id call.2.price call.2.size) = _
  rw [hcall, hcache, hprice, hsize]
  rfl

/-- A call that is well formed leaves the cache as its action does. -/
theorem next_calls (cache : PriceCache) {call : Call} (h : WellFormed call) :
    calls.next cache call = cache.after call.1 call.2.id call.2.price := by
  rw [Machine.next, step_calls cache h]

/-- A call that is well formed does not end the process. -/
theorem stops_calls (cache : PriceCache) {call : Call} (h : WellFormed call) :
    calls.stops cache call = false := by
  rw [Machine.stops, step_calls cache h]
  rfl

/-- A call that is well formed answers a price and a size. -/
theorem out_calls (cache : PriceCache) {call : Call} (h : WellFormed call) :
    calls.out cache call =
      [.ok (cache.price call.1 call.2.id call.2.price, call.2.size.orZero)] := by
  rw [Machine.out, step_calls cache h]
  rfl

/-- An id that has been sent was sent first at some price and last at some price. -/
theorem listed_eq_none_iff (before : List Call) (id : UInt64) :
    empty.listed before id = none ↔ lastSent before id = none := by
  have hfirst : empty.listed before id =
      (before.rtakeWhile fun call => !deletes id call).findSome? (lists id) := by
    rw [listed]
    split
    · rfl
    · rfl
  rw [hfirst, lastSent, List.findSome?_eq_none_iff, List.findSome?_eq_none_iff]
  simp only [List.mem_reverse]

/-- **One call.** It is answered as by a cache that remembers the last price exactly when the id was
not sent again at another price. -/
theorem lastWriter_iff_unmoved {before : List Call} {call : Call} (h : WellFormed call)
    {cache : PriceCache} (hcache : cache = empty.listed before) :
    (∀ answer ∈ calls.out cache call, LastWriter before call answer) ↔ Unmoved before call := by
  rw [out_calls cache h, List.forall_mem_singleton]
  by_cases hread : call.1 = .update ∨ call.1 = .delete
  · have hprice : cache.price call.1 call.2.id call.2.price =
        ((cache call.2.id).map .num).getD call.2.price := by
      rcases hread with hread | hread
      · rw [hread]
        rfl
      · rw [hread]
        rfl
    have hwrite : ¬ (call.1 = .partial_ ∨ call.1 = .insert) := by
      rcases hread with hread | hread
      · simp [hread]
      · simp [hread]
    rw [LastWriter, Unmoved, hprice, hcache]
    simp only [hread, hwrite, true_imp_iff, false_imp_iff, and_true]
    have hnone := listed_eq_none_iff before call.2.id
    cases hfirst : empty.listed before call.2.id with
    | none => simp [hnone.mp hfirst]
    | some q =>
        cases hlast : lastSent before call.2.id with
        | none => simp [hnone.mpr hlast] at hfirst
        | some p => simp
  · have hprice : cache.price call.1 call.2.id call.2.price = call.2.price := by
      rw [not_or] at hread
      cases hcall : call.1 with
      | update => exact absurd hcall hread.1
      | delete => exact absurd hcall hread.2
      | _ => rfl
    simp [LastWriter, Unmoved, hread, hprice]

/-! ## Runs of calls -/

/-- The answers for an id depend on what is cached for it and on its own calls. -/
theorem answersFor_eq (id : UInt64) {cs : List Call} (h : ∀ call ∈ cs, WellFormed call)
    {cache cache' : PriceCache} (hid : cache id = cache' id) :
    answersFor id cache cs = calls.outputs cache' (cs.filter fun call => call.2.id = id) := by
  induction cs generalizing cache cache' with
  | nil => rfl
  | cons call cs ih =>
      have hcall := h call (by simp)
      have hcalls : ∀ call' ∈ cs, WellFormed call' := fun call' h' => h call' (by simp [h'])
      rw [answersFor, Machine.collect, stops_calls cache hcall, if_neg Bool.false_ne_true,
        List.flatten_cons, List.filter_cons]
      by_cases hsame : call.2.id = id
      · have hcongr := call_congr call.1 call.2.price (hsame ▸ hid)
        have hnext : calls.next cache call id = calls.next cache' call id := by
          rw [next_calls cache hcall, next_calls cache' hcall, ← hsame]
          exact hcongr.2
        rw [if_pos hsame, if_pos (decide_eq_true hsame), Machine.outputs,
          stops_calls cache' hcall, out_calls cache hcall, out_calls cache' hcall, hcongr.1]
        exact congrArg _ (ih hcalls hnext)
      · -- a call for another id neither answers nor changes the id
        have hnext : calls.next cache call id = cache' id := by
          rw [next_calls cache hcall, after_of_ne _ _ _ (Ne.symm hsame), hid]
        rw [if_neg hsame, if_neg (by simp [hsame]), List.nil_append]
        exact ih hcalls hnext

/-- A run of calls is answered as by a cache that remembers, for each id on its own, the last
price. -/
def RemembersLast (cs : List Call) : Prop :=
  calls.Along past (fun cache before call => ∀ answer ∈ calls.out cache call,
      LastWriter before call answer) empty [] cs ∧
    ∀ id, answersFor id empty cs = calls.outputs empty (cs.filter fun call => call.2.id = id)

/-- **The exact law.** Well-formed calls are answered as by a cache that remembers the last prices
exactly when no id is updated or deleted that was sent again at another price than at first. -/
theorem remembersLast_iff {cs : List Call} (h : ∀ call ∈ cs, WellFormed call) :
    RemembersLast cs ↔ calls.Along past (fun _ before call => Unmoved before call) empty [] cs := by
  rw [RemembersLast, and_iff_left fun id => answersFor_eq id h rfl]
  -- the invariant: the cache is what the calls so far have listed first
  refine Machine.along_iff_along (fun cache before => cache = empty.listed before)
    (fun cache before call hcache hcall => lastWriter_iff_unmoved hcall hcache)
    (fun cache before call hcache hcall _ _ => ?_) (listed_nil empty).symm
    (Machine.along_of_forall_mem h empty [])
  have hafter : calls.after past cache before call = before ++ [call] :=
    Monitor.outputs_of_forall (fun _ _ _ => rfl) _
  rw [next_calls cache hcall, hafter, hcache]
  exact (listed_concat empty before call.1 call.2).symm

/-- An id that is sent, updated, deleted and sent again. -/
def sentAgain : List Call :=
  [(.partial_, ⟨"XBTUSD", 1, .buy, .num 10, .num 5, 0⟩),
    (.update, ⟨"XBTUSD", 1, .buy, .num 99, .num 7, 0⟩),
    (.delete, ⟨"XBTUSD", 1, .buy, .nan, .nan, 0⟩),
    (.insert, ⟨"XBTUSD", 1, .buy, .num 11, .num 5, 0⟩),
    (.update, ⟨"XBTUSD", 1, .buy, .nan, .num 7, 0⟩)]

/-- After the deletion the new price counts. -/
theorem remembersLast_iff_sentAgain : RemembersLast sentAgain :=
  (remembersLast_iff (by decide)).mpr (by decide +kernel)

/-- An id that is sent again at another price. -/
def moved : List Call :=
  [(.partial_, ⟨"XBTUSD", 1, .buy, .num 10, .num 5, 0⟩),
    (.partial_, ⟨"XBTUSD", 1, .buy, .num 11, .num 5, 0⟩),
    (.update, ⟨"XBTUSD", 1, .buy, .nan, .num 7, 0⟩)]

/-- Its update is answered the first price. -/
theorem moved_not_remembersLast :
    ¬ RemembersLast moved ∧
      calls.outputs empty moved = [.ok (.num 10, 5), .ok (.num 11, 5), .ok (.num 10, 7)] := by
  constructor
  · intro h
    exact absurd h.1 (by decide +kernel)
  · decide +kernel

end PriceCache

end RoqBitmex
