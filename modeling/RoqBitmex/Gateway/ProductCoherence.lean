import RoqBitmex.Gateway.ProductSession

/-! # Statistics and market status

Every row of a symbol that is kept publishes each change of a statistic and of the state once, with
the cached value (`rowCoherent_of_settled`), and leaves nothing to be published, so what is known of
the symbol is what is cached (`settled_next`). `coherent_of_run` says so of every run of the
session. -/

namespace RoqBitmex

universe u

open ProductRow

variable {g : Gateway}

/-- The entries of a statistics update: at most one for each type, each the cached one and not the
one that was published last. -/
def StatisticsCoherent (q : Product) (a : Published) (v : StatisticsUpdate) : Prop :=
  (v.statistics.map (·.type)).Nodup ∧
    ∀ e ∈ v.statistics, e = q.cached e.type ∧ a.statistics v.symbol e.type ≠ some e

/-- The market status that tells of a state. -/
def statusOf (g : Gateway) (symbol : String) (state : Json.State) : MarketStatus where
  streamId := g.streamId
  exchange := g.exchange
  symbol := symbol
  tradingStatus := state.map

/-- A row of a symbol that is kept: it puts out at most one statistics update, and that is coherent;
and if it changes the state it puts out one market status, with the trading status of the state it
leaves cached, and else none. -/
structure RowCoherent (g : Gateway) (cache : ProductCache) (a : Published) (row : ProductRow) :
    Prop where
  single : (statisticsUpdates (handle g cache row).2).length ≤ 1
  statistics : ∀ v ∈ statisticsUpdates (handle g cache row).2,
    StatisticsCoherent (productOf (handle g cache row).1 row.symbol) a v
  status : marketStatuses (handle g cache row).2 =
    if (productOf (handle g cache row).1 row.symbol).state ≠ (productOf cache row.symbol).state then
      [statusOf g row.symbol (productOf (handle g cache row).1 row.symbol).state]
    else []

/-- What is known of a symbol is what is cached, and nothing is left to be published: of every
statistic that is set the last entry dispatched is the cached one, and once a state is known the
last trading status dispatched is the one of the cached state. -/
structure SettledFor (g : Gateway) (p : Product) (a : Published) (symbol : String) : Prop where
  clean : p.Clean
  statistics : ∀ type, a.statistics symbol type =
    if p.cached type = ({} : Product).cached type then none else some (p.cached type)
  status : a.status symbol =
    if p.state = .undefinedInternal then none else some (statusOf g symbol p.state)

/-- Every symbol that is kept is settled. -/
def Settled (g : Gateway) (cache : ProductCache) (a : Published) : Prop :=
  ∀ symbol, g.discardSymbol symbol = false → SettledFor g (productOf cache symbol) a symbol

/-- A product publishes the status of its state. -/
theorem marketStatus_eq (p : Product) (symbol : String) :
    p.marketStatus g symbol = statusOf g symbol p.state := rfl

/-- Nothing is cached and nothing is known. -/
theorem settled_init : Settled g (fun _ => none) {} :=
  fun _ _ => ⟨Product.clean_blank, fun _ => by simp [productOf], by simp [productOf]⟩

/-- The statistics update of a row of a symbol that is kept. -/
theorem statisticsUpdates_handle {cache : ProductCache} {row : ProductRow}
    (hkept : g.discardSymbol row.symbol = false) (hclean : (productOf cache row.symbol).Clean) :
    statisticsUpdates (handle g cache row).2 =
      if (found cache row).statistics ≠ [] then
        [(found cache row).statisticsUpdate g row.symbol row.timestamp]
      else [] := by
  rw [statisticsUpdates, filterMap_handle hkept hclean fun _ => rfl]
  simp only [Option.toList_none, Option.toList_some, ite_self, List.nil_append]

/-- The market status of a row of a symbol that is kept. -/
theorem marketStatuses_handle {cache : ProductCache} {row : ProductRow}
    (hkept : g.discardSymbol row.symbol = false) (hclean : (productOf cache row.symbol).Clean) :
    marketStatuses (handle g cache row).2 =
      if (found cache row).marketStatusDirty then [(found cache row).marketStatus g row.symbol]
      else [] := by
  rw [marketStatuses, filterMap_handle hkept hclean fun _ => rfl]
  simp only [Option.toList_none, Option.toList_some, ite_self, List.nil_append, List.append_nil]

/-- **One row.** A row of a symbol that is kept and settled is coherent. -/
theorem rowCoherent_of_settled {cache : ProductCache} {a : Published} {row : ProductRow}
    (hkept : g.discardSymbol row.symbol = false)
    (hsettled : SettledFor g (productOf cache row.symbol) a row.symbol) :
    RowCoherent g cache a row := by
  have hclean := hsettled.clean
  have hfound : Found (productOf cache row.symbol) (found cache row) := found_found hclean
  have hupdates := statisticsUpdates_handle hkept hclean
  have hproduct := productOf_handle hkept hclean
  refine ⟨?_, fun v hv => ?_, ?_⟩
  · rw [hupdates]
    split
    · exact le_rfl
    · exact Nat.zero_le 1
  · rw [hupdates] at hv
    split at hv
    · obtain rfl := List.mem_singleton.mp hv
      rw [hproduct]
      show ((found cache row).statistics.map _).Nodup ∧ ∀ e ∈ (found cache row).statistics, _
      rw [hfound.statistics, Product.cached_clear]
      refine ⟨nodup_changes (Product.cached_type _) Product.nodup_all, fun e he => ?_⟩
      obtain ⟨type, -, hchanged, rfl⟩ := mem_changes.mp he
      rw [Product.cached_type]
      refine ⟨rfl, ?_⟩
      show a.statistics row.symbol type ≠ some _
      rw [hsettled.statistics]
      split
      · exact nofun
      · exact fun h => hchanged (Option.some.inj h).symm
    · cases hv
  · rw [marketStatuses_handle hkept hclean, hfound.marketStatusDirty, hproduct, marketStatus_eq]
    simp only [decide_eq_true_eq]
    rfl

/-- A row keeps its own symbol settled. -/
theorem settledFor_self {cache : ProductCache} {a : Published} {row : ProductRow}
    (hkept : g.discardSymbol row.symbol = false)
    (hsettled : SettledFor g (productOf cache row.symbol) a row.symbol) :
    SettledFor g (productOf (handle g cache row).1 row.symbol)
      ((published (σ := ProductCache) (ι := ProductRow)).outputs a (handle g cache row).2)
      row.symbol := by
  have hclean := hsettled.clean
  have hfound : Found (productOf cache row.symbol) (found cache row) := found_found hclean
  rw [productOf_handle hkept hclean, outputs_handle hkept hclean]
  refine ⟨Product.clean_clear _, fun type => ?_, ?_⟩
  · -- what changed is known by its entry, the rest as before
    show Function.update a.statistics row.symbol _ row.symbol type = _
    rw [Function.update_self, hfound.statistics, record_changes (Product.cached_type _),
      Product.cached_clear, hsettled.statistics]
    by_cases hchanged : (found cache row).cached type = (productOf cache row.symbol).cached type
    · rw [if_neg fun h => h.2 hchanged, hchanged]
    · rw [if_pos ⟨Product.mem_all type, hchanged⟩, if_neg (hfound.cached type hchanged)]
  · show (if (found cache row).marketStatusDirty then Function.update a.status row.symbol _
      else a.status) row.symbol = _
    rw [hfound.marketStatusDirty, Product.state_clear]
    by_cases hchanged : (found cache row).state = (productOf cache row.symbol).state
    · rw [if_neg (by simp [hchanged]), hsettled.status, hchanged]
    · rw [if_pos (decide_eq_true hchanged), Function.update_self, if_neg (hfound.state hchanged),
        marketStatus_eq]

/-- **The row lemma.** A row that does not halt keeps every symbol that is kept settled. -/
theorem settled_next {cache : ProductCache} {a : Published} {row : ProductRow}
    (hsettled : Settled g cache a) (hstops : (productRows g).stops cache row = false) :
    Settled g ((productRows g).next cache row) ((productRows g).after published cache a row) := by
  intro symbol hkept
  rw [after_productRows hstops]
  by_cases hsymbol : symbol = row.symbol
  · subst hsymbol
    exact settledFor_self hkept (hsettled _ hkept)
  · have hproduct : productOf ((productRows g).next cache row) symbol = productOf cache symbol := by
      rw [productOf, productOf, ← handle_frame g cache row hsymbol]
      rfl
    obtain ⟨-, hstatus, hstatistics⟩ := outputs_frame (σ := ProductCache) (ι := ProductRow) hsymbol
      (isEffectOf_handle (g := g) cache row) a
    obtain ⟨hclean, hstatistics', hstatus'⟩ := hsettled symbol hkept
    rw [hproduct]
    refine ⟨hclean, fun type => ?_, ?_⟩
    · rw [hstatistics]
      exact hstatistics' type
    · rw [hstatus]
      exact hstatus'

namespace MarketData

variable {D : Type u} {dl : Download D}

/-- An input whose rows are coherent: what it publishes of the products is what its rows publish,
each row of a symbol that is kept is coherent, and afterwards every such symbol is settled. -/
structure InputCoherent (g : Gateway) (dl : Download D) (s : MarketData D) (a : Published)
    (i : Input) : Prop where
  rows : (productRows g).Along published
    (fun cache a row => g.discardSymbol row.symbol = false → RowCoherent g cache a row)
    s.productCache a (s.rowsOf i)
  outputs : ((marketData g dl).out s i).filter isProductEffect =
    ((productRows g).outputs s.productCache (s.rowsOf i)).filter isProductEffect
  settled : (marketData g dl).stops s i = false →
    Settled g ((marketData g dl).next s i).productCache ((marketData g dl).after published s a i)

/-- **Statistics and market status are coherent.** Every input of a run of the session is coherent.
-/
theorem coherent_of_run (is : List Input) :
    (marketData g dl).Along published (InputCoherent g dl) (init dl) {} is := by
  have hstep : ∀ cache a row, Settled g cache a → True →
      (g.discardSymbol row.symbol = false → RowCoherent g cache a row) ∧
        ((productRows g).stops cache row = false →
          Settled g ((productRows g).next cache row)
            ((productRows g).after published cache a row)) :=
    fun cache a row hsettled _ =>
      ⟨fun hkept => rowCoherent_of_settled hkept (hsettled _ hkept), settled_next hsettled⟩
  refine Machine.along_of_along (fun _ _ => True) (fun s a i _ h => ⟨?_, fun _ => trivial⟩) trivial
    (Batching.along_of_along (Settled g) (watches_published g dl) hstep settled_init
      (Machine.along_of_forall (fun _ _ _ => Machine.along_of_forall (fun _ _ _ => trivial) _ _ _)
        _ _ is))
  exact ⟨h.1, (productBatching g dl).out_eq s i, h.2⟩

end MarketData

end RoqBitmex
