import Mathlib.Data.List.Perm.Subperm
import Mathlib.Data.List.Range

/-! # Round-robin selection

A pointer goes around `n` places. A turn selects the nearest ready place ahead of the pointer, which
then moves on to the place after it. `Follows` says that turns are taken so, with what is ready
changing between them. A place that stays ready is not passed over (`exists_selected_of_ahead_lt`),
and with everything ready the turns go around (`perm_range_of_all_ready`). -/

namespace RoqBitmex

namespace RoundRobin

variable {n index i j k : ℕ}

/-! ## Going around -/

/-- How many places `j` is ahead of `index`. -/
def ahead (n index j : ℕ) : ℕ := if index ≤ j then j - index else j + n - index

/-- A connection is less than a round ahead. -/
theorem ahead_lt (hj : j < n) : ahead n index j < n := by
  unfold ahead
  split <;> omega

/-- The place after another, going around. -/
theorem succ_mod (hi : i < n) : (i + 1) % n = if i + 1 = n then 0 else i + 1 := by
  split
  · next h => rw [h, Nat.mod_self]
  · exact Nat.mod_eq_of_lt (by omega)

/-- The place a number of steps ahead, going around. -/
theorem add_mod (hindex : index < n) (hk : k < n) :
    (index + k) % n = if index + k < n then index + k else index + k - n := by
  split
  · next h => exact Nat.mod_eq_of_lt h
  · rw [Nat.mod_eq_sub_mod (by omega), Nat.mod_eq_of_lt (by omega)]

/-- Going as far as `j` is ahead leads to `j`. -/
theorem add_ahead_mod (hindex : index < n) (hj : j < n) : (index + ahead n index j) % n = j := by
  rw [add_mod hindex (ahead_lt hj)]
  unfold ahead
  split <;> split <;> omega

/-- The place `k` steps ahead is `k` ahead. -/
theorem ahead_add_mod (hindex : index < n) (hk : k < n) : ahead n index ((index + k) % n) = k := by
  rw [add_mod hindex hk]
  unfold ahead
  split <;> split <;> omega

/-- Two places as far ahead are one. -/
theorem ahead_inj (hindex : index < n) (hi : i < n) (hj : j < n)
    (h : ahead n index i = ahead n index j) : i = j := by
  unfold ahead at h
  split at h <;> split at h <;> omega

/-- Past a place, the places behind it are that much nearer. -/
theorem ahead_succ_mod (hindex : index < n) (hi : i < n) (hj : j < n)
    (h : ahead n index i < ahead n index j) :
    ahead n ((i + 1) % n) j = ahead n index j - ahead n index i - 1 := by
  rw [succ_mod hi]
  unfold ahead at h ⊢
  split at h <;> split at h <;> split <;> split <;> omega

/-- Just past a place, every other one comes before it. -/
theorem ahead_succ_mod_lt (hi : i < n) (hj : j < n) (h : j ≠ i) :
    ahead n ((i + 1) % n) j < ahead n ((i + 1) % n) i := by
  rw [succ_mod hi]
  unfold ahead
  split <;> split <;> split <;> omega

/-! ## Turns -/

/-- A turn: what is ready, and what is selected. -/
structure Turn where
  ready : ℕ → Bool
  selected : Option ℕ

/-- Where a turn leaves the pointer. -/
def Turn.next (n index : ℕ) (t : Turn) : ℕ :=
  match t.selected with
  | some i => (i + 1) % n
  | none => index

/-- A turn selects the nearest ready place, and nothing only if nothing is ready. -/
def Turn.Nearest (n index : ℕ) (t : Turn) : Prop :=
  match t.selected with
  | some i => i < n ∧ t.ready i ∧ ∀ j < n, t.ready j → ahead n index i ≤ ahead n index j
  | none => ∀ j < n, t.ready j = false

/-- Turns taken one after another from where the pointer is. -/
def Follows (n : ℕ) : ℕ → List Turn → Prop
  | _, [] => True
  | index, t :: ts => t.Nearest n index ∧ Follows n (t.next n index) ts

/-- The pointer after turns. -/
def pointer (n : ℕ) : ℕ → List Turn → ℕ
  | index, [] => index
  | index, t :: ts => pointer n (t.next n index) ts

variable {t : Turn} {ts ts' : List Turn}

/-- Searching the places one by one from the pointer selects the nearest. -/
theorem nearest_of_find? {ready : ℕ → Bool} (hindex : 0 < n → index < n) :
    Turn.Nearest n index
      ⟨ready, ((List.range n).find? fun offset => ready ((index + offset) % n)).map
        fun offset => (index + offset) % n⟩ := by
  cases hfind : (List.range n).find? fun offset => ready ((index + offset) % n) with
  | none =>
      intro j hj
      -- every place was searched, each at its distance ahead of the pointer
      have hindex' := hindex (Nat.zero_lt_of_lt hj)
      have hnone := List.find?_eq_none.mp hfind (ahead n index j) (by simpa using ahead_lt hj)
      rw [add_ahead_mod hindex' hj] at hnone
      simpa using hnone
  | some offset =>
      obtain ⟨hready, hmem, hbefore⟩ := List.find?_range_eq_some.mp hfind
      have hoffset : offset < n := List.mem_range.mp hmem
      have hindex' := hindex (Nat.zero_lt_of_lt hoffset)
      refine ⟨Nat.mod_lt _ (Nat.zero_lt_of_lt hoffset), hready, fun j hj hj' => ?_⟩
      rw [ahead_add_mod hindex' hoffset]
      -- a nearer one that is ready would have been found before
      by_contra hlt
      have hskipped := hbefore (ahead n index j) (by omega)
      rw [add_ahead_mod hindex' hj, show ready j = true from hj'] at hskipped
      cases hskipped

/-- The pointer stays at a place. -/
theorem Turn.next_lt (t : Turn) (hindex : 0 < n → index < n) (hn : 0 < n) :
    t.next n index < n := by
  unfold Turn.next
  split
  · exact Nat.mod_lt _ hn
  · exact hindex hn

/-- Turns may be cut in two. -/
theorem follows_append :
    Follows n index (ts ++ ts') ↔ Follows n index ts ∧ Follows n (pointer n index ts) ts' := by
  induction ts generalizing index with
  | nil => simp [Follows, pointer]
  | cons t ts ih => simp [Follows, pointer, ih, and_assoc]

/-- The pointer stays at a place over turns. -/
theorem pointer_lt (ts : List Turn) (hindex : 0 < n → index < n) (hn : 0 < n) :
    pointer n index ts < n := by
  induction ts generalizing index with
  | nil => exact hindex hn
  | cons t ts ih => exact ih (t.next_lt hindex)

/-! ## Nothing is passed over -/

/-- **No place that stays ready is passed over.** Where `j` comes before `i` and is ready in every
turn until `i` is selected, `j` was selected in one of them. -/
theorem exists_selected_of_ahead_lt (hi : i < n) (hj : j < n) {ts : List Turn} {last : Turn}
    (hindex : index < n) (hlt : ahead n index j < ahead n index i)
    (h : Follows n index (ts ++ [last])) (hready : ∀ t ∈ ts ++ [last], t.ready j)
    (hlast : last.selected = some i) : ∃ t ∈ ts, t.selected = some j := by
  induction ts generalizing index with
  | nil =>
      -- the last turn prefers `j`
      have hnearest : last.Nearest n index := h.1
      unfold Turn.Nearest at hnearest
      rw [hlast] at hnearest
      have hle := hnearest.2.2 j hj (hready last (by simp))
      omega
  | cons t ts ih =>
      obtain ⟨hnearest, hrest⟩ := h
      cases ht : t.selected with
      | none =>
          unfold Turn.Nearest at hnearest
          rw [ht] at hnearest
          -- nothing is selected only if nothing is ready, and `j` is
          have hnot := hnearest j hj
          rw [hready t (by simp)] at hnot
          cases hnot
      | some k =>
          by_cases hkj : k = j
          · exact ⟨t, by simp, hkj ▸ ht⟩
          · unfold Turn.Nearest at hnearest
            rw [ht] at hnearest
            obtain ⟨hk, -, hle⟩ := hnearest
            have hkle := hle j hj (hready t (by simp))
            have hne : ahead n index k ≠ ahead n index j :=
              fun he => hkj (ahead_inj hindex hk hj he)
            have hnext : t.next n index = (k + 1) % n := by rw [Turn.next, ht]
            rw [hnext] at hrest
            -- both places come nearer by as much
            have hnearer : ahead n ((k + 1) % n) j < ahead n ((k + 1) % n) i := by
              rw [ahead_succ_mod hindex hk hj (by omega), ahead_succ_mod hindex hk hi (by omega)]
              omega
            obtain ⟨t', ht', hsel⟩ := ih (Nat.mod_lt _ (by omega)) hnearer hrest
              fun t' ht' => hready t' (List.mem_cons_of_mem _ ht')
            exact ⟨t', List.mem_cons_of_mem _ ht', hsel⟩

/-- Between two selections of a place, every other one that stays ready is selected. -/
theorem exists_selected_between {first last : Turn}
    (h : Follows n index (first :: ts ++ [last])) (hfirst : first.selected = some i)
    (hlast : last.selected = some i) (hj : j < n) (hne : j ≠ i)
    (hready : ∀ t ∈ ts ++ [last], t.ready j) : ∃ t ∈ ts, t.selected = some j := by
  obtain ⟨hnearest, hrest⟩ := h
  unfold Turn.Nearest at hnearest
  rw [hfirst] at hnearest
  have hnext : first.next n index = (i + 1) % n := by rw [Turn.next, hfirst]
  rw [hnext] at hrest
  exact exists_selected_of_ahead_lt hnearest.1 hj (Nat.mod_lt _ (by omega))
    (ahead_succ_mod_lt hnearest.1 hj hne) hrest hready hlast

/-! ## Everything ready -/

/-- With everything ready each turn selects the place of the pointer. -/
theorem selected_of_all_ready (hindex : index < n) (h : Follows n index ts)
    (hready : ∀ t ∈ ts, ∀ j < n, t.ready j) :
    ts.map (·.selected) = (List.range ts.length).map fun k => some ((index + k) % n) := by
  induction ts generalizing index with
  | nil => rfl
  | cons t ts ih =>
      obtain ⟨hnearest, hrest⟩ := h
      have hsel : t.selected = some index := by
        unfold Turn.Nearest at hnearest
        cases ht : t.selected with
        | none =>
            rw [ht] at hnearest
            have hnot := hnearest index hindex
            rw [hready t (by simp) index hindex] at hnot
            cases hnot
        | some i =>
            rw [ht] at hnearest
            -- the place of the pointer is ready and at no distance, so nothing is nearer
            have hle := hnearest.2.2 index hindex (hready t (by simp) index hindex)
            have hi := hnearest.1
            have hself : ahead n index index = 0 := by simp [ahead]
            have hzero : ahead n index i = ahead n index index := by omega
            rw [ahead_inj hindex hi hindex hzero]
      have hnext : t.next n index = (index + 1) % n := by rw [Turn.next, hsel]
      rw [hnext] at hrest
      have htail := ih (Nat.mod_lt _ (by omega)) hrest
        fun t' ht' => hready t' (List.mem_cons_of_mem _ ht')
      rw [List.map_cons, List.length_cons, List.range_succ_eq_map, List.map_cons, hsel, htail,
        List.map_map]
      congr 1
      · rw [Nat.add_zero, Nat.mod_eq_of_lt hindex]
      · apply List.map_congr_left
        intro k _
        rw [Function.comp, Nat.mod_add_mod, Nat.succ_eq_add_one, Nat.add_assoc, Nat.add_comm 1 k]

/-- **Everything ready goes around.** As many turns as there are places select each place once. -/
theorem perm_range_of_all_ready (hindex : 0 < n → index < n) (h : Follows n index ts)
    (hready : ∀ t ∈ ts, ∀ j < n, t.ready j) (hlength : ts.length = n) :
    (ts.map (·.selected)).Perm ((List.range n).map some) := by
  rcases Nat.eq_zero_or_pos n with hzero | hn
  · subst hzero
    rw [List.eq_nil_of_length_eq_zero hlength]
    rfl
  have hindex' := hindex hn
  have hmap : ts.map (·.selected) = ((List.range n).map fun k => (index + k) % n).map some := by
    rw [selected_of_all_ready hindex' h hready, hlength, List.map_map]
    rfl
  rw [hmap]
  apply List.Perm.map
  apply List.Perm.symm
  -- every place is met, and there is no room for one to be met twice
  apply List.Subperm.perm_of_length_le
  · apply List.subperm_of_subset List.nodup_range
    intro j hj
    have hj' : j < n := List.mem_range.mp hj
    exact List.mem_map.mpr
      ⟨ahead n index j, List.mem_range.mpr (ahead_lt hj'), add_ahead_mod hindex' hj'⟩
  · simp

/-! ## Two places that stay ready -/

/-- One if `j` comes before `i`. -/
def lag (n index i j : ℕ) : ℕ := if ahead n index j < ahead n index i then 1 else 0

/-- A connection is one turn behind another at most. -/
theorem lag_le_one : lag n index i j ≤ 1 := by
  unfold lag
  split <;> omega

/-- One if a turn selects a place. -/
def Turn.selects (t : Turn) (i : ℕ) : ℕ := if t.selected = some i then 1 else 0

/-- **Two places take turns.** A turn in which both are ready selects the one that comes first,
which then comes last, or leaves them in their order. -/
theorem Turn.Nearest.selects_add_lag (h : t.Nearest n index) (hindex : index < n) (hi : i < n)
    (hj : j < n) (hne : i ≠ j) (hreadyi : t.ready i = true) (hreadyj : t.ready j = true) :
    t.selects i + lag n index i j = t.selects j + lag n (t.next n index) i j := by
  unfold Turn.Nearest at h
  unfold Turn.selects Turn.next
  cases hselected : t.selected with
  | none =>
      rw [hselected] at h
      have hnot := h i hi
      rw [hreadyi] at hnot
      cases hnot
  | some k =>
      rw [hselected] at h
      obtain ⟨hk, -, hle⟩ := h
      have hlei := hle i hi hreadyi
      have hlej := hle j hj hreadyj
      have hapart : ahead n index i ≠ ahead n index j := fun he => hne (ahead_inj hindex hi hj he)
      unfold lag
      dsimp only
      by_cases hki : k = i
      · -- `i` has come first, and comes last
        subst hki
        have hafter := ahead_succ_mod_lt hk hj hne.symm
        have hkj : ¬ some k = some j := fun he => hne (Option.some.inj he)
        rw [if_pos rfl, if_neg hkj, if_pos hafter, if_neg (by omega)]
      · by_cases hkj : k = j
        · subst hkj
          have hafter := ahead_succ_mod_lt hk hi hne
          have hki' : ¬ some k = some i := fun he => hki (Option.some.inj he)
          rw [if_pos rfl, if_neg hki', if_pos (by omega), if_neg (by omega)]
        · -- both come nearer by as much
          have hki' : ¬ some k = some i := fun he => hki (Option.some.inj he)
          have hkj' : ¬ some k = some j := fun he => hkj (Option.some.inj he)
          have hneari : ahead n index k ≠ ahead n index i :=
            fun he => hki (ahead_inj hindex hk hi he)
          have hnearj : ahead n index k ≠ ahead n index j :=
            fun he => hkj (ahead_inj hindex hk hj he)
          rw [if_neg hki', if_neg hkj', ahead_succ_mod hindex hk hi (by omega),
            ahead_succ_mod hindex hk hj (by omega)]
          split <;> split <;> omega

end RoundRobin

end RoqBitmex
