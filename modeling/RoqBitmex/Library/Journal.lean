import Mathlib.Data.List.Nodup
import Mathlib.Logic.Function.Basic

/-! # Cells, and the journal of their changes

A cell keeps the last value that was present: `keep absent x v` is what a cell that holds `x` holds
after `v`. For a family of cells, `changes keys before after` lists the cells of `keys` whose
content changed, and `record` replays such entries over what was last known of each cell. A journal
of changes names each cell once (`nodup_changes`), says nothing when nothing changed
(`changes_self`), and brings what is known of the cells up to date (`record_changes`). -/

namespace RoqBitmex

universe u v

section Keep

variable {β : Type u} [DecidableEq β] {absent x v : β}

/-- What a cell that holds `x` holds after `v`: an absent value leaves it alone. -/
def keep (absent x v : β) : β := if v = absent then x else v

/-- An absent value leaves what is kept as it is. -/
@[simp] theorem keep_absent : keep absent x absent = x := by
  rw [keep, if_pos rfl]

/-- A value that is there replaces what is kept. -/
theorem keep_of_ne (h : v ≠ absent) : keep absent x v = v := by
  rw [keep, if_neg h]

/-- A cell that has not been filled takes whatever comes. -/
@[simp] theorem absent_keep : keep absent absent v = v := by
  by_cases h : v = absent
  · rw [h, keep_absent]
  · rw [keep_of_ne h]

/-- A cell that is given what it holds keeps it. -/
@[simp] theorem keep_self : keep absent x x = x := by
  by_cases h : x = absent
  · rw [h, keep_absent]
  · rw [keep_of_ne h]

/-- A value kept twice is kept once. -/
@[simp] theorem keep_keep : keep absent (keep absent x v) v = keep absent x v := by
  by_cases h : v = absent
  · rw [h, keep_absent, keep_absent]
  · rw [keep_of_ne h, keep_of_ne h]

/-- A value that is present, and not what the cell holds. -/
def IsNew (absent x v : β) : Prop := v ≠ absent ∧ v ≠ x

instance : Decidable (IsNew absent x v) := inferInstanceAs (Decidable (_ ∧ _))

/-- To a cell that has not been filled, whatever is present is new. -/
theorem not_isNew_absent : ¬ IsNew absent absent v ↔ v = absent := by
  simp [IsNew]

/-- A cell is changed by what is new to it. -/
theorem keep_ne_iff : keep absent x v ≠ x ↔ IsNew absent x v := by
  rw [IsNew]
  by_cases h : v = absent
  · simp [h]
  · simp [keep_of_ne h, h]

/-- A cell that is changed is filled. -/
theorem keep_ne_absent_of_ne (h : keep absent x v ≠ x) : keep absent x v ≠ absent := by
  obtain ⟨hv, -⟩ := keep_ne_iff.mp h
  rw [keep_of_ne hv]
  exact hv

/-- The last value of a list that is present. -/
def lastPresent (absent : β) (vs : List β) : β := (vs.filter (· ≠ absent)).getLastD absent

/-- **A cell holds the last value that was present.** -/
@[simp] theorem lastPresent_concat (vs : List β) (v : β) :
    lastPresent absent (vs ++ [v]) = keep absent (lastPresent absent vs) v := by
  by_cases h : v = absent
  · simp [lastPresent, h]
  · simp [lastPresent, keep_of_ne h, h]

end Keep

section Journal

variable {κ : Type u} {ν : Type v} {key : ν → κ} {keys : List κ} {before after : κ → ν}

section Changes

variable [DecidableEq ν]

/-- The contents of the cells that changed, in the order of `keys`. -/
def changes (keys : List κ) (before after : κ → ν) : List ν :=
  (keys.filter fun k => after k ≠ before k).map after

@[simp] theorem changes_nil : changes [] before after = [] := rfl

/-- The changes under keys are that under the first, if there is one, and the others. -/
theorem changes_cons (k : κ) (keys : List κ) :
    changes (k :: keys) before after =
      (if after k ≠ before k then [after k] else []) ++ changes keys before after := by
  by_cases h : after k = before k
  · simp [changes, h]
  · simp [changes, h]

/-- When nothing changed there is nothing to say. -/
@[simp] theorem changes_self (keys : List κ) (f : κ → ν) : changes keys f f = [] := by
  simp [changes]

/-- The entries are the new contents of the cells that changed. -/
theorem mem_changes {e : ν} :
    e ∈ changes keys before after ↔ ∃ k ∈ keys, after k ≠ before k ∧ after k = e := by
  simp [changes, and_assoc]

/-- Each cell is named once. -/
theorem nodup_changes (hkey : ∀ k, key (after k) = k) (hkeys : keys.Nodup) :
    ((changes keys before after).map key).Nodup := by
  have hmap : (changes keys before after).map key = keys.filter fun k => after k ≠ before k := by
    rw [changes, List.map_map]
    exact (List.map_congr_left fun k _ => hkey k).trans (List.map_id _)
  rw [hmap]
  exact hkeys.filter _

end Changes

variable [DecidableEq κ]

/-- What is known of the cells after a list of entries. -/
def record (key : ν → κ) (last : κ → Option ν) (entries : List ν) : κ → Option ν :=
  entries.foldl (fun last e => Function.update last (key e) (some e)) last

@[simp] theorem record_nil (last : κ → Option ν) : record key last [] = last := rfl

/-- An entry is recorded under its key before the entries after it. -/
theorem record_cons (last : κ → Option ν) (e : ν) (entries : List ν) :
    record key last (e :: entries) =
      record key (Function.update last (key e) (some e)) entries := rfl

/-- **A journal brings what is known up to date**: a cell that changed is known by its new content,
and the others as before. -/
theorem record_changes [DecidableEq ν] (hkey : ∀ k, key (after k) = k) (last : κ → Option ν)
    (k : κ) :
    record key last (changes keys before after) k =
      if k ∈ keys ∧ after k ≠ before k then some (after k) else last k := by
  induction keys generalizing last with
  | nil => simp [changes]
  | cons k' keys ih =>
      rw [changes_cons]
      by_cases hchanged : after k' = before k'
      · rw [if_neg (not_not.mpr hchanged), List.nil_append, ih]
        by_cases hk : k = k'
        · simp [hk, hchanged]
        · simp [hk]
      · rw [if_pos hchanged, List.singleton_append, record_cons, ih, hkey]
        by_cases hk : k = k'
        · simp [hk, hchanged]
        · simp [hk]

end Journal

end RoqBitmex
