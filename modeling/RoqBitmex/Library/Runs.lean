import Mathlib.Data.List.SplitBy
import Mathlib.Data.List.Nodup
import Mathlib.Data.List.TakeWhile

/-! # Loops over runs of related elements

A loop that keeps the previous element and starts afresh whenever the next one is not related to it
is a loop over the *runs* of the list, the groups of `List.splitBy`. `RunLoop.loop_eq_groups` says
so for loops in any lawful monad. `Together key k l` says that the elements of a key are next to
each other, so that they are one run (`Together.split`), and `Contiguous key l` that they are so for
every key. -/

namespace RoqBitmex

universe u v

/-! ## Loops -/

/-- A loop over a list that restarts at every element its predecessor is not related to: what it
does between runs, on one element, and at the end of a run, given the run's last element. -/
structure RunLoop (m : Type u → Type v) (α σ τ : Type u) where
  /-- Whether an element continues the run of its predecessor. -/
  related : α → α → Bool
  /-- The start of a run. -/
  start : σ → τ
  /-- One element. -/
  body : τ → α → m τ
  /-- The end of a run. -/
  close : τ → α → σ
  /-- The end of the loop when there was no element. -/
  stop : τ → σ
  /-- A loop without elements does nothing. -/
  stop_start : ∀ s, stop (start s) = s

/-- A loop commutes with a map of states that its bodies commute with. -/
theorem foldlM_hom {m : Type u → Type v} [Monad m] [LawfulMonad m] {α : Type*} {β β' : Type u}
    {f : β → β'} {body : β → α → m β} {body' : β' → α → m β'}
    (h : ∀ x a, body' (f x) a = f <$> body x a) (l : List α) (x : β) :
    l.foldlM body' (f x) = f <$> l.foldlM body x := by
  induction l generalizing x with
  | nil => simp
  | cons a l ih => simp [h, ih]

namespace RunLoop

variable {m : Type u → Type v} [Monad m] {α σ τ : Type u} (p : RunLoop m α σ τ)

/-- One pass of the loop. The state holds the current run and the previous element. -/
def step (x : τ × Option α) (a : α) : m (τ × Option α) :=
  match x.2 with
  | none => (fun t => (t, some a)) <$> p.body x.1 a
  | some b =>
      if p.related b a then (fun t => (t, some a)) <$> p.body x.1 a
      else (fun t => (t, some a)) <$> p.body (p.start (p.close x.1 b)) a

/-- After the last element the last run ends. -/
def finish (x : τ × Option α) : σ :=
  match x.2 with
  | none => p.stop x.1
  | some b => p.close x.1 b

/-- The loop over a list. -/
def loop (s : σ) (l : List α) : m σ := p.finish <$> l.foldlM p.step (p.start s, none)

/-- One run. -/
def group (s : σ) (g : List α) : m σ :=
  (fun t => p.finish (t, g.getLast?)) <$> g.foldlM p.body (p.start s)

variable [LawfulMonad m]

/-- Along a run the loop does its elements one after another. -/
theorem foldlM_step_of_isChain {g : List α} {a : α} {t : τ}
    (hg : (a :: g).IsChain fun x y => p.related x y) :
    g.foldlM p.step (t, some a) =
      (fun t' => (t', (a :: g).getLast?)) <$> g.foldlM p.body t := by
  induction g generalizing a t with
  | nil => simp
  | cons b g ih =>
      obtain ⟨hab, hg'⟩ := List.isChain_cons_cons.mp hg
      have hstep : p.step (t, some a) b = (fun t' => (t', some b)) <$> p.body t b := by
        simp only [step, hab, if_true]
      rw [List.foldlM_cons, hstep, List.foldlM_cons, map_bind, bind_map_left]
      refine bind_congr fun t' => ?_
      rw [ih hg', List.getLast?_cons_cons]

/-- Where the next run starts afresh, the loop goes on run by run. -/
theorem foldlM_step_flatten {gs : List (List α)} {x : τ × Option α} (hne : [] ∉ gs)
    (hchain : ∀ g ∈ gs, g.IsChain fun x y => p.related x y)
    (hgap : gs.IsChain fun x y => ∃ hx hy, p.related (x.getLast hx) (y.head hy) = false)
    (hfirst : ∀ g ∈ gs.head?, ∀ a ∈ g.head?,
      p.step x a = (fun t => (t, some a)) <$> p.body (p.start (p.finish x)) a) :
    p.finish <$> gs.flatten.foldlM p.step x = gs.foldlM p.group (p.finish x) := by
  induction gs generalizing x with
  | nil => simp
  | cons g gs ih =>
      obtain ⟨hhead, hgap'⟩ := List.isChain_cons.mp hgap
      cases g with
      | nil => exact absurd (by simp) hne
      | cons a g =>
          have hstep := hfirst _ rfl a rfl
          have hlast : (a :: g).getLast? = some ((a :: g).getLast (by simp)) :=
            List.getLast?_eq_some_getLast (by simp)
          -- the rest of the loop, once the run has been done
          have hrest : ∀ t, p.finish <$> gs.flatten.foldlM p.step (t, (a :: g).getLast?) =
              gs.foldlM p.group (p.finish (t, (a :: g).getLast?)) := by
            intro t
            refine ih (fun h => hne (by simp [h])) (fun g' hg' => hchain g' (by simp [hg'])) hgap'
              ?_
            intro g' hg' a' ha'
            obtain ⟨_, hg'', hrel⟩ := hhead g' hg'
            rw [List.head?_eq_some_head hg'', Option.mem_some_iff] at ha'
            rw [ha'] at hrel
            simp only [hlast, step, hrel, Bool.false_eq_true, if_false, finish]
          rw [List.flatten_cons, List.foldlM_append, List.foldlM_cons, hstep, bind_map_left,
            List.foldlM_cons, group, List.foldlM_cons, map_bind, map_bind, bind_assoc, bind_assoc]
          refine bind_congr fun t₁ => ?_
          rw [p.foldlM_step_of_isChain (hchain _ (by simp)), bind_map_left, bind_map_left]
          exact bind_congr hrest

/-- **The loop goes run by run.** -/
theorem loop_eq_groups (s : σ) (l : List α) :
    p.loop s l = (l.splitBy p.related).foldlM p.group s := by
  obtain ⟨hl, hne, hchain, hgap⟩ := List.splitBy_eq_iff.mp (Eq.refl (l.splitBy p.related))
  rw [loop]
  conv_lhs => rw [hl]
  have hstart : p.finish (p.start s, none) = s := p.stop_start s
  have hgroups : p.finish <$> (l.splitBy p.related).flatten.foldlM p.step (p.start s, none) =
      (l.splitBy p.related).foldlM p.group (p.finish (p.start s, none)) :=
    p.foldlM_step_flatten hne hchain hgap fun _ _ a _ => by rw [hstart]; rfl
  rw [hgroups, hstart]

end RunLoop

/-! ## Keys with one run each -/

section Contiguous

variable {α : Type u} {κ : Type v} [DecidableEq κ] (key : α → κ)

/-- The runs of elements with the same key. -/
def keyRuns (l : List α) : List (List α) := l.splitBy fun a b => decide (key a = key b)

/-- Every key has one run: the elements of a key are next to each other. -/
def Contiguous (l : List α) : Prop := ((keyRuns key l).map fun g => g.head?.map key).Nodup

instance (l : List α) : Decidable (Contiguous key l) :=
  inferInstanceAs (Decidable (List.Nodup _))

variable {key}

/-- The elements of a run have the key of its first one. -/
theorem key_eq_of_mem_run {l g : List α} (hg : g ∈ keyRuns key l) {a b : α} (ha : a ∈ g.head?)
    (hb : b ∈ g) : key b = key a := by
  have hchain : g.IsChain fun x y => key x = key y := by
    simpa using List.isChain_of_mem_splitBy hg
  -- equality is transitive, so neighbours with the same key make a run with one key
  have : Trans (fun x y => key x = key y) (fun x y => key x = key y) fun x y => key x = key y :=
    ⟨fun h h' => h.trans h'⟩
  cases g with
  | nil => cases hb
  | cons a' g =>
      obtain rfl : a' = a := Option.some.inj ha
      rcases List.mem_cons.mp hb with rfl | hb'
      · rfl
      · exact ((List.pairwise_cons.mp hchain.pairwise).1 b hb').symm

/-- A run is not empty. -/
theorem exists_head_of_mem_run {l g : List α} (hg : g ∈ keyRuns key l) : ∃ a, g.head? = some a := by
  cases g with
  | nil => exact absurd rfl (List.ne_nil_of_mem_splitBy hg)
  | cons a g => exact ⟨a, rfl⟩

variable (key) in
/-- Neighbouring runs have different keys. -/
theorem isChain_keyRuns (l : List α) :
    (keyRuns key l).IsChain fun g g' => ∀ a ∈ g, ∀ b ∈ g', key a ≠ key b := by
  have hgap : (keyRuns key l).IsChain fun g g' =>
      ∃ hg hg', decide (key (g.getLast hg) = key (g'.head hg')) = false :=
    List.isChain_getLast_head_splitBy (fun a b => decide (key a = key b)) l
  refine hgap.imp_of_mem_imp fun g g' hg hg' h a ha b hb hab => ?_
  obtain ⟨hne, hne', hdiff⟩ := h
  -- both runs have one key each, so their keys differ as their neighbours' do
  have hfirst : g.head hne ∈ g.head? := List.head?_eq_some_head hne
  have hfirst' : g'.head hne' ∈ g'.head? := List.head?_eq_some_head hne'
  have hlast := key_eq_of_mem_run hg hfirst (List.getLast_mem hne)
  rw [key_eq_of_mem_run hg hfirst ha, key_eq_of_mem_run hg' hfirst' hb, ← hlast] at hab
  exact of_decide_eq_false hdiff hab

variable (key) in
/-- The runs of a list, joined, are the list. -/
theorem flatten_keyRuns (l : List α) : (keyRuns key l).flatten = l := List.flatten_splitBy _ l

variable (key) in
/-- The runs whose key has a property, joined, are the elements whose key has it. -/
theorem flatten_filter_keyRuns (p : κ → Bool) (l : List α) :
    ((keyRuns key l).filter fun g => (g.head?.map fun a => p (key a)).getD false).flatten =
      l.filter fun a => p (key a) := by
  conv_rhs => rw [← flatten_keyRuns key l]
  rw [List.filter_flatten]
  have hall : ∀ gs : List (List α), (∀ g ∈ gs, g ∈ keyRuns key l) →
      (gs.filter fun g => (g.head?.map fun a => p (key a)).getD false).flatten =
        (gs.map (List.filter fun a => p (key a))).flatten := by
    intro gs
    induction gs with
    | nil => exact fun _ => rfl
    | cons g gs ih =>
        intro hgs
        have hrest := ih fun g' hg' => hgs g' (by simp [hg'])
        have hg : g ∈ keyRuns key l := hgs g (by simp)
        obtain ⟨a, ha⟩ := exists_head_of_mem_run hg
        -- a run is kept whole or not at all
        have hsame : ∀ b ∈ g, p (key b) = p (key a) := fun b hb => by
          rw [key_eq_of_mem_run hg ha hb]
        rw [List.filter_cons, List.map_cons, List.flatten_cons, ha, Option.map_some,
          Option.getD_some, ← hrest]
        cases hp : p (key a) with
        | true =>
            rw [if_pos rfl, List.flatten_cons,
              List.filter_eq_self.mpr fun b hb => (hsame b hb).trans hp]
        | false =>
            have hnone : (g.filter fun b => p (key b)) = [] := by
              rw [List.filter_eq_nil_iff]
              intro b hb
              rw [hsame b hb, hp]
              exact Bool.false_ne_true
            rw [if_neg Bool.false_ne_true, hnone, List.nil_append]
  exact hall _ fun _ hg => hg

/-- A key occurs nowhere, or it has one run and occurs in no other, if every key has one run. -/
theorem Contiguous.split {l : List α} (h : Contiguous key l) (k : κ) :
    (∀ a ∈ l, key a ≠ k) ∨ ∃ gs₁ g gs₂, keyRuns key l = gs₁ ++ g :: gs₂ ∧
      (∀ a ∈ g, key a = k) ∧ ∀ g' ∈ gs₁ ++ gs₂, ∀ a ∈ g', key a ≠ k := by
  by_cases hk : ∃ g ∈ keyRuns key l, g.head?.map key = some k
  · obtain ⟨g, hg, hgk⟩ := hk
    obtain ⟨gs₁, gs₂, hgs⟩ := List.append_of_mem hg
    obtain ⟨b, hb⟩ := exists_head_of_mem_run hg
    have hbk : key b = k := by simpa [hb] using hgk
    refine Or.inr ⟨gs₁, g, gs₂, hgs, fun a ha => (key_eq_of_mem_run hg hb ha).trans hbk, ?_⟩
    -- another run with the key would be a second one
    intro g' hg' a ha hak
    have hmem : g' ∈ keyRuns key l := by
      rw [hgs]
      exact (List.mem_append.mp hg').elim (fun h => by simp [h]) fun h => by simp [h]
    obtain ⟨c, hc⟩ := exists_head_of_mem_run hmem
    have hsame : g'.head?.map key = g.head?.map key := by
      rw [hgk, hc, Option.map_some, ← key_eq_of_mem_run hmem hc ha, hak]
    have hnodup : ((gs₁ ++ g :: gs₂).map fun g => g.head?.map key).Nodup := by
      rw [← hgs]
      exact h
    rw [List.map_append, List.map_cons, List.nodup_middle, List.nodup_cons, ← List.map_append]
      at hnodup
    refine hnodup.1 ?_
    rw [← hsame]
    exact List.mem_map_of_mem hg'
  · refine Or.inl fun a ha hak => hk ?_
    rw [← flatten_keyRuns key l] at ha
    obtain ⟨g, hg, hag⟩ := List.mem_flatten.mp ha
    obtain ⟨b, hb⟩ := exists_head_of_mem_run hg
    exact ⟨g, hg, by rw [hb, Option.map_some, ← key_eq_of_mem_run hg hb hag, hak]⟩

/-- The elements of a key are next to each other: none comes after the first ones. -/
def Together (key : α → κ) (k : κ) (l : List α) : Prop :=
  ∀ a ∈ (l.dropWhile fun a => key a ≠ k).dropWhile fun a => key a = k, key a ≠ k

instance (k : κ) (l : List α) : Decidable (Together key k l) :=
  inferInstanceAs (Decidable (∀ _ ∈ _, _))

/-- Elements of other keys, those of a key, and elements of other keys again have the key's
together. -/
theorem together_append {k : κ} {before own rest : List α} (hbefore : ∀ a ∈ before, key a ≠ k)
    (hown : ∀ a ∈ own, key a = k) (hrest : ∀ a ∈ rest, key a ≠ k) :
    Together key k (before ++ (own ++ rest)) := by
  intro a ha
  rw [List.dropWhile_append_of_pos (by simpa using hbefore)] at ha
  cases own with
  | nil => exact hrest a ((List.dropWhile_suffix _).subset ((List.dropWhile_suffix _).subset ha))
  | cons b own =>
      have hfirst : key b = k := hown b (by simp)
      rw [List.cons_append, List.dropWhile_cons_of_neg (by simp [hfirst]), ← List.cons_append,
        List.dropWhile_append_of_pos (by simpa using hown)] at ha
      exact hrest a ((List.dropWhile_suffix _).subset ha)

/-- The elements of a key are together if every key has one run. -/
theorem Contiguous.together {l : List α} (h : Contiguous key l) (k : κ) : Together key k l := by
  rcases h.split k with hnone | ⟨gs₁, g, gs₂, hgs, hown, hother⟩
  · rw [← List.append_nil l, ← List.nil_append []]
    exact together_append hnone (by simp) (by simp)
  · have hout : ∀ gs : List (List α), (∀ g ∈ gs, g ∈ gs₁ ++ gs₂) →
        ∀ a ∈ gs.flatten, key a ≠ k := by
      intro gs hsub a ha
      obtain ⟨g', hg', ha'⟩ := List.mem_flatten.mp ha
      exact hother g' (hsub g' hg') a ha'
    rw [← flatten_keyRuns key l, hgs, List.flatten_append, List.flatten_cons]
    exact together_append (hout gs₁ (by simp +contextual)) hown (hout gs₂ (by simp +contextual))

/-- **The run of a key.** Elements that are together stand between others. -/
theorem Together.split {k : κ} {l : List α} (h : Together key k l) :
    ∃ rest, l = (l.takeWhile fun a => key a ≠ k) ++ ((l.filter fun a => key a = k) ++ rest) ∧
      ∀ a ∈ rest, key a ≠ k := by
  refine ⟨(l.dropWhile fun a => key a ≠ k).dropWhile fun a => key a = k, ?_, h⟩
  -- only the elements between the first and the last part have the key
  have hbefore : (l.takeWhile fun a => key a ≠ k).filter (fun a => key a = k) = [] := by
    rw [List.filter_eq_nil_iff]
    intro a ha
    simpa using List.mem_takeWhile_imp ha
  have hrest : ((l.dropWhile fun a => key a ≠ k).dropWhile fun a => key a = k).filter
      (fun a => key a = k) = [] := by
    rw [List.filter_eq_nil_iff]
    intro a ha
    simpa using h a ha
  have hown : ((l.dropWhile fun a => key a ≠ k).takeWhile fun a => key a = k).filter
      (fun a => key a = k) = (l.dropWhile fun a => key a ≠ k).takeWhile fun a => key a = k := by
    rw [List.filter_eq_self]
    intro a ha
    simpa using List.mem_takeWhile_imp ha
  have hfilter : l.filter (fun a => key a = k) =
      (l.dropWhile fun a => key a ≠ k).takeWhile fun a => key a = k := by
    conv_lhs => rw [← List.takeWhile_append_dropWhile (p := fun a => decide (key a ≠ k)) (l := l),
      ← List.takeWhile_append_dropWhile (p := fun a => decide (key a = k))
        (l := l.dropWhile fun a => key a ≠ k)]
    rw [List.filter_append, List.filter_append, hbefore, hrest, hown, List.nil_append,
      List.append_nil]
  rw [hfilter, List.takeWhile_append_dropWhile, List.takeWhile_append_dropWhile]

/-- Relations that agree on neighbours split the rest of a list in the same way. -/
theorem splitByLoop_congr {r r' : α → α → Bool} {l : List α} {a : α}
    (h : (a :: l).IsChain fun a b => r a b = r' a b) (g : List α) (gs : List (List α)) :
    List.splitBy.loop r l a g gs = List.splitBy.loop r' l a g gs := by
  induction l generalizing a g gs with
  | nil => rfl
  | cons b l ih =>
      rw [List.isChain_cons_cons] at h
      rw [List.splitBy.loop, List.splitBy.loop, h.1]
      cases r' a b with
      | true => exact ih h.2 _ _
      | false => exact ih h.2 _ _

/-- Relations that agree on the neighbours of a list have the same runs. -/
theorem splitBy_congr {r r' : α → α → Bool} {l : List α}
    (h : l.IsChain fun a b => r a b = r' a b) : l.splitBy r = l.splitBy r' := by
  cases l with
  | nil => rfl
  | cons a l => exact splitByLoop_congr h [] []

/-- The runs of a list that is mapped are the mapped runs. -/
theorem splitBy_map {β : Type*} (f : β → α) (r : α → α → Bool) (l : List β) :
    (l.map f).splitBy r = (l.splitBy fun a b => r (f a) (f b)).map (List.map f) := by
  obtain ⟨hl, hne, hchain, hgap⟩ :=
    List.splitBy_eq_iff.mp (Eq.refl (l.splitBy fun a b => r (f a) (f b)))
  refine List.splitBy_eq_iff.mpr ⟨?_, ?_, ?_, ?_⟩
  · rw [← List.map_flatten, ← hl]
  · simp
  · intro g hg
    obtain ⟨g', hg', rfl⟩ := List.mem_map.mp hg
    rw [List.isChain_map]
    exact hchain g' hg'
  · rw [List.isChain_map]
    refine hgap.imp fun g g' h => ?_
    obtain ⟨hg, hg', hr⟩ := h
    refine ⟨by simpa using hg, by simpa using hg', ?_⟩
    rw [List.getLast_map, List.head_map]
    exact hr

end Contiguous

end RoqBitmex
