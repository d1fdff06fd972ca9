import RoqBitmex.Gateway.RequestLedger

/-! # The balance of order requests

The requests of an account are spread over its connections. `balanced_of_run` says how evenly: while
two connections are ready, whatever the others do, the numbers of calls they have been given since
differ by one at most. -/

namespace RoqBitmex

universe u

namespace OrderRequests

open Controller (OrderEntryRR)
open RoundRobin (Turn lag)

variable {M : Type u} {env : Environment M} {credentials : String → Option (String × String)}
  {connections : ℕ} {account : String} {i j : ℕ}

/-- Two connections of an account are ready. -/
def bothReady (s : State M) (account : String) (i j : ℕ) : Bool :=
  (s.accounts account).any fun value => value.orderEntry.ready i && value.orderEntry.ready j

/-- How many calls two connections have been given. -/
structure Tally where
  first : ℕ := 0
  second : ℕ := 0
  deriving DecidableEq, Repr

/-- A call is over a connection. -/
def Pending.over (p : Pending) (account : String) (i : ℕ) : ℕ :=
  if p.account = account ∧ p.index = i then 1 else 0

/-- How many calls two connections of an account have been given since both have been ready. -/
def tally (account : String) (i j : ℕ) : Monitor (State M) Input Output Tally where
  input s a _ := if bothReady s account i j then a else {}
  output a
    | .send _ p _ _ => ⟨a.first + p.over account i, a.second + p.over account j⟩
    | _ => a

/-- The numbers differ by one at most. -/
def Tally.Balanced (a : Tally) : Prop := a.first ≤ a.second + 1 ∧ a.second ≤ a.first + 1

/-! ## Steps -/

/-- The number of calls differs as the connections' turns do. -/
def Tally.Lags (a : Tally) (rr : OrderEntryRR) (i j : ℕ) : Prop :=
  ∃ c ≤ 1, a.first + c = a.second + lag rr.orderEntry.length rr.index i j

/-- Numbers that lag as the turns do are balanced. -/
theorem Tally.Lags.balanced {a : Tally} {rr : OrderEntryRR} (h : a.Lags rr i j) : a.Balanced := by
  obtain ⟨c, hc, heq⟩ := h
  have hlag : lag rr.orderEntry.length rr.index i j ≤ 1 := RoundRobin.lag_le_one
  constructor <;> omega

/-- To begin with, the numbers lag as the turns do. -/
theorem lags_zero (rr : OrderEntryRR) : Tally.Lags {} rr i j :=
  ⟨_, RoundRobin.lag_le_one, rfl⟩

/-- The numbers are balanced, and they lag as the turns do while both connections are ready. -/
structure Even (account : String) (i j : ℕ) (s : State M) (a : Tally) : Prop where
  index : ∀ value, s.accounts account = some value → 0 < value.orderEntry.orderEntry.length →
    value.orderEntry.index < value.orderEntry.orderEntry.length
  balanced : a.Balanced
  lags : ∀ value, s.accounts account = some value → value.orderEntry.ready i = true →
    value.orderEntry.ready j = true → a.Lags value.orderEntry i j

variable {s : State M} {a : Tally}

/-- What is counted when an input is met. -/
theorem Even.input (h : Even account i j s a) (input : Input) :
    ((tally account i j).input s a input).Balanced ∧
      ∀ value, s.accounts account = some value →
        ((tally account i j).input s a input).Lags value.orderEntry i j := by
  show (if bothReady s account i j then a else {}).Balanced ∧ _
  unfold tally bothReady
  dsimp only
  cases hvalue : s.accounts account with
  | none => exact ⟨⟨Nat.zero_le _, Nat.zero_le _⟩, by simp⟩
  | some value =>
      rw [Option.any_some]
      split
      · next hboth =>
          -- what is known of the numbers holds while both are ready
          rw [Bool.and_eq_true] at hboth
          refine ⟨h.balanced, ?_⟩
          rintro value' ⟨⟩
          exact h.lags value hvalue hboth.1 hboth.2
      · refine ⟨⟨Nat.zero_le _, Nat.zero_le _⟩, ?_⟩
        rintro value' ⟨⟩
        exact lags_zero _

/-- A step that sends nothing and leaves the turns of the account as they are. -/
theorem keeps_quiet (h : Even account i j s a) (input : Input) {r : State M × List Output}
    (hquiet : ∀ o ∈ r.2, ∀ b, (tally (M := M) account i j).output b o = b)
    (hturns : ∀ value', r.1.accounts account = some value' →
      ∃ value, s.accounts account = some value ∧
        value'.orderEntry.index = value.orderEntry.index ∧
        value'.orderEntry.orderEntry.length = value.orderEntry.orderEntry.length) :
    (tally account i j).Keeps (fun _ _ => True) (Even account i j)
      ((tally account i j).input s a input) r := by
  obtain ⟨hbalanced, hlags⟩ := h.input input
  refine ⟨Monitor.holds_of_forall (fun _ _ _ => trivial) _, ?_⟩
  rw [Monitor.outputs_of_forall hquiet]
  refine ⟨?_, hbalanced, ?_⟩
  · intro value' hvalue'
    obtain ⟨value, hvalue, hindex, hlength⟩ := hturns value' hvalue'
    rw [hindex, hlength]
    exact h.index value hvalue
  · intro value' hvalue' _ _
    obtain ⟨value, hvalue, hindex, hlength⟩ := hturns value' hvalue'
    unfold Tally.Lags
    rw [hindex, hlength]
    exact hlags value hvalue

/-- An account goes on with its turns as they are. -/
theorem turns_update {s : State M} {account account' : String} {value : Account M}
    (hvalue : s.accounts account' = some value) (value' : Account M)
    (hindex : value'.orderEntry.index = value.orderEntry.index)
    (hlength : value'.orderEntry.orderEntry.length = value.orderEntry.orderEntry.length) :
    ∀ w', Function.update s.accounts account' (some value') account = some w' →
      ∃ w, s.accounts account = some w ∧ w'.orderEntry.index = w.orderEntry.index ∧
        w'.orderEntry.orderEntry.length = w.orderEntry.orderEntry.length := by
  intro w' hw'
  rcases eq_some_of_update hw' with ⟨rfl, rfl⟩ | ⟨-, hw'⟩
  · exact ⟨value, hvalue, hindex, hlength⟩
  · exact ⟨w', hw', rfl, rfl⟩

/-- A step that leaves the accounts alone leaves the turns of each as they are. -/
theorem turns_refl (s : State M) (account : String) :
    ∀ value', s.accounts account = some value' →
      ∃ value, s.accounts account = some value ∧
        value'.orderEntry.index = value.orderEntry.index ∧
        value'.orderEntry.orderEntry.length = value.orderEntry.orderEntry.length :=
  fun value' h => ⟨value', h, rfl, rfl⟩

/-- An assertion is no call. -/
theorem quiet_assertions (r : OrderRequest) :
    ∀ o ∈ assertions r, ∀ b, (tally (M := M) account i j).output b o = b := by
  intro o ho b
  obtain ⟨site, rfl⟩ := eq_assertion_of_mem ho
  rfl

/-- A request that is refused leads to no call. -/
theorem quiet_thrown (r : OrderRequest) (e : Controller.Exception) :
    ∀ o ∈ assertions r ++ [.thrown e], ∀ b, (tally (M := M) account i j).output b o = b :=
  List.forall_mem_append.mpr ⟨quiet_assertions r, List.forall_mem_singleton.mpr fun _ => rfl⟩

/-- What a request that is sent is counted as. -/
theorem outputs_sent (value : Account M) (index : ℕ) (now : ℤ) (r : OrderRequest) (b : Tally) :
    (tally (M := M) account i j).outputs b (assertions r ++ (sent env s value index now r).2) =
      ⟨b.first + Pending.over ⟨r.account, index, r.flow, r.callback⟩ account i,
        b.second + Pending.over ⟨r.account, index, r.flow, r.callback⟩ account j⟩ := by
  rw [Monitor.outputs_append, Monitor.outputs_of_forall (quiet_assertions r)]
  cases r <;> rfl

/-- A call of another account is over none of the account's connections. -/
theorem over_of_ne {p : Pending} (h : p.account ≠ account) (i : ℕ) : p.over account i = 0 :=
  if_neg fun hboth => h hboth.1

/-- One call counts once at most. -/
theorem over_le_one (p : Pending) (account : String) (i : ℕ) : p.over account i ≤ 1 := by
  unfold Pending.over
  split <;> omega

/-- A request over the account that is counted takes its turn. -/
theorem even_turn (h : Even account i j s a) (hne : i ≠ j) {value : Account M} {index : ℕ}
    (hvalue : s.accounts account = some value) (hnext : value.orderEntry.getNext.2 = .ok index)
    (hready : value.orderEntry.ready index = true) (crypto : Crypto M) (pending : Tickets Pending)
    (input : Input) {p : Pending} (haccount : p.account = account) (hindex : p.index = index) :
    let b := (tally account i j).input s a input
    Even account i j
      ⟨Function.update s.accounts account (some ⟨crypto, value.orderEntry.getNext.1⟩), pending⟩
      ⟨b.first + p.over account i, b.second + p.over account j⟩ := by
  intro b
  have hlags : ∀ value, s.accounts account = some value → b.Lags value.orderEntry i j :=
    (h.input input).2
  have hsame := value.orderEntry.getNext_orderEntry
  have hlt : index < value.orderEntry.orderEntry.length := lt_of_ready hready
  have hpos : 0 < value.orderEntry.orderEntry.length := Nat.zero_lt_of_lt hlt
  have hsafe := @OrderEntryRR.safe_getNext value.orderEntry _ rfl (h.index value hvalue)
  -- a call is over the connection whose turn it is
  have hover : ∀ k, p.over account k =
      Turn.selects ⟨value.orderEntry.ready, value.orderEntry.getNext.2.toOption⟩ k := by
    intro k
    unfold Pending.over Turn.selects
    rw [haccount, hindex, hnext]
    simp [Except.toOption]
  -- while both are ready, the difference is that of the turns
  have hturn : value.orderEntry.ready i = true → value.orderEntry.ready j = true →
      Tally.Lags ⟨b.first + p.over account i, b.second + p.over account j⟩
        value.orderEntry.getNext.1 i j := by
    intro hi hj
    obtain ⟨c, hc, heq⟩ := hlags value hvalue
    have hnearest := @OrderEntryRR.getNext_nearest value.orderEntry _ rfl (h.index value hvalue)
    have htake := hnearest.selects_add_lag (h.index value hvalue hpos) (lt_of_ready hi)
      (lt_of_ready hj) hne hi hj
    rw [← hover, ← hover, ← value.orderEntry.getNext_index] at htake
    refine ⟨c, hc, ?_⟩
    rw [hsame]
    dsimp only
    omega
  refine ⟨?_, ?_, ?_⟩
  · intro value' hvalue'
    simp only [Function.update_self, Option.some.injEq] at hvalue'
    subst hvalue'
    rw [hsame]
    exact fun hpos => (hsafe.index_lt hpos).2
  · by_cases hboth : value.orderEntry.ready i = true ∧ value.orderEntry.ready j = true
    · exact (hturn hboth.1 hboth.2).balanced
    · -- the numbers begin at zero
      have hzero : b = {} := by
        show (if bothReady s account i j then a else {}) = {}
        unfold bothReady
        rw [hvalue, Option.any_some, if_neg]
        rw [Bool.and_eq_true]
        exact hboth
      have hone := over_le_one p account i
      have hone' := over_le_one p account j
      rw [hzero]
      constructor <;> dsimp only <;> omega
  · intro value' hvalue' hi hj
    simp only [Function.update_self, Option.some.injEq] at hvalue'
    subst hvalue'
    unfold OrderEntryRR.ready at hi hj
    rw [hsame] at hi hj
    exact hturn hi hj

/-- A request keeps the balance: the next connection takes it, or it is refused. -/
theorem even_request (h : Even account i j s a) (hne : i ≠ j) (now : ℤ) (r : OrderRequest) :
    (tally account i j).Keeps (fun _ _ => True) (Even account i j)
      ((tally account i j).input s a (.request now r)) (request env s now r) := by
  rcases request_cases env s now r with ⟨-, hstep⟩ | ⟨_, -, -, hstep⟩ |
    ⟨value, index, hvalue, hnext, hready, hstep⟩
  · rw [hstep]
    exact keeps_quiet h _ (quiet_thrown r _) (turns_refl s account)
  · rw [hstep]
    exact keeps_quiet h _ (quiet_thrown r _) (turns_refl s account)
  · rw [hstep]
    refine ⟨Monitor.holds_of_forall (fun _ _ _ => trivial) _, ?_⟩
    rw [outputs_sent]
    by_cases haccount : r.account = account
    · subst haccount
      exact even_turn h hne hvalue hnext hready _ _ _ rfl rfl
    · -- another account takes its turn
      obtain ⟨hbalanced, hlags⟩ := h.input (.request now r)
      have hother : (sent env s value index now r).1.accounts account = s.accounts account :=
        Function.update_of_ne (Ne.symm haccount) _ _
      rw [over_of_ne haccount, over_of_ne haccount]
      refine ⟨?_, hbalanced, ?_⟩
      · rw [hother]
        exact h.index
      · rw [hother]
        exact fun value' hvalue' _ _ => hlags value' hvalue'

/-- **Every input keeps the balance.** -/
theorem keeps_even (h : Even account i j s a) (hne : i ≠ j) (input : Input) :
    (tally account i j).Keeps (fun _ _ => True) (Even account i j)
      ((tally account i j).input s a input) (step env s input) := by
  have hstatus : ∀ input account' index status,
      (tally account i j).Keeps (fun _ _ => True) (Even account i j)
        ((tally account i j).input s a input) (setStatus env s account' index status) := by
    intro input account' index status
    unfold setStatus
    split
    · exact keeps_quiet h input (by simp) (turns_refl s account)
    · next value hvalue =>
        split
        · exact keeps_quiet h input (List.forall_mem_singleton.mpr fun _ => rfl)
            (turns_update hvalue _ rfl List.length_set)
        · exact keeps_quiet h input (by simp) (turns_refl s account)
  cases input with
  | connected account' index => exact hstatus _ account' index .ready
  | disconnected account' index => exact hstatus _ account' index .disconnected
  | upgrade account' now =>
      show (tally account i j).Keeps _ _ _ (upgrade env s account' now)
      unfold upgrade
      split
      · exact keeps_quiet h _ (by simp) (turns_refl s account)
      · next value hvalue =>
          exact keeps_quiet h _ (List.forall_mem_singleton.mpr fun _ => rfl)
            (turns_update hvalue _ rfl rfl)
  | request now r => exact even_request h hne now r
  | answer ticket response =>
      show (tally account i j).Keeps _ _ _ (answer env s ticket response)
      unfold answer
      split
      · exact keeps_quiet h _ (by simp) (turns_refl s account)
      · exact keeps_quiet h _ (List.forall_mem_map.mpr fun _ _ _ => rfl) (turns_refl s account)

/-- Before the first request the numbers are even. -/
theorem even_init : Even account i j (init env credentials connections) {} where
  index value hvalue hpos := by
    obtain ⟨c, -, rfl⟩ := Option.map_eq_some_iff.mp hvalue
    exact hpos
  balanced := ⟨Nat.zero_le _, Nat.zero_le _⟩
  lags value _ _ _ := lags_zero value.orderEntry

/-! ## Runs -/

/-- **Requests are balanced**, in every run: the numbers of calls that two connections of an account
have been given since both have been ready differ by one at most. -/
theorem balanced_of_run (env : Environment M) (credentials : String → Option (String × String))
    (connections : ℕ) (account : String) (hne : i ≠ j) (is : List Input) :
    (orderRequests env).Sat (tally account i j) (fun _ _ _ => True) (fun _ a => a.Balanced)
      (init env credentials connections) {} is := by
  have hall : (orderRequests env).Along (tally account i j) (fun _ _ _ => True)
      (init env credentials connections) {} is :=
    Machine.along_of_forall (fun _ _ _ => trivial) _ _ is
  refine Machine.sat_of_along (Even account i j) (fun s a input h _ => ?_) even_init hall
  exact Machine.stepSat_of_keeps (fun _ _ h => h.balanced) (keeps_even h hne input)

/-- Three requests while both connections are ready, one while the second is down, and two after it
is back. -/
def takesTurns : List Input :=
  [.connected "A1" 0, .connected "A1" 1,
    .request 1518064231000000000 (.cancelAllOrders "A1" ⟨0, "", "", .undefined, 0⟩ "r1"),
    .request 1518064232000000000 (.cancelAllOrders "A1" ⟨0, "", "", .undefined, 0⟩ "r2"),
    .answer 1 (OrderEntry.success "[]"),
    .request 1518064233000000000 (.cancelAllOrders "A1" ⟨0, "", "", .undefined, 0⟩ "r3"),
    .disconnected "A1" 1,
    .request 1518064234000000000 (.cancelAllOrders "A1" ⟨0, "", "", .undefined, 0⟩ "r4"),
    .connected "A1" 1,
    .request 1518064235000000000 (.cancelAllOrders "A1" ⟨0, "", "", .undefined, 0⟩ "r5"),
    .request 1518064236000000000 (.cancelAllOrders "A1" ⟨0, "", "", .undefined, 0⟩ "r6"),
    .disconnected "A1" 0]

/-- The two connections take turns. -/
theorem balanced_of_run_takesTurns :
    (orderRequests oneAccount).Sat (tally "A1" 0 1) (fun _ _ _ => True) (fun _ a => a.Balanced)
      (init oneAccount oneAccountCredentials 2) {} takesTurns :=
  balanced_of_run oneAccount oneAccountCredentials 2 "A1" (by decide) takesTurns

/-- The numbers of calls before each input of the run. -/
example :
    (orderRequests oneAccount).observe (tally "A1" 0 1) (fun _ a _ => a)
        (init oneAccount oneAccountCredentials 2) {} takesTurns =
      [⟨0, 0⟩, ⟨0, 0⟩, ⟨0, 0⟩, ⟨1, 0⟩, ⟨1, 1⟩, ⟨1, 1⟩, ⟨2, 1⟩, ⟨2, 1⟩, ⟨1, 0⟩, ⟨0, 0⟩, ⟨0, 1⟩,
        ⟨1, 1⟩] := by
  decide +kernel

end OrderRequests

end RoqBitmex
