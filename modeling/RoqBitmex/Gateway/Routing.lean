import RoqBitmex.Gateway.Api
import RoqBitmex.Library.Machine
import RoqBitmex.Library.RoundRobin

/-! # Routing of order requests

The controller keeps the order-entry connections of each account and hands a request to the next
one that is ready. `OrderEntryRR` is a machine: between its calls the connections change their
status. Its calls are turns of a round robin (`follows_calls`). -/

namespace RoqBitmex

namespace Controller

/-- The exceptions of the routing. -/
inductive Exception where
  /-- `server::oms::NotReady`. -/
  | notReady (what : String)
  /-- The `RuntimeError` for an account without connections. -/
  | unknownAccount (account : String)
  deriving DecidableEq, Repr

/-- `Controller::OrderEntryRR`: the connections of an account, each by its `connection_status_`, and
where the next search starts. -/
structure OrderEntryRR where
  orderEntry : List ConnectionStatus
  index : Nat := 0
  deriving DecidableEq, Repr

namespace OrderEntryRR

/-- `OrderEntry::ready` of a connection. -/
def ready (self : OrderEntryRR) (i : Nat) : Bool := self.orderEntry[i]? == some .ready

/-- `Controller::OrderEntryRR::get_next`: the position of the connection returned. -/
def getNext (self : OrderEntryRR) : OrderEntryRR × Except Exception Nat :=
  let length := self.orderEntry.length
  -- the loop over `offset` continues until a connection is ready
  match (List.range length).find? fun offset => self.ready ((self.index + offset) % length) with
  | some offset =>
      let index := (self.index + offset) % length
      ({ self with index := (index + 1) % length }, .ok index)
  | none => (self, .error (.notReady "get_next"))

/-- What happens to the connections of an account. -/
inductive Input where
  /-- A connection changes its status. -/
  | status (i : Nat) (value : ConnectionStatus)
  | getNext
  deriving DecidableEq, Repr

/-- A call of `get_next`: the state before and after it, and what it returns or throws. -/
structure Call where
  before : OrderEntryRR
  after : OrderEntryRR
  result : Except Exception Nat
  deriving DecidableEq, Repr

/-- One input. -/
def step (self : OrderEntryRR) : Input → OrderEntryRR × List Call
  | .status i value => ({ self with orderEntry := self.orderEntry.set i value }, [])
  | .getNext => (self.getNext.1, [⟨self, self.getNext.1, self.getNext.2⟩])

/-- A call is safe: it returns a ready connection, throws exactly when there is none and then leaves
the state alone, and the search starts at a connection if there is one. -/
structure Call.Safe (n : Nat) (call : Call) : Prop where
  ready_of_ok : ∀ i, call.result = .ok i → i < n ∧ call.before.ready i
  throws_iff :
    call.result = .error (.notReady "get_next") ↔ ∀ i < n, call.before.ready i = false
  returns_or_throws : call.result = .error (.notReady "get_next") ∨ ∃ i, call.result = .ok i
  index_of_throws :
    call.result = .error (.notReady "get_next") → call.after.index = call.before.index
  index_lt : 0 < n → call.before.index < n ∧ call.after.index < n

end OrderEntryRR

end Controller

/-- The connections of an account as a machine. -/
def orderEntryRR :
    Machine Controller.OrderEntryRR Controller.OrderEntryRR.Input Controller.OrderEntryRR.Call where
  step := Controller.OrderEntryRR.step
  halts _ := false

namespace Controller

namespace OrderEntryRR

open RoundRobin (Turn)

/-- A call as a turn of a round robin. -/
def Call.turn (call : Call) : Turn where
  ready := call.before.ready
  selected := call.result.toOption

/-! ## One call -/

/-- What a call selects. -/
theorem getNext_selected (self : OrderEntryRR) :
    self.getNext.2.toOption =
      ((List.range self.orderEntry.length).find? fun offset =>
        self.ready ((self.index + offset) % self.orderEntry.length)).map
          fun offset => (self.index + offset) % self.orderEntry.length := by
  unfold getNext
  dsimp only
  split <;> next h => rw [h]; rfl

/-- A call moves the index on as a turn moves the pointer. -/
theorem getNext_index (self : OrderEntryRR) :
    self.getNext.1.index =
      Turn.next self.orderEntry.length self.index ⟨self.ready, self.getNext.2.toOption⟩ := by
  unfold getNext
  dsimp only
  split <;> rfl

/-- A call leaves the connections alone. -/
theorem getNext_orderEntry (self : OrderEntryRR) :
    self.getNext.1.orderEntry = self.orderEntry := by
  unfold getNext
  dsimp only
  split <;> rfl

/-- A call that throws says that nothing is ready. -/
theorem getNext_eq_error {self : OrderEntryRR} {e : Exception} (h : self.getNext.2 = .error e) :
    e = .notReady "get_next" := by
  unfold getNext at h
  dsimp only at h
  split at h
  · cases h
  · exact (Except.error.inj h).symm

/-- A call takes the turn of the nearest ready connection. -/
theorem getNext_nearest {self : OrderEntryRR} {n : Nat} (hn : self.orderEntry.length = n)
    (hindex : 0 < n → self.index < n) :
    Turn.Nearest n self.index ⟨self.ready, self.getNext.2.toOption⟩ := by
  rw [getNext_selected, hn]
  exact RoundRobin.nearest_of_find? hindex

/-- **One call is safe.** -/
theorem safe_getNext {self : OrderEntryRR} {n : Nat} (hn : self.orderEntry.length = n)
    (hindex : 0 < n → self.index < n) :
    Call.Safe n ⟨self, self.getNext.1, self.getNext.2⟩ := by
  have hnearest := getNext_nearest hn hindex
  have hnext := getNext_index self
  have hlt : 0 < n → self.getNext.1.index < n := by
    rw [hnext, hn]
    exact Turn.next_lt _ hindex
  unfold Turn.Nearest at hnearest
  cases hresult : self.getNext.2 with
  | ok i =>
      rw [hresult] at hnearest
      obtain ⟨hi, hready, -⟩ := hnearest
      -- a connection is returned: it is ready, so not everything is unready
      constructor
      · rintro i' ⟨⟩
        exact ⟨hi, hready⟩
      · constructor
        · rintro ⟨⟩
        · intro hnone
          have hnot := hnone i hi
          rw [show self.ready i = true from hready] at hnot
          cases hnot
      · exact .inr ⟨i, rfl⟩
      · rintro ⟨⟩
      · exact fun h => ⟨hindex h, hlt h⟩
  | error e =>
      obtain rfl := getNext_eq_error hresult
      rw [hresult] at hnearest hnext
      -- nothing is ready: the loop has gone round without moving the index
      constructor
      · rintro i ⟨⟩
      · exact ⟨fun _ => hnearest, fun _ => rfl⟩
      · exact .inl rfl
      · exact fun _ => hnext
      · exact fun h => ⟨hindex h, hlt h⟩

/-! ## Runs -/

/-- **The calls of a run are turns of a round robin**, and each is safe. -/
theorem follows_calls {n : Nat} (inputs : List Input) {self : OrderEntryRR}
    (hn : self.orderEntry.length = n) (hindex : 0 < n → self.index < n) :
    RoundRobin.Follows n self.index ((orderEntryRR.outputs self inputs).map Call.turn) ∧
      ∀ call ∈ orderEntryRR.outputs self inputs, call.Safe n := by
  induction inputs generalizing self with
  | nil => exact ⟨trivial, by simp [Machine.outputs]⟩
  | cons input inputs ih =>
      cases input with
      | status i value =>
          -- a change of status is no call, and the index stays
          have hset : (self.orderEntry.set i value).length = n := by rw [List.length_set, hn]
          exact @ih ⟨self.orderEntry.set i value, self.index⟩ hset hindex
      | getNext =>
          -- a call is the next turn, and the one after it starts where it leaves the pointer
          have hsafe := safe_getNext hn hindex
          have hlength : self.getNext.1.orderEntry.length = n := by rw [getNext_orderEntry, hn]
          obtain ⟨hfollows, hrest⟩ := ih hlength fun h => (hsafe.index_lt h).2
          refine ⟨⟨getNext_nearest hn hindex, ?_⟩, ?_⟩
          · have hnext : self.getNext.1.index = Turn.next n self.index
                (Call.turn ⟨self, self.getNext.1, self.getNext.2⟩) := by
              rw [← hn]
              exact getNext_index self
            rw [← hnext]
            exact hfollows
          · intro call hcall
            rcases List.mem_cons.mp hcall with rfl | hcall
            · exact hsafe
            · exact hrest call hcall

/-- The search starts at a connection in every state reached, and the connections stay as many. -/
theorem index_lt_of_run {n : Nat} (inputs : List Input) {self : OrderEntryRR}
    (hn : self.orderEntry.length = n) (hindex : 0 < n → self.index < n) :
    (orderEntryRR.batch self inputs).1.orderEntry.length = n ∧
      (0 < n → (orderEntryRR.batch self inputs).1.index < n) := by
  induction inputs generalizing self with
  | nil => exact ⟨hn, hindex⟩
  | cons input inputs ih =>
      rw [Machine.batch_cons]
      apply ih
      · cases input with
        | status i value => exact (List.length_set).trans hn
        | getNext => exact (congrArg List.length self.getNext_orderEntry).trans hn
      · cases input with
        | status i value => exact hindex
        | getNext => exact fun h => ((safe_getNext hn hindex).index_lt h).2

/-- **Nothing is passed over.** Between two selections of a connection every other one that is ready
throughout is selected. -/
theorem exists_call_between {n : Nat} {inputs : List Input} {self : OrderEntryRR}
    (hn : self.orderEntry.length = n) (hindex : 0 < n → self.index < n)
    {earlier between later : List Call} {first second : Call} {i j : Nat}
    (hcalls : orderEntryRR.outputs self inputs = earlier ++ first :: between ++ second :: later)
    (hfirst : first.result = .ok i) (hsecond : second.result = .ok i) (hj : j < n) (hne : j ≠ i)
    (hready : ∀ call ∈ between ++ [second], call.before.ready j) :
    ∃ call ∈ between, call.result = .ok j := by
  have hfollows := (follows_calls inputs hn hindex).1
  rw [hcalls, List.append_assoc, List.map_append, RoundRobin.follows_append] at hfollows
  -- the turns between the two selections, with the second one as the last
  have hsplit : (first :: between ++ second :: later).map Call.turn =
      (first.turn :: between.map Call.turn ++ [second.turn]) ++ later.map Call.turn := by simp
  rw [hsplit, RoundRobin.follows_append] at hfollows
  have hturns : ∀ t ∈ between.map Call.turn ++ [second.turn], t.ready j := by
    intro t ht
    rw [← List.map_singleton, ← List.map_append] at ht
    obtain ⟨call, hcall, rfl⟩ := List.mem_map.mp ht
    exact hready call hcall
  obtain ⟨t, ht, hselected⟩ := RoundRobin.exists_selected_between hfollows.2.1
    (congrArg Except.toOption hfirst) (congrArg Except.toOption hsecond) hj hne hturns
  obtain ⟨call, hcall, rfl⟩ := List.mem_map.mp ht
  refine ⟨call, hcall, ?_⟩
  cases hresult : call.result with
  | error e => simp [Call.turn, hresult, Except.toOption] at hselected
  | ok k =>
      simp only [Call.turn, hresult, Except.toOption, Option.some.injEq] at hselected
      rw [hselected]

/-- **Everything ready goes around.** As many calls in a row as there are connections, with all of
them ready, select each once. -/
theorem perm_range_of_ready {n : Nat} {inputs : List Input} {self : OrderEntryRR}
    (hn : self.orderEntry.length = n) (hindex : 0 < n → self.index < n)
    {earlier block later : List Call}
    (hcalls : orderEntryRR.outputs self inputs = earlier ++ block ++ later)
    (hlength : block.length = n) (hready : ∀ call ∈ block, ∀ j < n, call.before.ready j) :
    (block.filterMap (·.result.toOption)).Perm (List.range n) := by
  have hfollows := (follows_calls inputs hn hindex).1
  rw [hcalls, List.map_append, List.map_append, RoundRobin.follows_append,
    RoundRobin.follows_append] at hfollows
  have hturns : ∀ t ∈ block.map Call.turn, ∀ j < n, t.ready j := by
    intro t ht
    obtain ⟨call, hcall, rfl⟩ := List.mem_map.mp ht
    exact hready call hcall
  have hperm := RoundRobin.perm_range_of_all_ready (RoundRobin.pointer_lt _ hindex) hfollows.1.2
    hturns ((List.length_map _).trans hlength)
  have hselected := hperm.filterMap id
  rw [List.map_map, List.filterMap_map, List.filterMap_map] at hselected
  simpa [Function.comp_def, Call.turn] using hselected

/-- **Round-robin routing is fair and safe**, for any number of connections, whatever their status
at each call. -/
theorem getNext_safe_and_fair (connections : List ConnectionStatus) (inputs : List Input) :
    let n := connections.length
    let calls := orderEntryRR.outputs { orderEntry := connections } inputs
    (∀ call ∈ calls, call.Safe n) ∧
      (0 < n → (orderEntryRR.batch { orderEntry := connections } inputs).1.index < n) ∧
      (∀ (earlier between later : List Call) (first second : Call) (i j : Nat),
        calls = earlier ++ first :: between ++ second :: later →
        first.result = .ok i → second.result = .ok i → j < n → j ≠ i →
        (∀ call ∈ between ++ [second], call.before.ready j) →
        ∃ call ∈ between, call.result = .ok j) ∧
      (∀ earlier block later : List Call, calls = earlier ++ block ++ later → block.length = n →
        (∀ call ∈ block, ∀ j < n, call.before.ready j) →
        (block.filterMap (·.result.toOption)).Perm (List.range n)) := by
  intro n calls
  have hindex : 0 < n → ({ orderEntry := connections } : OrderEntryRR).index < n := id
  have hrun := @index_lt_of_run n inputs { orderEntry := connections } rfl hindex
  refine ⟨(follows_calls inputs rfl hindex).2, hrun.2, ?_, ?_⟩
  · intro earlier between later first second i j hcalls hfirst hsecond hj hne hready
    exact exists_call_between rfl hindex hcalls hfirst hsecond hj hne hready
  · intro earlier block later hcalls hlength hready
    exact perm_range_of_ready rfl hindex hcalls hlength hready

end OrderEntryRR

end Controller

end RoqBitmex
