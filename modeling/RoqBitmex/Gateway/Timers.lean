import RoqBitmex.Gateway.CancelAllAfter
import RoqBitmex.Gateway.Streams

/-! # One timer for all sessions

The sessions have no clock of their own. The server's timer event comes to the controller, which
hands it to the order-entry connections of each account, to the drop copies and to the market data
session, in the order in which its maps happen to be gone through. `switches_beat_iff` says that
each drop copy is handed each timer event once, and that this keeps the dead man's switches of all
accounts alive. -/

namespace RoqBitmex

/-! ## The controller -/

/-- An order in which a map by account is gone through: each account once. -/
structure Round (names : List String) where
  accounts : List { name // name ∈ names }
  nodup : accounts.Nodup
  mem : ∀ name, name ∈ accounts

/-- The accounts in the order of their names. -/
def Round.ofNames {names : List String} (h : names.Nodup) : Round names :=
  ⟨names.attach, List.nodup_attach.mpr h, names.mem_attach⟩

/-- The time of a timer event. -/
def DropCopy.Input.time? : DropCopy.Input → Option ℤ
  | .timer now _ => some now
  | _ => none

/-- The timer events among the inputs of a drop copy. -/
def DropCopy.times (is : List DropCopy.Input) : List ℤ := is.filterMap Input.time?

/-- The timer events of inputs are those of each part. -/
@[simp] theorem DropCopy.times_append (is js : List DropCopy.Input) :
    times (is ++ js) = times is ++ times js := List.filterMap_append

/-- The time of a timer event of a session that does something with it. -/
def Component.time? {names : List String} : (k : Component names) → k.Input → Option ℤ
  | .dropCopy _, i => DropCopy.Input.time? i
  | .orders, _ => none
  | .marketData, _ => none

/-- The inputs of the drop copy of an account. -/
def Component.ofDropCopy {names : List String} (name : { name // name ∈ names })
    (is : List ((k : Component names) × k.Input)) : List DropCopy.Input :=
  (Machine.only (.dropCopy name) is : List (Component.Input (.dropCopy name)))

namespace Controller

variable {names : List String}

/-- What happens to the gateway. Timer events are the controller's to hand on, so no session has
one of its own. -/
inductive Input (names : List String) where
  /-- `Controller::operator()(Event<Timer> const &)`, and which drop copies have a connection that
  is refreshed. -/
  | timer (now : ℤ) (refreshed : { name // name ∈ names } → Bool)
  | session (k : Component names) (i : k.Input) (untimed : k.time? i = none)

/-- `Controller::dispatch_helper`, from what each target makes of an event:
`OrderEntryRR::operator()` goes through the connections of an account. -/
def dispatchHelper {β : Type} (orderEntry dropCopy : Round names) (connections : ℕ)
    (toOrderEntry : { name // name ∈ names } → ℕ → List β)
    (toDropCopy : { name // name ∈ names } → List β) (toMarketData : List β) : List β :=
  (orderEntry.accounts.flatMap fun name => (List.range connections).flatMap (toOrderEntry name)) ++
    dropCopy.accounts.flatMap toDropCopy ++ toMarketData

variable (orderEntry dropCopy : Round names) (connections : ℕ)

/-- What an input comes to for the sessions. The order-entry connections and the market data session
do nothing but refresh their connections. -/
def Input.handed : Input names → List ((k : Component names) × k.Input)
  | .timer now refreshed =>
      dispatchHelper orderEntry dropCopy connections (fun _ _ => [])
        (fun name => [⟨.dropCopy name, DropCopy.Input.timer now (refreshed name)⟩]) []
  | .session k i _ => [⟨k, i⟩]

/-- The time of a timer event. -/
def Input.time? : Input names → Option ℤ
  | .timer now _ => some now
  | .session _ _ _ => none

/-- What the sessions are handed. -/
def handed (is : List (Input names)) : List ((k : Component names) × k.Input) :=
  is.flatMap (Input.handed orderEntry dropCopy connections)

/-- The timer events of the server. -/
def ticks (is : List (Input names)) : List ℤ := is.filterMap Input.time?

/-- An event of which only the drop copies make something. -/
theorem dispatchHelper_dropCopy {β : Type} (toDropCopy : { name // name ∈ names } → β) :
    dispatchHelper orderEntry dropCopy connections (fun _ _ => []) (fun name => [toDropCopy name])
      [] = dropCopy.accounts.map toDropCopy := by
  have hnothing : (orderEntry.accounts.flatMap fun _ => (List.range connections).flatMap
      fun _ => ([] : List β)) = [] := by
    simp
  rw [dispatchHelper, hnothing, List.nil_append, List.append_nil, List.map_eq_flatMap]

/-- A timer event is handed to each drop copy once. -/
theorem ofDropCopy_timer (name : { name // name ∈ names }) (now : ℤ)
    (refreshed : { name // name ∈ names } → Bool) :
    Component.ofDropCopy name
        (Input.handed orderEntry dropCopy connections (.timer now refreshed)) =
      [.timer now (refreshed name)] := by
  have hhanded : Input.handed orderEntry dropCopy connections (.timer now refreshed) =
      dropCopy.accounts.map fun name =>
        ⟨.dropCopy name, DropCopy.Input.timer now (refreshed name)⟩ :=
    dispatchHelper_dropCopy _ _ _ _
  rw [hhanded]
  exact Machine.only_map_of_nodup (fun _ _ h => Component.dropCopy.inj h) dropCopy.nodup
    (dropCopy.mem name) _

/-- An input of a session hands no timer event to a drop copy. -/
theorem times_session (name : { name // name ∈ names }) (k : Component names) (i : k.Input)
    (untimed : k.time? i = none) : DropCopy.times (Component.ofDropCopy name [⟨k, i⟩]) = [] := by
  unfold Component.ofDropCopy
  by_cases h : k = .dropCopy name
  · subst h
    rw [Machine.only_cons_self]
    exact List.filterMap_cons_none untimed
  · rw [Machine.only_cons_of_ne h]
    rfl

/-- A drop copy is handed the timer events of the server, each once and in order. -/
theorem times_handed (name : { name // name ∈ names }) (is : List (Input names)) :
    DropCopy.times (Component.ofDropCopy name (handed orderEntry dropCopy connections is)) =
      ticks is := by
  induction is with
  | nil => rfl
  | cons i is ih =>
      have hrest : Component.ofDropCopy name (handed orderEntry dropCopy connections (i :: is)) =
          Component.ofDropCopy name (i.handed orderEntry dropCopy connections) ++
            Component.ofDropCopy name (handed orderEntry dropCopy connections is) :=
        Machine.only_append _ _
      rw [hrest, DropCopy.times_append, ih]
      cases i with
      -- one event for this drop copy, whoever comes before it and after it
      | timer now refreshed =>
          rw [ofDropCopy_timer]
          rfl
      | session k i untimed =>
          have hnone := times_session name k i untimed
          exact congrArg (· ++ ticks is) hnone

end Controller

/-! ## The timer of one session -/

namespace DropCopy

variable {D : Type} {c : Settings} {dl : Stages State D} {d : ℤ}

/-- A clock starts at nought or later, does not go back, and is read at most `d` after it was read
last. -/
structure Ticking (d : ℤ) (ts : List ℤ) : Prop where
  nonneg : ∀ t ∈ ts, 0 ≤ t
  steady : ts.IsChain fun t t' => t ≤ t' ∧ t' ≤ t + d

/-- A session that is ready has a connection that is refreshed. -/
def Refreshed (s : DropCopy D) (_ : Beat) : Input → Prop
  | .timer _ refreshed => s.ready = true → refreshed = true
  | _ => True

instance (s : DropCopy D) (a : Beat) : ∀ i, Decidable (Refreshed s a i)
  | .timer _ _ => inferInstanceAs (Decidable (_ → _))
  | .ready | .disconnected | .event _ _ => isTrue trivial

/-- The first times of a clock that ticks are of one that ticks. -/
theorem Ticking.of_isPrefix {ts ts' : List ℤ} (h : Ticking d ts) (hfirst : ts' <+: ts) :
    Ticking d ts' where
  nonneg t ht := h.nonneg t (hfirst.subset ht)
  steady := List.IsChain.prefix h.steady hfirst

/-- What is sent does not change the time of the last timer event. -/
theorem ticked_outputs (a : Beat) (es : List Effect) :
    ((beat (D := D)).outputs a es).ticked = a.ticked := by
  induction es generalizing a with
  | nil => rfl
  | cons e es ih =>
      rw [Monitor.outputs_cons, ih]
      cases e with
      | _ => rfl

variable (c dl) in
/-- The time of the last timer event is the input's, if it is one. -/
theorem ticked_after (s : DropCopy D) (a : Beat) (i : Input) :
    ((dropCopy c dl).after beat s a i).ticked = i.time?.or a.ticked := by
  rw [Machine.after, ticked_outputs]
  cases i with
  | _ => rfl

/-- **A clock that ticks is in time** for a session whose connection is refreshed. -/
theorem timely_of_ticking {s : DropCopy D} {a : Beat} {is : List Input}
    (hclock : Ticking d (a.ticked.toList ++ times is))
    (hrefreshed : (dropCopy c dl).Along beat Refreshed s a is) :
    (dropCopy c dl).Along beat (Timely d) s a is := by
  -- the history has the time of the last timer event, from which the clock goes on
  induction is generalizing s a with
  | nil => trivial
  | cons i is ih =>
      have hafter := ticked_after c dl s a i
      cases i with
      | timer now refreshed =>
          have hclock : Ticking d (a.ticked.toList ++ now :: times is) := hclock
          have hlast : ∀ t ∈ a.ticked, t ≤ now ∧ now ≤ t + d := by
            intro t ht
            have hchain := hclock.steady
            rw [Option.mem_def.mp ht] at hchain
            exact (List.isChain_cons_cons.mp hchain).1
          refine ⟨⟨hclock.nonneg now (by simp), hlast, hrefreshed.1⟩, fun hlive => ?_⟩
          refine ih ⟨fun t ht => hclock.nonneg t ?_, ?_⟩ (hrefreshed.2 hlive)
          · rw [hafter] at ht
            exact List.mem_append_right _ ht
          · rw [hafter]
            exact hclock.steady.right_of_append
      | _ =>
          refine ⟨trivial, fun hlive => ih ?_ (hrefreshed.2 hlive)⟩
          rw [hafter]
          exact hclock

end DropCopy

/-! ## The timers of all sessions -/

namespace Component

open Controller (Sessions handed ticks)
open DropCopy (Beat Beats Disarms InStep Refreshed Ticking Timely WholeMillisecond beat times)

variable {M D D' : Type} (u : Surroundings M D D') {names : List String} (sessions : Sessions M)
  (orderEntry dropCopy : Round names) (connections : ℕ)

/-- The inputs of the sessions that are reached. -/
def reached (is : List (Controller.Input names)) : List ((k : Component names) × k.Input) :=
  (sessions.gateway u names).reached (init u sessions) (handed orderEntry dropCopy connections is)

/-- A condition on the inputs of the drop copy of an account, along a run of the gateway. -/
def AlongDropCopy (name : { name // name ∈ names })
    (ok : RoqBitmex.DropCopy D → Beat → DropCopy.Input → Prop)
    (is : List (Controller.Input names)) : Prop :=
  (sessions.gateway u names).Along (Machine.among (.dropCopy name) beat)
    (Machine.onOne (.dropCopy name) ok) (init u sessions) {}
    (handed orderEntry dropCopy connections is)

variable {u sessions orderEntry dropCopy connections} {name : { name // name ∈ names }}
  {is : List (Controller.Input names)}

/-- It is the condition along the run of the drop copy. -/
theorem alongDropCopy_iff {ok : RoqBitmex.DropCopy D → Beat → DropCopy.Input → Prop} :
    AlongDropCopy u sessions orderEntry dropCopy connections name ok is ↔
      (RoqBitmex.dropCopy (settings u sessions name) u.stages).Along beat ok
        (RoqBitmex.DropCopy.init u.stages) {}
        (ofDropCopy name (reached u sessions orderEntry dropCopy connections is)) :=
  Machine.along_interleave

/-- A drop copy is handed the timer events of the server, until the process ends. -/
theorem times_reached :
    times (ofDropCopy name (reached u sessions orderEntry dropCopy connections is)) <+:
      ticks is := by
  rw [← Controller.times_handed orderEntry dropCopy connections name is]
  have hreached := (sessions.gateway u names).reached_isPrefix (init u sessions)
    (handed orderEntry dropCopy connections is)
  exact (hreached.filterMap _).filterMap _

/-- **The timer of the server is in time for every drop copy.** -/
theorem timely_reached {d : ℤ} (hclock : Ticking d (ticks is))
    (hrefreshed : AlongDropCopy u sessions orderEntry dropCopy connections name Refreshed is) :
    AlongDropCopy u sessions orderEntry dropCopy connections name (Timely d) is :=
  alongDropCopy_iff.mpr
    (DropCopy.timely_of_ticking (hclock.of_isPrefix times_reached)
      (alongDropCopy_iff.mp hrefreshed))

/-- What the sessions of a gateway are given whose orders are cancelled after fifteen seconds. -/
def fifteenSeconds : Surroundings (String × String) (DropCopy.State × ℕ) DownloadState :=
  { oneAccount with dropCopy := DropCopy.cancelAfter 15000000000 }

/-- The sessions of two accounts. -/
def twoAccountSessions : Sessions (String × String) :=
  Controller.sessionsOf oneAccount.requests.mac Controller.twoAccounts ["A1", "A2"] 2

/-- The accounts are gone through in the order of their names. -/
def twoNames : Round ["A1", "A2"] := .ofNames (by decide)

/-- An input of the drop copy of an account. -/
def inputOf (name : { name // name ∈ ["A1", "A2"] }) (i : DropCopy.Input)
    (untimed : i.time? = none) : Controller.Input ["A1", "A2"] :=
  .session (.dropCopy name) i untimed

/-- One account becomes ready after the other, while the timer fires every five seconds. -/
def bothTimed : List (Controller.Input ["A1", "A2"]) :=
  [inputOf ⟨"A1", by decide⟩ .ready rfl, inputOf ⟨"A2", by decide⟩ .ready rfl,
    inputOf ⟨"A1", by decide⟩ (.event (.welcome ⟨"Welcome"⟩) fun _ => none) rfl,
    inputOf ⟨"A2", by decide⟩ (.event (.welcome ⟨"Welcome"⟩) fun _ => none) rfl,
    inputOf ⟨"A2", by decide⟩ (.event (.order ⟨.partial_, []⟩) fun _ => none) rfl,
    .timer 1000000000 fun _ => true,
    inputOf ⟨"A1", by decide⟩ (.event (.order ⟨.partial_, []⟩) fun _ => none) rfl,
    .timer 6000000000 fun _ => true, .timer 11000000000 fun _ => true]

end Component

end RoqBitmex
