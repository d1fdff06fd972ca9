import RoqBitmex.Gateway.OrderRequests
import Mathlib.Data.List.Nodup

/-! # How the gateway is constructed

The configuration is read account by account, and the controller makes an `Account` for each, a
number of order-entry connections and a drop copy for each, and one market data session. It numbers
the streams with a counter of 16 bits. The order in which a map of accounts is gone through is not
the program's, so it is given. `constructed` says what comes of it. -/

namespace RoqBitmex

/-! ## The configuration -/

/-- A `server::config::Account`, as far as it is used. -/
structure ConfigAccount where
  name : String
  login : String
  secret : String
  deriving DecidableEq, Repr

/-- `Config`, as far as it is about accounts: a map by name. -/
structure Config where
  accounts : List ConfigAccount := []
  nodup : (accounts.map ConfigAccount.name).Nodup := by simp

/-- `log::fatal` during construction: the process ends. -/
inductive Construction.Fatal where
  /-- An account the configuration does not have. -/
  | unknownAccount (account : String)
  /-- No order-entry connections are asked for. -/
  | numberOfOrderEntryConnections
  deriving DecidableEq, Repr

namespace Config

open Construction (Fatal)

/-- `Config::operator()(server::config::Account &&)`: a name that is there is not replaced. -/
def account (self : Config) (account : ConfigAccount) : Config where
  accounts :=
    if account.name ∈ self.accounts.map ConfigAccount.name then self.accounts
    else self.accounts ++ [account]
  nodup := by
    split
    · exact self.nodup
    · next hfresh =>
        rw [List.map_append, List.map_singleton]
        exact self.nodup.append (List.nodup_singleton _) (List.disjoint_singleton.mpr hfresh)

/-- The configuration that is read. -/
def ofAccounts (accounts : List ConfigAccount) : Config := accounts.foldl account {}

/-- `accounts.find(account)`. -/
def find (self : Config) (account : String) : Option ConfigAccount :=
  self.accounts.find? (·.name = account)

/-- `Config::get_api_key`. -/
def getApiKey (self : Config) (account : String) : Except Fatal String :=
  match self.find account with
  | none => .error (.unknownAccount account)
  | some found => .ok found.login

/-- `Config::get_secret`. -/
def getSecret (self : Config) (account : String) : Except Fatal String :=
  match self.find account with
  | none => .error (.unknownAccount account)
  | some found => .ok found.secret

/-- The credentials of an account. -/
def credentials (self : Config) (account : String) : Option (String × String) :=
  (self.find account).map fun found => (found.login, found.secret)

end Config

/-! ## The controller -/

namespace Controller

open Construction (Fatal)

variable {M : Type} (mac : Mac M)

/-- `create_crypto`. -/
def createCrypto (config : Config) (name : String) : Except Fatal (Crypto M) := do
  let key ← config.getApiKey name
  let secret ← config.getSecret name
  return Crypto.create mac key secret

/-- `create_accounts`: a map by name, in which a name that is there is not replaced. -/
def createAccounts (config : Config) : Except Fatal (String → Option (Crypto M)) :=
  config.accounts.foldlM
    (fun result account => do
      let crypto ← createCrypto mac config account.name
      return Function.update result account.name ((result account.name).or (some crypto)))
    fun _ => none

/-- The order-entry connections of an account: each takes the next stream. -/
def createConnections : ℕ → UInt16 → UInt16 × List UInt16
  | 0, streamId => (streamId, [])
  | connections + 1, streamId =>
      let streamId := streamId + 1
      let (last, rest) := createConnections connections streamId
      (last, streamId :: rest)

/-- `create_order_entry`, over the accounts. -/
def createOrderEntry (connections : ℕ) :
    UInt16 → List String → UInt16 × List (String × List UInt16)
  | streamId, [] => (streamId, [])
  | streamId, name :: names =>
      let (streamId, orderEntry) := createConnections connections streamId
      let (streamId, rest) := createOrderEntry connections streamId names
      (streamId, (name, orderEntry) :: rest)

/-- `create_drop_copy`. -/
def createDropCopy : UInt16 → List String → UInt16 × List (String × UInt16)
  | streamId, [] => (streamId, [])
  | streamId, name :: names =>
      let streamId := streamId + 1
      let (last, rest) := createDropCopy streamId names
      (last, (name, streamId) :: rest)

/-- A controller: the accounts, and the streams of its sessions. -/
structure Sessions (M : Type) where
  accounts : String → Option (Crypto M)
  orderEntry : List (String × List UInt16)
  dropCopy : List (String × UInt16)
  marketData : UInt16

/-- The constructor of `Controller`, given the order its accounts are gone through in. -/
def create (config : Config) (names : List String) (connections : ℕ) :
    Except Fatal (Sessions M) := do
  let accounts ← createAccounts mac config
  -- `log::fatal` comes before the first session, but after the accounts
  if connections = 0 then .error .numberOfOrderEntryConnections
  else
    let (streamId, orderEntry) := createOrderEntry connections 0 names
    let (streamId, dropCopy) := createDropCopy streamId names
    .ok ⟨accounts, orderEntry, dropCopy, streamId + 1⟩

/-- The streams, in the order they are created. -/
def Sessions.streams (self : Sessions M) : List UInt16 :=
  self.orderEntry.flatMap Prod.snd ++ self.dropCopy.map Prod.snd ++ [self.marketData]

/-- How many sessions there are. -/
def numberOfSessions (names : List String) (connections : ℕ) : ℕ :=
  names.length * (connections + 1) + 1

/-- Every account of the configuration signs with its own credentials, and has a number of
connections and a drop copy. The streams count from one, so that they are distinct exactly when a
counter of 16 bits can tell the sessions apart. -/
structure Sessions.Complete (mac : Mac M) (config : Config) (names : List String) (connections : ℕ)
    (sessions : Sessions M) : Prop where
  accounts : ∀ name, sessions.accounts name =
    (config.credentials name).map fun c => Crypto.create mac c.1 c.2
  orderEntry : sessions.orderEntry.map Prod.fst = names
  many : ∀ x ∈ sessions.orderEntry, x.2.length = connections
  dropCopy : sessions.dropCopy.map Prod.fst = names
  known : ∀ name, name ∈ names ↔ config.credentials name ≠ none
  streams : ∀ i (h : i < sessions.streams.length), sessions.streams[i] = UInt16.ofNat (i + 1)
  length : sessions.streams.length = numberOfSessions names connections
  distinct : sessions.streams.Nodup ↔ numberOfSessions names connections ≤ 65536

/-! ### Accounts -/

variable {mac}

/-- An account of the configuration has its credentials. -/
theorem createCrypto_eq {config : Config} {name : String} (h : config.find name ≠ none) :
    ∃ c, config.credentials name = some c ∧
      createCrypto mac config name = .ok (Crypto.create mac c.1 c.2) := by
  obtain ⟨found, hfound⟩ := Option.ne_none_iff_exists'.mp h
  refine ⟨(found.login, found.secret), ?_, ?_⟩
  · simp [Config.credentials, hfound]
  · simp [createCrypto, Config.getApiKey, Config.getSecret, hfound]
    rfl

/-- The accounts that have been gone through have their credentials. -/
theorem foldlM_accounts {config : Config} {accounts : List ConfigAccount}
    (h : ∀ account ∈ accounts, config.find account.name ≠ none)
    (result : String → Option (Crypto M)) :
    accounts.foldlM
        (fun result account => do
          let crypto ← createCrypto mac config account.name
          return Function.update result account.name ((result account.name).or (some crypto)))
        result =
      (.ok fun name => (result name).or
        (if name ∈ accounts.map ConfigAccount.name then
          (config.credentials name).map fun c => Crypto.create mac c.1 c.2 else none) :
        Except Fatal _) := by
  induction accounts generalizing result with
  | nil =>
      simp
      rfl
  | cons account accounts ih =>
      obtain ⟨c, hc, hcrypto⟩ := @createCrypto_eq _ mac _ _ (h account List.mem_cons_self)
      rw [List.foldlM_cons, hcrypto]
      refine (ih (fun a ha => h a (List.mem_cons_of_mem _ ha)) _).trans ?_
      congr 1
      funext name
      -- the entry that is made is the one that a later account of the name would make
      by_cases hname : name = account.name
      · subst hname
        simp [hc]
      · simp [hname]

/-- **Every account is made with the credentials of the configuration**, and nothing fails. -/
theorem createAccounts_eq (config : Config) :
    createAccounts mac config =
      .ok fun name => (config.credentials name).map fun c => Crypto.create mac c.1 c.2 := by
  have hknown : ∀ account ∈ config.accounts, config.find account.name ≠ none := by
    intro account haccount hnone
    have hother := List.find?_eq_none.mp hnone account haccount
    simp at hother
  refine (foldlM_accounts hknown fun _ => none).trans ?_
  congr 1
  funext name
  rw [Option.none_or]
  split
  · rfl
  · next hname =>
      -- what the configuration does not have is not there
      have hnone : config.find name = none := by
        refine List.find?_eq_none.mpr fun account haccount => ?_
        simp only [decide_eq_true_eq]
        rintro rfl
        exact hname (List.mem_map_of_mem haccount)
      simp [Config.credentials, hnone]

/-! ### Streams -/

/-- Streams taken one after another. -/
def streamsFrom (streamId : UInt16) (n : ℕ) : List UInt16 :=
  (List.range n).map fun i => streamId + UInt16.ofNat (i + 1)

/-- The streams that follow are the first of them and those after. -/
theorem streamsFrom_add (streamId : UInt16) (m n : ℕ) :
    streamsFrom streamId (m + n) =
      streamsFrom streamId m ++ streamsFrom (streamId + UInt16.ofNat m) n := by
  unfold streamsFrom
  rw [List.range_add, List.map_append, List.map_map]
  congr 1
  refine List.map_congr_left fun i _ => ?_
  simp [UInt16.add_assoc]

/-- The connections of an account have the next streams. -/
theorem createConnections_eq (connections : ℕ) (streamId : UInt16) :
    createConnections connections streamId =
      (streamId + UInt16.ofNat connections, streamsFrom streamId connections) := by
  induction connections generalizing streamId with
  | zero => simp [createConnections, streamsFrom]
  | succ n ih =>
      rw [createConnections, ih, Nat.add_comm n 1, streamsFrom_add]
      simp [streamsFrom, UInt16.add_assoc]

/-- Each account has its connections, and the streams are taken one after another. -/
theorem createOrderEntry_eq (connections : ℕ) (names : List String) (streamId : UInt16) :
    let result := createOrderEntry connections streamId names
    result.1 = streamId + UInt16.ofNat (names.length * connections) ∧
      result.2.map Prod.fst = names ∧
      result.2.flatMap Prod.snd = streamsFrom streamId (names.length * connections) ∧
      ∀ x ∈ result.2, x.2.length = connections := by
  induction names generalizing streamId with
  | nil => simp [createOrderEntry, streamsFrom]
  -- the next account takes its streams where this one leaves the counter
  | cons name names ih =>
      obtain ⟨hlast, hnames, hstreams, hlength⟩ := ih (streamId + UInt16.ofNat connections)
      simp only [createOrderEntry, createConnections_eq] at hlast hnames hstreams hlength ⊢
      have hcount : (name :: names).length * connections =
          connections + names.length * connections := by
        rw [List.length_cons, Nat.succ_mul, Nat.add_comm]
      rw [hcount]
      refine ⟨?_, ?_, ?_, ?_⟩
      · rw [hlast]
        simp [UInt16.add_assoc]
      · rw [List.map_cons, hnames]
      · rw [List.flatMap_cons, hstreams, streamsFrom_add]
      · refine List.forall_mem_cons.mpr ⟨?_, hlength⟩
        simp [streamsFrom]

/-- Each account has its drop copy. -/
theorem createDropCopy_eq (names : List String) (streamId : UInt16) :
    let result := createDropCopy streamId names
    result.1 = streamId + UInt16.ofNat names.length ∧ result.2.map Prod.fst = names ∧
      result.2.map Prod.snd = streamsFrom streamId names.length := by
  induction names generalizing streamId with
  | nil => simp [createDropCopy, streamsFrom]
  | cons name names ih =>
      obtain ⟨hlast, hnames, hstreams⟩ := ih (streamId + 1)
      simp only [createDropCopy] at hlast hnames hstreams ⊢
      rw [List.length_cons, Nat.add_comm names.length 1, streamsFrom_add]
      refine ⟨?_, ?_, ?_⟩
      · rw [hlast]
        simp [UInt16.add_assoc]
      · rw [List.map_cons, hnames]
      · rw [List.map_cons, hstreams]
        simp [streamsFrom]

/-- Streams are the same when the counter has gone round. -/
theorem ofNat_eq_iff (i j : ℕ) : UInt16.ofNat i = UInt16.ofNat j ↔ i % 65536 = j % 65536 := by
  rw [← UInt16.toNat_inj, UInt16.toNat_ofNat', UInt16.toNat_ofNat']

/-- Streams taken one after another are distinct until the counter has gone round. -/
theorem nodup_streamsFrom_iff (n : ℕ) : (streamsFrom 0 n).Nodup ↔ n ≤ 65536 := by
  unfold streamsFrom
  simp only [UInt16.zero_add]
  constructor
  · intro h
    by_contra hlt
    -- the first stream is taken again
    have hinj := List.inj_on_of_nodup_map h
    have hzero : 0 ∈ List.range n := List.mem_range.mpr (by omega)
    have hround : 65536 ∈ List.range n := List.mem_range.mpr (by omega)
    have hsame := hinj hzero hround ((ofNat_eq_iff 1 65537).mpr (by decide))
    cases hsame
  · intro h
    refine List.nodup_range.map_on fun i hi j hj heq => ?_
    rw [List.mem_range] at hi hj
    have hmod := (ofNat_eq_iff (i + 1) (j + 1)).mp heq
    omega

/-! ### Sessions -/

variable (mac) in
/-- The controller that is made. -/
def sessionsOf (config : Config) (names : List String) (connections : ℕ) : Sessions M where
  accounts name := (config.credentials name).map fun c => Crypto.create mac c.1 c.2
  orderEntry := (createOrderEntry connections 0 names).2
  dropCopy := (createDropCopy (createOrderEntry connections 0 names).1 names).2
  marketData := (createDropCopy (createOrderEntry connections 0 names).1 names).1 + 1

/-- The sessions are created unless no connections are asked for. -/
theorem create_eq (config : Config) (names : List String) (connections : ℕ) :
    create mac config names connections =
      if connections = 0 then .error .numberOfOrderEntryConnections
      else .ok (sessionsOf mac config names connections) := by
  unfold create
  rw [createAccounts_eq]
  rfl

/-- The three kinds of sessions take their streams one after another. -/
theorem streams_sessionsOf (config : Config) (names : List String) (connections : ℕ) :
    (sessionsOf mac config names connections).streams =
      streamsFrom 0 (numberOfSessions names connections) := by
  obtain ⟨hlast, -, hstreams, -⟩ := createOrderEntry_eq connections names 0
  obtain ⟨hlast', -, hstreams'⟩ :=
    createDropCopy_eq names (createOrderEntry connections 0 names).1
  have hcount : numberOfSessions names connections =
      names.length * connections + (names.length + 1) := by
    unfold numberOfSessions
    rw [Nat.mul_succ, Nat.add_assoc]
  unfold Sessions.streams sessionsOf
  rw [hcount, streamsFrom_add, streamsFrom_add, hstreams, hstreams', hlast', hlast,
    List.append_assoc]
  simp [streamsFrom]

/-- The controller that is made is complete. -/
theorem complete_sessionsOf (config : Config) {names : List String}
    (hnames : names.Perm (config.accounts.map ConfigAccount.name)) (connections : ℕ) :
    (sessionsOf mac config names connections).Complete mac config names connections := by
  obtain ⟨-, hfst, -, hlength⟩ := createOrderEntry_eq connections names 0
  obtain ⟨-, hfst', -⟩ := createDropCopy_eq names (createOrderEntry connections 0 names).1
  have hstreams := @streams_sessionsOf _ mac config names connections
  refine ⟨fun _ => rfl, hfst, hlength, hfst', ?_, ?_, ?_, ?_⟩
  · intro name
    rw [hnames.mem_iff, List.mem_map]
    unfold Config.credentials Config.find
    simp
  · rw [hstreams]
    intro i hi
    simp [streamsFrom]
  · rw [hstreams]
    simp [streamsFrom]
  · rw [hstreams]
    exact nodup_streamsFrom_iff _

/-- A controller that is made is complete. -/
theorem complete_of_create {config : Config} {names : List String}
    (hnames : names.Perm (config.accounts.map ConfigAccount.name)) {connections : ℕ}
    {sessions : Sessions M} (h : create mac config names connections = .ok sessions) :
    sessions.Complete mac config names connections := by
  rw [create_eq] at h
  split at h
  · cases h
  · cases h
    exact complete_sessionsOf config hnames connections

/-- **What is constructed.** The process ends if no order-entry connections are asked for. Otherwise
the controller is complete, whichever way its accounts are gone through. -/
theorem constructed (config : Config) {names : List String}
    (hnames : names.Perm (config.accounts.map ConfigAccount.name)) (connections : ℕ) :
    (connections = 0 →
        create mac config names connections = .error .numberOfOrderEntryConnections) ∧
      (0 < connections → ∃ sessions, create mac config names connections = .ok sessions ∧
        sessions.Complete mac config names connections) := by
  rw [create_eq]
  refine ⟨fun hzero => if_pos hzero, fun hpos => ⟨sessionsOf mac config names connections,
    if_neg (Nat.pos_iff_ne_zero.mp hpos), complete_sessionsOf config hnames connections⟩⟩

/-- Two accounts of three that are read, the second of which is not the first one's. -/
def twoAccounts : Config :=
  .ofAccounts [⟨"A1", "key", "secret"⟩, ⟨"A2", "key-2", "secret-2"⟩, ⟨"A1", "key-3", "secret-3"⟩]

/-- Two accounts, gone through the other way round, with three connections each. -/
theorem constructed_twoAccounts :
    ∃ sessions, create (Mac.recording fun _ _ => []) twoAccounts ["A2", "A1"] 3 = .ok sessions ∧
      sessions.Complete (Mac.recording fun _ _ => []) twoAccounts ["A2", "A1"] 3 :=
  (constructed twoAccounts (by decide) 3).2 (by decide)

end Controller

end RoqBitmex
