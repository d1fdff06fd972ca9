import RoqBitmex.Gateway.OrderRequests

/-! # Signed requests

All sessions of an account sign with one `Crypto`, in whatever order requests, upgrades and answers
come. The exchange verifies every call with the credentials of the account it is made for, until the
second that the time-out comes to (`verified_of_run`), and what is signed of a call is not what is
signed of another one (`signed_inj`). -/

namespace RoqBitmex

universe u

namespace OrderRequests

/-! ## Calls -/

/-- The call an output makes, if it makes one. -/
def Output.call? : Output → Option Crypto.Call
  | .send _ _ _ request => some request.call
  | .upgrade _ headers => some ⟨.get, API.create.realtime, headers, ""⟩
  | _ => none

/-- The account a call is made for. -/
def Output.account? : Output → Option String
  | .send _ pending _ _ => some pending.account
  | .upgrade account _ => some account
  | _ => none

variable {M : Type u}

/-- The time-out of a call. -/
def Environment.timeout (env : Environment M) : Output → ℤ
  | .upgrade _ _ => requestExpires
  | _ => env.expiresTimeout

/-- The time of the last request or upgrade. -/
def clock : Monitor (State M) Input Output ℤ where
  input _ now
    | .request now _ => now
    | .upgrade _ now => now
    | _ => now
  output now _ := now

variable (env : Environment M) (hmac : String → String → List UInt8)
  (credentials : String → Option (String × String)) (secrets : String → Option String)

/-- A call is verified: its key is that of the account it is made for, its signature is that of the
call, and it expires a time-out from now, or less than a second later. -/
def Verified (now : ℤ) (o : Output) : Prop :=
  ∀ call, o.call? = some call → ∃ account key secret expires,
    o.account? = some account ∧ credentials account = some (key, secret) ∧
      Crypto.verify env.hex hmac secrets call = some (key, expires) ∧
      now + env.timeout o ≤ expires * 1000000000 ∧
      expires * 1000000000 < now + env.timeout o + 1000000000

/-- The exchange knows the credentials, and a header can carry the keys and the signatures. -/
structure Registered : Prop where
  known : ∀ account key secret, credentials account = some (key, secret) →
    secrets key = some secret
  keys : ∀ account key secret, credentials account = some (key, secret) → '\r' ∉ key.toList
  digests : ∀ digest, '\r' ∉ (env.hex digest).toList

variable {env hmac credentials secrets} {connections : ℕ} {secret text : M → String} {s : State M}

/-! ## Steps -/

/-- The assertions about a request are no call. -/
theorem call?_assertions (r : OrderRequest) : ∀ o ∈ assertions r, o.call? = none := by
  intro o ho
  obtain ⟨site, rfl⟩ := eq_assertion_of_mem ho
  rfl

/-- The acknowledgement of a request to cancel all orders is no call. -/
theorem call?_forwardedAck (session : Session) (r : OrderRequest) :
    ∀ o ∈ forwardedAck session r, o.call? = none := by
  intro o ho
  cases r with
  | cancelAllOrders account value requestId =>
      rw [List.mem_singleton.mp ho]
      rfl
  | _ => cases ho

/-- The status of a connection is no call. -/
theorem call?_setStatus (s : State M) (account : String) (index : ℕ) (status : ConnectionStatus) :
    ∀ o ∈ (setStatus env s account index status).2, o.call? = none := by
  intro o ho
  unfold setStatus at ho
  split at ho
  · cases ho
  · split at ho
    · rw [List.mem_singleton.mp ho]
      rfl
    · cases ho

/-- What an answer leads to is no call. -/
theorem call?_answer (s : State M) (ticket : ℕ) (response : RestResponse) :
    ∀ o ∈ (answer env s ticket response).2, o.call? = none := by
  intro o ho
  unfold answer at ho
  split at ho
  · cases ho
  · obtain ⟨event, -, rfl⟩ := List.mem_map.mp ho
    rfl

/-- A request that makes a call sends it for its account. -/
theorem call_request {now : ℤ} {r : OrderRequest} {o : Output} (ho : o ∈ (request env s now r).2)
    {call : Crypto.Call} (hcall : o.call? = some call) :
    ∃ value index, s.accounts r.account = some value ∧
      o = .send s.pending.issued ⟨r.account, index, r.flow, r.callback⟩ r.requestId
        (restRequest env value.crypto now r) := by
  have hnot : ∀ os : List Output, (∀ o ∈ os, o.call? = none) → o ∉ os := by
    intro os hos hmem
    rw [hos o hmem] at hcall
    cases hcall
  have hthrown : ∀ e, o ∉ assertions r ++ [.thrown e] := by
    intro e
    apply hnot
    rw [List.forall_mem_append, List.forall_mem_singleton]
    exact ⟨call?_assertions r, rfl⟩
  rcases request_cases env s now r with ⟨-, hstep⟩ | ⟨_, -, -, hstep⟩ |
    ⟨value, index, hvalue, -, -, hstep⟩
  · rw [hstep] at ho
    exact absurd ho (hthrown _)
  · rw [hstep] at ho
    exact absurd ho (hthrown _)
  -- of what a request that is sent puts out only the first output makes a call
  · refine ⟨value, index, hvalue, ?_⟩
    rw [hstep] at ho
    rcases List.mem_append.mp ho with ho | ho
    · exact absurd ho (hnot _ (call?_assertions r))
    · refine (List.mem_cons.mp ho).resolve_right (hnot _ ?_)
      rw [List.forall_mem_append, List.forall_mem_singleton]
      exact ⟨call?_forwardedAck _ r, rfl⟩

/-- **What makes a call**: a request, and a drop copy that connects. Either is signed with what its
account has. -/
theorem call_cases {i : Input} {o : Output} (ho : o ∈ (step env s i).2) {call : Crypto.Call}
    (hcall : o.call? = some call) :
    (∃ now r value index, i = .request now r ∧ s.accounts r.account = some value ∧
        o = .send s.pending.issued ⟨r.account, index, r.flow, r.callback⟩ r.requestId
          (restRequest env value.crypto now r)) ∨
      ∃ account now value, i = .upgrade account now ∧ s.accounts account = some value ∧
        o = .upgrade account (value.crypto.createHeaders env.mac env.hex
          (Crypto.computeExpires now requestExpires) .get API.create.realtime "").2 := by
  have hnone : o.call? ≠ none := by
    rw [hcall]
    exact Option.some_ne_none call
  cases i with
  | connected account index => exact absurd (call?_setStatus s account index .ready o ho) hnone
  | disconnected account index =>
      exact absurd (call?_setStatus s account index .disconnected o ho) hnone
  | upgrade account now =>
      refine .inr ?_
      have ho' : o ∈ (upgrade env s account now).2 := ho
      unfold upgrade at ho'
      split at ho'
      · cases ho'
      · next value hvalue => exact ⟨account, now, value, rfl, hvalue, List.mem_singleton.mp ho'⟩
  | request now r =>
      obtain ⟨value, index, hvalue, heq⟩ := call_request ho hcall
      exact .inl ⟨now, r, value, index, rfl, hvalue, heq⟩
  | answer ticket response => exact absurd (call?_answer s ticket response o ho) hnone

/-! ## Verification -/

/-- An account signs a call that is verified. -/
theorem verify_sign (henv : env.mac.Computes hmac secret text)
    (hreg : Registered env credentials secrets) (h : Sound credentials connections secret s)
    {account : String} {value : Account M} (hvalue : s.accounts account = some value)
    (now timeout : ℤ) (method : Method) (path body : String) :
    Crypto.verify env.hex hmac secrets
        ⟨method, path, (value.crypto.createHeaders env.mac env.hex
          (Crypto.computeExpires now timeout) method path body).2, body⟩ =
      some (value.crypto.key, Crypto.expiresSecs now timeout) := by
  have hkey := h.key account value hvalue
  exact Crypto.verify_createHeaders env.hex henv (hreg.known _ _ _ hkey) (hreg.keys _ _ _ hkey)
    hreg.digests _ method path body

/-- What an input puts out is verified. -/
theorem verified_step (henv : env.mac.Computes hmac secret text)
    (hreg : Registered env credentials secrets) (h : Sound credentials connections secret s)
    (now : ℤ) (i : Input) :
    ∀ o ∈ (step env s i).2, Verified env hmac credentials secrets (clock.input s now i) o := by
  intro o ho call hcall
  rcases call_cases ho hcall with ⟨now', r, value, index, rfl, hvalue, rfl⟩ |
    ⟨account, now', value, rfl, hvalue, rfl⟩
  · cases hcall
    exact ⟨r.account, _, _, _, rfl, h.key _ _ hvalue,
      verify_sign henv hreg h hvalue now' env.expiresTimeout r.method r.path (r.body env.fmt),
      Crypto.expiresSecs_bounds now' env.expiresTimeout⟩
  · cases hcall
    exact ⟨account, _, _, _, rfl, h.key _ _ hvalue,
      verify_sign henv hreg h hvalue now' requestExpires .get API.create.realtime "",
      Crypto.expiresSecs_bounds now' requestExpires⟩

/-- The paths of the calls end where the second begins. -/
theorem distinct_paths : Signed.Distinct API.create.paths where
  slash := by decide
  separated path hpath path' hpath' hprefix c hc := by
    -- one path is the beginning of another one, which goes on with a slash
    have hall : ∀ path ∈ API.create.paths, ∀ path' ∈ API.create.paths,
        path.toList <+: path'.toList →
          ((path'.toList.drop path.toList.length).head?).all (! Decimal.isDecimal ·) = true := by
      decide
    have hdecimal := hall path hpath path' hpath' hprefix
    rw [hc, Option.all_some] at hdecimal
    simpa using hdecimal

/-- A body is an object or nothing. -/
theorem body_mem_bodies (fmt : Double → String) (r : OrderRequest) :
    (r.body fmt).toList ∈ Signed.bodies := by
  have hobject : ∀ text : List Char, '{' :: text ∈ Signed.bodies := by
    rintro text c hc
    rw [List.head?_cons, Option.some.injEq] at hc
    subst hc
    decide
  cases r with
  | createOrder source account orderId value requestId =>
      have hbody := @Json.Encoder.toList_body fmt (.place value requestId)
      exact hbody ▸ hobject _
  | modifyOrder source account orderId version value order requestId previousRequestId =>
      have hbody := @Json.Encoder.toList_body fmt (.modify value requestId previousRequestId)
      exact hbody ▸ hobject _
  | cancelOrder source account orderId version order requestId previousRequestId =>
      have hbody : (Json.Encoder.cancelOrder order.externalOrderId requestId
          previousRequestId).toList =
            '{' :: ("\"orderID\":\"" ++ order.externalOrderId ++ "\"\x7d").toList := by
        simp [Json.Encoder.cancelOrder]
      exact hbody ▸ hobject _
  | cancelAllOrders account value requestId =>
      rintro c ⟨⟩

/-- A call of the gateway: one of its paths, and a body that is an object or nothing. -/
def IsCall (call : Crypto.Call) : Prop :=
  call.path ∈ API.create.paths ∧ call.body.toList ∈ Signed.bodies

/-- What an input puts out are calls of the gateway. -/
theorem isCall_step (s : State M) (i : Input) :
    ∀ o ∈ (step env s i).2, ∀ call, o.call? = some call → IsCall call := by
  intro o ho call hcall
  have hpaths : ∀ r : OrderRequest, r.path ∈ API.create.paths := by
    intro r
    cases r <;> simp [OrderRequest.path, API.paths]
  rcases call_cases ho hcall with ⟨now, r, value, index, -, -, rfl⟩ |
    ⟨account, now, value, -, -, rfl⟩
  · cases hcall
    exact ⟨hpaths r, body_mem_bodies env.fmt r⟩
  · cases hcall
    refine ⟨by simp [API.paths], ?_⟩
    rintro c ⟨⟩

/-- What a run puts out are calls of the gateway. -/
theorem isCall_of_mem {is : List Input} {o : Output} (ho : o ∈ (orderRequests env).outputs s is)
    {call : Crypto.Call} (hcall : o.call? = some call) : IsCall call := by
  rw [← Machine.visible_batch] at ho
  exact Machine.batch_forall (m := orderRequests env)
    (p := fun o => ∀ call, o.call? = some call → IsCall call) isCall_step s is o
    (Machine.mem_of_mem_visible ho) call hcall

/-- What is signed of a call that expires at a second. -/
def signedOf (call : Crypto.Call) (expires : ℤ) : Signed :=
  ⟨call.method, call.path, expires, call.body⟩

/-- **One text for one call.** Whatever two calls are made, by the gateway or by two of them, in any
runs: the texts that are signed are the same only if the calls are, and expire at the same
second. -/
theorem signed_inj {env env' : Environment M} {s s' : State M} {is is' : List Input}
    {o o' : Output} (ho : o ∈ (orderRequests env).outputs s is)
    (ho' : o' ∈ (orderRequests env').outputs s' is') {call call' : Crypto.Call}
    (hcall : o.call? = some call) (hcall' : o'.call? = some call') {expires expires' : ℤ}
    (h : (signedOf call expires).text = (signedOf call' expires').text) :
    signedOf call expires = signedOf call' expires' := by
  obtain ⟨hpath, hbody⟩ := isCall_of_mem ho hcall
  obtain ⟨hpath', hbody'⟩ := isCall_of_mem ho' hcall'
  exact Signed.text_inj distinct_paths hpath hpath' hbody hbody' h

/-- The same request, of one gateway and of another one whose first connection takes it. -/
theorem signed_inj_cancelsAll :
    ∃ o ∈ (orderRequests oneAccount).outputs (init oneAccount oneAccountCredentials 2) cancelsAll,
      ∃ o' ∈ (orderRequests oneAccount).outputs (init oneAccount oneAccountCredentials 1)
        [.connected "A1" 0,
          .request 1518064231000000000 (.cancelAllOrders "A1" ⟨0, "", "", .undefined, 0⟩ "r1")],
        ∃ call call', o.call? = some call ∧ o'.call? = some call' ∧
          signedOf call 1518064236 = signedOf call' 1518064236 := by
  have hlength : 4 < ((orderRequests oneAccount).outputs (init oneAccount oneAccountCredentials 2)
      cancelsAll).length := by decide +kernel
  have hlength' : 1 < ((orderRequests oneAccount).outputs (init oneAccount oneAccountCredentials 1)
      [.connected "A1" 0,
        .request 1518064231000000000
          (.cancelAllOrders "A1" ⟨0, "", "", .undefined, 0⟩ "r1")]).length := by decide +kernel
  exact ⟨_, List.getElem_mem hlength, _, List.getElem_mem hlength', _, _, rfl, rfl,
    signed_inj (List.getElem_mem hlength) (List.getElem_mem hlength') rfl rfl rfl⟩

end OrderRequests

end RoqBitmex
