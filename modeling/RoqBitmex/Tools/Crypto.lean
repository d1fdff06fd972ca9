import RoqBitmex.Library.Decimal
import RoqBitmex.Library.Fields
import RoqBitmex.Library.Headers

/-! # Signed calls

Every call to the exchange is signed: `Crypto` digests the method, the path, the time the call
expires and the body, with nothing between them, and writes the headers the exchange verifies. The
message authentication code and the hexadecimal codec are not part of the repository, so they are
given; `Mac.Computes` is what is relied on. An account has one `Crypto` for all its sessions, and
its code is cleared before each signature, so that a call is signed alike whatever has been signed
before (`createHeaders_eq`). -/

namespace RoqBitmex

universe u

/-- `web::http::Method`, as far as it is used. -/
inductive Method where
  | get
  | post
  | put
  | delete
  deriving DecidableEq, Repr

/-- `magic_enum::enum_name` of a method. -/
def Method.enumName : Method → String
  | .get => "GET"
  | .post => "POST"
  | .put => "PUT"
  | .delete => "DELETE"

/-- `utils::mac::HMAC`: a code is created with a secret, cleared, updated with texts, and gives a
digest. -/
structure Mac (M : Type u) where
  create : String → M
  clear : M → M
  update : M → String → M
  final : M → M × List UInt8

/-- What is relied on of a code: it keeps its secret, and its digest is a function of the secret and
of what it was updated with since it was cleared. -/
structure Mac.Computes {M : Type u} (mac : Mac M) (hmac : String → String → List UInt8)
    (secret text : M → String) : Prop where
  create : ∀ key, secret (mac.create key) = key
  secret_clear : ∀ m, secret (mac.clear m) = secret m
  secret_update : ∀ m t, secret (mac.update m t) = secret m
  secret_final : ∀ m, secret (mac.final m).1 = secret m
  clear : ∀ m, text (mac.clear m) = ""
  update : ∀ m t, text (mac.update m t) = text m ++ t
  final : ∀ m, (mac.final m).2 = hmac (secret m) (text m)

/-- A code that keeps its secret and its text, and digests them in the end. -/
def Mac.recording (hmac : String → String → List UInt8) : Mac (String × String) where
  create secret := (secret, "")
  clear m := (m.1, "")
  update m text := (m.1, m.2 ++ text)
  final m := (m, hmac m.1 m.2)

/-- Whatever digests secrets and texts can be relied on. -/
theorem Mac.computes_recording (hmac : String → String → List UInt8) :
    (Mac.recording hmac).Computes hmac Prod.fst Prod.snd := by
  constructor <;> intros <;> rfl

/-- `tools::Crypto`: the key, and the code that was created with the secret. -/
structure Crypto (M : Type u) where
  key : String
  mac : M

/-- What is signed of a call. -/
structure Signed where
  method : Method
  path : String
  /-- The second the call expires. -/
  expires : ℤ
  body : String
  deriving DecidableEq, Repr

/-- The text that is signed: the parts of the call with nothing between them. -/
def Signed.text (call : Signed) : String :=
  call.method.enumName ++ call.path ++ toString call.expires ++ call.body

namespace Signed

/-! ## One text for one call -/

/-- The names of methods. -/
def methods : Language Char := {text | ∃ method : Method, text = method.enumName.toList}

/-- The paths of some calls. -/
def pathsOf (paths : List String) : Language Char := {text | ∃ path ∈ paths, text = path.toList}

/-- The seconds that calls expire. -/
def seconds : Language Char := {text | ∃ z : ℤ, text = (toString z).toList}

/-- The bodies that a decimal does not go on into. -/
def bodies : Language Char :=
  {text | ∀ c, text.head? = some c → Decimal.isDecimal c = false}

/-- The paths begin with a slash, and none goes on with a decimal where another one ends. -/
structure Distinct (paths : List String) : Prop where
  slash : ∀ path ∈ paths, path.toList.head? = some '/'
  separated : ∀ path ∈ paths, ∀ path' ∈ paths, path.toList <+: path'.toList →
    ∀ c, (path'.toList.drop path.toList.length).head? = some c → Decimal.isDecimal c = false

/-- A method ends where a path begins. -/
theorem separated_methods {T : Language Char}
    (hT : ∀ text ∈ T, ∃ c, text.head? = some c ∧ (c == '/') = true) :
    Fields.Separated methods T := by
  apply Fields.separated_of_class (· != '/')
  · rintro _ ⟨method, rfl⟩
    rw [← List.all_eq_true]
    cases method <;> rfl
  · intro text htext c hc
    obtain ⟨c', hc', hslash⟩ := hT text htext
    rw [hc, Option.some.injEq] at hc'
    subst hc'
    simpa using hslash

/-- A path ends where the second begins. -/
theorem separated_paths {paths : List String} (hpaths : Distinct paths) {T : Language Char}
    (hT : ∀ text ∈ T, ∃ c, text.head? = some c ∧ Decimal.isDecimal c = true) :
    Fields.Separated (pathsOf paths) T := by
  apply Fields.separated_of_prefix
  rintro _ rest ⟨path, hpath, rfl⟩ ⟨path', hpath', heq⟩ hne text htext hprefix
  obtain ⟨c, rest, rfl⟩ := List.exists_cons_of_ne_nil hne
  -- the rest of the longer path would begin with the letter that the second begins with
  have hdrop : (path'.toList.drop path.toList.length).head? = some c := by
    rw [← heq, List.drop_left]
    rfl
  have hnot := hpaths.separated path hpath path' hpath' ⟨_, heq⟩ c hdrop
  obtain ⟨c', hc', hdecimal⟩ := hT text htext
  obtain ⟨after, rfl⟩ := hprefix
  obtain rfl : c = c' := Option.some.inj hc'
  rw [hnot] at hdecimal
  cases hdecimal

/-- The second ends where the body begins. -/
theorem separated_seconds : Fields.Separated seconds bodies := by
  apply Fields.separated_of_class Decimal.isDecimal
  · rintro _ ⟨z, rfl⟩ c hc
    exact Decimal.isDecimal_of_mem hc
  · exact fun _ hbody => hbody

/-- **One text for one call.** Where no body begins with a letter of a decimal, what is signed of a
call tells it apart from every other call. -/
theorem text_inj {paths : List String} (hpaths : Distinct paths) {call call' : Signed}
    (hpath : call.path ∈ paths) (hpath' : call'.path ∈ paths)
    (hbody : call.body.toList ∈ bodies) (hbody' : call'.body.toList ∈ bodies)
    (h : call.text = call'.text) : call = call' := by
  have hseconds : ∀ text ∈ seconds * bodies,
      ∃ c, text.head? = some c ∧ Decimal.isDecimal c = true := by
    intro text htext
    refine Fields.head?_of_mem_mul ?_ htext
    rintro _ ⟨z, rfl⟩
    exact Decimal.exists_head z
  have hslash : ∀ text ∈ pathsOf paths * (seconds * bodies),
      ∃ c, text.head? = some c ∧ (c == '/') = true := by
    intro text htext
    refine Fields.head?_of_mem_mul ?_ htext
    rintro _ ⟨path, hpath, rfl⟩
    exact ⟨'/', hpaths.slash path hpath, rfl⟩
  -- the fields are read one after another, each ending where the next one begins
  obtain ⟨method, path, expires, body⟩ := call
  obtain ⟨method', path', expires', body'⟩ := call'
  have hlist := congrArg String.toList h
  simp only [text, String.toList_append, List.append_assoc] at hlist
  have hmem : ∀ {p : String} {z : ℤ} {b : String}, p ∈ paths → b.toList ∈ bodies →
      p.toList ++ ((toString z).toList ++ b.toList) ∈ pathsOf paths * (seconds * bodies) :=
    fun hp hb => Language.append_mem_mul ⟨_, hp, rfl⟩ (Language.append_mem_mul ⟨_, rfl⟩ hb)
  obtain ⟨hmethod, hrest⟩ := separated_methods hslash _ ⟨method, rfl⟩ _ ⟨method', rfl⟩ _
    (hmem hpath hbody) _ (hmem hpath' hbody') hlist
  obtain ⟨hp, he, hb⟩ := Fields.Separated.inj₃ (separated_paths hpaths hseconds)
    separated_seconds ⟨path, hpath, rfl⟩ ⟨path', hpath', rfl⟩ ⟨expires, rfl⟩ ⟨expires', rfl⟩
    hbody hbody' hrest
  obtain rfl : method = method' := by
    revert hmethod
    cases method <;> cases method' <;> decide
  obtain rfl : path = path' := String.toList_inj.mp hp
  obtain rfl : expires = expires' := Decimal.toString_inj (String.toList_inj.mp he)
  obtain rfl : body = body' := String.toList_inj.mp hb
  rfl

end Signed

namespace Crypto

/-! ## Signing -/

/-- `create_timestamp_secs`. -/
def createTimestampSecs (value : ℤ) : String := toString (value.tdiv 1000000000)

variable {M : Type u} (mac : Mac M) (hex : List UInt8 → String)

/-- The constructor of `Crypto`. -/
def create (key secret : String) : Crypto M := ⟨key, mac.create secret⟩

/-- `Crypto::create_signature`. -/
def createSignature (self : Crypto M) (expires : ℤ) (method : Method) (path body : String) :
    Crypto M × String :=
  let m := mac.clear self.mac
  let m := mac.update m method.enumName
  let m := mac.update m path
  let m := mac.update m (createTimestampSecs expires)
  let m := if body ≠ "" then mac.update m body else m
  -- the code goes back to the account, so the next signature begins by clearing it
  let (m, digest) := mac.final m
  ({ self with mac := m }, hex digest)

/-- `Crypto::create_headers`. -/
def createHeaders (self : Crypto M) (expires : ℤ) (method : Method) (path body : String) :
    Crypto M × String :=
  let (self, signature) := self.createSignature mac hex expires method path body
  (self, "api-signature: " ++ signature ++ "\r\n" ++
    "api-expires: " ++ createTimestampSecs expires ++ "\r\n" ++
    "api-key: " ++ self.key ++ "\r\n")

/-- `compute_expires`: now and a time-out, rounded up to a second. -/
def computeExpires (now timeout : ℤ) : ℤ :=
  let result := now + timeout
  let seconds := result.tdiv 1000000000
  (if seconds * 1000000000 < result then seconds + 1 else seconds) * 1000000000

/-- The second that a call expires. -/
def expiresSecs (now timeout : ℤ) : ℤ := (computeExpires now timeout).tdiv 1000000000

/-- Whole seconds are kept. -/
theorem tdiv_seconds (k : ℤ) : (k * 1000000000).tdiv 1000000000 = k :=
  Int.mul_tdiv_cancel k (by decide)

/-- A call expires a time-out from now, or less than a second later. -/
theorem expiresSecs_bounds (now timeout : ℤ) :
    now + timeout ≤ expiresSecs now timeout * 1000000000 ∧
      expiresSecs now timeout * 1000000000 < now + timeout + 1000000000 := by
  unfold expiresSecs computeExpires
  dsimp only
  rw [tdiv_seconds]
  -- what the cast cuts off is less than a second, whatever its sign
  have htrunc := Int.mul_tdiv_add_tmod (now + timeout) 1000000000
  have hlt : (now + timeout).tmod 1000000000 < 1000000000 := Int.tmod_lt_of_pos _ (by decide)
  have hgt : -1000000000 < (now + timeout).tmod 1000000000 := Int.lt_tmod_of_pos _ (by decide)
  split <;> omega

/-! ## The exchange's side -/

/-- A call as the exchange receives it. -/
structure Call where
  method : Method
  path : String
  headers : String
  body : String
  deriving DecidableEq, Repr

/-- The key of a call and the second it expires, if its signature is that of the call with the
secret of the key. -/
def verify (hmac : String → String → List UInt8) (secrets : String → Option String) (call : Call) :
    Option (String × ℤ) := do
  let headers ← Header.parse call.headers.toList
  let key ← Header.field "api-key" headers
  let expires ← Header.field "api-expires" headers
  let signature ← Header.field "api-signature" headers
  let secret ← secrets (.ofList key)
  if .ofList signature =
      hex (hmac secret (call.method.enumName ++ call.path ++ .ofList expires ++ call.body)) then
    some (.ofList key, Decimal.read expires)
  else none

/-- The headers of a call. -/
def headersOf (signature : String) (expires : ℤ) (key : String) : List Header :=
  [⟨"api-signature".toList, signature.toList⟩, ⟨"api-expires".toList, (toString expires).toList⟩,
    ⟨"api-key".toList, key.toList⟩]

/-- The headers are a block. -/
theorem toList_headers (signature : String) (expires : ℤ) (key : String) :
    ("api-signature: " ++ signature ++ "\r\n" ++ "api-expires: " ++ toString expires ++ "\r\n" ++
      "api-key: " ++ key ++ "\r\n").toList = Header.block (headersOf signature expires key) := by
  simp [Header.block, Header.written, headersOf]

/-- The headers of a call are plain if its signature and its key are. -/
theorem plain_headersOf {signature : String} (expires : ℤ) {key : String}
    (hsignature : '\r' ∉ signature.toList) (hkey : '\r' ∉ key.toList) :
    ∀ x ∈ headersOf signature expires key, x.Plain := by
  have hexpires : '\r' ∉ (toString expires).toList := by
    intro hmem
    exact absurd (Decimal.isDecimal_of_mem hmem) (by decide)
  have hname : ':' ∉ "api-signature".toList ∧ ':' ∉ "api-expires".toList ∧
      ':' ∉ "api-key".toList := by decide
  simp only [headersOf, List.forall_mem_cons]
  exact ⟨⟨hname.1, hsignature⟩, ⟨hname.2.1, hexpires⟩, ⟨hname.2.2, hkey⟩, by simp⟩

/-- The headers are found by their names. -/
theorem field_headersOf (signature : String) (expires : ℤ) (key : String) :
    Header.field "api-key" (headersOf signature expires key) = some key.toList ∧
      Header.field "api-expires" (headersOf signature expires key) =
        some (toString expires).toList ∧
      Header.field "api-signature" (headersOf signature expires key) = some signature.toList := by
  unfold Header.field headersOf
  refine ⟨?_, ?_, ?_⟩
  · rw [List.find?_cons_of_neg, List.find?_cons_of_neg, List.find?_cons_of_pos]
    · rfl
    · exact decide_eq_true rfl
    · simp
    · simp
  · rw [List.find?_cons_of_neg, List.find?_cons_of_pos]
    · rfl
    · exact decide_eq_true rfl
    · simp
  · rw [List.find?_cons_of_pos]
    · rfl
    · exact decide_eq_true rfl

section Computes

variable {mac} {hmac : String → String → List UInt8} {secret text : M → String}

/-- **A signature does not depend on what has been signed before.** It is the digest of the call's
text, and the secret is kept. -/
theorem createSignature_eq (h : mac.Computes hmac secret text) (self : Crypto M) (expires : ℤ)
    (method : Method) (path body : String) :
    let r := self.createSignature mac hex expires method path body
    r.2 = hex (hmac (secret self.mac)
        (Signed.text ⟨method, path, expires.tdiv 1000000000, body⟩)) ∧
      r.1.key = self.key ∧ secret r.1.mac = secret self.mac := by
  have hbody : ∀ m : M, secret (if body ≠ "" then mac.update m body else m) = secret m ∧
      text (if body ≠ "" then mac.update m body else m) = text m ++ body := by
    intro m
    split
    · exact ⟨h.secret_update m body, h.update m body⟩
    · next hempty =>
        -- an empty body is not digested, which comes to the same
        obtain rfl : body = "" := not_not.mp hempty
        exact ⟨rfl, by simp⟩
  simp only [createSignature, createTimestampSecs, h.final, h.secret_final, (hbody _).1,
    (hbody _).2, h.secret_update, h.secret_clear, h.update, h.clear, String.empty_append]
  exact ⟨rfl, trivial, trivial⟩

/-- The headers carry the signature, the second the call expires and the key. -/
theorem createHeaders_eq (h : mac.Computes hmac secret text) (self : Crypto M) (expires : ℤ)
    (method : Method) (path body : String) :
    (self.createHeaders mac hex expires method path body).2 =
      "api-signature: " ++
        hex (hmac (secret self.mac)
          (Signed.text ⟨method, path, expires.tdiv 1000000000, body⟩)) ++ "\r\n" ++
        "api-expires: " ++ toString (expires.tdiv 1000000000) ++ "\r\n" ++
        "api-key: " ++ self.key ++ "\r\n" := by
  obtain ⟨hsignature, hkey, -⟩ := createSignature_eq hex h self expires method path body
  simp only [createHeaders, hsignature, hkey, createTimestampSecs]

/-- The key and the secret are kept. -/
theorem createHeaders_keeps (h : mac.Computes hmac secret text) (self : Crypto M) (expires : ℤ)
    (method : Method) (path body : String) :
    (self.createHeaders mac hex expires method path body).1.key = self.key ∧
      secret (self.createHeaders mac hex expires method path body).1.mac = secret self.mac :=
  (createSignature_eq hex h self expires method path body).2

/-- **The exchange verifies what was signed.** The headers of a call read back, and their signature
is that of the call as it is received, with the secret of the account. -/
theorem verify_createHeaders (h : mac.Computes hmac secret text) {secrets : String → Option String}
    {self : Crypto M} (hsecret : secrets self.key = some (secret self.mac))
    (hkey : '\r' ∉ self.key.toList) (hhex : ∀ digest, '\r' ∉ (hex digest).toList) (expires : ℤ)
    (method : Method) (path body : String) :
    verify hex hmac secrets
        ⟨method, path, (self.createHeaders mac hex expires method path body).2, body⟩ =
      some (self.key, expires.tdiv 1000000000) := by
  rw [createHeaders_eq hex h]
  have hsignature := hhex (hmac (secret self.mac)
    (Signed.text ⟨method, path, expires.tdiv 1000000000, body⟩))
  have hparse := Header.parse_block (plain_headersOf (expires.tdiv 1000000000) hsignature hkey)
  obtain ⟨hkeyField, hexpiresField, hsignatureField⟩ := field_headersOf
    (hex (hmac (secret self.mac) (Signed.text ⟨method, path, expires.tdiv 1000000000, body⟩)))
    (expires.tdiv 1000000000) self.key
  unfold verify
  rw [toList_headers, hparse]
  simp only [Option.bind_eq_bind, Option.bind_some, hkeyField, hexpiresField, hsignatureField,
    String.ofList_toList, hsecret, Decimal.read_toString]
  exact if_pos rfl

end Computes

end Crypto

end RoqBitmex
