import CfIntegration.Foundation.Action
import CfIntegration.Fixture.ControlPlane

/-! # The fixture client

One authenticated client sends requests to the control plane. Any request may be
refused or lose its reply, and the plane may or may not have applied it then; it
has settled which before the client observes the outcome.
-/

namespace CfIntegration.Fixture

def redacted : String := "<redacted>"

/-- Replace the non-overlapping occurrences of a pattern, from left to right. -/
def replaceAll (pattern replacement : List Char) : List Char → List Char
  | [] => []
  | character :: rest =>
      if pattern ≠ [] ∧ pattern.isPrefixOf (character :: rest) then
        replacement ++ replaceAll pattern replacement (rest.drop (pattern.length - 1))
      else
        character :: replaceAll pattern replacement rest
  termination_by text => text.length
  decreasing_by
    · rw [List.length_drop, List.length_cons]
      omega
    · exact Nat.lt_succ_self _

def redact (value token : String) : String :=
  if token = "" then value
  else String.ofList (replaceAll token.toList redacted.toList value.toList)

def isTokenChar (character : Char) : Bool :=
  character.isAlphanum || ['-', '.', '_', '~', '+', '/'].contains character

def isValidBearerToken (token : String) : Bool :=
  let unpadded := token.toList.takeWhile fun character => character ≠ '='
  let padding := token.toList.dropWhile fun character => character ≠ '='
  !unpadded.isEmpty && unpadded.all isTokenChar && padding.all fun character => character = '='

def requiredReconciliationQuietAttempts : Nat := 2

structure ConformanceFixtureClientBuilder where
  baseUrl : String
  adminToken : String
  maxAttempts : Nat := 40
  /-- In nanoseconds. -/
  requestTimeout : Nat := 30 * 1000000000
  reconciliationAttempts : Nat := 5
  deriving Repr

structure ConformanceFixtureClient where
  baseUrl : String
  adminToken : String
  maxAttempts : Nat
  requestTimeout : Nat
  reconciliationAttempts : Nat
  maxAttempts_pos : 0 < maxAttempts
  requestTimeout_pos : 0 < requestTimeout
  quietAttempts_le : requiredReconciliationQuietAttempts ≤ reconciliationAttempts
  validToken : isValidBearerToken adminToken = true
  deriving Repr

/-- The check of the base URL rests on a URL parser; it is a parameter here. -/
def ConformanceFixtureClientBuilder.build (validateBaseUrl : String → Except String String)
    (builder : ConformanceFixtureClientBuilder) : Except String ConformanceFixtureClient :=
  if hattempts : builder.maxAttempts = 0 then
    .error "max_attempts must be greater than zero"
  else if htimeout : builder.requestTimeout = 0 then
    .error "request_timeout must be greater than zero"
  else if hquiet : builder.reconciliationAttempts < requiredReconciliationQuietAttempts then
    .error "reconciliation_attempts must allow at least two quiet polls"
  else
    match validateBaseUrl builder.baseUrl with
    | .error message => .error message
    | .ok baseUrl =>
        if htoken : isValidBearerToken builder.adminToken = true then
          .ok {
            baseUrl
            adminToken := builder.adminToken
            maxAttempts := builder.maxAttempts
            requestTimeout := builder.requestTimeout
            reconciliationAttempts := builder.reconciliationAttempts
            maxAttempts_pos := Nat.pos_of_ne_zero hattempts
            requestTimeout_pos := Nat.pos_of_ne_zero htimeout
            quietAttempts_le := Nat.le_of_not_lt hquiet
            validToken := htoken }
        else .error "admin token must be a valid RFC 6750 bearer token"

inductive Method where
  | get
  | post
  | delete
  deriving DecidableEq, Repr

def Method.name : Method → String
  | .get => "GET"
  | .post => "POST"
  | .delete => "DELETE"

/-- Why a successful answer could not be read. -/
inductive BodyFailure where
  | timedOut
  | invalid
  deriving DecidableEq, Repr

/-- Redirects are not followed, so every other status is a failure. -/
abbrev FailureStatus := { status : Nat // ¬ (200 ≤ status ∧ status < 300) }

inductive Response (α : Type) where
  | success (body : Except BodyFailure α)
  | failure (status : FailureStatus) (detail : Option String)

/-- What becomes of one request. -/
inductive Fate where
  | answered (unreadable : Option BodyFailure)
  | refused (applied : Bool) (status : FailureStatus) (detail : Option String)
  | unanswered (applied : Bool) (timedOut : Bool)

/-- The plane applied the request. It answers "not found" to a deletion only when
it has no such record any more. -/
def Fate.applied (method : Method) : Fate → Bool
  | .answered _ => true
  | .refused applied status _ => applied || (method = .delete && status.val = 404)
  | .unanswered applied _ => applied

/-- The plane's side of one request: the catalog records it discovered since the
last one, the id it would give a new gateway and what becomes of the request. -/
structure Turn where
  discovered : Catalogs
  newId : String
  fate : Fate

abbrev Network := Nat → Turn

/-- What the client learned from a listing, and the paths to which it sent deletions. -/
inductive FixtureEvent where
  | gateways (records : List GatewayRecord)
  | servers (records : List ServerRecord)
  | delete (path : List Char)
  deriving DecidableEq, Repr

structure World where
  plane : ControlPlane
  requests : Nat
  events : List FixtureEvent

abbrev FixtureAction (α : Type) := Action World String α

def emit (event : FixtureEvent) : FixtureAction Unit := fun world =>
  (.ok (), { world with events := world.events ++ [event] })

/-- The plane as the next request finds it. -/
def World.reached (network : Network) (world : World) : ControlPlane :=
  world.plane.discover (network world.requests).discovered

def decimal (whole fraction digits : Nat) : String :=
  if fraction = 0 then toString whole
  else
    let padded := (Nat.toDigits 10 fraction).leftpad digits '0'
    toString whole ++ "." ++
      String.ofList (padded.reverse.dropWhile fun digit => digit = '0').reverse

/-- A duration in nanoseconds, as the client's messages show it. -/
def durationDebug (nanos : Nat) : String :=
  if 1000000000 ≤ nanos then decimal (nanos / 1000000000) (nanos % 1000000000) 9 ++ "s"
  else if 1000000 ≤ nanos then decimal (nanos / 1000000) (nanos % 1000000) 6 ++ "ms"
  else if 1000 ≤ nanos then decimal (nanos / 1000) (nanos % 1000) 3 ++ "µs"
  else toString nanos ++ "ns"

def safeError (error token : String) : String := redact error token

namespace ConformanceFixtureClient

variable {α : Type}

def requestError (client : ConformanceFixtureClient) (method : Method) (path : String)
    (timedOut : Bool) : String :=
  redact
    (if timedOut then
      method.name ++ " " ++ path ++ " timed out after " ++ durationDebug client.requestTimeout
    else method.name ++ " " ++ path ++ " failed before receiving a response")
    client.adminToken

def responseError (client : ConformanceFixtureClient) (method : Method) (path : String)
    (status : FailureStatus) (detail : Option String) : String :=
  let suffix := match detail with
    | some detail => if detail = "" then "" else ": " ++ detail
    | none => ""
  redact
    (method.name ++ " " ++ path ++ " returned HTTP " ++ toString status.val ++ suffix)
    client.adminToken

/-- What the client sees of a request's fate. -/
def response (client : ConformanceFixtureClient) (method : Method) (path : String) (answer : α) :
    Fate → Except String (Response α)
  | .answered none => .ok (.success (.ok answer))
  | .answered (some unreadable) => .ok (.success (.error unreadable))
  | .refused _ status detail => .ok (.failure status detail)
  | .unanswered _ timedOut => .error (client.requestError method path timedOut)

/-- Send one request. The plane handles it with `handle`, given the id it would
assign; the result is the plane afterwards and the body of its answer. -/
def request (client : ConformanceFixtureClient) (network : Network) (method : Method)
    (path : String) (handle : String → ControlPlane → ControlPlane × α) :
    FixtureAction (Response α) := fun world =>
  let turn := network world.requests
  let handled := handle turn.newId (world.reached network)
  (client.response method path handled.2 turn.fate,
    { world with
      plane := if turn.fate.applied method then handled.1 else world.reached network
      requests := world.requests + 1 })

def parseJson (client : ConformanceFixtureClient) (method : Method) (path : String) :
    Response α → Except String α
  | .failure status detail => .error (client.responseError method path status detail)
  | .success (.ok value) => .ok value
  | .success (.error .timedOut) => .error (redact
      ("response body from " ++ path ++ " timed out after " ++
        durationDebug client.requestTimeout) client.adminToken)
  | .success (.error .invalid) =>
      .error (redact (method.name ++ " " ++ path ++ " returned invalid JSON") client.adminToken)

def getJson (client : ConformanceFixtureClient) (network : Network) (path : String)
    (list : ControlPlane → α) : FixtureAction α := do
  let response ← client.request network .get path fun _ plane => (plane, list plane)
  Action.ofExcept (client.parseJson .get path response)

def postJson (client : ConformanceFixtureClient) (network : Network) (path : String)
    (handle : String → ControlPlane → ControlPlane × α) : FixtureAction α := do
  let response ← client.request network .post path handle
  Action.ofExcept (client.parseJson .post path response)

def postSuccess (client : ConformanceFixtureClient) (network : Network) (path : String)
    (effect : ControlPlane → ControlPlane) : FixtureAction Unit := do
  let response ← client.request network .post path fun _ plane => (effect plane, ())
  match response with
  | .success _ => pure ()
  | .failure status detail => Action.fail (client.responseError .post path status detail)

def delete (client : ConformanceFixtureClient) (network : Network) (collection : Collection)
    (id : String) : FixtureAction Unit := do
  let path := "/" ++ collection.name ++ "/" ++ id
  emit (.delete (itemPath collection id))
  let response ← client.request network .delete path fun _ plane =>
    (plane.delete (itemPath collection id), ())
  match response with
  | .success _ => pure ()
  | .failure status detail =>
      if status.val = 404 then pure ()
      else Action.fail (client.responseError .delete path status detail)

/-- A listing that the log keeps. -/
def listing (client : ConformanceFixtureClient) (network : Network) (path : String)
    (list : ControlPlane → α) (event : α → FixtureEvent) : FixtureAction α := do
  let records ← client.getJson network path list
  emit (event records)
  return records

def listGateways (client : ConformanceFixtureClient) (network : Network) :
    FixtureAction (List GatewayRecord) :=
  client.listing network "/gateways" ControlPlane.listGateways .gateways

def listServers (client : ConformanceFixtureClient) (network : Network) :
    FixtureAction (List ServerRecord) :=
  client.listing network "/servers" ControlPlane.listServers .servers

end ConformanceFixtureClient

/-- The outcome of one request: it was applied to the plane as it was reached, or
not at all, and an answer tells that it was. -/
structure Requested {α : Type} (network : Network) (method : Method)
    (handle : String → ControlPlane → ControlPlane × α) (start : World)
    (result : Except String (Response α)) (state : World) : Prop where
  plane : state.plane = start.reached network ∨
    state.plane = (handle (network start.requests).newId (start.reached network)).1
  success : ∀ body, result = .ok (.success body) →
    state.plane = (handle (network start.requests).newId (start.reached network)).1
  value : ∀ value, result = .ok (.success (.ok value)) →
    value = (handle (network start.requests).newId (start.reached network)).2
  notFound : ∀ status detail, method = .delete → result = .ok (.failure status detail) →
    status.val = 404 →
    state.plane = (handle (network start.requests).newId (start.reached network)).1
  events : state.events = start.events

namespace ConformanceFixtureClient

variable {α : Type} (client : ConformanceFixtureClient) (network : Network)

/-- What a request leaves of the plane, and what its reply can be. -/
theorem request_ensures (method : Method) (path : String)
    (handle : String → ControlPlane → ControlPlane × α) (start : World) :
    (client.request network method path handle).Ensures start
      (Requested network method handle start) := by
  unfold Action.Ensures Action.run request
  simp only
  cases (network start.requests).fate with
  | answered unreadable =>
      refine ⟨.inr rfl, fun _ _ => rfl, fun value hvalue => ?_, fun _ _ _ hresult => ?_, rfl⟩
      · cases unreadable <;> simp_all [response]
      · cases unreadable <;> simp [response] at hresult
  | refused applied status detail =>
      refine ⟨?_, fun _ hresult => by simp [response] at hresult,
        fun _ hresult => by simp [response] at hresult, ?_, rfl⟩
      · exact (ite_eq_or_eq _ _ _).symm
      · rintro _ _ rfl hresult hstatus
        obtain ⟨rfl, rfl⟩ : status = _ ∧ detail = _ := by simpa [response] using hresult
        exact if_pos (by simp [Fate.applied, hstatus])
  | unanswered applied timedOut =>
      refine ⟨?_, fun _ hresult => by simp [response] at hresult,
        fun _ hresult => by simp [response] at hresult,
        fun _ _ _ hresult => by simp [response] at hresult, rfl⟩
      exact (ite_eq_or_eq _ _ _).symm

/-- A value is parsed from a successful response with that body only. -/
@[simp] theorem parseJson_eq_ok {method : Method} {path : String} {response : Response α}
    {value : α} :
    client.parseJson method path response = .ok value ↔ response = .success (.ok value) := by
  rcases response with ((_ | _) | _) | _ <;> simp [parseJson]

/-- A fetched value is what the plane listed. -/
theorem getJson_ensures (path : String) (list : ControlPlane → α) (start : World) :
    (client.getJson network path list).Ensures start fun result state =>
      state.plane = start.reached network ∧ state.events = start.events ∧
        ∀ value, result = .ok value → value = list state.plane := by
  refine (client.request_ensures network .get path _ start).bind ?_ ?_
  · intro response state hrequest
    have hplane : state.plane = start.reached network := hrequest.plane.elim id id
    refine ⟨hplane, hrequest.events, fun value hvalue => ?_⟩
    change client.parseJson .get path response = .ok value at hvalue
    change value = list state.plane
    rw [hplane]
    exact hrequest.value value (congrArg Except.ok ((parseJson_eq_ok client).mp hvalue))
  · intro error state hrequest
    exact ⟨hrequest.plane.elim id id, hrequest.events, by simp⟩

/-- A listing that succeeds is recorded with what it showed. -/
theorem listing_ensures (path : String) (list : ControlPlane → α) (event : α → FixtureEvent)
    (start : World) :
    (client.listing network path list event).Ensures start fun result state =>
      state.plane = start.reached network ∧
        (∀ records, result = .ok records → records = list state.plane ∧
          state.events = start.events ++ [event records]) ∧
        (∀ error, result = .error error → state.events = start.events) := by
  refine (client.getJson_ensures network path list start).bind ?_ ?_
  · rintro records state ⟨hplane, hevents, hrecords⟩
    refine ⟨hplane, fun listed hlisted => ?_, fun error herror => by cases herror⟩
    cases hlisted
    exact ⟨hrecords records rfl, by rw [← hevents]; rfl⟩
  · rintro error state ⟨hplane, hevents, -⟩
    exact ⟨hplane, by simp, fun _ _ => hevents⟩

/-- A posted record is applied once or not at all. -/
theorem postJson_ensures (path : String)
    (handle : String → ControlPlane → ControlPlane × α) (start : World) :
    (client.postJson network path handle).Ensures start fun result state =>
      let handled := handle (network start.requests).newId (start.reached network)
      (state.plane = start.reached network ∨ state.plane = handled.1) ∧
        state.events = start.events ∧
        ∀ value, result = .ok value → state.plane = handled.1 ∧ value = handled.2 := by
  refine (client.request_ensures network .post path handle start).bind ?_ ?_
  · intro response state hrequest
    refine ⟨hrequest.plane, hrequest.events, fun value hvalue => ?_⟩
    change client.parseJson .post path response = .ok value at hvalue
    obtain rfl := (parseJson_eq_ok client).mp hvalue
    exact ⟨hrequest.success _ rfl, hrequest.value _ rfl⟩
  · intro error state hrequest
    exact ⟨hrequest.plane, hrequest.events, by simp⟩

/-- An effect is applied once or not at all, and was if it succeeds. -/
theorem postSuccess_ensures (path : String) (effect : ControlPlane → ControlPlane)
    (start : World) :
    (client.postSuccess network path effect).Ensures start fun result state =>
      (state.plane = start.reached network ∨ state.plane = effect (start.reached network)) ∧
        state.events = start.events ∧
        (result = .ok () → state.plane = effect (start.reached network)) := by
  refine (client.request_ensures network .post path _ start).bind ?_ ?_
  · intro response state hrequest
    cases response with
    | success body => exact ⟨hrequest.plane, hrequest.events, fun _ => hrequest.success body rfl⟩
    | failure status detail =>
        refine ⟨hrequest.plane, hrequest.events, fun hresult => ?_⟩
        cases hresult
  · intro error state hrequest
    exact ⟨hrequest.plane, hrequest.events, by simp⟩

/-- A deletion is applied once or not at all; a record that is missing counts as deleted. -/
theorem delete_ensures (collection : Collection) (id : String) (start : World) :
    (client.delete network collection id).Ensures start fun result state =>
      (state.plane = start.reached network ∨
        state.plane = (start.reached network).delete (itemPath collection id)) ∧
        state.events = start.events ++ [.delete (itemPath collection id)] ∧
        (result = .ok () →
          state.plane = (start.reached network).delete (itemPath collection id)) := by
  let sent : World := { start with events := start.events ++ [.delete (itemPath collection id)] }
  have hemit : Action.Ensures (emit (.delete (itemPath collection id))) start
      fun result state => result = .ok () ∧ state = sent := ⟨rfl, rfl⟩
  refine hemit.bind ?_ ?_
  · rintro _ _ ⟨-, rfl⟩
    refine (client.request_ensures network .delete _ _ sent).bind ?_ ?_
    · intro response state hrequest
      cases response with
      | success body =>
          exact ⟨hrequest.plane, hrequest.events, fun _ => hrequest.success body rfl⟩
      | failure status detail =>
          simp only
          split
          next hstatus =>
            exact ⟨hrequest.plane, hrequest.events,
              fun _ => hrequest.notFound status detail rfl rfl hstatus⟩
          next =>
            refine ⟨hrequest.plane, hrequest.events, fun hresult => ?_⟩
            cases hresult
    · intro error state hrequest
      exact ⟨hrequest.plane, hrequest.events, by simp⟩
  · rintro _ _ ⟨hresult, -⟩
    cases hresult

end ConformanceFixtureClient

end CfIntegration.Fixture
