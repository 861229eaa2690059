import CfIntegration.Foundation.Action
import CfIntegration.Foundation.Registry
import CfIntegration.Foundation.UrlReference
import CfIntegration.Mcp.EventStream
import CfIntegration.Runtime.Entry

/-! # Managed sessions

A session starts a stack, gets a bearer token for it and runs an operation with the token.
A token of the control plane's catalog is revoked when the session ends, and the stack is
cleaned up, whatever happened before. The revocation is sent to a path that the id of the
token is put into as it is, so it removes what that path leads to.
-/

namespace CfIntegration.Runtime.ManagedSession

open CfIntegration.Action

/-! ## The token catalog -/

structure TokenRequest where
  name : String
  description : String
  expiresInDays : Nat
  userEmail : String
  /-- The server that the token is for, and its permissions there. -/
  scope : Option (String × List String)
  deriving DecidableEq

structure Credential where
  id : String
  accessToken : String
  deriving DecidableEq

structure TokenRecord extends TokenRequest, Credential

def recordOf (request : TokenRequest) (credential : Credential) : TokenRecord :=
  { request, credential with }

def isSuccess (status : Nat) : Bool := 200 ≤ status && status < 300

inductive Reply (α : Type) where
  /-- The request failed before a response came. -/
  | lost (cause : String)
  /-- The body, if it could be decoded. -/
  | status (code : Nat) (body : Option α)

/-- What the catalog does with a request for a token. A credential that it hands out is one
that it has recorded; it may have recorded one that it does not hand out. -/
structure CreateAnswer where
  reply : Reply Credential
  recorded : Option Credential
  faithful : ∀ code credential, reply = .status code (some credential) → isSuccess code = true →
    recorded = some credential

/-- What the catalog does with a revocation; a success has removed what its path leads to. -/
structure DeleteAnswer where
  reply : Reply Unit
  removed : Bool
  faithful : ∀ code body, reply = .status code body → isSuccess code = true → removed = true

inductive Resource where
  | stack
  | token (id : String)
  deriving DecidableEq

inductive SessionEvent where
  | acquired (resource : Resource)
  | operated (token : String) (toolNames : List String)
  | released (resource : Resource)
  deriving DecidableEq

structure ManagedBearerToken where
  value : String
  catalogId : Option String
  catalogAdminToken : Option String
  deriving DecidableEq

def ManagedBearerToken.unmanaged (value : String) : ManagedBearerToken := ⟨value, none, none⟩

structure World where
  tokens : Registry TokenRecord
  /-- The token that the scope of the session holds. -/
  token : Option ManagedBearerToken
  trace : List SessionEvent

structure PlaneEnv where
  /-- Building the client from the configuration. -/
  client : AppResult Unit
  adminEmail : String
  tokenName : String
  login : Reply String
  create : TokenRequest → CreateAnswer
  /-- The answer to a deletion at a path. -/
  delete : List Char → DeleteAnswer

def managedTokenDescription : String := "Ephemeral cf-integration dataplane credential"

section
variable (plane : PlaneEnv)

def adminSessionToken : AppResult String :=
  match plane.login with
  | .lost cause =>
      .error (.native s!"control-plane login failed before receiving a response: {cause}")
  | .status code body =>
      if isSuccess code = false then .error (.native s!"control-plane login returned HTTP {code}")
      else match body with
        | none =>
            .error (.native "control-plane login returned an invalid authentication response")
        | some accessToken =>
            if accessToken = "" then
              .error (.native "control-plane login returned an empty access token")
            else .ok accessToken

/-- What is made of the answer to a request for a token. -/
def issued : Reply Credential → AppResult Credential
  | .lost cause =>
      .error (.native s!"token catalog request failed before receiving a response: {cause}")
  | .status code body =>
      if isSuccess code = false then .error (.native
        s!"token catalog returned HTTP {code} while issuing a managed credential")
      else match body with
        | none => .error (.native "token catalog returned an invalid credential response")
        | some credential =>
            if credential.id = "" ∨ credential.accessToken = "" then
              .error (.native "token catalog returned an incomplete credential response")
            else .ok credential

def createToken (request : TokenRequest) : Action World AppFailure Credential := fun world =>
  let answer := plane.create request
  (issued answer.reply,
    match answer.recorded with
    | some credential => { world with tokens := world.tokens.create (recordOf request credential) }
    | none => world)

def catalogRequest (serverId : Option String) (description : String) : TokenRequest where
  name := plane.tokenName
  description := description
  expiresInDays := 1
  userEmail := plane.adminEmail
  scope := serverId.map fun serverId =>
    (serverId, ["servers.read", "servers.use", "tools.read", "tools.call"])

def issueCatalogToken (serverId : Option String) (description : String) :
    Action World AppFailure ManagedBearerToken := do
  ofExcept plane.client
  let adminToken ← ofExcept (adminSessionToken plane)
  let credential ← createToken plane (catalogRequest plane serverId description)
  return ⟨credential.accessToken, some credential.id, some adminToken⟩

def revoked : Reply Unit → AppResult Unit
  | .lost cause =>
      .error (.native s!"token revocation failed before receiving a response: {cause}")
  | .status code _ =>
      if isSuccess code ∨ code = 404 then .ok ()
      else .error (.native
        s!"token catalog returned HTTP {code} while revoking the dataplane credential")

/-- The path that the id of a token is put into as it is. -/
def tokenPath (id : String) : List Char := joinedPath ("/v1/tokens/" ++ id).toList

/-- The path leads to the record. -/
def reaches (path : List Char) (record : TokenRecord) : Bool :=
  addresses path ["v1", "tokens"] record.id

def deleteToken (id : String) : Action World AppFailure Unit := fun world =>
  let answer := plane.delete (tokenPath id)
  -- Where the catalog finds no record at the path, there is none to remove.
  let removes := answer.removed || match answer.reply with
    | .status 404 _ => true
    | _ => false
  (revoked answer.reply, { world with
    tokens := if removes then world.tokens.remove (reaches (tokenPath id)) else world.tokens
    trace := world.trace ++ [.released (.token id)] })

def revokeManagedToken (token : ManagedBearerToken) : Action World AppFailure Unit :=
  match token.catalogId with
  | none => pure ()
  | some id => do
      ofExcept plane.client
      match token.catalogAdminToken with
      | none => fail (.native "managed token is missing its control-plane cleanup credential")
      | some _ => deleteToken plane id

end

/-! ## The session -/

inductive StandaloneBackend where
  | conformance
  | fastTime
  deriving DecidableEq

structure ManagedTargetOptions where
  standalone : Bool
  backend : StandaloneBackend

/-- What the steps of a session that are not about tokens come to. -/
structure SessionEnv where
  plane : PlaneEnv
  /-- `MCPGATEWAY_BEARER_TOKEN`. -/
  bearerToken : Option String
  stackUp : AppResult Unit
  prepareTestTarget : AppResult Unit
  stackUpStandalone : AppResult Unit
  startStandalone : StandaloneBackend → AppResult Unit
  /-- The output of the token helper, if it is UTF-8. -/
  tokenHelper : AppResult (Option String)
  publishConfig : StandaloneBackend → String → AppResult (List String)
  cleanup : AppResult Unit

/-- What runs in a session; it may change the catalog. -/
abbrev Operation := String → List String → Action (Registry TokenRecord) AppFailure Unit

section
variable (env : SessionEnv)

def managedBearerToken (mode : StackMode) (serverId : String) :
    Action World AppFailure ManagedBearerToken :=
  match env.bearerToken.filter (· ≠ "") with
  | some token => pure (.unmanaged token)
  | none =>
      match mode with
      | .controlplane => do
          ofExcept env.plane.client
          let token ← ofExcept (adminSessionToken env.plane)
          return .unmanaged token
      | .dataplane => issueCatalogToken env.plane (some serverId) managedTokenDescription

def captureHarnessToken (output : AppResult (Option String)) : AppResult ManagedBearerToken := do
  match ← output with
  | none => .error (.native "dataplane token helper returned non-UTF-8 output")
  | some text =>
      let token := Text.trim Mcp.Protocol.isWhitespace text.toList
      if (token.splitOn '.').length ≠ 3 then
        .error (.native "dataplane token helper returned an invalid JWT")
      else return .unmanaged (String.ofList token)

def acquireToken (topology : StackMode) (serverId : String) (options : ManagedTargetOptions) :
    Action World AppFailure ManagedBearerToken :=
  if options.standalone then do
    ofExcept env.stackUpStandalone
    ofExcept (env.startStandalone options.backend)
    ofExcept (captureHarnessToken env.tokenHelper)
  else do
    ofExcept env.stackUp
    ofExcept env.prepareTestTarget
    managedBearerToken env topology serverId

/-- The scope takes over the token; one of the catalog is the scope's to revoke. -/
def holdToken (token : ManagedBearerToken) : Action World AppFailure Unit := fun world =>
  (.ok (), { world with
    token := some token
    trace := world.trace ++ (token.catalogId.toList.map fun id => .acquired (.token id)) })

/-- The tool names that the operation gets: those of the route that was published for it. -/
def publishedNames (options : ManagedTargetOptions) (token : ManagedBearerToken) :
    AppResult (List String) :=
  if options.standalone then env.publishConfig options.backend token.value else .ok []

def operate (operation : Operation) (value : String) (toolNames : List String) :
    Action World AppFailure Unit := fun world =>
  let (result, tokens) := operation value toolNames world.tokens
  (result, { world with tokens, trace := world.trace ++ [.operated value toolNames] })

def primary (topology : StackMode) (serverId : String) (options : ManagedTargetOptions)
    (operation : Operation) : Action World AppFailure Unit := do
  let token ← acquireToken env topology serverId options
  holdToken token
  let toolNames ← ofExcept (publishedNames env options token)
  operate operation token.value toolNames

def cleanup : Action World AppFailure Unit := fun world =>
  (env.cleanup, { world with trace := world.trace ++ [.released .stack] })

def finish (primary : AppResult Unit) : Action World AppFailure Unit := fun world =>
  let revocation : Action World AppFailure Unit := match world.token with
    | some token => revokeManagedToken env.plane token
    | none => pure ()
  let (revoked, world) := revocation world
  let (cleaned, world) := cleanup env world
  (finishWithCleanupFailures (err primary) ((err revoked).toList ++ (err cleaned).toList), world)

/-- A new scope holds no token. -/
def World.scoped (world : World) : World :=
  { world with token := none, trace := world.trace ++ [.acquired .stack] }

def newScope : Action World AppFailure Unit := fun world => (.ok (), world.scoped)

def withManagedAuthenticatedTarget (topology : StackMode) (serverId : String)
    (options : ManagedTargetOptions) (operation : Operation) : Action World AppFailure Unit :=
  if options.standalone = true ∧ topology ≠ .dataplane then
    fail (.native "standalone mode requires the external lane")
  else do
    newScope
    let result ← attempt (primary env topology serverId options operation)
    finish env result

end

/-! ## How a session gets its token -/

/-- A token that needs no revocation, or one that the catalog has recorded and handed out. -/
inductive Obtained (plane : PlaneEnv) (request : TokenRequest) (start : Registry TokenRecord) :
    ManagedBearerToken → Registry TokenRecord → Prop where
  | unmanaged (value : String) : Obtained plane request start (.unmanaged value) start
  | issued (credential : Credential) (adminToken : String) (hclient : plane.client = .ok ())
      (hrecorded : (plane.create request).recorded = some credential) :
      Obtained plane request start ⟨credential.accessToken, some credential.id, some adminToken⟩
        (start.create (recordOf request credential))

/-- What the catalog holds when no token was handed out: beyond the earlier records at most
one that it has recorded for the request all the same. -/
def Withheld (plane : PlaneEnv) (request : TokenRequest) (start tokens : Registry TokenRecord) :
    Prop :=
  tokens = start ∨ ∃ credential failure, (plane.create request).recorded = some credential ∧
    issued (plane.create request).reply = .error failure ∧
      tokens = start.create (recordOf request credential)

/-- A step that only asks for a token. -/
structure Acquires (plane : PlaneEnv) (request : TokenRequest) (start : World)
    (result : AppResult ManagedBearerToken) (world : World) : Prop where
  token : world.token = start.token
  trace : world.trace = start.trace
  obtained : ∀ token, result = .ok token → Obtained plane request start.tokens token world.tokens
  withheld : ∀ failure, result = .error failure → Withheld plane request start.tokens world.tokens

section
variable {plane : PlaneEnv} {env : SessionEnv} {start : World} {request : TokenRequest}

theorem Acquires.failed (failure : AppFailure) :
    Acquires plane request start (.error failure) start :=
  ⟨rfl, rfl, nofun, fun _ _ => Or.inl rfl⟩

theorem Acquires.unmanaged {result : AppResult ManagedBearerToken}
    (hresult : ∀ token, result = .ok token → ∃ value, token = .unmanaged value) :
    Acquires plane request start result start := by
  refine ⟨rfl, rfl, fun token htoken => ?_, fun _ _ => Or.inl rfl⟩
  obtain ⟨value, rfl⟩ := hresult token htoken
  exact .unmanaged value

/-- A credential that is taken is one that the catalog has recorded. -/
theorem recorded_of_issued {credential : Credential}
    (hissued : issued (plane.create request).reply = .ok credential) :
    (plane.create request).recorded = some credential := by
  cases hreply : (plane.create request).reply with
  | lost cause =>
      rw [hreply] at hissued
      cases hissued
  | status code body =>
      rw [hreply] at hissued
      simp only [issued] at hissued
      split at hissued
      · cases hissued
      next hsuccess =>
      rw [Bool.not_eq_false] at hsuccess
      split at hissued
      · cases hissued
      · split at hissued
        · cases hissued
        · cases hissued
          exact (plane.create request).faithful code credential hreply hsuccess

theorem createToken_ensures (request : TokenRequest) :
    Ensures (createToken plane request) start fun result world =>
      world.token = start.token ∧ world.trace = start.trace ∧
        (∀ credential, result = .ok credential →
          (plane.create request).recorded = some credential ∧
            world.tokens = start.tokens.create (recordOf request credential)) ∧
        (∀ failure, result = .error failure →
          Withheld plane request start.tokens world.tokens) := by
  change _ ∧ _ ∧ _ ∧ _
  dsimp only [createToken, Action.run]
  cases hrecorded : (plane.create request).recorded with
  | none =>
      refine ⟨rfl, rfl, fun credential hissued => ?_, fun _ _ => .inl rfl⟩
      cases (recorded_of_issued hissued).symm.trans hrecorded
  | some recorded =>
      refine ⟨rfl, rfl, fun credential hissued => ?_, fun failure hfailed =>
        .inr ⟨recorded, failure, hrecorded, hfailed, rfl⟩⟩
      cases (recorded_of_issued hissued).symm.trans hrecorded
      exact ⟨rfl, rfl⟩

theorem issueCatalogToken_acquires (serverId : Option String) (description : String) :
    Ensures (issueCatalogToken plane serverId description) start
      (Acquires plane (catalogRequest plane serverId description) start) := by
  refine Ensures.ofExcept (fun _ hclient => ?_) (fun failure _ => .failed failure)
  refine Ensures.ofExcept (fun adminToken _ => ?_) (fun failure _ => .failed failure)
  refine Ensures.bind (createToken_ensures _) (fun credential world hcreated => ?_)
    (fun failure world hcreated => ?_)
  · obtain ⟨htoken, htrace, hissued, -⟩ := hcreated
    obtain ⟨hrecorded, htokens⟩ := hissued credential rfl
    refine ⟨htoken, htrace, fun token hok => ?_, nofun⟩
    cases hok
    change Obtained plane _ start.tokens _ world.tokens
    rw [htokens]
    exact .issued credential adminToken hclient hrecorded
  · obtain ⟨htoken, htrace, -, hwithheld⟩ := hcreated
    exact ⟨htoken, htrace, nofun, fun _ _ => hwithheld failure rfl⟩

/-- What a session asks of the catalog. -/
def sessionRequest (env : SessionEnv) (serverId : String) : TokenRequest :=
  catalogRequest env.plane (some serverId) managedTokenDescription

theorem managedBearerToken_acquires (mode : StackMode) (serverId : String) :
    Ensures (managedBearerToken env mode serverId) start
      (Acquires env.plane (sessionRequest env serverId) start) := by
  unfold managedBearerToken
  split
  · refine .unmanaged fun token htoken => ?_
    cases htoken
    exact ⟨_, rfl⟩
  · cases mode with
    | controlplane =>
        refine Ensures.ofExcept (fun _ _ => ?_) (fun failure _ => .failed failure)
        refine Ensures.ofExcept (fun token _ => ?_) (fun failure _ => .failed failure)
        refine .unmanaged fun other hother => ?_
        cases hother
        exact ⟨token, rfl⟩
    | dataplane => exact issueCatalogToken_acquires _ _

theorem captureHarnessToken_unmanaged {output : AppResult (Option String)}
    {token : ManagedBearerToken} (hcaptured : captureHarnessToken output = .ok token) :
    ∃ value, token = .unmanaged value := by
  obtain ⟨text, -, hcaptured⟩ := except_bind_eq_ok.mp hcaptured
  split at hcaptured
  · cases hcaptured
  · dsimp only at hcaptured
    split at hcaptured
    · cases hcaptured
    · cases hcaptured
      exact ⟨_, rfl⟩

theorem acquireToken_acquires (topology : StackMode) (serverId : String)
    (options : ManagedTargetOptions) :
    Ensures (acquireToken env topology serverId options) start
      (Acquires env.plane (sessionRequest env serverId) start) := by
  rw [acquireToken]
  split
  · refine Ensures.ofExcept (fun _ _ => ?_) (fun failure _ => .failed failure)
    refine Ensures.ofExcept (fun _ _ => ?_) (fun failure _ => .failed failure)
    exact .unmanaged fun token htoken => captureHarnessToken_unmanaged htoken
  · refine Ensures.ofExcept (fun _ _ => ?_) (fun failure _ => .failed failure)
    refine Ensures.ofExcept (fun _ _ => ?_) (fun failure _ => .failed failure)
    exact managedBearerToken_acquires topology serverId

/-! ## How a session ends -/

def acquiredTrace (token : ManagedBearerToken) : List SessionEvent :=
  token.catalogId.toList.map fun id => .acquired (.token id)

def releasedTrace (token : ManagedBearerToken) : List SessionEvent :=
  token.catalogId.toList.map fun id => .released (.token id)

/-- The catalog without the records that the path of a token leads to. -/
def withoutToken (token : ManagedBearerToken) (tokens : Registry TokenRecord) :
    Registry TokenRecord :=
  match token.catalogId with
  | none => tokens
  | some id => tokens.remove (reaches (tokenPath id))

/-- The path of a token leads to the records with its id. -/
def TokenAddressed (id : String) : Prop := addresses (tokenPath id) ["v1", "tokens"] id = true

def hasId (id : String) (record : TokenRecord) : Bool := record.id = id

theorem reaches_of_addressed {id : String} (haddressed : TokenAddressed id) :
    reaches (tokenPath id) = hasId id := by
  funext record
  refine Bool.eq_iff_iff.mpr ⟨fun hreaches => ?_, fun hid => ?_⟩
  · exact decide_eq_true (addresses_inj hreaches haddressed).2
  · rw [reaches, of_decide_eq_true hid]
    exact haddressed

/-- An id of letters, digits, hyphens and underscores is addressed as it is. -/
theorem tokenAddressed_of_plain {id : String} (hid : PlainName id.toList) : TokenAddressed id := by
  have hnames : ∀ name ∈ ["v1", "tokens"], PlainName name.toList := by
    intro name hname
    simp only [List.mem_cons, List.not_mem_nil, or_false] at hname
    rcases hname with rfl | rfl <;> exact .of_all rfl
  have hpath := addresses_joinedPath hnames hid
  unfold TokenAddressed tokenPath
  simpa [List.intercalate_cons_cons] using hpath

/-- Where its path leads to the token, revoking it takes its record and no other. -/
theorem withoutToken_of_addressed {token : ManagedBearerToken} {id : String}
    (hid : token.catalogId = some id) (haddressed : TokenAddressed id)
    (tokens : Registry TokenRecord) : withoutToken token tokens = tokens.remove (hasId id) := by
  unfold withoutToken
  rw [hid]
  dsimp only
  rw [reaches_of_addressed haddressed]

/-- What the operation of a session came to, or what kept it from starting. -/
inductive Progress (env : SessionEnv) (topology : StackMode) (serverId : String)
    (options : ManagedTargetOptions) (operation : Operation) (start : World) :
    AppResult Unit → World → Prop where
  | withheld (failure : AppFailure) (world : World) (htoken : world.token = start.token)
      (htrace : world.trace = start.trace)
      (hfailed : ((acquireToken env topology serverId options).run start).1 = .error failure)
      (htokens : Withheld env.plane (sessionRequest env serverId) start.tokens world.tokens) :
      Progress env topology serverId options operation start (.error failure) world
  | held (failure : AppFailure) (world : World) (token : ManagedBearerToken)
      (htoken : world.token = some token)
      (htrace : world.trace = start.trace ++ acquiredTrace token)
      (hacquired : ((acquireToken env topology serverId options).run start).1 = .ok token)
      (hobtained : Obtained env.plane (sessionRequest env serverId) start.tokens token world.tokens)
      (hfailed : publishedNames env options token = .error failure) :
      Progress env topology serverId options operation start (.error failure) world
  | operated (world : World) (token : ManagedBearerToken) (toolNames : List String)
      (issued : Registry TokenRecord) (htoken : world.token = some token)
      (htrace : world.trace =
        start.trace ++ acquiredTrace token ++ [.operated token.value toolNames])
      (hacquired : ((acquireToken env topology serverId options).run start).1 = .ok token)
      (hobtained : Obtained env.plane (sessionRequest env serverId) start.tokens token issued)
      (hnames : publishedNames env options token = .ok toolNames)
      (htokens : world.tokens = (operation token.value toolNames issued).2) :
      Progress env topology serverId options operation start
        (operation token.value toolNames issued).1 world

theorem primary_progress (topology : StackMode) (serverId : String)
    (options : ManagedTargetOptions) (operation : Operation) :
    Ensures (primary env topology serverId options operation) start
      (Progress env topology serverId options operation start) := by
  have hacquired : Ensures (acquireToken env topology serverId options) start fun result world =>
      Acquires env.plane (sessionRequest env serverId) start result world ∧
        ((acquireToken env topology serverId options).run start).1 = result :=
    (acquireToken_acquires topology serverId options).and rfl
  refine Ensures.bind hacquired (fun token world hacquires => ?_)
    (fun failure world hacquires => ?_)
  · have hobtained := hacquires.1.obtained token rfl
    refine ensures_bind.mpr ?_
    -- The scope takes over the token.
    change Ensures _
      { world with token := some token, trace := world.trace ++ acquiredTrace token } _
    refine Ensures.ofExcept (fun toolNames hnames => ?_) (fun failure hfailed => ?_)
    · refine .operated _ token toolNames world.tokens rfl ?_ hacquires.2 hobtained hnames rfl
      change world.trace ++ _ ++ _ = _
      rw [hacquires.1.trace]
    · refine .held failure _ token rfl ?_ hacquires.2 hobtained hfailed
      change world.trace ++ _ = _
      rw [hacquires.1.trace]
  · exact .withheld failure world hacquires.1.token hacquires.1.trace hacquires.2
      (hacquires.1.withheld failure rfl)

/-- What a revocation, failed or not, makes of the catalog. -/
structure Revoked (plane : PlaneEnv) (token : ManagedBearerToken)
    (before after : Registry TokenRecord) (failure : Option AppFailure) : Prop where
  reported : failure =
    token.catalogId.bind fun id => err (revoked (plane.delete (tokenPath id)).reply)
  kept : after = before ∨ after = withoutToken token before
  removed : failure = none → after = withoutToken token before
  /-- If the path of the token leads to it, a record that is left behind is reported. -/
  own : ∀ id, token.catalogId = some id → TokenAddressed id → failure = none →
    after = before.remove (hasId id)

theorem Revoked.mk_removed {token : ManagedBearerToken} {before after : Registry TokenRecord}
    {failure : Option AppFailure}
    (hreported : failure =
      token.catalogId.bind fun id => err (revoked (plane.delete (tokenPath id)).reply))
    (hkept : after = before ∨ after = withoutToken token before)
    (hremoved : failure = none → after = withoutToken token before) :
    Revoked plane token before after failure where
  reported := hreported
  kept := hkept
  removed := hremoved
  own _ hid haddressed hnone :=
    (hremoved hnone).trans (withoutToken_of_addressed hid haddressed before)

/-- A revocation that succeeds has removed what its path leads to, or found nothing there. -/
theorem removes_of_revoked {path : List Char}
    (hrevoked : revoked (plane.delete path).reply = .ok ()) :
    ((plane.delete path).removed || match (plane.delete path).reply with
      | .status 404 _ => true
      | _ => false) = true := by
  cases hreply : (plane.delete path).reply with
  | lost cause =>
      rw [hreply] at hrevoked
      cases hrevoked
  | status code body =>
      rw [hreply] at hrevoked
      simp only [revoked] at hrevoked
      split at hrevoked
      · next hcode =>
        rcases hcode with hsuccess | rfl
        · rw [(plane.delete path).faithful code body hreply hsuccess, Bool.true_or]
        · exact Bool.or_true _
      · cases hrevoked

theorem eq_ok_of_err {result : AppResult Unit} (hnone : err result = none) : result = .ok () := by
  cases result with
  | error failure => cases hnone
  | ok value => rfl

theorem revokeManagedToken_ensures {token : ManagedBearerToken}
    {tokens issued : Registry TokenRecord}
    (hobtained : Obtained plane request tokens token issued) :
    Ensures (revokeManagedToken plane token) start fun result world =>
      world.trace = start.trace ++ releasedTrace token ∧
        Revoked plane token start.tokens world.tokens (err result) := by
  cases hobtained with
  | unmanaged value => exact ⟨(List.append_nil _).symm, .mk_removed rfl (.inl rfl) fun _ => rfl⟩
  | issued credential adminToken hclient _ =>
      have hdelete : Ensures (deleteToken plane credential.id) start fun result world =>
          world.trace = start.trace ++ [.released (.token credential.id)] ∧
            result = revoked (plane.delete (tokenPath credential.id)).reply ∧
            (world.tokens = start.tokens ∨
              world.tokens = start.tokens.remove (reaches (tokenPath credential.id))) ∧
            (result = .ok () →
              world.tokens = start.tokens.remove (reaches (tokenPath credential.id))) := by
        refine ⟨rfl, rfl, (ite_eq_or_eq _ _ _).symm, fun hrevoked => ?_⟩
        dsimp only [deleteToken, Action.run] at hrevoked ⊢
        rw [if_pos (removes_of_revoked hrevoked)]
      refine Ensures.ofExcept (fun _ _ => ?_) (fun failure hfailed => ?_)
      · refine hdelete.mono fun result world hpost => ?_
        obtain ⟨htrace, hresult, hkept, hremoved⟩ := hpost
        refine ⟨htrace, .mk_removed ?_ hkept fun hnone => hremoved (eq_ok_of_err hnone)⟩
        rw [hresult]
        rfl
      · rw [hclient] at hfailed
        cases hfailed

/-- The trace of a session that got a token or none, and ran its operation or not. -/
def sessionTrace (obtained : Option ManagedBearerToken) (operated : Option (List String)) :
    List SessionEvent :=
  match obtained with
  | none => [.acquired .stack, .released .stack]
  | some token => .acquired .stack :: (acquiredTrace token ++
      (operated.toList.map fun toolNames => .operated token.value toolNames) ++
        releasedTrace token ++ [.released .stack])

/-- The end of a session: it got no token, it could not publish its route, or it ran its
operation. The result joins what went wrong with the failures of the revocation and of the
cleanup of the stack. -/
inductive Settled (env : SessionEnv) (topology : StackMode) (serverId : String)
    (options : ManagedTargetOptions) (operation : Operation) (start : World) :
    AppResult Unit → World → Prop where
  | withheld (failure : AppFailure) (final : World)
      (htrace : final.trace = start.trace ++ sessionTrace none none)
      (hfailed : ((acquireToken env topology serverId options).run start.scoped).1 =
        .error failure)
      (htokens : Withheld env.plane (sessionRequest env serverId) start.tokens final.tokens) :
      Settled env topology serverId options operation start
        (finishWithCleanupFailures (some failure) (err env.cleanup).toList) final
  | held (failure : AppFailure) (token : ManagedBearerToken) (issued : Registry TokenRecord)
      (revocation : Option AppFailure) (final : World)
      (htrace : final.trace = start.trace ++ sessionTrace (some token) none)
      (hacquired : ((acquireToken env topology serverId options).run start.scoped).1 = .ok token)
      (hobtained : Obtained env.plane (sessionRequest env serverId) start.tokens token issued)
      (hfailed : publishedNames env options token = .error failure)
      (hrevoked : Revoked env.plane token issued final.tokens revocation) :
      Settled env topology serverId options operation start
        (finishWithCleanupFailures (some failure) (revocation.toList ++ (err env.cleanup).toList))
        final
  | operated (token : ManagedBearerToken) (toolNames : List String)
      (issued : Registry TokenRecord) (revocation : Option AppFailure) (final : World)
      (htrace : final.trace = start.trace ++ sessionTrace (some token) (some toolNames))
      (hacquired : ((acquireToken env topology serverId options).run start.scoped).1 = .ok token)
      (hobtained : Obtained env.plane (sessionRequest env serverId) start.tokens token issued)
      (hnames : publishedNames env options token = .ok toolNames)
      (hrevoked : Revoked env.plane token (operation token.value toolNames issued).2 final.tokens
        revocation) :
      Settled env topology serverId options operation start
        (finishWithCleanupFailures (err (operation token.value toolNames issued).1)
          (revocation.toList ++ (err env.cleanup).toList)) final

theorem ok_of_finishWithCleanupFailures {primary : Option AppFailure} {cleanups : List AppFailure}
    (hok : finishWithCleanupFailures primary cleanups = .ok ()) :
    primary = none ∧ cleanups = [] := by
  unfold finishWithCleanupFailures at hok
  split at hok
  · next hcleanups =>
    split at hok
    · exact ⟨rfl, hcleanups⟩
    · cases hok
  · cases hok

/-- After a success the operation ran, and nothing of the catalog changed beyond what it did
but that the records which the path of the token leads to are gone. -/
theorem Settled.succeeded {topology : StackMode} {serverId : String}
    {options : ManagedTargetOptions} {operation : Operation} {result : AppResult Unit}
    {final : World} (hsettled : Settled env topology serverId options operation start result final)
    (hok : result = .ok ()) : ∃ token toolNames issued,
      Obtained env.plane (sessionRequest env serverId) start.tokens token issued ∧
      publishedNames env options token = .ok toolNames ∧
      final.trace = start.trace ++ sessionTrace (some token) (some toolNames) ∧
      (operation token.value toolNames issued).1 = .ok () ∧
      final.tokens = withoutToken token (operation token.value toolNames issued).2 := by
  cases hsettled with
  | withheld failure _ _ _ _ => cases (ok_of_finishWithCleanupFailures hok).1
  | held failure _ _ _ _ _ _ _ _ _ => cases (ok_of_finishWithCleanupFailures hok).1
  | operated token toolNames issued revocation _ htrace _ hobtained hnames hrevoked =>
      obtain ⟨hprimary, hcleanups⟩ := ok_of_finishWithCleanupFailures hok
      obtain ⟨hrevocation, -⟩ := List.append_eq_nil_iff.mp hcleanups
      exact ⟨token, toolNames, issued, hobtained, hnames, htrace, eq_ok_of_err hprimary,
        hrevoked.removed (Option.toList_eq_nil_iff.mp hrevocation)⟩

theorem finish_withheld {world : World} (failure : AppFailure) (htoken : world.token = none) :
    Ensures (finish env (.error failure)) world fun result final =>
      result = finishWithCleanupFailures (some failure) (err env.cleanup).toList ∧
        final.trace = world.trace ++ [.released .stack] ∧ final.tokens = world.tokens := by
  rcases world with ⟨tokens, token, trace⟩
  dsimp only at htoken
  subst htoken
  exact ⟨rfl, rfl, rfl⟩

/-- The end of a scope that holds a token. -/
theorem finish_held {world : World} {token : ManagedBearerToken}
    {tokens issued : Registry TokenRecord} (primary : AppResult Unit)
    (htoken : world.token = some token)
    (hobtained : Obtained env.plane request tokens token issued) :
    Ensures (finish env primary) world fun result final =>
      final.trace = world.trace ++ (releasedTrace token ++ [.released .stack]) ∧
        ∃ revocation, Revoked env.plane token world.tokens final.tokens revocation ∧
          result = finishWithCleanupFailures (err primary)
            (revocation.toList ++ (err env.cleanup).toList) := by
  have hrevoked : Ensures (revokeManagedToken env.plane token) world _ :=
    revokeManagedToken_ensures hobtained
  rw [Ensures] at hrevoked
  have hfinish : (finish env primary).run world =
      (finishWithCleanupFailures (err primary)
        ((err ((revokeManagedToken env.plane token).run world).1).toList ++
          (err env.cleanup).toList),
        { ((revokeManagedToken env.plane token).run world).2 with
          trace := ((revokeManagedToken env.plane token).run world).2.trace ++
            [.released .stack] }) := by
    simp only [finish, Action.run, htoken, cleanup]
  rw [Ensures, hfinish]
  generalize (revokeManagedToken env.plane token).run world = outcome at hrevoked
  obtain ⟨htrace, htokens⟩ := hrevoked
  refine ⟨?_, err outcome.1, htokens, rfl⟩
  change outcome.2.trace ++ _ = _
  rw [htrace, List.append_assoc]

theorem session_settled (topology : StackMode) (serverId : String)
    (options : ManagedTargetOptions) (operation : Operation)
    (hguard : ¬ (options.standalone = true ∧ topology ≠ .dataplane)) :
    Ensures (withManagedAuthenticatedTarget env topology serverId options operation) start
      (Settled env topology serverId options operation start) := by
  rw [withManagedAuthenticatedTarget, if_neg hguard]
  have hscope : Ensures newScope start fun result world => result = .ok () ∧
      world = start.scoped := ⟨rfl, rfl⟩
  refine hscope.bind (fun _ world hworld => ?_) (fun _ _ hworld => nomatch hworld.1)
  obtain ⟨-, rfl⟩ := hworld
  refine Ensures.attempt (primary_progress topology serverId options operation)
    fun result world hprogress => ?_
  cases hprogress with
  | withheld failure world htoken htrace hfailed htokens =>
      refine (finish_withheld failure htoken).mono fun result final hfinal => ?_
      obtain ⟨rfl, hfinalTrace, hfinalTokens⟩ := hfinal
      refine .withheld failure final ?_ hfailed (hfinalTokens ▸ htokens)
      rw [hfinalTrace, htrace]
      exact List.append_assoc ..
  | held failure world token htoken htrace hacquired hobtained hfailed =>
      refine (finish_held (.error failure) htoken hobtained).mono fun result final hfinal => ?_
      obtain ⟨hfinalTrace, revocation, hrevoked, rfl⟩ := hfinal
      refine .held failure token world.tokens revocation final ?_ hacquired hobtained hfailed
        hrevoked
      rw [hfinalTrace, htrace]
      simp [World.scoped, sessionTrace]
  | operated world token toolNames issued htoken htrace hacquired hobtained hnames htokens =>
      refine (finish_held _ htoken hobtained).mono fun result final hfinal => ?_
      obtain ⟨hfinalTrace, revocation, hrevoked, rfl⟩ := hfinal
      refine .operated token toolNames issued revocation final ?_ hacquired hobtained hnames
        (htokens ▸ hrevoked)
      rw [hfinalTrace, htrace]
      simp [World.scoped, sessionTrace]

/-- A session that its guard lets start cleans up its stack once, as its last step, and
revokes a token of the catalog once, after the operation. After a success the operation ran
with the token, and the catalog is as the operation left it without what the path of the
token leads to. -/
theorem session_settles (env : SessionEnv) (topology : StackMode) (serverId : String)
    (options : ManagedTargetOptions) (operation : Operation) (start : World) :
    Ensures (withManagedAuthenticatedTarget env topology serverId options operation) start
      fun result final =>
        options.standalone = true ∧ topology ≠ .dataplane ∧ result ≠ .ok () ∧ final = start ∨
          Settled env topology serverId options operation start result final ∧
            (result = .ok () → ∃ token toolNames issued,
              Obtained env.plane (sessionRequest env serverId) start.tokens token issued ∧
              publishedNames env options token = .ok toolNames ∧
              final.trace = start.trace ++ sessionTrace (some token) (some toolNames) ∧
              (operation token.value toolNames issued).1 = .ok () ∧
              final.tokens = withoutToken token (operation token.value toolNames issued).2) := by
  by_cases hguard : options.standalone = true ∧ topology ≠ .dataplane
  · rw [withManagedAuthenticatedTarget, if_pos hguard]
    exact .inl ⟨hguard.1, hguard.2, nofun, rfl⟩
  · refine (session_settled topology serverId options operation hguard).mono ?_
    exact fun result final hsettled => .inr ⟨hsettled, hsettled.succeeded⟩

end

end CfIntegration.Runtime.ManagedSession
