import CfIntegration.Foundation.Action
import CfIntegration.Foundation.Fallible
import CfIntegration.Foundation.History
import CfIntegration.Foundation.Overlap
import CfIntegration.Mcp.EventStream
import CfIntegration.Mcp.JsonText
import CfIntegration.Mcp.Protocol

/-! # A user of the load test

A user opens a conversation with the server, calls tools until it is stopped, and deletes
its session. It may be stopped while it waits for any answer.
-/

namespace CfIntegration.Performance.LoadUser

open Mcp Mcp.Locust

/-! ## Settings and messages -/

structure Settings where
  protocolVersion : String
  selected : protocolVersion = "2025-11-25" ∨ protocolVersion = "2026-07-28"
  stackMode : String
  serverId : String
  bearerToken : String
  toolNames : List String
  skipToolList : Bool
  directDataplane : Bool
  fyreWorkload : Bool
  explicitZeroDelay : Bool
  /-- The replica that the user is bound to. -/
  replicaIndex : Option Nat

def Settings.stateless (settings : Settings) : Bool := settings.protocolVersion = "2026-07-28"

def legacyProtocolVersions : List String := ["2024-11-05", "2025-03-26", "2025-06-18", "2025-11-25"]

inductive Kind where
  | request (method : String)
  | notification (method : String)
  | delete
  deriving DecidableEq, Repr

/-- What the user sends, without what is the same in all of its messages. -/
structure Sent where
  kind : Kind
  label : String
  id : Option String
  params : Option (List (String × Value))
  /-- The header `Mcp-Protocol-Version`. -/
  version : Option String
  method : Option String
  name : Option String
  session : Option String

structure Response where
  status : Nat
  error : Option String
  backend : Option String
  session : Option String
  contentType : Option String
  text : List Char

inductive Verdict where
  | success (result : Option Value)
  | failure (text : List Char)
  /-- Judging the answer raised an exception. -/
  | crashed
  /-- The user was stopped while it waited. -/
  | interrupted

structure Exchange where
  sent : Sent
  response : Option Response
  verdict : Verdict

structure User where
  session : Option String
  version : String
  ready : Bool
  toolNames : List String
  exchanges : List Exchange

inductive Halt where
  | raised (text : String)
  | stopped
  deriving DecidableEq, Repr

/-- The answers in their order, the message identifiers and the JSON library. -/
structure Environment where
  server : Nat → Option Response
  uuid : Nat → String
  parser : JsonParser
  shown : Value → String

/-! ## Tools -/

def echoArguments : List (String × Value) := [("message", .string "cf-integration")]

def toolArguments : String → Option (List (String × Value))
  | "echo" | "fast_time_echo" | "fast-time-echo" => some echoArguments
  | _ => none

def fyreToolArguments : String → Option (List (String × Value))
  | "convert_time" => some [("time", .string "2025-06-21T16:00:00Z"),
      ("source_timezone", .string "UTC"), ("target_timezone", .string "Europe/Dublin")]
  | "get_stats" => some []
  | "get_system_time" => some [("timezone", .string "UTC")]
  | "schema_success" => some []
  | "verify-protocol" => some []
  | _ => none

/-- The name without the first of the prefixes that it begins with. -/
def removePrefix (prefixes : List String) (name : String) : String :=
  match prefixes with
  | [] => name
  | first :: rest => match Text.stripPrefix first.toList name.toList with
      | some base => String.ofList base
      | none => removePrefix rest name

def fyreBaseName (name : String) : String :=
  let base := removePrefix ["fast_time_", "fast-time-"] name
  if base = "verify_protocol" then "verify-protocol" else base

def toolCallArgs (settings : Settings) (name : String) : Option (List (String × Value)) :=
  let arguments := (toolArguments name).or (if settings.fyreWorkload then
    (toolArguments (fyreBaseName name)).or (fyreToolArguments (fyreBaseName name)) else none)
  arguments.map fun arguments =>
    if name ∈ ["echo", "fast_time_echo", "fast-time-echo"] ∧ settings.explicitZeroDelay then
      arguments ++ [("delay", .number (.unsigned 0))]
    else arguments

/-! ## Results -/

def isBlank (text : String) : Bool := text.toList.all isSpace

def isNonemptyString (value : Option Value) : Bool :=
  match value.bind Value.asStr with
  | some text => text ≠ ""
  | none => false

def hasObject (result : Value) (field : String) : Bool :=
  ((result.get? field).bind Value.asObject).isSome

/-- A Python `int` that is not negative; the booleans count. -/
def isNonnegativeInt : Value → Bool
  | .bool _ => true
  | .number (.unsigned _) => true
  | _ => false

def validateInitialize (result : Value) : Except String Unit := do
  bailIf (¬ ((result.get? "protocolVersion").bind Value.asStr).any (· ∈ legacyProtocolVersions))
    "initialize must negotiate a supported legacy protocol revision"
  bailIf (¬ hasObject result "capabilities") "initialize result must include capabilities"
  bailIf (¬ (hasObject result "serverInfo" ∧ ["name", "version"].all fun field =>
      isNonemptyString ((result.get? "serverInfo").bind (Value.get? · field))))
    "initialize result must include serverInfo name and version"

def validateDiscovery (settings : Settings) (result : Value) : Except String Unit := do
  bailIf (¬ (((result.get? "supportedVersions").bind Value.asArray).getD []).any
      fun version => version.asStr = some settings.protocolVersion)
    "server/discover must advertise the requested protocol version"
  bailIf (¬ hasObject result "capabilities") "server/discover result must include capabilities"
  bailIf (((result.get? "resultType").bind Value.asStr).isNone)
    "server/discover result must include resultType"
  bailIf (((result.get? "cacheScope").bind Value.asStr).isNone)
    "server/discover result must include cacheScope"
  bailIf (¬ (result.get? "ttlMs").any isNonnegativeInt)
    "server/discover result must include a non-negative ttlMs"

def listedName (tool : Value) : Option String :=
  ((tool.get? "name").bind Value.asStr).filter fun name => !isBlank name

def validateToolsList (result : Value) : Except String Unit :=
  match (result.get? "tools").bind Value.asArray with
  | none => .error "tools/list result must include a tools array"
  | some tools =>
      bailIf (¬ tools.all fun tool => (listedName tool).isSome)
        "tools/list result contains an invalid tool"

def validateToolCall (result : Value) : Except String Unit := do
  match (result.get? "isError").getD (.bool false) with
  | .bool false => .ok ()
  | .bool true => .error "tools/call reported isError=true"
  | _ => .error "tools/call isError must be a boolean"
  match (result.get? "content").bind Value.asArray with
  | none => .error "tools/call result must include a content array"
  | some items =>
      bailIf (¬ items.all fun item => isNonemptyString (item.get? "type"))
        "tools/call result contains invalid content"

def validateResult (settings : Settings) (method : String) (result : Value) :
    Except String Value := do
  bailIf (result.asObject.isNone) s!"{method} result must be an object"
  match method with
  | "initialize" => validateInitialize result
  | "server/discover" => validateDiscovery settings result
  | "tools/list" => validateToolsList result
  | "tools/call" => validateToolCall result
  | _ => .ok ()
  return result

/-! ## Exchanges -/

def safeDiagnostic (settings : Settings) (text : String) : List Char :=
  let escaped := text.toList.flatMap fun char =>
    if char = '\r' then ['\\', 'r'] else if char = '\n' then ['\\', 'n'] else [char]
  if settings.bearerToken = "" then escaped
  else Overlap.replaceAll settings.bearerToken.toList "<redacted>".toList escaped

section
variable (settings : Settings) (env : Environment)

/-- The answer comes from the dataplane where it has to. -/
def validateBackend (response : Response) : Bool :=
  settings.stackMode ≠ "dataplane" || settings.directDataplane ||
    response.backend = some "dataplane"

def statelessParams (params : Option (List (String × Value))) : List (String × Value) :=
  ((params.getD []).filter fun entry => entry.1 ≠ "_meta") ++ [("_meta", .object [
    ("io.modelcontextprotocol/protocolVersion", .string settings.protocolVersion),
    ("io.modelcontextprotocol/clientInfo", .object [("name", .string "cf-integration-locust"),
      ("version", .string "1.0")]),
    ("io.modelcontextprotocol/clientCapabilities", .object [])])]

/-- The parameter that the header `Mcp-Name` repeats. -/
def nameParameter (method : String) : Option String :=
  if method ∈ ["tools/call", "prompts/get"] then some "name"
  else if method = "resources/read" then some "uri"
  else if method ∈ ["tasks/get", "tasks/update", "tasks/cancel"] then some "taskId"
  else none

def nameHeader (method : String) (params : List (String × Value)) : Option String :=
  (nameParameter method).bind fun parameter =>
    ((params.lookup parameter).bind Value.asStr).filter (· ≠ "")

/-- A request of the user. -/
def requestSent (user : User) (method label : String) (params : Option (List (String × Value)))
    (includeProtocolVersion : Bool) : Sent where
  kind := .request method
  label := label
  id := some (env.uuid user.exchanges.length)
  params := if settings.stateless then some (statelessParams settings params) else params
  version := if includeProtocolVersion || settings.stateless then some user.version else none
  method := if settings.stateless then some method else none
  name := if settings.stateless then nameHeader method (statelessParams settings params) else none
  session := user.session

def notificationSent (user : User) (method label : String) : Sent where
  kind := .notification method
  label := label
  id := none
  params := none
  version := some user.version
  method := none
  name := none
  session := user.session

def deleteSent (user : User) : Sent where
  kind := .delete
  label := "MCP session delete"
  id := none
  params := none
  version := some user.version
  method := none
  name := none
  session := user.session

def statusFailure (response : Response) (expected : String) : List Char :=
  safeDiagnostic settings (s!"HTTP {response.status}{expected}" ++
    match response.error with
    | some detail => if detail = "" then "" else s!": {detail}"
    | none => "")

def judgeMessage (method id : String) (message : Value) : Verdict :=
  if message.asObject.isNone then .failure "No JSON-RPC message in response".toList
  else if (message.get? "jsonrpc").bind Value.asStr ≠ some "2.0" ∨
      (message.get? "id").bind Value.asStr ≠ some id then
    .failure "Invalid JSON-RPC version or response ID".toList
  else match message.get? "error" with
    | some error =>
        if error.asObject.isNone then .crashed
        else
          let shown := fun (field : String) => ((error.get? field).map env.shown).getD "?"
          let code := shown "code"
          let text := shown "message"
          .failure (safeDiagnostic settings s!"JSON-RPC error {code}: {text}")
    | none => match message.get? "result" with
        | none => .failure "JSON-RPC response did not include a result".toList
        | some result => match validateResult settings method result with
            | .ok valid => .success (some valid)
            | .error error =>
                .failure (safeDiagnostic settings s!"Invalid {method} result: {error}")

def judgeRequest (method id : String) (response : Response) : Verdict :=
  if validateBackend settings response = false then
    .failure "Missing or invalid dataplane backend marker".toList
  else if response.status ≠ 200 then .failure (statusFailure settings response "")
  else match parseMcpBody env.parser response.text ((response.contentType.getD "").toList) with
    | .error error => .failure (safeDiagnostic settings s!"Invalid body: {error}")
    | .ok message => judgeMessage settings env method id message

def judgeNotification (response : Response) : Verdict :=
  if validateBackend settings response = false then
    .failure "Missing or invalid dataplane backend marker".toList
  else if response.status ≠ 202 then .failure (statusFailure settings response "; expected 202")
  else if response.text ≠ [] then
    .failure "HTTP 202 notification response body must be empty".toList
  else .success none

def judgeDelete (response : Response) : Verdict :=
  if validateBackend settings response = false then
    .failure "Missing or invalid dataplane backend marker".toList
  else if response.status ∉ [200, 202, 204, 404, 405] then
    .failure s!"HTTP {response.status}; expected session termination response".toList
  else .success none

/-! ## The user -/

abbrev UserAction := Action User Halt

def record (sent : Sent) (response : Option Response) (verdict : Verdict) (user : User) : User :=
  { user with exchanges := user.exchanges ++ [⟨sent, response, verdict⟩] }

/-- The session that the answer to a request hands out, whatever its status. -/
def acceptedSession (response : Response) : Option String :=
  response.session.filter fun session =>
    validateBackend settings response && session ≠ "" && !settings.stateless

def keepSession (response : Response) (user : User) : User :=
  { user with session := (acceptedSession settings response).or user.session }

/-- What a request returns: its result, if it succeeded. -/
def Verdict.outcome : Verdict → Except Halt (Option Value)
  | .success result => .ok result
  | .failure _ => .ok none
  | .crashed => .error (.raised "the JSON-RPC error is no object")
  | .interrupted => .error .stopped

def mcpRequest (method label : String) (params : Option (List (String × Value)))
    (includeProtocolVersion : Bool) : UserAction (Option Value) := fun user =>
  let sent := requestSent settings env user method label params includeProtocolVersion
  match env.server user.exchanges.length with
  | none => (.error .stopped, record sent none .interrupted user)
  | some response =>
      let verdict := judgeRequest settings env method (env.uuid user.exchanges.length) response
      (verdict.outcome, record sent (some response) verdict (keepSession settings response user))

def mcpNotification (method label : String) : UserAction Bool := fun user =>
  let sent := notificationSent user method label
  match env.server user.exchanges.length with
  | none => (.error .stopped, record sent none .interrupted user)
  | some response =>
      let verdict := judgeNotification settings response
      (.ok (match verdict with
        | .success _ => true
        | _ => false), record sent (some response) verdict user)

/-- Deletes the session, if the user has one. -/
def onStop (user : User) : User :=
  if settings.stateless || user.session.isNone then user
  else match env.server user.exchanges.length with
    | none => record (deleteSent user) none .interrupted user
    | some response => record (deleteSent user) (some response) (judgeDelete settings response) user

def initializeParams : List (String × Value) :=
  [("protocolVersion", .string settings.protocolVersion), ("capabilities", .object []),
    ("clientInfo", .object [("name", .string "cf-integration-locust"), ("version", .string "1.0")])]

def checkSettings : Except Halt Unit := do
  bailIf (settings.stackMode ∉ ["controlplane", "dataplane"])
    (.raised "MCP_STACK_MODE must be controlplane or dataplane")
  bailIf (settings.stackMode = "dataplane" ∧ settings.serverId = "")
    (.raised "MCP_SERVER_ID is required")
  bailIf (settings.bearerToken = "") (.raised "MCPGATEWAY_BEARER_TOKEN is required")

/-- The version that an initialize result negotiates. -/
def negotiatedVersion (result : Value) : String :=
  ((result.get? "protocolVersion").bind Value.asStr).getD settings.protocolVersion

def currentSession : UserAction (Option String) := fun user => (.ok user.session, user)

/-- Whether the conversation is open. -/
def openConversation : UserAction Bool := do
  if settings.stateless then do
    let result ← mcpRequest settings env "server/discover" "MCP server/discover" none true
    return result.isSome
  else do
    let result ← mcpRequest settings env "initialize" "MCP initialize"
      (some (initializeParams settings)) false
    match result with
    | none => return false
    | some result => do
        let session ← currentSession
        if session.isNone then
          Action.fail (.raised "initialize response did not include Mcp-Session-Id")
        else do
          Action.transition fun user =>
            (.ok (), { user with version := negotiatedVersion settings result })
          mcpNotification settings env "notifications/initialized" "MCP initialized"

def listedNames (result : Value) : List String :=
  (((result.get? "tools").bind Value.asArray).getD []).filterMap listedName

def usable (toolNames : List String) : List String :=
  toolNames.filter fun name => (toolCallArgs settings name).isSome

/-- The tools that the user may call. -/
def findTools : UserAction (List String) := do
  if settings.toolNames = [] ∧ !settings.skipToolList then do
    let listed ← mcpRequest settings env "tools/list" "MCP tools/list" (some []) true
    return usable settings ((listed.map listedNames).getD [])
  else return usable settings settings.toolNames

def onStart : UserAction Unit := do
  Action.ofExcept (checkSettings settings)
  if ← openConversation settings env then do
    let tools ← findTools settings env
    if tools = [] then
      Action.fail (.raised "Fast Time echo tool is required; refusing an empty load workload")
    else Action.transition fun user => (.ok (), { user with toolNames := tools, ready := true })
  else return ()

def callLabel : String :=
  match settings.replicaIndex with
  | none => "MCP tools/call"
  | some index => s!"MCP tools/call [replica-{index + 1}]"

/-- One task: a call of the tool that was picked. -/
def toolsCall (pick : Nat) : UserAction Unit := fun user =>
  if user.ready then
    let tool := user.toolNames.getD (pick % user.toolNames.length) ""
    let arguments := match toolCallArgs settings tool with
      | some arguments => Value.object arguments
      | none => .null
    ((do
      let _ ← mcpRequest settings env "tools/call" (callLabel settings)
        (some [("name", .string tool), ("arguments", arguments)]) true) : UserAction Unit) user
  else (.ok (), user)

/-- Task after task, until the user is stopped. An exception only ends its task. -/
def tasks : List Nat → User → User
  | [], user => user
  | pick :: picks, user =>
      match (toolsCall settings env pick).run user with
      | (.error .stopped, after) => after
      | (_, after) => tasks picks after

def newUser : User := ⟨none, settings.protocolVersion, false, settings.toolNames, []⟩

/-- A user that could not start is not stopped. -/
def run (picks : List Nat) : User :=
  match (onStart settings env).run (newUser settings) with
  | (.error (.raised _), user) => user
  | (.error .stopped, user) => onStop settings env user
  | (.ok (), user) => onStop settings env (tasks settings env picks user)

end

/-! ## What the exchanges carry -/

section
variable (settings : Settings)

/-- The session that an exchange hands out. -/
def handedOut (exchange : Exchange) : Option String :=
  match exchange.sent.kind, exchange.response with
  | .request _, some response => acceptedSession settings response
  | _, _ => none

/-- The session that was handed out last. -/
def sessionAfter (exchanges : List Exchange) : Option String :=
  History.latest (handedOut settings) exchanges

/-- The version that the first exchange has settled. -/
def versionAfter : List Exchange → String
  | ⟨_, _, .success (some result)⟩ :: _ =>
      if settings.stateless then settings.protocolVersion else negotiatedVersion settings result
  | _ => settings.protocolVersion

/-- Each message carries the session that was handed out last before it and, except for an
initialize request, the version that was settled. -/
def Carried (exchanges : List Exchange) : Prop :=
  History.Fits (fun before exchange => exchange.sent.session = sessionAfter settings before ∧
    exchange.sent.version = if exchange.sent.kind = .request "initialize" then none
      else some (versionAfter settings before)) exchanges

variable {settings}

theorem sessionAfter_concat (exchanges : List Exchange) (exchange : Exchange) :
    sessionAfter settings (exchanges ++ [exchange]) =
      (handedOut settings exchange).or (sessionAfter settings exchanges) :=
  History.latest_concat (handedOut settings) exchanges exchange

theorem versionAfter_append {exchanges : List Exchange} (hsome : exchanges ≠ [])
    (others : List Exchange) :
    versionAfter settings (exchanges ++ others) = versionAfter settings exchanges := by
  cases exchanges with
  | nil => exact absurd rfl hsome
  | cons first rest =>
      rcases first with ⟨sent, response, verdict⟩
      rcases verdict with (_ | result) | _ | _ | _ <;> rfl

theorem Carried.concat {exchanges : List Exchange} {exchange : Exchange}
    (hcarried : Carried settings exchanges)
    (hsession : exchange.sent.session = sessionAfter settings exchanges)
    (hversion : exchange.sent.version = if exchange.sent.kind = .request "initialize" then none
      else some (versionAfter settings exchanges)) :
    Carried settings (exchanges ++ [exchange]) :=
  History.Fits.concat hcarried ⟨hsession, hversion⟩

/-- What one more exchange leaves of the user. -/
structure Appended (settings : Settings) (user : User) (exchange : Exchange) (after : User) :
    Prop where
  exchanges : after.exchanges = user.exchanges ++ [exchange]
  session : after.session = sessionAfter settings after.exchanges
  carried : Carried settings after.exchanges
  version : after.version = user.version
  ready : after.ready = user.ready
  toolNames : after.toolNames = user.toolNames

/-- The user holds the session and the version that its next message has to carry. -/
structure Tracks (settings : Settings) (user : User) : Prop where
  session : user.session = sessionAfter settings user.exchanges
  version : user.version = versionAfter settings user.exchanges
  carried : Carried settings user.exchanges

theorem Tracks.append {user after : User} {exchange : Exchange}
    (htracks : Tracks settings user) (happended : Appended settings user exchange after)
    (hsome : user.exchanges ≠ []) : Tracks settings after where
  session := happended.session
  version := by
    rw [happended.version, htracks.version, happended.exchanges, versionAfter_append hsome]
  carried := happended.carried

/-! ## Exchanges of each kind -/

theorem session_keepSession {user : User} {sent : Sent} {response : Response} {verdict : Verdict}
    {method : String} (hkind : sent.kind = .request method)
    (hsession : user.session = sessionAfter settings user.exchanges) :
    (keepSession settings response user).session =
      sessionAfter settings (user.exchanges ++ [⟨sent, some response, verdict⟩]) := by
  rw [sessionAfter_concat, ← hsession]
  simp [keepSession, handedOut, hkind]

theorem sessionAfter_quiet {exchanges : List Exchange} {exchange : Exchange}
    (hquiet : handedOut settings exchange = none) :
    sessionAfter settings (exchanges ++ [exchange]) = sessionAfter settings exchanges := by
  rw [sessionAfter_concat, hquiet]
  rfl

variable {env : Environment}

/-- The outcome of a request, with the exchange that it has added. -/
structure Requested (settings : Settings) (env : Environment) (user : User) (sent : Sent)
    (result : Except Halt (Option Value)) (after : User) (exchange : Exchange) : Prop where
  sent : exchange.sent = sent
  appended : Appended settings user exchange after
  outcome : result = exchange.verdict.outcome

theorem mcpRequest_spec {user : User} (method label : String)
    (params : Option (List (String × Value))) (includeProtocolVersion : Bool)
    (hsession : user.session = sessionAfter settings user.exchanges)
    (hcarried : Carried settings user.exchanges)
    (hversion : (requestSent settings env user method label params includeProtocolVersion).version =
      if Kind.request method = .request "initialize" then none
      else some (versionAfter settings user.exchanges)) :
    (mcpRequest settings env method label params includeProtocolVersion).Ensures user
      fun result after => ∃ exchange, Requested settings env user
        (requestSent settings env user method label params includeProtocolVersion) result after
          exchange := by
  have happended : ∀ response verdict, Appended settings user
      ⟨requestSent settings env user method label params includeProtocolVersion, some response,
        verdict⟩ (record (requestSent settings env user method label params includeProtocolVersion)
          (some response) verdict (keepSession settings response user)) := fun response verdict => {
    exchanges := rfl
    session := session_keepSession rfl hsession
    carried := hcarried.concat hsession hversion
    version := rfl
    ready := rfl
    toolNames := rfl }
  cases hserver : env.server user.exchanges.length with
  | none =>
      have hrun : mcpRequest settings env method label params includeProtocolVersion user =
          (.error .stopped, record (requestSent settings env user method label params
            includeProtocolVersion) none .interrupted user) := by
        unfold mcpRequest
        simp only [hserver]
      refine Action.ensures_of_eq hrun ⟨⟨_, none, .interrupted⟩, rfl, ?_, rfl⟩
      exact {
        exchanges := rfl
        session := hsession.trans (sessionAfter_quiet rfl).symm
        carried := hcarried.concat hsession hversion
        version := rfl
        ready := rfl
        toolNames := rfl }
  | some response =>
      have hrun : mcpRequest settings env method label params includeProtocolVersion user =
          ((judgeRequest settings env method (env.uuid user.exchanges.length) response).outcome,
            record (requestSent settings env user method label params includeProtocolVersion)
              (some response) (judgeRequest settings env method (env.uuid user.exchanges.length)
                response) (keepSession settings response user)) := by
        unfold mcpRequest
        simp only [hserver]
      exact Action.ensures_of_eq hrun ⟨_, rfl, happended response _, rfl⟩

theorem outcome_eq_some {verdict : Verdict} {value : Value}
    (houtcome : verdict.outcome = .ok (some value)) : verdict = .success (some value) := by
  cases verdict with
  | success result =>
      cases houtcome
      rfl
  | failure text => cases houtcome
  | crashed => cases houtcome
  | interrupted => cases houtcome

theorem mcpNotification_spec {user : User} (method label : String)
    (htracks : Tracks settings user) :
    (mcpNotification settings env method label).Ensures user fun result after =>
      ∃ exchange, exchange.sent = notificationSent user method label ∧
        Appended settings user exchange after ∧
          (result = .ok true → ∃ value, exchange.verdict = .success value) := by
  have happended : ∀ response verdict, Appended settings user
      ⟨notificationSent user method label, response, verdict⟩
        (record (notificationSent user method label) response verdict user) :=
    fun response verdict => {
      exchanges := rfl
      session := htracks.session.trans (sessionAfter_quiet rfl).symm
      carried := htracks.carried.concat htracks.session (congrArg some htracks.version)
      version := rfl
      ready := rfl
      toolNames := rfl }
  cases hserver : env.server user.exchanges.length with
  | none =>
      have hrun : mcpNotification settings env method label user =
          (.error .stopped,
            record (notificationSent user method label) none .interrupted user) := by
        unfold mcpNotification
        simp only [hserver]
      exact Action.ensures_of_eq hrun ⟨_, rfl, happended none .interrupted, nofun⟩
  | some response =>
      have hrun : mcpNotification settings env method label user =
          (.ok (match judgeNotification settings response with
            | .success _ => true
            | _ => false), record (notificationSent user method label) (some response)
              (judgeNotification settings response) user) := by
        unfold mcpNotification
        simp only [hserver]
      refine Action.ensures_of_eq hrun ⟨_, rfl, happended (some response) _, fun hok => ?_⟩
      cases hverdict : judgeNotification settings response with
      | success value => exact ⟨value, rfl⟩
      | failure text => simp [hverdict] at hok
      | crashed => simp [hverdict] at hok
      | interrupted => simp [hverdict] at hok

theorem onStop_spec {user : User} (htracks : Tracks settings user) :
    onStop settings env user = user ∧ (settings.stateless = true ∨ user.session = none) ∨
      settings.stateless = false ∧ user.session ≠ none ∧ ∃ exchange,
        exchange.sent.kind = .delete ∧
          Appended settings user exchange (onStop settings env user) := by
  unfold onStop
  split
  next hnone => exact .inl ⟨rfl, by simpa using hnone⟩
  next hsome =>
    simp only [Bool.or_eq_true, Option.isNone_iff_eq_none, not_or, Bool.not_eq_true] at hsome
    have happended : ∀ response verdict, Appended settings user
        ⟨deleteSent user, response, verdict⟩ (record (deleteSent user) response verdict user) :=
      fun response verdict => {
        exchanges := rfl
        session := htracks.session.trans (sessionAfter_quiet rfl).symm
        carried := htracks.carried.concat htracks.session (congrArg some htracks.version)
        version := rfl
        ready := rfl
        toolNames := rfl }
    refine .inr ⟨hsome.1, hsome.2, ?_⟩
    split
    next => exact ⟨_, rfl, happended none .interrupted⟩
    next response _ => exact ⟨_, rfl, happended (some response) _⟩

/-! ## The opening -/

def Exchange.kind (exchange : Exchange) : Kind := exchange.sent.kind

def Exchange.Succeeded (exchange : Exchange) : Prop := ∃ result, exchange.verdict = .success result

def greetingKinds (settings : Settings) : List Kind :=
  if settings.stateless then [.request "server/discover"]
  else [.request "initialize", .notification "notifications/initialized"]

/-- The greeting went through. -/
structure Greeted (settings : Settings) (greeting : List Exchange) : Prop where
  kinds : greeting.map Exchange.kind = greetingKinds settings
  succeeded : ∀ exchange ∈ greeting, exchange.Succeeded

/-- What the greeting leaves, however it ends. -/
structure Greeting (settings : Settings) (result : Except Halt Bool) (after : User) : Prop where
  carried : Carried settings after.exchanges
  ready : after.ready = false
  kinds : after.exchanges.map Exchange.kind <+: greetingKinds settings
  tracks : (∀ text, result ≠ .error (.raised text)) → Tracks settings after
  greeted : result = .ok true → Greeted settings after.exchanges

def Start (settings : Settings) (user : User) : Prop := user = newUser settings

theorem versionAfter_stateless (hstateless : settings.stateless = true)
    (exchanges : List Exchange) :
    versionAfter settings exchanges = settings.protocolVersion := by
  unfold versionAfter
  split
  next => exact if_pos hstateless
  next => rfl

theorem versionAfter_unsettled {exchange : Exchange}
    (hverdict : ∀ value, exchange.verdict ≠ .success (some value)) :
    versionAfter settings [exchange] = settings.protocolVersion := by
  rcases exchange with ⟨sent, response, verdict⟩
  rcases verdict with (_ | result) | _ | _ | _
  next => rfl
  next => exact absurd rfl (hverdict result)
  next => rfl
  next => rfl
  next => rfl

theorem Start.tracks {user : User} (hstart : Start settings user) : Tracks settings user := by
  cases hstart
  exact ⟨rfl, rfl, History.fits_nil _⟩

theorem Start.appended {user after : User} {exchange : Exchange} (hstart : Start settings user)
    (happended : Appended settings user exchange after) :
    after.exchanges = [exchange] ∧ after.ready = false ∧
      after.version = settings.protocolVersion := by
  cases hstart
  exact ⟨happended.exchanges, happended.ready, happended.version⟩

/-- A greeting of one exchange that settles no version. -/
theorem Greeting.of_first {user after : User} {exchange : Exchange} {result : Except Halt Bool}
    (hstart : Start settings user) (happended : Appended settings user exchange after)
    (hkind : [exchange.kind] <+: greetingKinds settings)
    (hversion : versionAfter settings [exchange] = settings.protocolVersion)
    (hgreeted : result = .ok true → Greeted settings [exchange]) :
    Greeting settings result after := by
  obtain ⟨hexchanges, hready, hsame⟩ := hstart.appended happended
  refine ⟨happended.carried, hready, hexchanges ▸ hkind, fun _ => ?_, hexchanges ▸ hgreeted⟩
  exact ⟨happended.session, by rw [hsame, hexchanges, hversion], happended.carried⟩

/-- The rest of a legacy greeting, once the server has answered the initialize request. -/
theorem initialized_spec {user after : User} {exchange : Exchange} {value : Value}
    (hlegacy : settings.stateless = false) (happended : Appended settings user exchange after)
    (hexchanges : after.exchanges = [exchange]) (hkind : exchange.sent.kind = .request "initialize")
    (hready : after.ready = false) (hverdict : exchange.verdict = .success (some value)) :
    Action.Ensures (do
      Action.transition fun user =>
        (.ok (), { user with version := negotiatedVersion settings value })
      mcpNotification settings env "notifications/initialized" "MCP initialized") after
        (Greeting settings) := by
  have hversion : versionAfter settings [exchange] = negotiatedVersion settings value := by
    rcases exchange with ⟨sent, response, verdict⟩
    cases hverdict
    simp [versionAfter, hlegacy]
  let settled : User := { after with version := negotiatedVersion settings value }
  have htracks : Tracks settings settled :=
    ⟨happended.session, by rw [show settled.exchanges = [exchange] from hexchanges, hversion],
      happended.carried⟩
  have hsettle : Action.Ensures (Action.transition fun user : User =>
      ((.ok () : Except Halt Unit), { user with version := negotiatedVersion settings value }))
      after fun result state => result = .ok () ∧ state = settled := ⟨rfl, rfl⟩
  refine hsettle.bind ?_ (fun _ _ hnone => nomatch hnone.1)
  rintro _ _ ⟨-, rfl⟩
  refine (mcpNotification_spec "notifications/initialized" "MCP initialized" htracks).mono ?_
  rintro result final ⟨notified, hsent, hnotified, hsucceeded⟩
  have hfinal : final.exchanges = [exchange, notified] := by
    rw [hnotified.exchanges, show settled.exchanges = [exchange] from hexchanges]
    rfl
  have hkinds : final.exchanges.map Exchange.kind = greetingKinds settings := by
    simp [hfinal, greetingKinds, hlegacy, hkind, Exchange.kind, hsent, notificationSent]
  exact {
    carried := hnotified.carried
    ready := hnotified.ready.trans hready
    kinds := hkinds ▸ List.prefix_rfl
    tracks := fun _ => htracks.append hnotified (by simp [settled, hexchanges])
    greeted := fun hok => ⟨hkinds, fun other hmem => by
      rw [hfinal, List.mem_pair] at hmem
      rcases hmem with rfl | rfl
      · exact ⟨_, hverdict⟩
      · exact hsucceeded hok⟩ }

theorem openConversation_spec {user : User} (hstart : Start settings user) :
    (openConversation settings env).Ensures user (Greeting settings) := by
  have htracks := hstart.tracks
  unfold openConversation
  split
  next hstateless =>
    have hkinds : greetingKinds settings = [.request "server/discover"] := if_pos hstateless
    refine (mcpRequest_spec "server/discover" "MCP server/discover" none true htracks.session
      htracks.carried (by simp [requestSent, htracks.version])).bind ?_ ?_
    · rintro result after ⟨exchange, hrequested⟩
      refine Action.ensures_pure.mpr (.of_first hstart hrequested.appended ?_
        (versionAfter_stateless hstateless _) fun hok => ⟨?_, ?_⟩)
      · rw [hkinds, Exchange.kind, hrequested.sent]
        exact List.prefix_rfl
      · rw [hkinds, List.map_singleton, Exchange.kind, hrequested.sent]
        rfl
      · intro other hmem
        cases List.mem_singleton.mp hmem
        obtain ⟨value, rfl⟩ := Option.isSome_iff_exists.mp (Except.ok.inj hok)
        exact ⟨_, outcome_eq_some hrequested.outcome.symm⟩
    · rintro error after ⟨exchange, hrequested⟩
      refine .of_first hstart hrequested.appended ?_ (versionAfter_stateless hstateless _) nofun
      rw [hkinds, Exchange.kind, hrequested.sent]
      exact List.prefix_rfl
  next hlegacy =>
    have hlegacy : settings.stateless = false := by simpa using hlegacy
    have hkinds : greetingKinds settings =
        [.request "initialize", .notification "notifications/initialized"] := by
      simp [greetingKinds, hlegacy]
    have hopens : ∀ exchange : Exchange, exchange.sent = requestSent settings env user "initialize"
        "MCP initialize" (some (initializeParams settings)) false →
          [exchange.kind] <+: greetingKinds settings := by
      intro exchange hsent
      rw [hkinds, Exchange.kind, hsent]
      exact ⟨[_], rfl⟩
    refine (mcpRequest_spec "initialize" "MCP initialize" (some (initializeParams settings)) false
      htracks.session htracks.carried (by simp [requestSent, hlegacy])).bind ?_ ?_
    · rintro result after ⟨exchange, hrequested⟩
      cases result with
      | none =>
          refine Action.ensures_pure.mpr (.of_first hstart hrequested.appended
            (hopens exchange hrequested.sent) (versionAfter_unsettled fun value hvalue => ?_) nofun)
          have houtcome := hrequested.outcome
          rw [hvalue] at houtcome
          cases houtcome
      | some value =>
          have hverdict := outcome_eq_some hrequested.outcome.symm
          obtain ⟨hexchanges, hready, -⟩ := hstart.appended hrequested.appended
          have hsession : Action.Ensures currentSession after fun result state =>
            result = .ok after.session ∧ state = after := ⟨rfl, rfl⟩
          refine hsession.bind ?_ (fun _ _ hnone => nomatch hnone.1)
          rintro _ _ ⟨⟨⟩, rfl⟩
          split
          next =>
            exact Action.ensures_fail.mpr {
              carried := hrequested.appended.carried
              ready := hready
              kinds := hexchanges ▸ hopens exchange hrequested.sent
              tracks := fun hraised => absurd rfl (hraised _)
              greeted := nofun }
          next =>
            have hkind : exchange.sent.kind = .request "initialize" := hrequested.sent ▸ rfl
            exact initialized_spec hlegacy hrequested.appended hexchanges hkind hready hverdict
    · rintro error after ⟨exchange, hrequested⟩
      refine .of_first hstart hrequested.appended (hopens exchange hrequested.sent)
        (versionAfter_unsettled fun value hvalue => ?_) nofun
      have houtcome := hrequested.outcome
      rw [hvalue] at houtcome
      cases houtcome

/-- Where the tools come from: the settings, or the one listing. -/
inductive Listed (settings : Settings) : List Exchange → List String → Prop where
  | configured (hconfigured : settings.toolNames ≠ [] ∨ settings.skipToolList = true) :
      Listed settings [] (usable settings settings.toolNames)
  | listed {exchange : Exchange} {result : Value} (hnone : settings.toolNames = [])
      (hkind : exchange.kind = .request "tools/list")
      (hverdict : exchange.verdict = .success (some result)) :
      Listed settings [exchange] (usable settings (listedNames result))

structure ToolsFound (settings : Settings) (user : User) (result : Except Halt (List String))
    (after : User) (listing : List Exchange) : Prop where
  exchanges : after.exchanges = user.exchanges ++ listing
  kinds : listing.map Exchange.kind <+: [.request "tools/list"]
  tracks : Tracks settings after
  ready : after.ready = user.ready
  listed : ∀ tools, result = .ok tools → tools ≠ [] → Listed settings listing tools

theorem findTools_spec {user : User} (htracks : Tracks settings user)
    (hsome : user.exchanges ≠ []) :
    (findTools settings env).Ensures user fun result after =>
      ∃ listing, ToolsFound settings user result after listing := by
  unfold findTools
  split
  next hlist =>
    refine (mcpRequest_spec "tools/list" "MCP tools/list" (some []) true htracks.session
      htracks.carried (by simp [requestSent, htracks.version])).bind ?_ ?_
    · rintro result after ⟨exchange, hrequested⟩
      have hkind : exchange.kind = .request "tools/list" := by
        rw [Exchange.kind, hrequested.sent]
        rfl
      refine Action.ensures_pure.mpr ⟨[exchange], {
        exchanges := hrequested.appended.exchanges
        kinds := by simp [hkind]
        tracks := htracks.append hrequested.appended hsome
        ready := hrequested.appended.ready
        listed := fun tools hok htools => ?_ }⟩
      cases hok
      cases result with
      | none => exact absurd rfl htools
      | some value => exact .listed hlist.1 hkind (outcome_eq_some hrequested.outcome.symm)
    · rintro error after ⟨exchange, hrequested⟩
      exact ⟨[exchange], {
        exchanges := hrequested.appended.exchanges
        kinds := by simp [Exchange.kind, hrequested.sent, requestSent]
        tracks := htracks.append hrequested.appended hsome
        ready := hrequested.appended.ready
        listed := nofun }⟩
  next hconfigured =>
    refine Action.ensures_pure.mpr ⟨[], {
      exchanges := (List.append_nil _).symm
      kinds := List.nil_prefix
      tracks := htracks
      ready := rfl
      listed := fun tools hok htools => ?_ }⟩
    cases hok
    refine .configured ?_
    by_contra hnone
    simp only [not_or, not_not, Bool.not_eq_true] at hnone
    exact hconfigured ⟨hnone.1, by simp [hnone.2]⟩

def openingKinds (settings : Settings) : List Kind :=
  greetingKinds settings ++ [.request "tools/list"]

/-- The opening went through, and the user may call the tools. -/
structure Opened (settings : Settings) (opening : List Exchange) (tools : List String) : Prop where
  some : tools ≠ []
  split : ∃ greeting listing, opening = greeting ++ listing ∧ Greeted settings greeting ∧
    Listed settings listing tools

theorem Greeted.ne_nil {greeting : List Exchange} (hgreeted : Greeted settings greeting) :
    greeting ≠ [] := by
  rintro rfl
  have hkinds := hgreeted.kinds
  unfold greetingKinds at hkinds
  split at hkinds <;> cases hkinds

theorem Opened.ne_nil {opening : List Exchange} {tools : List String}
    (hopened : Opened settings opening tools) : opening ≠ [] := by
  obtain ⟨greeting, listing, rfl, hgreeted, -⟩ := hopened.split
  exact List.append_ne_nil_of_left_ne_nil hgreeted.ne_nil listing

/-- What the start of the user leaves, however it ends. -/
structure Opening (settings : Settings) (result : Except Halt Unit) (after : User) : Prop where
  carried : Carried settings after.exchanges
  kinds : after.exchanges.map Exchange.kind <+: openingKinds settings
  tracks : (∀ text, result ≠ .error (.raised text)) → Tracks settings after
  opened : after.ready = true → Opened settings after.exchanges after.toolNames

theorem Greeting.opening {result : Except Halt Bool} {outcome : Except Halt Unit} {after : User}
    (hgreeting : Greeting settings result after)
    (hraised : (∀ text, outcome ≠ .error (.raised text)) →
      ∀ text, result ≠ .error (.raised text)) : Opening settings outcome after where
  carried := hgreeting.carried
  kinds := hgreeting.kinds.trans (List.prefix_append _ _)
  tracks hok := hgreeting.tracks (hraised hok)
  opened hready := by
    rw [hgreeting.ready] at hready
    cases hready

theorem onStart_spec {user : User} (hstart : Start settings user) :
    (onStart settings env).Ensures user (Opening settings) := by
  refine Action.Ensures.ofExcept (fun _ _ => ?_) fun halt _ => ?_
  · refine (openConversation_spec hstart).bind ?_ ?_
    · intro greeted first hgreeting
      cases greeted with
      | false => exact Action.ensures_pure.mpr (hgreeting.opening fun _ => nofun)
      | true =>
          have htracks := hgreeting.tracks nofun
          have hgreeted := hgreeting.greeted rfl
          have hopening : ∀ (listing : List Exchange),
              listing.map Exchange.kind <+: [.request "tools/list"] →
                (first.exchanges ++ listing).map Exchange.kind <+: openingKinds settings := by
            intro listing hlisting
            rw [List.map_append, hgreeted.kinds]
            exact (List.prefix_append_right_inj _).mpr hlisting
          refine (findTools_spec htracks hgreeted.ne_nil).bind ?_ ?_
          · rintro tools after ⟨listing, hfound⟩
            have hkinds := hfound.exchanges ▸ hopening listing hfound.kinds
            have hready : after.ready = false := hfound.ready.trans hgreeting.ready
            split
            next => exact Action.ensures_fail.mpr ⟨hfound.tracks.carried, hkinds,
              fun _ => hfound.tracks, fun htrue => absurd htrue (by simp [hready])⟩
            next htools =>
              exact {
                carried := hfound.tracks.carried
                kinds := hkinds
                tracks := fun _ => ⟨hfound.tracks.session, hfound.tracks.version,
                  hfound.tracks.carried⟩
                opened := fun _ => ⟨htools, first.exchanges, listing, hfound.exchanges, hgreeted,
                  hfound.listed tools rfl htools⟩ }
          · rintro halt after ⟨listing, hfound⟩
            have hready : after.ready = false := hfound.ready.trans hgreeting.ready
            exact ⟨hfound.tracks.carried, hfound.exchanges ▸ hopening listing hfound.kinds,
              fun _ => hfound.tracks, fun htrue => absurd htrue (by simp [hready])⟩
    · intro halt after hgreeting
      exact hgreeting.opening fun hraised text heq => hraised text (by cases heq; rfl)
  · have htracks := hstart.tracks
    cases hstart
    exact ⟨htracks.carried, List.nil_prefix, fun _ => htracks, nofun⟩

/-! ## The run -/

/-- A call of one of the tools, with its arguments. -/
structure IsCall (settings : Settings) (tools : List String) (call : Exchange) : Prop where
  kind : call.kind = .request "tools/call"
  params : ∃ name ∈ tools, ∃ arguments, toolCallArgs settings name = some arguments ∧
    (call.sent.params.bind (List.lookup "name")) = some (.string name) ∧
    (call.sent.params.bind (List.lookup "arguments")) = some (.object arguments)

theorem Listed.known {listing : List Exchange} {tools : List String}
    (hlisted : Listed settings listing tools) {name : String} (hname : name ∈ tools) :
    ∃ arguments, toolCallArgs settings name = some arguments := by
  cases hlisted with
  | configured => exact Option.isSome_iff_exists.mp (List.mem_filter.mp hname).2
  | listed => exact Option.isSome_iff_exists.mp (List.mem_filter.mp hname).2

theorem isCall_of_sent {user : User} {call : Exchange} {tools : List String} {name : String}
    {arguments : List (String × Value)} (hname : name ∈ tools)
    (harguments : toolCallArgs settings name = some arguments)
    (hsent : call.sent = requestSent settings env user "tools/call" (callLabel settings)
      (some [("name", .string name), ("arguments", .object arguments)]) true) :
    IsCall settings tools call := by
  refine ⟨by rw [Exchange.kind, hsent]; rfl, name, hname, arguments, harguments, ?_⟩
  rw [hsent]
  unfold requestSent
  split
  next => simp [statelessParams, List.lookup_cons]
  next => simp [List.lookup_cons]

/-- A task of a user that may call tools. -/
theorem toolsCall_spec {user : User} (pick : Nat) (htracks : Tracks settings user)
    (hready : user.ready = true) (hopened : ∃ opening, Opened settings opening user.toolNames) :
    (toolsCall settings env pick).Ensures user fun _ after => ∃ call,
      Appended settings user call after ∧ IsCall settings user.toolNames call := by
  obtain ⟨opening, htools, greeting, listing, -, -, hlisted⟩ := hopened
  have hindex : pick % user.toolNames.length < user.toolNames.length :=
    Nat.mod_lt _ (List.length_pos_iff.mpr htools)
  have hmem : user.toolNames.getD (pick % user.toolNames.length) "" ∈ user.toolNames := by
    rw [List.getD_eq_getElem?_getD, List.getElem?_eq_getElem hindex]
    exact List.getElem_mem hindex
  obtain ⟨arguments, harguments⟩ := hlisted.known hmem
  have hrun : toolsCall settings env pick user = ((do
      let _ ← mcpRequest settings env "tools/call" (callLabel settings)
        (some [("name", .string (user.toolNames.getD (pick % user.toolNames.length) "")),
          ("arguments", .object arguments)]) true) : UserAction Unit) user := by
    unfold toolsCall
    simp only [hready, if_true, harguments]
  refine Action.ensures_congr hrun (Action.Ensures.bind
    (mcpRequest_spec "tools/call" (callLabel settings) _ true htracks.session htracks.carried
      (by simp [requestSent, htracks.version])) ?_ ?_)
  · rintro result after ⟨call, hrequested⟩
    exact Action.ensures_pure.mpr ⟨call, hrequested.appended,
      isCall_of_sent hmem harguments hrequested.sent⟩
  · rintro halt after ⟨call, hrequested⟩
    exact ⟨call, hrequested.appended, isCall_of_sent hmem harguments hrequested.sent⟩

theorem tasks_spec (picks : List Nat) {user : User} (htracks : Tracks settings user)
    (hready : user.ready = true) (hopened : ∃ opening, Opened settings opening user.toolNames)
    (hsome : user.exchanges ≠ []) :
    Tracks settings (tasks settings env picks user) ∧ ∃ calls,
      (tasks settings env picks user).exchanges = user.exchanges ++ calls ∧
        ∀ call ∈ calls, IsCall settings user.toolNames call := by
  induction picks generalizing user with
  | nil => exact ⟨htracks, [], (List.append_nil _).symm,
      fun _ hnone => absurd hnone List.not_mem_nil⟩
  | cons pick picks ih =>
      rcases hrun : (toolsCall settings env pick).run user with ⟨result, after⟩
      obtain ⟨call, happended, hcall⟩ :=
        (toolsCall_spec pick htracks hready hopened).of_run hrun
      have hafter := htracks.append happended hsome
      have hnext : Tracks settings (tasks settings env picks after) ∧ ∃ calls,
          (tasks settings env picks after).exchanges = user.exchanges ++ calls ∧
            ∀ call ∈ calls, IsCall settings user.toolNames call := by
        obtain ⟨hfinal, calls, hcalls, hall⟩ := ih hafter (happended.ready.trans hready)
          (happended.toolNames ▸ hopened) (by simp [happended.exchanges])
        refine ⟨hfinal, call :: calls, ?_, ?_⟩
        · rw [hcalls, happended.exchanges, List.append_assoc]
          rfl
        · intro other hother
          rcases List.mem_cons.mp hother with rfl | hother
          · exact hcall
          · exact happended.toolNames ▸ hall other hother
      unfold tasks
      rw [hrun]
      split
      next heq =>
        cases heq
        exact ⟨hafter, [call], happended.exchanges, fun other hother => by
          cases List.mem_singleton.mp hother
          exact hcall⟩
      next heq =>
        cases heq
        exact hnext

theorem tasks_idle (picks : List Nat) {user : User} (hready : user.ready = false) :
    tasks settings env picks user = user := by
  induction picks with
  | nil => rfl
  | cons pick picks ih =>
      have hrun : (toolsCall settings env pick).run user = (.ok (), user) := by
        unfold Action.run toolsCall
        simp [hready]
      unfold tasks
      rw [hrun]
      exact ih

/-- How a conversation ends. A session is deleted, unless the user could not start. -/
inductive Closing (settings : Settings) (started : Except Halt Unit) (exchanges : List Exchange) :
    List Exchange → Prop where
  | none (hnone : (∃ text, started = .error (.raised text)) ∨ settings.stateless = true ∨
      sessionAfter settings exchanges = none) : Closing settings started exchanges []
  | deleted {deletion : Exchange} (hkind : deletion.kind = .delete)
      (hlegacy : settings.stateless = false) (hsession : sessionAfter settings exchanges ≠ none) :
      Closing settings started exchanges [deletion]

/-- A conversation from its opening to its end. -/
structure Conversation (settings : Settings) (started : Except Halt Unit)
    (opening calls closing : List Exchange) : Prop where
  carried : Carried settings (opening ++ calls ++ closing)
  kinds : opening.map Exchange.kind <+: openingKinds settings
  opened : calls = [] ∨ ∃ tools, Opened settings opening tools ∧ ∀ call ∈ calls,
    IsCall settings tools call
  ending : Closing settings started (opening ++ calls) closing

theorem conversation_of_stop {started : Except Halt Unit} {user : User}
    {opening calls : List Exchange} (htracks : Tracks settings user)
    (hexchanges : user.exchanges = opening ++ calls)
    (hkinds : opening.map Exchange.kind <+: openingKinds settings)
    (hcalls : calls = [] ∨ ∃ tools, Opened settings opening tools ∧ ∀ call ∈ calls,
      IsCall settings tools call) :
    ∃ opening calls closing, (onStop settings env user).exchanges = opening ++ calls ++ closing ∧
      Conversation settings started opening calls closing := by
  rcases @onStop_spec settings env user htracks with
    ⟨hsame, hnone⟩ | ⟨hlegacy, hsession, deletion, hkind, happended⟩
  · refine ⟨opening, calls, [], by rw [hsame, hexchanges, List.append_nil], ?_, hkinds, hcalls,
      .none (.inr ?_)⟩
    · rw [List.append_nil, ← hexchanges]
      exact htracks.carried
    · rwa [← hexchanges, ← htracks.session]
  · refine ⟨opening, calls, [deletion], by rw [happended.exchanges, hexchanges], ?_, hkinds, hcalls,
      .deleted hkind hlegacy ?_⟩
    · rw [← hexchanges, ← happended.exchanges]
      exact happended.carried
    · rwa [← hexchanges, ← htracks.session]

/-- Whatever the server answers and wherever the user is stopped, its messages are an opening
in its order, then calls of known tools if the opening went through, then at most one deletion;
each carries the session that was handed out last and the version that was settled, and a
session is deleted unless the user could not start. -/
theorem run_converses (settings : Settings) (env : Environment) (picks : List Nat) :
    ∃ opening calls closing, (run settings env picks).exchanges = opening ++ calls ++ closing ∧
      Conversation settings ((onStart settings env).run (newUser settings)).1 opening calls
        closing := by
  have hopening : Opening settings ((onStart settings env).run (newUser settings)).1
      ((onStart settings env).run (newUser settings)).2 := onStart_spec rfl
  rcases hrun : (onStart settings env).run (newUser settings) with ⟨result, user⟩
  rw [hrun] at hopening
  unfold run
  rw [hrun]
  rcases result with (text | _) | ⟨⟩
  · refine ⟨user.exchanges, [], [], by simp, ?_, hopening.kinds, .inl rfl, .none (.inl ⟨text, rfl⟩)⟩
    simpa using hopening.carried
  · exact conversation_of_stop (hopening.tracks nofun) (List.append_nil _).symm hopening.kinds
      (.inl rfl)
  · have htracks := hopening.tracks nofun
    cases hready : user.ready with
    | false =>
        refine @conversation_of_stop settings env _ _ user.exchanges [] ?_ ?_ hopening.kinds
          (.inl rfl)
        · exact (tasks_idle picks hready).symm ▸ htracks
        · rw [tasks_idle picks hready, List.append_nil]
    | true =>
        have hopened := hopening.opened hready
        obtain ⟨hafter, calls, hexchanges, hcalls⟩ := @tasks_spec settings env picks user htracks
          hready ⟨_, hopened⟩ hopened.ne_nil
        exact conversation_of_stop hafter hexchanges hopening.kinds
          (.inr ⟨user.toolNames, hopened, hcalls⟩)

/-- An answer that each request of the user takes. -/
def planeAnswer : Value :=
  .object [("jsonrpc", .string "2.0"), ("id", .string "id"), ("result", .object [
    ("protocolVersion", .string "2025-06-18"), ("capabilities", .object []),
    ("serverInfo", .object [("name", .string "plane"), ("version", .string "1")]),
    ("content", .array [])])]

example : ((run ⟨"2025-11-25", .inl rfl, "controlplane", "", "token", ["echo"], true, false, false,
    false, none⟩ {
      server := fun number => some ⟨if number = 1 then 202 else 200, none, none, some "session",
        some "application/json", if number = 1 then [] else writeValue planeAnswer⟩
      uuid := fun _ => "id"
      parser := .ofValues [planeAnswer]
      shown := fun _ => "" } [0]).exchanges.map fun exchange =>
        (exchange.kind, exchange.sent.version)) =
    [(.request "initialize", none), (.notification "notifications/initialized", some "2025-06-18"),
      (.request "tools/call", some "2025-06-18"), (.delete, some "2025-06-18")] := by
  decide +kernel

end

end CfIntegration.Performance.LoadUser
