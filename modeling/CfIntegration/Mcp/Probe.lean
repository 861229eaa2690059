import CfIntegration.Foundation.Action
import CfIntegration.Mcp.Endpoint
import CfIntegration.Mcp.EventStream
import CfIntegration.Mcp.Protocol

/-! # The protocol probe

The probe walks through one conversation over the public MCP route, in the
initialization-based or in the stateless lifecycle, and fails at the first reply it does
not accept. Transport, clock and output may behave in any way.
-/

namespace CfIntegration.Mcp

open CfIntegration.Action Protocol

inductive BackendIdentity where
  | missing
  | dataplane
  | controlplaneFallback
  | controlplane
  | invalid
  | multiple
  deriving DecidableEq, Repr

def BackendIdentity.dataplaneError : BackendIdentity → Option String
  | .dataplane => none
  | .missing => some "dataplane response backend marker is missing"
  | .controlplaneFallback =>
      some "dataplane response backend marker identifies controlplane fallback"
  | .controlplane => some "dataplane response backend marker identifies controlplane"
  | .invalid => some "dataplane response backend marker is invalid"
  | .multiple => some "dataplane response backend marker is duplicated"

/-- Durations are in nanoseconds. -/
structure ProbeConfig where
  mode : GatewayTopology
  baseUrl : List Char
  serverId : List Char
  bearerToken : String
  configTimeout : Nat
  retryInterval : Nat
  requestTimeout : Nat
  protocolVersion : String
  toolNames : List String

structure ProbeRequest where
  url : List Char
  payload : Value
  bearerToken : Option String
  sessionId : Option String
  protocolVersion : Option String

structure ProbeResponse where
  status : Nat
  sessionId : Option String
  message : Option Value
  backendIdentity : BackendIdentity

inductive PostError where
  | failed
  | timedOut
  deriving DecidableEq, Repr

structure Exchange where
  request : ProbeRequest
  reply : Except PostError ProbeResponse

inductive TestStatus where
  | pass
  | skip
  deriving DecidableEq, Repr

inductive OutputLine where
  | probeUrl (text : List Char)
  | result (status : TestStatus) (name : String)
  deriving DecidableEq, Repr

inductive ProbeError where
  | message (text : String)
  /-- More attempts than were allowed for. -/
  | unfinished
  deriving DecidableEq, Repr

/-- What the probe runs against. The transport answers a request with its timeout after any
exchanges, and the clock is read after so many readings and so much sleep. -/
structure ProbeWorld where
  post : List Exchange → ProbeRequest → Nat → Except PostError ProbeResponse
  elapsed : Nat → Nat → Nat
  writes : List OutputLine → OutputLine → Bool

structure ProbeState where
  exchanges : List Exchange
  output : List OutputLine
  readings : Nat
  slept : Nat

abbrev ProbeAction := Action ProbeState ProbeError

def bail {α : Type} (text : String) : Except ProbeError α := .error (.message text)

def initializeId : UInt64 := 1

def toolsListId : UInt64 := 2

def toolCallId : UInt64 := 3

def minRetryInterval : Nat := 10000000

def isBlank (text : String) : Bool := text.toList.all isWhitespace

def acceptedEmpty (step : String) (response : ProbeResponse) : Except ProbeError Unit :=
  if response.status ≠ 202 then bail (step ++ "=FAIL status=" ++ toString response.status)
  else if response.message.isSome then bail (step ++ "=FAIL expected an empty response")
  else .ok ()

/-- The result object of a reply. -/
def resultOf (step : String) (response : ProbeResponse) (expectedId : UInt64) :
    Except ProbeError Value :=
  if response.status ≠ 200 then bail (step ++ "=FAIL status=" ++ toString response.status)
  else
    match response.message with
    | none => bail (step ++ "=FAIL unexpected response: no JSON-RPC message")
    | some message =>
        if message.asObject.isNone then bail (step ++ "=FAIL response must be a JSON-RPC object")
        else if (message.get? "jsonrpc").bind Value.asStr ≠ some "2.0" then
          bail (step ++ "=FAIL invalid JSON-RPC version")
        else if (message.get? "id").bind Value.asU64 ≠ some expectedId then
          bail (step ++ "=FAIL response ID mismatch")
        else if (message.get? "error").isSome then bail (step ++ "=FAIL JSON-RPC error")
        else
          match message.get? "result" with
          | some (.object entries) => .ok (.object entries)
          | _ => bail (step ++ "=FAIL response result must be an object")

/-- Control characters are written out. -/
def sanitizeForOutput (text : List Char) : List Char :=
  text.flatMap fun char =>
    if char = '\n' then "\\n".toList
    else if char = '\r' then "\\r".toList
    else if char = '\t' then "\\t".toList
    else if char < ' ' ∨ ('\x7f' ≤ char ∧ char ≤ '\u009f') then
      let digits := Nat.toDigits 16 char.toNat
      "\\u\x7b".toList ++ List.replicate (4 - digits.length) '0' ++ digits ++ ['\x7d']
    else [char]

def toolName (tool : Value) : Option String :=
  ((tool.get? "name").bind Value.asStr).filter fun name => !isBlank name

def negotiatedVersion (result : Value) : Option String :=
  ((result.get? "protocolVersion").bind Value.asStr).filter fun version => !isBlank version

def negotiatedSession (response : ProbeResponse) (result : Value) :
    Except ProbeError (String × String) := do
  let version ← okOr (negotiatedVersion result)
    (.message "initialize=FAIL missing negotiated protocolVersion")
  let sessionId ← okOr (response.sessionId.filter fun sessionId => !isBlank sessionId)
    (.message "initialize=FAIL no Mcp-Session-Id header in response")
  return (sessionId, version)

def checkDiscovery (config : ProbeConfig) (discovery : Value) : Except ProbeError Unit :=
  if ¬ (((discovery.get? "supportedVersions").bind Value.asArray).getD []).any
      (fun version => version.asStr == some config.protocolVersion) then
    bail "server_discover=FAIL requested protocol version is not advertised by the server"
  else if ((discovery.get? "capabilities").bind Value.asObject).isNone ∨
      ((discovery.get? "resultType").bind Value.asStr).isNone ∨
      ((discovery.get? "cacheScope").bind Value.asStr).isNone ∨
      ((discovery.get? "ttlMs").bind Value.asU64).isNone then
    bail "server_discover=FAIL response is missing required discovery fields"
  else .ok ()

def hasContentArray (result : Value) : Bool :=
  ((result.get? "content").bind Value.asArray).isSome

def checkLegacyResult (result : Value) : Except ProbeError Unit :=
  if hasContentArray result then
    match result.get? "isError" with
    | none | some (.bool false) => .ok ()
    | some (.bool true) => bail "tool_call=FAIL tool returned error"
    | some _ => bail "tool_call=FAIL isError must be a boolean when present"
  else bail "tool_call=FAIL result must contain a content array"

def checkStatelessResult (result : Value) : Except ProbeError Unit :=
  if hasContentArray result then
    match result.get? "isError" with
    | none | some (.bool false) => .ok ()
    | some _ => bail "tool_call=FAIL tool returned error or a malformed isError value"
  else bail "tool_call=FAIL result must contain a content array"

def sanitized (text : String) : String := String.ofList (sanitizeForOutput text.toList)

section Steps

variable (world : ProbeWorld)

def readClock : ProbeAction Nat := fun state =>
  (.ok (world.elapsed state.readings state.slept), { state with readings := state.readings + 1 })

def sleep (duration : Nat) : ProbeAction Unit := fun state =>
  (.ok (), { state with slept := state.slept + duration })

def writeLine (line : OutputLine) (error : String) : ProbeAction Unit := fun state =>
  if world.writes state.output line then
    (.ok (), { state with output := state.output ++ [line] })
  else (bail error, state)

def writeProbeResult (status : TestStatus) (step detail error : String) : ProbeAction Unit :=
  writeLine world (.result status (if detail = "" then step else step ++ " " ++ detail)) error

/-- What becomes of a reply; every one must carry the marker in the dataplane topology. -/
def postOutcome (step : String) (mode : GatewayTopology) :
    Except PostError ProbeResponse → Except ProbeError ProbeResponse
  | .ok response =>
      match response.backendIdentity.dataplaneError with
      | some text =>
          if mode.requiresDataplane then bail (step ++ "=FAIL " ++ text) else .ok response
      | none => .ok response
  | .error .failed => bail (step ++ " request failed")
  | .error .timedOut => bail (step ++ " request timed out")

def postWithTimeout (request : ProbeRequest) (timeout : Nat) (step : String)
    (mode : GatewayTopology) : ProbeAction ProbeResponse := fun state =>
  let reply := world.post state.exchanges request timeout
  (postOutcome step mode reply, { state with exchanges := state.exchanges ++ [⟨request, reply⟩] })

variable (config : ProbeConfig)

def attemptTimeout : ProbeAction Nat :=
  if config.configTimeout = 0 then pure config.requestTimeout
  else do
    let elapsed ← readClock world
    pure (min config.requestTimeout (config.configTimeout - elapsed))

/-- The first authenticated request, repeated until its status is 200 or the time is over. -/
def authenticate (request : ProbeRequest) (step : String) : Nat → ProbeAction ProbeResponse
  | 0 => fail .unfinished
  | attempts + 1 => do
      let timeout ← attemptTimeout world config
      let response ← postWithTimeout world request timeout step config.mode
      if response.status = 200 ∨ config.configTimeout = 0 then pure response
      else
        let elapsed ← readClock world
        if config.configTimeout ≤ elapsed then pure response
        else
          let elapsed ← readClock world
          let remaining := config.configTimeout - elapsed
          if remaining = 0 then pure response
          else
            sleep (min (max config.retryInterval minRetryInterval) remaining)
            let elapsed ← readClock world
            if config.configTimeout ≤ elapsed then pure response
            else authenticate request step attempts

def listedToolNames (response : ProbeResponse) : ProbeAction (List String) := do
  let toolsResult ← ofExcept (resultOf "tools_list" response toolsListId)
  match (toolsResult.get? "tools").bind Value.asArray with
  | none => ofExcept (bail "tools_list=FAIL unexpected response: missing tools array")
  | some [] => ofExcept (bail "tools_list=FAIL no tools returned")
  | some tools =>
      let toolNames ← ofExcept (tools.mapM fun tool =>
        okOr (toolName tool) (.message "tools_list=FAIL every tool must have a nonempty name"))
      writeProbeResult world .pass "tools_list" ("count=" ++ toString toolNames.length)
        "failed to write tools list result"
      pure toolNames

def writeMockedToolCatalog : ProbeAction Unit :=
  writeProbeResult world .pass "tools_catalog"
    ("count=" ++ toString config.toolNames.length ++ " source=mocked-redis")
    "failed to write mocked tool catalog result"

/-- The first tool that the harness knows how to call. -/
def callable (toolNames : List String) : Option (String × Value) :=
  toolNames.findSome? fun name => (toolCallArgs name).map fun arguments => (name, arguments)

def toolCallParams (name : String) (arguments : Value) : Value :=
  .object [("name", .string name), ("arguments", arguments)]

/-- The configured catalog, or else the tools that the server lists. -/
def offeredToolNames (send : String → Value → UInt64 → ProbeRequest) :
    ProbeAction (List String) :=
  if config.toolNames = [] then do
    let toolsResponse ← postWithTimeout world (send "tools/list" (.object []) toolsListId)
      config.requestTimeout "tools_list" config.mode
    listedToolNames world toolsResponse
  else do
    writeMockedToolCatalog world config
    pure config.toolNames

/-- Both conversations end with the names of the tools and a call of one of them. -/
def runTools (send : String → Value → UInt64 → ProbeRequest)
    (checkResult : Value → Except ProbeError Unit) : ProbeAction Unit := do
  let toolNames ← offeredToolNames world config send
  match callable toolNames with
  | none =>
      writeProbeResult world .skip "tool_call" "no echo/get_system_time tool available"
        "failed to write tool call skip result"
  | some (name, arguments) =>
      let callResponse ← postWithTimeout world
        (send "tools/call" (toolCallParams name arguments) toolCallId)
        config.requestTimeout "tool_call" config.mode
      let callResult ← ofExcept (resultOf "tool_call" callResponse toolCallId)
      ofExcept (checkResult callResult)
      writeProbeResult world .pass "tool_call" ("tool=" ++ sanitized name)
        "failed to write tool call result"

def legacyRequest (url : List Char) (payload : Value) (session : Option (String × String)) :
    ProbeRequest where
  url := url
  payload := payload
  bearerToken := some config.bearerToken
  sessionId := session.map Prod.fst
  protocolVersion := session.map Prod.snd

def initializedNotification : Value :=
  .object [("jsonrpc", .string "2.0"), ("method", .string "notifications/initialized")]

/-- The rest of a conversation that has negotiated a session and a version. -/
def runLegacySession (url : List Char) (session : String × String) : ProbeAction Unit := do
  let initializedResponse ← postWithTimeout world
    (legacyRequest config url initializedNotification (some session))
    config.requestTimeout "initialized" config.mode
  ofExcept (acceptedEmpty "initialized" initializedResponse)
  writeProbeResult world .pass "initialized" "status=202"
    "failed to write initialized notification result"
  runTools world config
    (fun method params id => legacyRequest config url
      (jsonrpcWithId method (some params) (.number (.unsigned id))) (some session))
    checkLegacyResult

def runLegacyProbe (url : List Char) (attempts : Nat) : ProbeAction Unit := do
  let initializePayload :=
    initializeWithIdAndVersion (.number (.unsigned initializeId)) config.protocolVersion
  let unauthenticated ← postWithTimeout world
    ⟨url, initializePayload, none, none, none⟩ config.requestTimeout "auth_negative" config.mode
  if unauthenticated.status ∉ [401, 403] then
    ofExcept (bail ("auth_negative=FAIL expected 401 or 403 without Authorization, got " ++
      toString unauthenticated.status))
  else
    writeProbeResult world .pass "auth_negative" ("status=" ++ toString unauthenticated.status)
      "failed to write negative authentication result"
    let authenticated ← authenticate world config
      (legacyRequest config url initializePayload none) "initialize" attempts
    let initializeResult ← ofExcept (resultOf "initialize" authenticated initializeId)
    let session ← ofExcept (negotiatedSession authenticated initializeResult)
    writeProbeResult world .pass "initialize"
      ("status=" ++ toString authenticated.status ++ " session=present")
      "failed to write initialize result"
    runLegacySession world config url session

def statelessRequest (url : List Char) (payload : Value) (bearerToken : Option String) :
    ProbeRequest where
  url := url
  payload := payload
  bearerToken := bearerToken
  sessionId := none
  protocolVersion := some config.protocolVersion

def runStatelessProbe (url : List Char) (attempts : Nat) : ProbeAction Unit := do
  let discoverPayload := statelessJsonrpcWithId "server/discover" none
    (.number (.unsigned initializeId)) config.protocolVersion
  let unauthenticated ← postWithTimeout world (statelessRequest config url discoverPayload none)
    config.requestTimeout "auth_negative" config.mode
  if unauthenticated.status ≠ 401 then
    ofExcept (bail ("auth_negative=FAIL expected 401 without Authorization, got " ++
      toString unauthenticated.status))
  else
    writeProbeResult world .pass "auth_negative" "status=401"
      "failed to write negative authentication result"
    let authenticated ← authenticate world config
      (statelessRequest config url discoverPayload (some config.bearerToken)) "server_discover"
      attempts
    let discovery ← ofExcept (resultOf "server_discover" authenticated initializeId)
    ofExcept (checkDiscovery config discovery)
    writeProbeResult world .pass "server_discover" "status=200 lifecycle=stateless"
      "failed to write server discovery result"
    runTools world config
      (fun method params id => statelessRequest config url
        (statelessJsonrpcWithId method (some params) (.number (.unsigned id))
          config.protocolVersion) (some config.bearerToken))
      checkStatelessResult

end Steps

def runProbe (world : ProbeWorld) (parser : UrlParser) (sets : String → SegmentSet)
    (config : ProbeConfig) (attempts : Nat) : ProbeAction Unit := do
  let url ← ofExcept ((probeUrl parser sets config.baseUrl config.mode config.serverId).mapError
    ProbeError.message)
  writeLine world (.probeUrl (sanitizeForOutput url)) "failed to write probe URL"
  if isStatelessProtocol config.protocolVersion then runStatelessProbe world config url attempts
  else runLegacyProbe world config url attempts

end CfIntegration.Mcp
