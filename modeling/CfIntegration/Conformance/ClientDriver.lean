import CfIntegration.Conformance.Results
import CfIntegration.Mcp.RouteConfig

/-! # The driver of the official client scenarios

The official runner starts the driver with the address of a scenario server. The driver routes
the tools of the scenario to that server and then calls them through the dataplane.
-/

namespace CfIntegration.Conformance.ClientDriver

open Mcp
open Mcp.Gateway (GatewayClient GatewayClientBuilder GatewayFailure GatewayRequest OutboundRequest
  Libraries equalsIgnoreCase)
open Mcp.FixtureSession (Catalog)
open Mcp.RouteConfig (HelperFailure Kind Publication forClient config named routeOf routeOf_config
  tokenSubject)

structure ToolCall where
  name : String
  arguments : Value

/-- A call is read from an object without other fields, or from an array of its two fields. -/
def toolCallOf : Value → Option ToolCall
  | .object entries => do
      let name ← (entries.lookup "name").bind Value.asStr
      let arguments ← entries.lookup "arguments"
      if entries.all fun entry => entry.1 ∈ ["name", "arguments"] then
        return ⟨name, arguments⟩
      else none
  | .array [name, arguments] => name.asStr.map fun name => ⟨name, arguments⟩
  | _ => none

inductive Host where
  | domain (name : String)
  | ipv4 (address : BitVec 32)
  | ipv6 (address : BitVec 128)
  deriving DecidableEq, Repr

def Host.isLoopback : Host → Bool
  | .domain name => equalsIgnoreCase name.toList "localhost".toList
  | .ipv4 address => address >>> 24 = 127#32
  | .ipv6 address => address = 1#128

/-- The address of a scenario server. -/
structure ScenarioUrl where
  scheme : String
  host : Option Host
  /-- The address with another host, where it can have that. -/
  withHost : String → Option String

inductive DriverFailure where
  | refused (text : String)
  | unsupported (scenario : String)
  | publish (failure : HelperFailure)
  | gateway (failure : GatewayFailure)
  | call (failure : GatewayFailure)
  | response (tool : String) (status : Nat) (body : List Char)

inductive Event where
  | published (publication : Publication)
  | called (id : Nat) (call : ToolCall) (reply : Except GatewayFailure Mcp.Gateway.Exchange)

/-- The environment variables, the libraries, Redis and the dataplane, which answers the calls in
their order. -/
structure Environment where
  var : String → Option String
  json : String → Option Value
  url : String → Option ScenarioUrl
  claims : String → Option Value
  urls : UrlParser
  sets : String → SegmentSet
  libraries : Libraries
  packageVersion : String
  publish : Publication → Except String Unit
  network : Nat → OutboundRequest → Except String Mcp.Gateway.Response

section Driver
variable (env : Environment)

def requiredEnvironment (name : String) : Except DriverFailure String := do
  let value ← okOr (env.var name) (.refused s!"{name} is required for internal client conformance")
  bailIf (value = "") (.refused s!"{name} must not be empty for internal client conformance")
  return value

def contextCalls : Except DriverFailure Value := do
  let context ← requiredEnvironment env "MCP_CONFORMANCE_CONTEXT"
  let context ← okOr (env.json context) (.refused "MCP_CONFORMANCE_CONTEXT is not valid JSON")
  okOr (context.get? "toolCalls") (.refused "MCP_CONFORMANCE_CONTEXT has no toolCalls array")

def scenarioCalls (scenario : String) : Except DriverFailure Value :=
  let only (name : String) (arguments : List (String × Value)) : Value :=
    .array [.object [("name", .string name), ("arguments", .object arguments)]]
  match scenario with
  | "tools_call" =>
      .ok (only "add_numbers" [("a", .number (.unsigned 2)), ("b", .number (.unsigned 3))])
  | "request-metadata" => .ok (only "metadata_probe" [])
  | "http-standard-headers" => .ok (only "test_headers" [])
  | "http-custom-headers" => contextCalls env
  | _ => .error (.unsupported scenario)

def scenarioToolCalls (scenario : String) : Except DriverFailure (List ToolCall) := do
  let calls ← scenarioCalls env scenario
  let malformed : DriverFailure := .refused "client conformance tool calls are malformed"
  let calls ← okOr calls.asArray malformed
  let calls ← calls.mapM fun call => okOr (toolCallOf call) malformed
  bailIf (calls = [] ∨ calls.any fun call => call.name = "")
    (.refused "client conformance requires at least one named tool call")
  return calls

/-- The address of the scenario server from inside the containers. -/
def containerBackendUrl (value : String) : Except DriverFailure String := do
  let url ← okOr (env.url value) (.refused "scenario-server URL is invalid")
  bailIf (url.scheme ∉ ["http", "https"] ∨ url.host.any Host.isLoopback = false)
    (.refused "scenario-server URL must be an absolute loopback HTTP(S) URL")
  okOr (url.withHost "nginx")
    (.refused "failed to address the scenario server from the dataplane container")

/-- What the driver is asked to do. -/
structure Drive where
  serverId : String
  token : String
  baseUrl : String
  calls : List ToolCall
  backendUrl : String

/-- An argument is missing where it is no UTF-8. -/
def prepare (arguments : List (Option String)) : Except DriverFailure Drive := do
  bailIf (arguments.length ≠ 3)
    (.refused "internal client conformance requires exactly one scenario-server URL")
  let scenarioServerUrl ← okOr (arguments[2]?.join)
    (.refused "client conformance scenario-server URL is not UTF-8")
  let scenario ← requiredEnvironment env "MCP_CONFORMANCE_SCENARIO"
  let version ← requiredEnvironment env "MCP_CONFORMANCE_PROTOCOL_VERSION"
  bailIf (version ≠ defaultMcpSpecVersion) (.refused <|
    s!"external dataplane client conformance supports protocol {defaultMcpSpecVersion}, " ++
      s!"not {version}")
  let serverId ← requiredEnvironment env "CF_CLIENT_CONFORMANCE_SERVER_ID"
  let token ← requiredEnvironment env "MCP_CONFORMANCE_TOKEN"
  let baseUrl ← requiredEnvironment env "CF_CLIENT_CONFORMANCE_BASE_URL"
  let calls ← scenarioToolCalls env scenario
  let backendUrl ← containerBackendUrl env scenarioServerUrl
  return ⟨serverId, token, baseUrl, calls, backendUrl⟩

/-- The names of the tools, each once and in order. -/
def toolNames (calls : List ToolCall) : List String :=
  (OrderedSet.ofList (calls.map ToolCall.name)).elems

def publicationOf (drive : Drive) (subject : String) : Publication where
  subject := subject
  body := config (forClient (toolNames drive.calls)) drive.serverId drive.backendUrl
    defaultMcpSpecVersion

def payload (id : Nat) (call : ToolCall) : Value :=
  .object [("jsonrpc", .string "2.0"), ("id", .number (.unsigned (UInt64.ofNat id))),
    ("method", .string "tools/call"),
    ("params", .object [("name", .string call.name), ("arguments", call.arguments),
      ("_meta", .object [
        ("io.modelcontextprotocol/protocolVersion", .string defaultMcpSpecVersion),
        ("io.modelcontextprotocol/clientInfo", .object [
          ("name", .string "dataplane-client-conformance-driver"),
          ("version", .string env.packageVersion)]),
        ("io.modelcontextprotocol/clientCapabilities", .object [])])])]

/-- Whether a field of a message is there and not null. -/
def hasField (message : Option Value) (field : String) : Bool :=
  match message.bind (Value.get? · field) with
  | none | some .null => false
  | some _ => true

def validResponse (exchange : Mcp.Gateway.Exchange) : Bool :=
  exchange.status = 200 && hasField exchange.message "result" &&
    !hasField exchange.message "error"

def judge (call : ToolCall) : Except GatewayFailure Mcp.Gateway.Exchange → Except DriverFailure Unit
  | .error failure => .error (.call failure)
  | .ok exchange =>
      if validResponse exchange then .ok ()
      else .error (.response call.name exchange.status exchange.body)

/-- The calls from one on, up to the first invalid response. -/
def callAll (client : GatewayClient) (index : Nat) : List ToolCall →
    Except DriverFailure Unit × List Event
  | [] => (.ok (), [])
  | call :: rest =>
      let (reply, client) := client.send env.libraries (.probe (payload env (index + 1) call))
        (env.network index)
      let event := Event.called (index + 1) call reply
      match judge call reply with
      | .error failure => (.error failure, [event])
      | .ok () =>
          let (result, events) := callAll client (index + 1) rest
          (result, event :: events)

def gatewayBuilder (drive : Drive) : GatewayClientBuilder :=
  ⟨.dataplane, drive.baseUrl.toList, drive.serverId.toList, drive.token.toList,
    defaultMcpSpecVersion.toList⟩

/-- What the driver does, in order, and how it ends. -/
def runInternalClient (arguments : List (Option String)) :
    Except DriverFailure Unit × List Event :=
  match prepare env arguments with
  | .error failure => (.error failure, [])
  | .ok drive =>
      match tokenSubject env.claims drive.token with
      | .error failure => (.error (.publish failure), [])
      | .ok subject =>
          let publication := publicationOf drive subject
          let published := Event.published publication
          match env.publish publication with
          | .error cause => (.error (.publish (.publish cause)), [published])
          | .ok () =>
              match (gatewayBuilder drive).build env.libraries env.urls env.sets with
              | .error failure => (.error (.gateway failure), [published])
              | .ok client =>
                  let (result, events) := callAll env client 0 drive.calls
                  (result, published :: events)

end Driver

variable {env : Environment}

/-- The calls have names, and the scenario server is on the loopback. -/
structure Drive.Valid (env : Environment) (arguments : List (Option String)) (drive : Drive) :
    Prop where
  nonempty : drive.calls ≠ []
  named : ∀ call ∈ drive.calls, call.name ≠ ""
  backend : ∃ argument url host, arguments[2]? = some (some argument) ∧
    env.url argument = some url ∧ url.scheme ∈ ["http", "https"] ∧ url.host = some host ∧
    host.isLoopback = true ∧ url.withHost "nginx" = some drive.backendUrl

/-- The calls of a scenario are not empty, and every call names a tool. -/
theorem scenarioToolCalls_ok {scenario : String} {calls : List ToolCall}
    (hcalls : scenarioToolCalls env scenario = .ok calls) :
    calls ≠ [] ∧ ∀ call ∈ calls, call.name ≠ "" := by
  obtain ⟨_, -, hrest⟩ := except_bind_eq_ok.mp hcalls
  obtain ⟨_, -, hrest⟩ := except_bind_eq_ok.mp hrest
  obtain ⟨found, -, hrest⟩ := except_bind_eq_ok.mp hrest
  obtain ⟨_, hnone, hsame⟩ := except_bind_eq_ok.mp hrest
  cases hsame
  rw [bailIf_eq_ok, not_or, List.any_eq_true] at hnone
  exact ⟨hnone.1, fun call hcall hname => hnone.2 ⟨call, hcall, by simpa using hname⟩⟩

/-- The backend is an HTTP server on a loopback host, renamed for the containers. -/
theorem containerBackendUrl_ok {argument backendUrl : String}
    (hbackend : containerBackendUrl env argument = .ok backendUrl) :
    ∃ url host, env.url argument = some url ∧ url.scheme ∈ ["http", "https"] ∧
      url.host = some host ∧ host.isLoopback = true ∧ url.withHost "nginx" = some backendUrl := by
  obtain ⟨url, hurl, hrest⟩ := except_bind_eq_ok.mp hbackend
  obtain ⟨_, hlocal, hhost⟩ := except_bind_eq_ok.mp hrest
  rw [bailIf_eq_ok, not_or, not_not, Bool.not_eq_false] at hlocal
  obtain ⟨hscheme, hloopback⟩ := hlocal
  cases hsome : url.host with
  | none => simp [hsome] at hloopback
  | some host =>
      rw [hsome] at hloopback
      exact ⟨url, host, okOr_eq_ok.mp hurl, hscheme, hsome, hloopback, okOr_eq_ok.mp hhost⟩

/-- What the preparation returns is valid for the environment and the arguments. -/
theorem prepare_ok {arguments : List (Option String)} {drive : Drive}
    (hprepare : prepare env arguments = .ok drive) : drive.Valid env arguments := by
  obtain ⟨_, -, hrest⟩ := except_bind_eq_ok.mp hprepare
  obtain ⟨argument, hargument, hrest⟩ := except_bind_eq_ok.mp hrest
  obtain ⟨_, -, hrest⟩ := except_bind_eq_ok.mp hrest
  obtain ⟨_, -, hrest⟩ := except_bind_eq_ok.mp hrest
  obtain ⟨_, -, hrest⟩ := except_bind_eq_ok.mp hrest
  obtain ⟨_, -, hrest⟩ := except_bind_eq_ok.mp hrest
  obtain ⟨_, -, hrest⟩ := except_bind_eq_ok.mp hrest
  obtain ⟨_, -, hrest⟩ := except_bind_eq_ok.mp hrest
  obtain ⟨calls, hcalls, hrest⟩ := except_bind_eq_ok.mp hrest
  obtain ⟨backendUrl, hbackend, hsame⟩ := except_bind_eq_ok.mp hrest
  cases hsame
  obtain ⟨hsome, hnamed⟩ := scenarioToolCalls_ok hcalls
  obtain ⟨url, host, hurl⟩ := containerBackendUrl_ok hbackend
  exact ⟨hsome, hnamed, argument, url, host, Option.join_eq_some_iff.mp (okOr_eq_ok.mp hargument),
    hurl⟩

/-- A call of the driver, with the reply. -/
abbrev Answer := ToolCall × Except GatewayFailure Mcp.Gateway.Exchange

def Accepted (answer : Answer) : Prop := judge answer.1 answer.2 = .ok ()

/-- The calls from a number on. -/
def calledFrom (index : Nat) (answers : List Answer) : List Event :=
  (answers.zipIdx index).map fun answer => .called (answer.2 + 1) answer.1.1 answer.1.2

/-- The calls up to the first invalid response. -/
structure CalledAll (calls : List ToolCall) (answers : List Answer)
    (result : Except DriverFailure Unit) : Prop where
  order : answers.map Prod.fst <+: calls
  accepted : History.Fits (fun before _ => ∀ earlier ∈ before, Accepted earlier) answers
  done : result = .ok () ↔ answers.map Prod.fst = calls ∧ ∀ answer ∈ answers, Accepted answer

/-- The calls are made in their order, up to the first that fails. -/
theorem callAll_spec (client : GatewayClient) (index : Nat) (calls : List ToolCall) :
    ∃ answers, (callAll env client index calls).2 = calledFrom index answers ∧
      CalledAll calls answers (callAll env client index calls).1 := by
  induction calls generalizing client index with
  | nil => exact ⟨[], rfl, List.prefix_rfl, History.fits_nil _, iff_of_true rfl ⟨rfl, nofun⟩⟩
  | cons call rest ih =>
      unfold callAll
      dsimp only
      rcases client.send env.libraries (.probe (payload env (index + 1) call))
        (env.network index) with ⟨reply, client⟩
      dsimp only
      cases hjudge : judge call reply with
      | error failure =>
          refine ⟨[(call, reply)], rfl, ⟨rest, rfl⟩, (History.fits_nil _).concat nofun, ?_⟩
          refine iff_of_false nofun fun ⟨_, hall⟩ => ?_
          have haccepted := hall (call, reply) List.mem_cons_self
          rw [Accepted, hjudge] at haccepted
          cases haccepted
      | ok =>
          obtain ⟨answers, hevents, hcalled⟩ := ih client (index + 1)
          refine ⟨(call, reply) :: answers, ?_, ?_, ?_, ?_⟩
          · rw [calledFrom, List.zipIdx_cons, List.map_cons, ← calledFrom, ← hevents]
          · exact List.cons_prefix_cons.mpr ⟨rfl, hcalled.order⟩
          · refine .cons nofun (hcalled.accepted.mono fun before answer hbefore => ?_)
            exact List.forall_mem_cons.mpr ⟨hjudge, hbefore⟩
          · simp only [hcalled.done, List.map_cons, List.cons.injEq, true_and, List.forall_mem_cons]
            exact and_congr_right fun _ => (and_iff_right hjudge).symm

/-- The run of a driver that comes to publish its configuration. -/
structure Driven (env : Environment) (drive : Drive) (publication : Publication)
    (answers : List Answer) (result : Except DriverFailure Unit) : Prop where
  routes : ∀ host kind name, routeOf publication.body host kind name =
    if host = drive.serverId ∧ kind = .tools ∧ name ∈ drive.calls.map ToolCall.name then
      some (drive.backendUrl, name) else none
  /-- Nothing is called where the publication fails or no client can be built. -/
  unpublished : ∀ cause, env.publish publication = .error cause →
    answers = [] ∧ result = .error (.publish (.publish cause))
  unbuilt : ∀ failure, env.publish publication = .ok () →
    (gatewayBuilder drive).build env.libraries env.urls env.sets = .error failure →
      answers = [] ∧ result = .error (.gateway failure)
  called : CalledAll drive.calls answers result
  routed : ∀ answer ∈ answers, routeOf publication.body drive.serverId .tools answer.1.name =
    some (drive.backendUrl, answer.1.name)

theorem named_forClient (names : List String) (kind : Kind) :
    named (forClient names) kind = if kind = .tools then names else [] := by
  cases kind with
  | tools =>
      simp only [named, forClient, RouteConfig.toolNames, List.map_map, if_true]
      exact List.map_id names
  | resources => rfl
  | resourceTemplates => rfl
  | prompts => rfl

/-- The published routing leads the named tools of the drive's host to its backend and nothing
else. -/
theorem routeOf_publicationOf (drive : Drive) (subject host : String) (kind : Kind)
    (name : String) : routeOf (publicationOf drive subject).body host kind name =
      if host = drive.serverId ∧ kind = .tools ∧ name ∈ drive.calls.map ToolCall.name then
        some (drive.backendUrl, name) else none := by
  have hnames : name ∈ named (forClient (toolNames drive.calls)) kind ↔
      kind = .tools ∧ name ∈ drive.calls.map ToolCall.name := by
    rw [named_forClient]
    split
    next hkind => simp [hkind, toolNames]
    next hkind => simp [hkind]
  unfold publicationOf
  dsimp only
  rw [routeOf_config]
  simp only [hnames]

/-- The rest of a drive, once the calls have been made or could not be. -/
theorem CalledAll.driven {drive : Drive} {answers : List Answer}
    {result : Except DriverFailure Unit} {subject : String}
    (hcalled : CalledAll drive.calls answers result)
    (hunpublished : ∀ cause, env.publish (publicationOf drive subject) = .error cause →
      answers = [] ∧ result = .error (.publish (.publish cause)))
    (hunbuilt : ∀ failure, env.publish (publicationOf drive subject) = .ok () →
      (gatewayBuilder drive).build env.libraries env.urls env.sets = .error failure →
        answers = [] ∧ result = .error (.gateway failure)) :
    Driven env drive (publicationOf drive subject) answers result where
  routes := routeOf_publicationOf drive subject
  unpublished := hunpublished
  unbuilt := hunbuilt
  called := hcalled
  routed answer hanswer := by
    rw [routeOf_publicationOf, if_pos ⟨rfl, rfl, List.mem_map_of_mem
      (hcalled.order.subset (List.mem_map_of_mem hanswer))⟩]

theorem calledAll_none {calls : List ToolCall} (hsome : calls ≠ []) (failure : DriverFailure) :
    CalledAll calls [] (.error failure) :=
  ⟨List.nil_prefix, History.fits_nil _, iff_of_false nofun fun hdone => hsome hdone.1.symm⟩

/-- The driver stops before it does anything. -/
inductive Stopped (env : Environment) (arguments : List (Option String)) : DriverFailure → Prop
    where
  | unprepared (failure : DriverFailure) (hprepare : prepare env arguments = .error failure) :
      Stopped env arguments failure
  | unnamed (drive : Drive) (failure : HelperFailure) (hprepare : prepare env arguments = .ok drive)
      (hsubject : tokenSubject env.claims drive.token = .error failure) :
      Stopped env arguments (.publish failure)

end CfIntegration.Conformance.ClientDriver
