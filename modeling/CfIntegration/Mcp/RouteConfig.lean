import CfIntegration.Mcp.FixtureSession
import CfIntegration.Mcp.JsonText

/-! # The routes of the dataplane

A configuration tells the dataplane where each name of a virtual host goes. It is published
for what a fixture has listed.
-/

namespace CfIntegration.Mcp.RouteConfig

open Catalog (HttpRequest HttpReply index)
open FixtureSession
open Protocol (insertEntry)

def backendName : String := "conformance-backend"

/-- An object of items; of items with one key, the last stays. -/
def objectOf {α : Type} (entry : α → String × Value) (items : List α) : Value :=
  .object (items.foldl (fun entries item => insertEntry entries (entry item)) [])

def routes (names : List String) : Value :=
  objectOf (fun name => (name, .object [("backend_name", .string backendName),
    ("upstream_name", .string name)])) names

def toolNames (catalog : Catalog) : List String := catalog.tools.map Tool.name

def forClient (tools : List String) : Catalog := ⟨tools.map fun name => ⟨name, []⟩, [], [], []⟩

def backend (catalog : Catalog) (backendUrl protocolVersion : String) : Value :=
  .object [("name", .string backendName), ("url", .string backendUrl),
    ("mcp_protocol_version", .string protocolVersion), ("passthrough_headers", .array []),
    ("add_headers", .object []), ("remove_headers", .array []), ("completion", .object []),
    ("tool_schemas", objectOf (fun tool => (tool.name, .object tool.inputSchema)) catalog.tools)]

def virtualHost (catalog : Catalog) (backendUrl protocolVersion : String) : Value :=
  .object [("backends", .object [(backendName, backend catalog backendUrl protocolVersion)]),
    ("tools", routes (toolNames catalog)),
    ("resources", routes catalog.resources),
    ("resource_templates", routes catalog.resourceTemplates),
    ("prompts", routes catalog.prompts)]

def config (catalog : Catalog) (serverId backendUrl protocolVersion : String) : Value :=
  .object [("virtual_hosts",
    .object [(serverId, virtualHost catalog backendUrl protocolVersion)])]

inductive Kind where
  | tools
  | resources
  | resourceTemplates
  | prompts
  deriving DecidableEq, Repr

def Kind.field : Kind → String
  | .tools => "tools"
  | .resources => "resources"
  | .resourceTemplates => "resource_templates"
  | .prompts => "prompts"

/-- The names of a kind. -/
def named (catalog : Catalog) : Kind → List String
  | .tools => toolNames catalog
  | .resources => catalog.resources
  | .resourceTemplates => catalog.resourceTemplates
  | .prompts => catalog.prompts

/-- The backend of a name on a virtual host, and its name there. -/
def routeOf (body : Value) (host : String) (kind : Kind) (name : String) :
    Option (String × String) := do
  let host ← (← body.get? "virtual_hosts").get? host
  let route ← (← host.get? kind.field).get? name
  let backend ← (← host.get? "backends").get? (← (← route.get? "backend_name").asStr)
  return (← (← backend.get? "url").asStr, ← (← route.get? "upstream_name").asStr)

/-- The input schema of a tool on a virtual host. -/
def schemaOf (body : Value) (host name : String) : Option (List (String × Value)) := do
  let host ← (← body.get? "virtual_hosts").get? host
  let backend ← (← host.get? "backends").get? backendName
  let schema ← (← backend.get? "tool_schemas").get? name
  schema.asObject

/-- The last item of a key decides its value. -/
theorem get?_objectOf {α : Type} (entry : α → String × Value) (items : List α) (key : String) :
    (objectOf entry items).get? key =
      (items.reverse.find? fun item => (entry item).1 = key).map fun item => (entry item).2 := by
  have hfold : ∀ (items : List α) (entries : List (String × Value)),
      (items.foldl (fun entries item => insertEntry entries (entry item)) entries).lookup key =
        ((items.reverse.find? fun item => (entry item).1 = key).map fun item =>
          (entry item).2).or (entries.lookup key) := by
    intro items
    induction items with
    | nil => intro entries; rfl
    | cons item rest ih =>
        intro entries
        rw [List.foldl_cons, ih, Catalog.lookup_insertEntry, List.reverse_cons, List.find?_append]
        cases rest.reverse.find? fun item => (entry item).1 = key with
        | some found => rfl
        | none =>
            by_cases hkey : key = (entry item).1
            · simp [hkey]
            · simp [hkey, Ne.symm hkey]
  simp [objectOf, Value.get?, Value.asObject, hfold]

/-- Every name is routed to the one backend. -/
theorem get?_routes (names : List String) (name : String) :
    (routes names).get? name = if name ∈ names then
      some (.object [("backend_name", .string backendName), ("upstream_name", .string name)])
    else none := by
  rw [routes, get?_objectOf]
  dsimp only
  cases hfind : names.reverse.find? fun other => other = name with
  | none =>
      rw [List.find?_eq_none] at hfind
      rw [if_neg fun hmem => hfind name (List.mem_reverse.mpr hmem) (decide_eq_true rfl)]
      rfl
  | some found =>
      have hfound := List.find?_some hfind
      rw [decide_eq_true_iff] at hfound
      subst hfound
      rw [if_pos (List.mem_reverse.mp (List.mem_of_find?_eq_some hfind))]
      rfl

theorem get?_singleton (key other : String) (value : Value) :
    (Value.object [(key, value)]).get? other = if other = key then some value else none := by
  by_cases hkey : other = key
  · simp [Value.get?, Value.asObject, hkey]
  · simp [Value.get?, Value.asObject, List.lookup_cons, hkey, beq_false_of_ne hkey]

theorem get?_virtualHost (catalog : Catalog) (backendUrl protocolVersion : String) (kind : Kind) :
    (virtualHost catalog backendUrl protocolVersion).get? kind.field =
      some (routes (named catalog kind)) := by
  cases kind <;> rfl

/-- A configuration routes the names of its catalog, on its own virtual host. -/
theorem routeOf_config (catalog : Catalog) (serverId backendUrl protocolVersion host : String)
    (kind : Kind) (name : String) :
    routeOf (config catalog serverId backendUrl protocolVersion) host kind name =
      if host = serverId ∧ name ∈ named catalog kind then some (backendUrl, name) else none := by
  have hhosts : (config catalog serverId backendUrl protocolVersion).get? "virtual_hosts" =
      some (.object [(serverId, virtualHost catalog backendUrl protocolVersion)]) := rfl
  unfold routeOf
  rw [hhosts, Option.bind_eq_bind, Option.bind_some, get?_singleton]
  by_cases hhost : host = serverId
  · rw [if_pos hhost, Option.bind_some, get?_virtualHost, Option.bind_some, get?_routes]
    by_cases hname : name ∈ named catalog kind
    · rw [if_pos hname, if_pos ⟨hhost, hname⟩]
      rfl
    · rw [if_neg hname, if_neg fun hboth => hname hboth.2]
      rfl
  · rw [if_neg hhost, if_neg fun hboth => hhost hboth.1]
    rfl

/-- The schema is that of the last tool of the name. -/
theorem schemaOf_config (catalog : Catalog) (serverId backendUrl protocolVersion name : String) :
    schemaOf (config catalog serverId backendUrl protocolVersion) serverId name =
      (catalog.tools.reverse.find? fun tool => tool.name = name).map Tool.inputSchema := by
  have hhosts : (config catalog serverId backendUrl protocolVersion).get? "virtual_hosts" =
      some (.object [(serverId, virtualHost catalog backendUrl protocolVersion)]) := rfl
  have hbackends : (virtualHost catalog backendUrl protocolVersion).get? "backends" =
      some (.object [(backendName, backend catalog backendUrl protocolVersion)]) := rfl
  have hschemas : (backend catalog backendUrl protocolVersion).get? "tool_schemas" =
      some (objectOf (fun tool => (tool.name, .object tool.inputSchema)) catalog.tools) := rfl
  unfold schemaOf
  rw [hhosts, Option.bind_eq_bind, Option.bind_some, get?_singleton, if_pos rfl, Option.bind_some,
    hbackends, Option.bind_some, get?_singleton, if_pos rfl, Option.bind_some, hschemas,
    Option.bind_some, get?_objectOf]
  cases catalog.tools.reverse.find? fun tool => tool.name = name <;> rfl

structure FixtureArgs where
  serverId : String
  backendUrl : Url
  protocolVersion : String

inductive HelperFailure where
  | refused (text : String)
  | discovery (halt : Halt)
  | publish (cause : String)
  deriving DecidableEq, Repr

/-- A configuration for the subject of a token. -/
structure Publication where
  subject : String
  body : Value

structure Outcome (σ : Type) where
  /-- The names of the tools. -/
  result : Except HelperFailure (List String)
  discovery : Option (Discovery σ)
  publication : Option Publication

section Fixture

variable {σ : Type} (parser : JsonParser) (serve : σ → HttpRequest → Except String HttpReply × σ)
  (delete : σ → Deletion → Except String Unit × σ) (claims : String → Option Value)
  (publish : Publication → Except String Unit)

/-- The subject of a token, whose signature is not checked. -/
def tokenSubject (token : String) : Except HelperFailure String := do
  let claims ← okOr (claims token) (.refused "MCP_CONFORMANCE_TOKEN has invalid JWT claims")
  let subject ← okOr (index claims "sub").asStr
    (.refused "MCP_CONFORMANCE_TOKEN has no string subject")
  bailIf (subject = "") (.refused "MCP_CONFORMANCE_TOKEN has no string subject")
  return subject

def checkFixture (args : FixtureArgs) (token : Option String) : Except HelperFailure String := do
  bailIf (args.serverId = "" ∨ args.protocolVersion = "")
    (.refused "virtual-host-id and protocol-version must not be empty")
  bailIf (args.backendUrl.scheme ∉ ["http", "https"]) (.refused "backend-url must use HTTP(S)")
  let token ← okOr token (.refused "MCP_CONFORMANCE_TOKEN is required")
  tokenSubject claims token

def publicationOf (args : FixtureArgs) (subject : String) (catalog : Catalog) : Publication where
  subject := subject
  body := config catalog args.serverId (String.ofList args.backendUrl.asStr) args.protocolVersion

/-- Nothing where a listing of the fixture does not end. -/
def runFixture (fuel : Nat) (args : FixtureArgs) (token : Option String) (server : σ) :
    Option (Outcome σ) :=
  match checkFixture claims args token with
  | .error failure => some ⟨.error failure, none, none⟩
  | .ok subject =>
      (fixtureCatalog parser serve delete fuel args.backendUrl.asStr args.protocolVersion
        server).map fun discovery =>
          match discovery.result with
          | .error halt => ⟨.error (.discovery halt), some discovery, none⟩
          | .ok catalog =>
              let publication := publicationOf args subject catalog
              ⟨match publish publication with
                | .ok () => .ok (toolNames catalog)
                | .error cause => .error (.publish cause), some discovery, some publication⟩

/-- An attempt that publishes nothing: it was refused, or the discovery did not go through. -/
inductive Unpublished (args : FixtureArgs) (token : Option String) (outcome : Outcome σ) : Prop
    where
  | refused (failure : HelperFailure) (hcheck : checkFixture claims args token = .error failure)
      (hresult : outcome.result = .error failure) (hdiscovery : outcome.discovery = none)
  | undiscovered (subject : String) (discovery : Discovery σ) (turns : List Turn) (halt : Halt)
      (hcheck : checkFixture claims args token = .ok subject)
      (hdiscovery : outcome.discovery = some discovery)
      (hconversation : Conversation parser args.backendUrl.asStr args.protocolVersion turns
        discovery)
      (hhalt : discovery.result = .error halt)
      (hresult : outcome.result = .error (.discovery halt))

/-- A publication after a discovery that went through, and what is returned after it. -/
structure Published (args : FixtureArgs) (outcome : Outcome σ) (publication : Publication)
    (discovery : Discovery σ) (turns : List Turn) (catalog : Catalog) : Prop where
  ran : outcome.discovery = some discovery
  conversation : Conversation parser args.backendUrl.asStr args.protocolVersion turns discovery
  found : discovery.result = .ok catalog
  discovered : Discovered parser args.protocolVersion turns catalog
  names : publish publication = .ok () → outcome.result = .ok (toolNames catalog)
  unpublished : ∀ cause, publish publication = .error cause →
    outcome.result = .error (.publish cause)
  routes : ∀ host kind name, routeOf publication.body host kind name =
    if host = args.serverId ∧ name ∈ named catalog kind then
      some (String.ofList args.backendUrl.asStr, name) else none
  schemas : ∀ name ∈ toolNames catalog, ∃ tool ∈ catalog.tools, tool.name = name ∧
    schemaOf publication.body args.serverId name = some tool.inputSchema

variable {parser serve delete claims publish}

/-- Every tool has a schema in the route. -/
theorem schema_of_mem {catalog : Catalog} {name : String} (hname : name ∈ toolNames catalog) :
    ∃ tool ∈ catalog.tools, tool.name = name ∧
      (catalog.tools.reverse.find? fun tool => tool.name = name).map Tool.inputSchema =
        some tool.inputSchema := by
  cases hfind : catalog.tools.reverse.find? fun tool => tool.name = name with
  | none =>
      obtain ⟨tool, htool, rfl⟩ := List.mem_map.mp hname
      rw [List.find?_eq_none] at hfind
      exact absurd (decide_eq_true rfl) (hfind tool (List.mem_reverse.mpr htool))
  | some tool =>
      have htool := List.find?_some hfind
      rw [decide_eq_true_iff] at htool
      exact ⟨tool, List.mem_reverse.mp (List.mem_of_find?_eq_some hfind), htool, rfl⟩

theorem published_of_result {args : FixtureArgs} {subject : String} {discovery : Discovery σ}
    {turns : List Turn} {catalog : Catalog} {result : Except HelperFailure (List String)}
    (hconversation : Conversation parser args.backendUrl.asStr args.protocolVersion turns discovery)
    (hcatalog : discovery.result = .ok catalog)
    (hnames : publish (publicationOf args subject catalog) = .ok () →
      result = .ok (toolNames catalog))
    (hunpublished : ∀ cause, publish (publicationOf args subject catalog) = .error cause →
      result = .error (.publish cause)) :
    Published parser publish args
      ⟨result, some discovery, some (publicationOf args subject catalog)⟩
      (publicationOf args subject catalog) discovery turns catalog where
  ran := rfl
  conversation := hconversation
  found := hcatalog
  discovered := hconversation.discovered catalog hcatalog
  names := hnames
  unpublished := hunpublished
  routes := routeOf_config catalog _ _ _
  schemas name hname := by
    obtain ⟨tool, htool, hsame, hschema⟩ := schema_of_mem hname
    exact ⟨tool, htool, hsame, (schemaOf_config catalog _ _ _ name).trans hschema⟩

variable (parser serve delete claims publish)

/-- Whatever the fixture answers, a configuration is published only after a discovery that went
through. On its virtual host, and on no other, it routes the listed names of each kind and nothing
else, each to the fixture under the same name, and a tool comes with the schema that was listed for
it. The tool names are returned when it has been published, and otherwise what kept it from
that. -/
theorem runFixture_publishes (args : FixtureArgs) (token : Option String) (server : σ) :
    ∀ fuel outcome, runFixture parser serve delete claims publish fuel args token server =
      some outcome → match outcome.publication with
        | none => Unpublished parser claims args token outcome
        | some publication =>
            checkFixture claims args token = .ok publication.subject ∧ ∃ discovery turns catalog,
              Published parser publish args outcome publication discovery turns catalog := by
  intro fuel outcome hrun
  unfold runFixture at hrun
  cases hcheck : checkFixture claims args token with
  | error failure =>
      rw [hcheck] at hrun
      cases hrun
      exact .refused failure hcheck rfl rfl
  | ok subject =>
      rw [hcheck] at hrun
      obtain ⟨discovery, hdiscovery, rfl⟩ := Option.map_eq_some_iff.mp hrun
      obtain ⟨turns, hconversation⟩ := fixtureCatalog_conversation hdiscovery
      cases hresult : discovery.result with
      | error halt =>
          exact .undiscovered subject discovery turns halt hcheck rfl hconversation hresult rfl
      | ok catalog =>
          refine ⟨rfl, discovery, turns, catalog,
            published_of_result hconversation hresult (fun hpublish => ?_) fun cause hpublish => ?_⟩
          · rw [hpublish]
          · rw [hpublish]

end Fixture

/-- The answer to a request: a page with one tool. -/
def countingPage (count : Nat) : Value :=
  .object [("jsonrpc", .string "2.0"), ("id", .number (.unsigned (UInt64.ofNat (count + 1)))),
    ("result", .object [
      ("tools", .array [.object [("name", .string "echo"), ("inputSchema", .object [])]]),
      ("resources", .array []), ("resourceTemplates", .array []), ("prompts", .array [])])]

def countingParser : JsonParser := .ofValues ((List.range 8).map countingPage)

def countingServer (count : Nat) (_ : HttpRequest) : Except String HttpReply × Nat :=
  (.ok ⟨200, [("content-type", utf8 "application/json".toList)],
    .ok (writeValue (countingPage count))⟩, count + 1)

def countingArgs : FixtureArgs where
  serverId := "server"
  backendUrl := ⟨"http://fixture".toList, "http", "", none, true, false, ['/'], none, none⟩
  protocolVersion := "2025-11-25"

theorem runFixture_publishes_counting : ∃ outcome publication,
    runFixture countingParser countingServer (fun count _ => (.ok (), count))
      (fun _ => some (.object [("sub", .string "user")])) (fun _ => .ok ()) 1 countingArgs
        (some "token") 0 = some outcome ∧
      outcome.publication = some publication ∧ publication.subject = "user" ∧
      ∃ discovery turns catalog,
        Published countingParser (fun _ => .ok ()) countingArgs outcome publication discovery turns
          catalog :=
  ⟨_, _, rfl, rfl, rfl, (runFixture_publishes countingParser countingServer
    (fun count _ => (.ok (), count)) (fun _ => some (.object [("sub", .string "user")]))
    (fun _ => .ok ()) countingArgs (some "token") 0 1 _ rfl).2⟩

end CfIntegration.Mcp.RouteConfig
