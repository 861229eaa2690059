import CfIntegration.Fixture.Client

/-! # Provisioning the conformance fixture

The fixture is one gateway under the reserved name and one virtual server with a
fixed id. A failed run deletes what it may have created: the gateway through the
reserved name when its reply was lost, and by its id otherwise.
-/

namespace CfIntegration.Fixture

def officialConformanceBackendUrl : String := "http://mcp_conformance_proxy/mcp"

def officialConformanceGatewayName : String := "_"

def officialConformanceServerId : String := "3f33286667d34b65a31c3bafd30e4c21"

def serverName : String := "Official MCP Conformance Server"

def serverDescription : String :=
  "Virtual server for the pinned official MCP conformance fixture."

def gatewayDescription : String := "Official MCP conformance fixture"

def gatewayTransport : String := "STREAMABLEHTTP"

def requiredTool : String := "test_simple_text"

def requiredResource : String := "test://static-text"

def requiredPrompt : String := "test_simple_prompt"

structure ProvisionedConformanceFixture where
  gatewayId : String
  serverId : String
  deriving DecidableEq, Repr

def GatewayRecord.isOwned (gateway : GatewayRecord) : Bool :=
  gateway.name = officialConformanceGatewayName &&
    gateway.url = officialConformanceBackendUrl &&
    gateway.transport = gatewayTransport &&
    gateway.description = some gatewayDescription

def ServerRecord.isOwned (server : ServerRecord) : Bool :=
  server.name = serverName && server.description = some serverDescription

def fixtureGateway : GatewayCreate where
  name := officialConformanceGatewayName
  url := officialConformanceBackendUrl
  transport := gatewayTransport
  authType := "authheaders"
  authHeaders := [("Host", "localhost:3000")]
  description := gatewayDescription

/-- The gateway that the fixture's body creates is the fixture's own. -/
@[simp] theorem createdGateway_isOwned (id : String) :
    (ControlPlane.createdGateway id fixtureGateway).isOwned = true := by
  simp [ControlPlane.createdGateway, fixtureGateway, GatewayRecord.isOwned]

structure CatalogIds where
  toolIds : List String
  resourceIds : List String
  promptIds : List String
  hasRequiredTool : Bool
  hasRequiredResource : Bool
  hasRequiredPrompt : Bool
  deriving DecidableEq, Repr

def CatalogRecord.belongsTo (gatewayId : String) (record : CatalogRecord) : Bool :=
  record.gatewayId = some gatewayId

def CatalogIds.fromRecords (gatewayId : String) (tools resources prompts : List CatalogRecord) :
    CatalogIds :=
  let tools := tools.filter (CatalogRecord.belongsTo gatewayId)
  let resources := resources.filter (CatalogRecord.belongsTo gatewayId)
  let prompts := prompts.filter (CatalogRecord.belongsTo gatewayId)
  { toolIds := tools.map CatalogRecord.id
    resourceIds := resources.map CatalogRecord.id
    promptIds := prompts.map CatalogRecord.id
    hasRequiredTool := tools.any fun record => record.name = requiredTool
    hasRequiredResource := resources.any fun record => record.uri = requiredResource
    hasRequiredPrompt := prompts.any fun record => record.name = requiredPrompt }

def CatalogIds.missingIdentities (ids : CatalogIds) : List String :=
  (if ids.toolIds = [] ∨ ids.hasRequiredTool = false then [requiredTool] else []) ++
  (if ids.resourceIds = [] ∨ ids.hasRequiredResource = false then [requiredResource] else []) ++
  (if ids.promptIds = [] ∨ ids.hasRequiredPrompt = false then [requiredPrompt] else [])

def fixtureServer (serverId : String) (catalogs : CatalogIds) : VirtualServer where
  id := serverId
  name := serverName
  description := some serverDescription
  associatedTools := catalogs.toolIds
  associatedResources := catalogs.resourceIds
  associatedPrompts := catalogs.promptIds

/-- Why provisioning failed, and whether undoing it failed as well. -/
inductive ProvisionFailure where
  | failed (message : String)
  | reconciliationFailed (primary reconciliation : String)
  | cleanupFailed (primary cleanup : String)
  deriving DecidableEq, Repr

def ProvisionFailure.display : ProvisionFailure → String
  | .failed message => message
  | .reconciliationFailed primary reconciliation =>
      primary ++ "; gateway-create reconciliation failed: " ++ reconciliation
  | .cleanupFailed primary cleanup => primary ++ "; cleanup failed: " ++ cleanup

def ProvisionFailure.reportsCleanup : ProvisionFailure → Bool
  | .failed _ => false
  | .reconciliationFailed _ _ | .cleanupFailed _ _ => true

abbrev ProvisionAction (α : Type) := Action World ProvisionFailure α

namespace ConformanceFixtureClient

def notOwned (client : ConformanceFixtureClient) (kind id : String) : String :=
  redact (kind ++ " " ++ id ++ " is not owned by the conformance fixture") client.adminToken

def deleteOwnedServer (client : ConformanceFixtureClient) (network : Network) (id : String) :
    FixtureAction Unit := do
  let servers ← client.listServers network
  if id ≠ officialConformanceServerId then
    Action.fail (client.notOwned "server" id)
  else
    match servers.filter fun server => server.id = id with
    | [] => pure ()
    | [server] =>
        if server.isOwned then client.delete network .servers id
        else Action.fail (client.notOwned "server" id)
    | _ => Action.fail (client.notOwned "server" id)

def deleteOwnedGateway (client : ConformanceFixtureClient) (network : Network) (id : String) :
    FixtureAction Unit := do
  let gateways ← client.listGateways network
  match gateways.filter fun gateway => gateway.id = id with
  | [] => pure ()
  | [gateway] =>
      if gateway.isOwned then client.delete network .gateways id
      else Action.fail (client.notOwned "gateway" id)
  | _ => Action.fail (client.notOwned "gateway" id)

/-- Delete the gateways one after another and collect the failures. -/
def deleteGateways (client : ConformanceFixtureClient) (network : Network) :
    List GatewayRecord → List String → FixtureAction (List String)
  | [], failures => pure failures
  | gateway :: rest, failures => do
      let result ← Action.attempt (client.delete network .gateways gateway.id)
      match result with
      | .ok () => client.deleteGateways network rest failures
      | .error error =>
          client.deleteGateways network rest (failures ++ [safeError error client.adminToken])

/-- Whether there were gateways under the reserved name to delete. -/
def deleteReservedGatewaysOnce (client : ConformanceFixtureClient) (network : Network) :
    FixtureAction Bool := do
  let gateways ← client.listGateways network
  let reserved := gateways.filter fun gateway => gateway.name = officialConformanceGatewayName
  if reserved.any fun gateway => !gateway.isOwned then
    Action.fail "reserved-name gateway collision is not owned by the conformance fixture"
  else
    let failures ← client.deleteGateways network reserved []
    if failures = [] then pure (!reserved.isEmpty) else Action.fail ("; ".intercalate failures)

def reconcileAttempts (client : ConformanceFixtureClient) (network : Network) :
    Nat → Nat → FixtureAction Unit
  | 0, _ => Action.fail
      ("gateway reconciliation did not reach two consecutive quiet polls after " ++
        toString client.reconciliationAttempts ++ " attempts")
  | attempts + 1, quietAttempts => do
      let deleted ← client.deleteReservedGatewaysOnce network
      if deleted then client.reconcileAttempts network attempts 0
      else if quietAttempts + 1 = requiredReconciliationQuietAttempts then pure ()
      else client.reconcileAttempts network attempts (quietAttempts + 1)

def reconcileReservedGateways (client : ConformanceFixtureClient) (network : Network) :
    FixtureAction Unit :=
  client.reconcileAttempts network client.reconciliationAttempts 0

def cleanup (client : ConformanceFixtureClient) (network : Network)
    (fixture : Option ProvisionedConformanceFixture) : FixtureAction Unit := do
  let serverId := match fixture with
    | some fixture => fixture.serverId
    | none => officialConformanceServerId
  let serverResult ← Action.attempt (client.deleteOwnedServer network serverId)
  match fixture with
  | none => Action.ofExcept serverResult
  | some fixture =>
      let gatewayResult ← Action.attempt (client.deleteOwnedGateway network fixture.gatewayId)
      match serverResult, gatewayResult with
      | .ok (), .ok () => pure ()
      | .error error, .ok () => Action.fail error
      | .ok (), .error error => Action.fail error
      | .error server, .error gateway =>
          Action.fail ("server cleanup failed: " ++ safeError server client.adminToken ++
            "; gateway cleanup failed: " ++ safeError gateway client.adminToken)

def pollAttempts (client : ConformanceFixtureClient) (network : Network) (gatewayId : String) :
    Nat → List String → FixtureAction CatalogIds
  | 0, lastMissing => Action.fail (redact
      ("conformance catalogs for gateway " ++ gatewayId ++ " remained incomplete; missing: " ++
        ", ".intercalate lastMissing) client.adminToken)
  | attempts + 1, _ => do
      let tools ← client.getJson network "/tools" fun plane => plane.catalogs.tools
      let resources ← client.getJson network "/resources" fun plane => plane.catalogs.resources
      let prompts ← client.getJson network "/prompts" fun plane => plane.catalogs.prompts
      let filtered := CatalogIds.fromRecords gatewayId tools resources prompts
      if filtered.missingIdentities = [] then pure filtered
      else client.pollAttempts network gatewayId attempts filtered.missingIdentities

def pollCatalogs (client : ConformanceFixtureClient) (network : Network) (gatewayId : String) :
    FixtureAction CatalogIds :=
  client.pollAttempts network gatewayId client.maxAttempts []

def finishProvision (client : ConformanceFixtureClient) (network : Network)
    (fixture : ProvisionedConformanceFixture) : FixtureAction Unit := do
  client.postSuccess network ("/gateways/" ++ fixture.gatewayId ++
    "/tools/refresh?include_resources=true&include_prompts=true") fun plane => plane
  let catalogs ← client.pollCatalogs network fixture.gatewayId
  client.postSuccess network "/servers" fun plane =>
    plane.createServer (fixtureServer fixture.serverId catalogs)

/-- Create the fixture's gateway; a record that is not the fixture's is an error. -/
def createGateway (client : ConformanceFixtureClient) (network : Network) :
    FixtureAction GatewayRecord := do
  let gateway ← client.postJson network "/gateways" fun id plane =>
    (plane.createGateway id fixtureGateway, ControlPlane.createdGateway id fixtureGateway)
  if gateway.isOwned then pure gateway
  else Action.fail "created gateway is not owned by the conformance fixture"

def provision (client : ConformanceFixtureClient) (network : Network) (backendUrl : String) :
    ProvisionAction ProvisionedConformanceFixture := do
  if backendUrl ≠ officialConformanceBackendUrl then
    Action.fail (.failed "official conformance backend URL does not match the pinned fixture")
  else
    Action.mapError .failed (client.deleteOwnedServer network officialConformanceServerId)
    let _ ← Action.mapError .failed (client.deleteReservedGatewaysOnce network)
    let gatewayResult ← Action.attempt (client.createGateway network)
    match gatewayResult with
    | .error primary =>
        let reconciled ← Action.attempt (client.reconcileReservedGateways network)
        match reconciled with
        | .ok () => Action.fail (.failed (safeError primary client.adminToken))
        | .error reconciliation => Action.fail (.reconciliationFailed
            (safeError primary client.adminToken) (safeError reconciliation client.adminToken))
    | .ok gateway =>
        let fixture : ProvisionedConformanceFixture :=
          ⟨gateway.id, officialConformanceServerId⟩
        let finished ← Action.attempt (client.finishProvision network fixture)
        match finished with
        | .ok () => pure fixture
        | .error primary =>
            let cleaned ← Action.attempt (client.cleanup network (some fixture))
            match cleaned with
            | .ok () => Action.fail (.failed (safeError primary client.adminToken))
            | .error cleanup => Action.fail (.cleanupFailed
                (safeError primary client.adminToken) (safeError cleanup client.adminToken))

end ConformanceFixtureClient

end CfIntegration.Fixture
