import CfIntegration.Runtime.Artifacts

/-! # Official server and client runs

One official run writes its lane's metadata, runs the pinned runner, and marks
the lane complete only when the runner exited and the results it left cover the
scenario catalog.
-/

namespace CfIntegration.Runtime

open Conformance

/-- What one entry of the matrix runs. -/
structure EntryRequest where
  lanes : List SemanticLane
  clientVersion : String
  serverEra : ConformanceServerEra
  standalone : Bool

def EntryRequest.runsExternalClient (request : EntryRequest) : Bool :=
  request.clientVersion == defaultMcpSpecVersion && request.lanes.contains .externalDataPlane

/-- The steps of an official run that can fail besides the runner itself. -/
inductive TargetStep where
  | removeCompletion
  | recreateResults
  | createRoot
  | writeExpectedFailures
  | writeMetadata
  | environment
  | writeCompletion
  deriving DecidableEq, Repr

/-- An official server run: its steps, the runner, and the results it left. -/
structure TargetEnv where
  step : TargetStep → AppResult Unit
  tool : AppResult Unit
  official : Option OfficialDirectory

/-- An official client run: its steps, each scenario's token and runner, and the
results it left. -/
structure ClientRunEnv where
  step : TargetStep → AppResult Unit
  token : String → AppResult Unit
  tool : String → AppResult Unit
  cancelledAfter : String → Bool
  official : Option OfficialDirectory
  driverFailures : Except String (List String)

/-- Apply the steps in order, up to the first that fails. -/
def runSteps {σ α : Type} (outcome : σ → AppResult Unit) :
    List (σ × (α → α)) → α → AppResult Unit × α
  | [], state => (.ok (), state)
  | (step, effect) :: rest, state =>
      match outcome step with
      | .ok () => runSteps outcome rest (effect state)
      | .error failure => (.error failure, state)

def runMetadata (request : EntryRequest) (direction : ConformanceDirection) (target : SemanticLane)
    (suite : String) : ConformanceRunMetadata where
  oracle := officialConformancePackage
  target := target.label
  direction
  clientVersion := request.clientVersion
  serverEra := request.serverEra
  suite
  fixture := officialFixture

/-- Clear a lane's results and record what is about to run. -/
def prepareLane (step : TargetStep → AppResult Unit) (metadata : ConformanceRunMetadata) :
    LaneArtifact → AppResult Unit × LaneArtifact :=
  runSteps step
    [(.removeCompletion, fun artifact => { artifact with completion := none }),
      (.recreateResults, fun artifact =>
        { artifact with official := some ⟨some "official", .directory []⟩ }),
      (.createRoot, id),
      (.writeExpectedFailures, id),
      (.writeMetadata, fun artifact => { artifact with metadata := some metadata }),
      (.environment, id)]

/-- Mark a lane complete once its results are validated. -/
def markComplete (validation : Except String Unit) (writeCompletion : AppResult Unit)
    (artifact : LaneArtifact) : AppResult Unit × LaneArtifact :=
  match fromNative validation, writeCompletion with
  | .error failure, _ | .ok (), .error failure => (.error failure, artifact)
  | .ok (), .ok () => (.ok (), { artifact with completion := some conformanceCompletionMarker })

def validateServerRun (parseChecks : ChecksParser) (request : EntryRequest)
    (target : SemanticLane) (official : Option OfficialDirectory) : Except String Unit := do
  let results ← loadServerResults parseChecks official
  match validateServerScenarioSet results defaultConformanceSuite request.clientVersion with
  | .ok () => return ()
  | .error message =>
      .error s!"official conformance did not complete for {target.label}: {message}"

/-- Run the official runner against one server lane. The lane is marked complete
when the runner exited and its results cover the catalog. -/
def runOfficialConformanceTarget (parseChecks : ChecksParser) (env : TargetEnv)
    (request : EntryRequest) (target : SemanticLane) (artifact : LaneArtifact) :
    AppResult Unit × LaneArtifact :=
  match expectedServerScenarios defaultConformanceSuite request.clientVersion with
  | .error message => (.error (.native message), artifact)
  | .ok _ =>
      match prepareLane env.step (runMetadata request .server target defaultConformanceSuite)
        artifact with
      | (.error failure, artifact) => (.error failure, artifact)
      | (.ok (), artifact) =>
          let artifact := { artifact with official := env.official }
          if conformanceProcessCompleted env.tool = false then (env.tool, artifact)
          else
            markComplete (validateServerRun parseChecks request target artifact.official)
              (env.step .writeCompletion) artifact

/-- The client scenarios in order, each with its own token; a cancelled run stops. -/
def clientScenarioFailures (env : ClientRunEnv) (interrupted : Bool) : List String → List String
  | [] => []
  | scenario :: rest =>
      match env.token scenario with
      | .error failure =>
          s!"{scenario}: failed to issue isolated client-conformance token: {failure.display}" ::
            clientScenarioFailures env interrupted rest
      | .ok () =>
          let failures := match env.tool scenario with
            | .ok () => []
            | .error failure =>
                if conformanceProcessCompleted (.error failure) then []
                else [s!"{scenario}: {failure.display}"]
          if interrupted && env.cancelledAfter scenario then failures
          else failures ++ clientScenarioFailures env interrupted rest

def validateClientRun (parseChecks : ChecksParser) (request : EntryRequest)
    (official : Option OfficialDirectory) : Except String Unit := do
  let results ← loadClientResults parseChecks official
  validateScoredResults results
  match validateClientScenarioSet results request.clientVersion with
  | .ok () => return ()
  | .error message => .error s!"official client conformance did not complete for {
      SemanticLane.externalDataPlane.label}: {message}"

/-- What the client scenarios, the drivers and the validation of the results report. -/
def finishClientRun (parseChecks : ChecksParser) (env : ClientRunEnv) (interrupted : Bool)
    (request : EntryRequest) (artifact : LaneArtifact) : AppResult Unit × LaneArtifact :=
  let scenarioFailures :=
    clientScenarioFailures env interrupted defaultClientConformanceScenarios
  let driverFailures := match env.driverFailures with
    | .ok failures => failures
    | .error message => [message]
  let (validation, artifact) := markComplete (validateClientRun parseChecks request
    artifact.official) (env.step .writeCompletion) artifact
  let failures := scenarioFailures ++ driverFailures ++
    (err validation).toList.map AppFailure.display
  (if failures = [] then .ok ()
    else .error (.native ("client conformance did not complete: " ++ "; ".intercalate failures)),
    artifact)

/-- Run the client scenarios. The lane is marked complete when the results cover
the scoped catalog, but any failure on the way is still a failure of the run. -/
def runOfficialClientConformance (parseChecks : ChecksParser) (env : ClientRunEnv)
    (interrupted : Bool) (request : EntryRequest) (artifact : LaneArtifact) :
    AppResult Unit × LaneArtifact :=
  match expectedClientScenarios request.clientVersion with
  | .error message => (.error (.native message), artifact)
  | .ok _ =>
      match prepareLane env.step (runMetadata request .client .externalDataPlane "scoped")
        artifact with
      | (.error failure, artifact) => (.error failure, artifact)
      | (.ok (), artifact) =>
          finishClientRun parseChecks env interrupted request
            { artifact with official := env.official }

end CfIntegration.Runtime
