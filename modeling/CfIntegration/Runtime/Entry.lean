import CfIntegration.Foundation.ResourceTrace
import CfIntegration.Runtime.OfficialRun

/-! # One entry of the conformance matrix

An entry runs the direct fixture, then each selected routed topology, then the
external client direction. It collects operational failures, writes the lanes'
artifacts, and records what it acquires, releases and selects on. What the
outside does (commands, requests, files, and whether the interrupt completes
first at a select) is given by the entry's environment.
-/

namespace CfIntegration.Runtime

open Conformance

inductive StackMode where
  | controlplane
  | dataplane
  deriving DecidableEq, Repr

def StackMode.laneLabel : StackMode → String
  | .controlplane => "builtin"
  | .dataplane => "external"

inductive Resource where
  /-- The standalone project of the direct fixture. -/
  | directFixture
  | stack (topology : StackMode)
  | service (topology : StackMode)
  | fixture (topology : StackMode)
  | managedToken (topology : StackMode)
  /-- The control-plane publisher while it is paused. -/
  | publisherPause
  deriving DecidableEq, Repr

/-- The places where an operation and the interrupt are awaited together. -/
inductive SelectPoint where
  | directStart
  | directRun
  | serviceStart (topology : StackMode)
  | provision (topology : StackMode)
  | routedRun (topology : StackMode)
  | clientRun
  deriving DecidableEq, Repr

inductive RunEvent where
  | entryStarted (clientVersion : String) (serverEra : ConformanceServerEra)
  | acquired (resource : Resource)
  | released (resource : Resource)
  | selected (point : SelectPoint) (interruptFirst : Bool)
  | externalStackRetained
  | externalStackReused
  | evaluated (direction : ConformanceDirection)
  | baselinesReplaced
  deriving DecidableEq, Repr

namespace RunEvent

def resourceUse : RunEvent → Option (Resource × ResourceUse)
  | .acquired resource => some (resource, .acquire)
  | .released resource => some (resource, .release)
  | _ => none

/-- The outcome of a poll of the interrupt future. -/
def poll : RunEvent → Option Bool
  | .selected _ interruptFirst => some interruptFirst
  | _ => none

end RunEvent

structure ConformanceOperationalFailure where
  direction : ConformanceDirection
  lane : Option SemanticLane
  stage : String
  message : String
  deriving DecidableEq, Repr

namespace ConformanceOperationalFailure

def server (lane : Option SemanticLane) (stage message : String) :
    ConformanceOperationalFailure := ⟨.server, lane, stage, message⟩

def client (lane : SemanticLane) (stage message : String) : ConformanceOperationalFailure :=
  ⟨.client, some lane, stage, message⟩

end ConformanceOperationalFailure

structure TopologyEnv where
  stackUp : AppResult Unit
  startService : AppResult Unit
  adminClient : AppResult Unit
  /-- The registered fixture's server. -/
  provision : Except String String
  publisherSnapshot : AppResult Unit
  standaloneToken : AppResult Unit
  /-- The catalog id of the issued token. -/
  conformanceToken : AppResult String
  publishConfig : AppResult Unit
  gatewayEndpoint : AppResult Unit
  target : TargetEnv
  revokeToken : AppResult Unit
  cleanupFixture : AppResult Unit
  stopService : AppResult Unit
  cleanupStack : AppResult Unit

structure ClientEnv where
  stackUp : AppResult Unit
  pausePublisher : AppResult Unit
  run : ClientRunEnv
  restorePublisher : AppResult Unit
  cleanupStack : AppResult Unit

structure EntryEnv where
  /-- Whether the interrupt completes before the operation it is awaited with. -/
  fires : SelectPoint → Bool
  clear : ConformanceDirection → SemanticLane → AppResult Unit
  /-- What a failed removal leaves. -/
  leftover : ConformanceDirection → SemanticLane → LaneArtifact
  loopbackFixture : AppResult Unit
  directPreCleanup : AppResult Unit
  directStart : AppResult Unit
  directEndpoint : AppResult Unit
  directTarget : TargetEnv
  directStop : AppResult Unit
  routedCleanup : AppResult Unit
  topology : StackMode → TopologyEnv
  client : ClientEnv
  writeComparison : AppResult Unit
  appendLog : AppResult Unit

def interruptedConformanceFailure : AppFailure :=
  .native "conformance workflow interrupted by Ctrl-C"

/-- What a lane's phase has done so far: its failure, whether the interrupt was
seen, the artifacts, and the events of the phase. -/
structure LaneProgress where
  failure : Option AppFailure
  interrupted : Bool
  artifacts : EntryArtifacts
  trace : List RunEvent

namespace LaneProgress

/-- Finish an operation that is awaited together with the interrupt. -/
def select (fires : SelectPoint → Bool) (point : SelectPoint) (lane : LaneProgress) :
    LaneProgress :=
  { lane with
    interrupted := lane.interrupted || fires point
    trace := lane.trace ++ [.selected point (fires point)] }

/-- The failure of a phase: the interrupt hides the operation's own one. -/
def phaseFailure (lane : LaneProgress) (failure : AppFailure) : AppFailure :=
  if lane.interrupted then interruptedConformanceFailure else failure

/-- Await an official run. An interrupt cancels the run, waits for it to end and
drops its result. -/
def awaitRun (fires : SelectPoint → Bool) (point : SelectPoint) (target : SemanticLane)
    (run : LaneArtifact → AppResult Unit × LaneArtifact) (lane : LaneProgress) : LaneProgress :=
  let (result, artifact) := run (lane.artifacts .server target)
  { lane.select fires point with
    failure := if fires point then some interruptedConformanceFailure else err result
    artifacts := lane.artifacts.set .server target artifact }

/-- Release something that must be cleaned up whatever happened before. -/
def cleanUp (resources : List Resource) (cleanup : AppResult Unit) (lane : LaneProgress) :
    LaneProgress :=
  { lane with
    failure := err (finishWithCleanup lane.failure cleanup)
    trace := lane.trace ++ resources.map .released }

end LaneProgress

def startDirectFixture (env : EntryEnv) (lane : LaneProgress) : LaneProgress :=
  let started := { lane with trace := lane.trace ++ [RunEvent.acquired .directFixture] }
  let lane := started.select env.fires .directStart
  { lane with failure := match env.directStart with
    | .ok () => if lane.interrupted then some interruptedConformanceFailure else none
    | .error error => some (lane.phaseFailure error) }

def runDirectFixture (parseChecks : ChecksParser) (env : EntryEnv) (request : EntryRequest)
    (lane : LaneProgress) : LaneProgress :=
  if lane.failure.isSome then lane
  else
    match env.directEndpoint with
    | .error error => { lane with failure := some error }
    | .ok () => lane.awaitRun env.fires .directRun .fixtureDirect
        (runOfficialConformanceTarget parseChecks env.directTarget request .fixtureDirect)

def directLane (parseChecks : ChecksParser) (env : EntryEnv) (request : EntryRequest)
    (artifacts : EntryArtifacts) : LaneProgress :=
  let lane : LaneProgress := { failure := none, interrupted := false, artifacts, trace := [] }
  (runDirectFixture parseChecks env request (startDirectFixture env lane)).cleanUp
    [.directFixture] env.directStop

/-- The lane a topology is tested for. -/
def conformanceTarget : StackMode → SemanticLane
  | .controlplane => .builtInDataPlane
  | .dataplane => .externalDataPlane

def conformanceTopologies (lanes : List SemanticLane) : List StackMode :=
  (if lanes.contains .builtInDataPlane then [.controlplane] else []) ++
    if lanes.contains .externalDataPlane then [.dataplane] else []

structure ManagedBearerToken where
  /-- The id to revoke, for a token issued by the catalog. -/
  catalogId : Option String
  deriving DecidableEq, Repr

structure TopologyProgress extends LaneProgress where
  serviceStarted : Bool
  fixtureMetadata : Option ConformanceFixtureMetadata
  /-- The server of the provisioned fixture. -/
  fixture : Option String
  managedToken : Option ManagedBearerToken

/-- A topology of one request, with the environment it runs in. -/
structure TopologyRun where
  parseChecks : ChecksParser
  fires : SelectPoint → Bool
  env : TopologyEnv
  request : EntryRequest
  topology : StackMode

namespace TopologyRun

def standalone (run : TopologyRun) : Bool :=
  run.request.standalone && run.topology == .dataplane

def target (run : TopologyRun) : SemanticLane := conformanceTarget run.topology

def runsRouted (run : TopologyRun) : Bool := run.request.lanes.contains run.target

def stackStarted (run : TopologyRun) : Bool := (err run.env.stackUp).isNone

def prepareStack (run : TopologyRun) (artifacts : EntryArtifacts) : TopologyProgress where
  failure := err run.env.stackUp
  interrupted := false
  artifacts
  trace := [.acquired (.stack run.topology)]
  serviceStarted := false
  fixtureMetadata := none
  fixture := none
  managedToken := none

def startService (run : TopologyRun) (progress : TopologyProgress) : TopologyProgress :=
  if progress.failure.isSome then progress
  else
    let lane := progress.select run.fires (.serviceStart run.topology)
    match run.env.startService with
    | .ok () =>
        { progress with
          toLaneProgress := { lane with
            failure := if lane.interrupted then some interruptedConformanceFailure else none
            trace := lane.trace ++ [.acquired (.service run.topology)] }
          serviceStarted := true
          fixtureMetadata := if lane.interrupted then none else some officialFixture }
    | .error error =>
        { progress with toLaneProgress := { lane with failure := some (lane.phaseFailure error) } }

def registrationContext (run : TopologyRun) : String :=
  s!"ContextForge could not register the official fixture for {
    run.topology.laneLabel} with server era {run.request.serverEra.label} [{
    run.request.serverEra.protocolVersionsLabel}]; routed tests for this lane were skipped"

def provisionFixture (run : TopologyRun) (progress : TopologyProgress) : TopologyProgress :=
  if progress.failure.isSome || !run.runsRouted || run.standalone then progress
  else
    match run.env.adminClient with
    | .error error =>
        { progress with toLaneProgress := { progress.toLaneProgress with failure := some error } }
    | .ok () =>
        let lane := progress.select run.fires (.provision run.topology)
        match run.env.provision with
        | .ok serverId =>
            { progress with
              toLaneProgress := { lane with
                failure := if lane.interrupted then some interruptedConformanceFailure
                  else if run.topology = .dataplane then err run.env.publisherSnapshot else none
                trace := lane.trace ++ [.acquired (.fixture run.topology)] }
              fixture := some serverId }
        | .error message =>
            { progress with toLaneProgress := { lane with
              failure := some (lane.phaseFailure
                (.native s!"{run.registrationContext}: {message}")) } }

/-- A standalone token is signed locally; the catalog issues the others. -/
def issueToken (run : TopologyRun) : AppResult ManagedBearerToken :=
  if run.standalone then (fun _ => ⟨none⟩) <$> run.env.standaloneToken
  else (fun catalogId => ⟨some catalogId⟩) <$> run.env.conformanceToken

def runOfficialConformanceMode (run : TopologyRun) (artifact : LaneArtifact) :
    AppResult Unit × LaneArtifact :=
  match run.env.gatewayEndpoint with
  | .error failure => (.error failure, artifact)
  | .ok () => runOfficialConformanceTarget run.parseChecks run.env.target run.request run.target
      artifact

def runTests (run : TopologyRun) (progress : TopologyProgress) : TopologyProgress :=
  if progress.failure.isSome || !run.runsRouted then progress
  else
    let serverId := if run.standalone then some officialConformanceServerId else progress.fixture
    match serverId, progress.fixtureMetadata with
    | some _, some _ =>
        match run.issueToken with
        | .error error =>
            { progress with
              toLaneProgress := { progress.toLaneProgress with failure := some error } }
        | .ok token =>
            let lane := { progress.toLaneProgress with
              trace := progress.trace ++
                if token.catalogId.isSome then [RunEvent.acquired (.managedToken run.topology)]
                else [] }
            let lane := match if run.standalone then run.env.publishConfig else .ok () with
              | .error error => { lane with failure := some error }
              | .ok () => lane.awaitRun run.fires (.routedRun run.topology) run.target
                  run.runOfficialConformanceMode
            { progress with toLaneProgress := lane, managedToken := some token }
    | _, _ =>
        { progress with toLaneProgress := { progress.toLaneProgress with
          failure := some (.native
            "successful fixture setup did not retain its runtime state") } }

/-- Revoke the token; a caller's own or a locally signed one is left alone. -/
def revokeManagedToken (run : TopologyRun) (progress : TopologyProgress) : TopologyProgress :=
  match progress.managedToken with
  | some ⟨some _⟩ =>
      if run.standalone then progress
      else
        { progress with
          toLaneProgress := progress.cleanUp [.managedToken run.topology] run.env.revokeToken }
  | some ⟨none⟩ | none => progress

def cleanUpFixture (run : TopologyRun) (progress : TopologyProgress) : TopologyProgress :=
  match progress.fixture with
  | some _ =>
      { progress with
        toLaneProgress := progress.cleanUp [.fixture run.topology, .service run.topology]
          (combineCleanupResults run.env.cleanupFixture run.env.stopService) }
  | none =>
      if progress.serviceStarted then
        { progress with
          toLaneProgress := progress.cleanUp [.service run.topology] run.env.stopService }
      else progress

/-- The stack is kept for the client direction only when it runs and follows. -/
def canReuseExternalStack (topology : StackMode)
    (stackStarted interrupted runExternalClient : Bool) :
    Bool :=
  topology == .dataplane && stackStarted && !interrupted && runExternalClient

def retainsStack (run : TopologyRun) (progress : TopologyProgress) : Bool :=
  canReuseExternalStack run.topology run.stackStarted progress.interrupted
    run.request.runsExternalClient

def finishStack (run : TopologyRun) (progress : TopologyProgress) : TopologyProgress :=
  if run.retainsStack progress then
    { progress with toLaneProgress := { progress.toLaneProgress with
      trace := progress.trace ++ [.externalStackRetained] } }
  else
    { progress with
      toLaneProgress := progress.cleanUp [.stack run.topology] run.env.cleanupStack }

/-- Everything of one topology, its cleanup included. -/
def complete (run : TopologyRun) (artifacts : EntryArtifacts) : TopologyProgress :=
  run.finishStack <| run.cleanUpFixture <| run.revokeManagedToken <| run.runTests <|
    run.provisionFixture <| run.startService <| run.prepareStack artifacts

end TopologyRun

namespace ClientEnv

def prepareStack (env : ClientEnv) (interrupted reuseStack : Bool) (artifacts : EntryArtifacts) :
    LaneProgress where
  failure := err env.stackUp
  interrupted
  artifacts
  trace := [if reuseStack then .externalStackReused else .acquired (.stack .dataplane)]

/-- Run the client against the stack. Without a control plane there is no
publisher to pause. -/
def runTests (parseChecks : ChecksParser) (env : ClientEnv) (request : EntryRequest)
    (lane : LaneProgress) : LaneProgress :=
  let (result, artifact) := runOfficialClientConformance parseChecks env.run lane.interrupted
    request (lane.artifacts .client .externalDataPlane)
  { lane with
    failure := err result
    artifacts := lane.artifacts.set .client .externalDataPlane artifact }

def runWithPublisherPaused (parseChecks : ChecksParser) (env : ClientEnv) (request : EntryRequest)
    (lane : LaneProgress) : LaneProgress :=
  if lane.failure.isSome then lane
  else if request.standalone then env.runTests parseChecks request lane
  else
    match env.pausePublisher with
    | .error error => { lane with failure := some error }
    | .ok () =>
        (env.runTests parseChecks request
          { lane with trace := lane.trace ++ [RunEvent.acquired .publisherPause] }).cleanUp
          [.publisherPause] env.restorePublisher

def complete (parseChecks : ChecksParser) (env : ClientEnv) (request : EntryRequest)
    (interrupted reuseStack : Bool) (artifacts : EntryArtifacts) : LaneProgress :=
  (env.runWithPublisherPaused parseChecks request
    (env.prepareStack interrupted reuseStack artifacts)).cleanUp [.stack .dataplane]
    env.cleanupStack

end ClientEnv

structure EntryProgress where
  artifacts : EntryArtifacts
  trace : List RunEvent
  failures : List ConformanceOperationalFailure
  interrupted : Bool
  externalStackRetained : Bool

/-- Continue an entry with what one of its lanes did. -/
def EntryProgress.absorb (progress : EntryProgress)
    (report : AppFailure → ConformanceOperationalFailure) (lane : LaneProgress) : EntryProgress :=
  { progress with
    artifacts := lane.artifacts
    trace := progress.trace ++ lane.trace
    failures := progress.failures ++ (lane.failure.map report).toList
    interrupted := lane.interrupted }

section Entry

variable (parseChecks : ChecksParser) (env : EntryEnv) (request : EntryRequest)

def directPhase (artifacts : EntryArtifacts) : EntryProgress :=
  let cleared : EntryProgress :=
    { artifacts
      trace := [.released .directFixture]
      failures := (err env.directPreCleanup).toList.map fun error =>
        .server (some .fixtureDirect) "cleanup"
          s!"fixture-direct pre-run cleanup: {error.display}"
      interrupted := false
      externalStackRetained := false }
  cleared.absorb (fun error => .server (some .fixtureDirect) "run" s!"fixture direct: {
    error.display}") (directLane parseChecks env request artifacts)

/-- Remove the stacks an earlier run may have left. -/
def routedCleanupPhase (progress : EntryProgress) : EntryProgress :=
  if conformanceTopologies request.lanes = [] ∨ progress.interrupted = true then progress
  else
    { progress with
      trace := progress.trace ++
        if request.standalone then [.released (.stack .dataplane)]
        else [.released (.stack .controlplane), .released (.stack .dataplane)]
      failures := progress.failures ++ (err env.routedCleanup).toList.map fun error =>
        .server none "cleanup" s!"routed-lane pre-run cleanup: {error.display}" }

def topologyRun (topology : StackMode) : TopologyRun :=
  { parseChecks, fires := env.fires, env := env.topology topology, request, topology }

def topologyPhase (progress : EntryProgress) (topology : StackMode) : EntryProgress :=
  if progress.interrupted then progress
  else
    let run := topologyRun parseChecks env request topology
    let done := run.complete progress.artifacts
    { progress.absorb (fun error => .server (some run.target) "run" s!"{
        topology.laneLabel} lane: {error.display}") done.toLaneProgress with
      externalStackRetained := progress.externalStackRetained || run.retainsStack done }

def clientPhase (progress : EntryProgress) : EntryProgress :=
  if progress.interrupted || !request.runsExternalClient then progress
  else
    let interrupted := env.fires .clientRun
    let lane := env.client.complete parseChecks request interrupted
      progress.externalStackRetained progress.artifacts
    let failed (error : AppFailure) : ConformanceOperationalFailure :=
      .client .externalDataPlane "run" s!"external dataplane client: {error.display}"
    { progress with
      artifacts := lane.artifacts
      trace := progress.trace ++ .selected .clientRun interrupted :: lane.trace
      interrupted := interrupted
      failures := progress.failures ++
        if interrupted then [failed interruptedConformanceFailure]
        else (lane.failure.map failed).toList }

def comparisonPhase (progress : EntryProgress) : EntryProgress :=
  if progress.failures = [] ∧ progress.interrupted = false ∧
      allConformanceLanes.all request.lanes.contains = true then
    let written := do
      let _ ← comparisonArtifacts parseChecks ⟨request.clientVersion, request.serverEra⟩
        progress.artifacts
        (some (request.clientVersion, request.serverEra, defaultConformanceSuite))
      env.writeComparison
    { progress with
      failures := (err written).toList.map fun error =>
        .server none "comparison-report" s!"comparison report: {error.display}" }
  else progress

def runPhases (artifacts : EntryArtifacts) : EntryProgress :=
  comparisonPhase parseChecks env request <| clientPhase parseChecks env request <|
    (conformanceTopologies request.lanes).foldl (topologyPhase parseChecks env request) <|
      routedCleanupPhase env request <| directPhase parseChecks env request artifacts

def validateEntry : AppResult Unit := fromNative do
  bailIf (request.lanes = []) "at least one conformance lane must be selected"
  let _ ← expectedServerScenarios defaultConformanceSuite request.clientVersion
  if request.runsExternalClient then
    let _ ← expectedClientScenarios request.clientVersion

/-- Remove every lane's artifacts, stopping at the first removal that fails. -/
def clearConformance (artifacts : EntryArtifacts) :
    List (ConformanceDirection × SemanticLane) → AppResult Unit × EntryArtifacts
  | [] => (.ok (), artifacts)
  | (direction, lane) :: rest =>
      match env.clear direction lane with
      | .ok () => clearConformance (artifacts.set direction lane .empty) rest
      | .error failure =>
          (.error failure, artifacts.set direction lane (env.leftover direction lane))

structure EntryOutcome where
  result : AppResult (List ConformanceOperationalFailure)
  artifacts : EntryArtifacts
  trace : List RunEvent

def runConformanceWithInterrupt (artifacts : EntryArtifacts) : EntryOutcome :=
  match validateEntry request with
  | .error failure => ⟨.error failure, artifacts, []⟩
  | .ok () =>
      match clearConformance env artifacts [(.server, .fixtureDirect), (.server, .builtInDataPlane),
        (.server, .externalDataPlane), (.client, .externalDataPlane)] with
      | (.error failure, artifacts) => ⟨.error failure, artifacts, []⟩
      | (.ok (), artifacts) =>
          match if conformanceTopologies request.lanes = [] then .ok ()
            else env.loopbackFixture with
          | .error failure => ⟨.error failure, artifacts, []⟩
          | .ok () =>
              let progress := runPhases parseChecks env request artifacts
              let result := if progress.failures = [] then .ok ()
                else env.appendLog
              ⟨result.map fun _ => progress.failures, progress.artifacts, progress.trace⟩

end Entry

end CfIntegration.Runtime
