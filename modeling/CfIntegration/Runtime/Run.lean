import CfIntegration.Conformance.BaselineTransaction
import CfIntegration.Runtime.Entry

/-! # A conformance run

A run executes every entry of the matrix of client versions and server eras,
evaluates the results each entry left against the baselines, and at the end
either reports the collected failures or, with `bless`, replaces the baselines
in one transaction.
-/

namespace CfIntegration.Runtime

open Conformance

structure RunRequest where
  lanes : List SemanticLane
  standalone : Bool
  clientVersions : List String
  serverEras : List ConformanceServerEra
  bless : Bool

/-- What the outside does during a run, entry by entry. -/
structure RunEnv where
  parseChecks : ChecksParser
  codec : YamlCodec
  docker : AppResult Unit
  setupLog : Nat → AppResult Unit
  entry : Nat → EntryEnv
  writeReport : Nat → ConformanceDirection → SemanticLane → Except String Unit
  /-- The name of the baseline root, and what paths through links below it find. -/
  rootName : Option String
  behindLink : BaselineView
  blessFaults : BlessFaults

abbrev RunArtifacts := String → ConformanceServerEra → EntryArtifacts

def RunArtifacts.set (artifacts : RunArtifacts) (clientVersion : String)
    (serverEra : ConformanceServerEra) (entry : EntryArtifacts) : RunArtifacts :=
  fun otherVersion otherEra =>
    if otherVersion = clientVersion ∧ otherEra = serverEra then entry
    else artifacts otherVersion otherEra

def conformanceMatrix (clientVersions : List String) (serverEras : List ConformanceServerEra) :
    List (String × ConformanceServerEra) :=
  clientVersions.flatMap fun clientVersion =>
    serverEras.map fun serverEra => (clientVersion, serverEra)

structure RunProgress where
  artifacts : RunArtifacts
  failures : List String
  reportedFailure : Bool
  updates : List BaselineUpdate
  trace : List RunEvent
  /-- The matrix loop was left because the interrupt had completed. -/
  stopped : Bool

section Run

variable (env : RunEnv) (request : RunRequest) (baselines : BaselineView)

def RunRequest.entry (request : RunRequest) (clientVersion : String)
    (serverEra : ConformanceServerEra) : EntryRequest :=
  { lanes := request.lanes, clientVersion, serverEra, standalone := request.standalone }

/-- The failures one comparison adds: its report, and a mismatch that is not blessed. -/
def comparisonFailures (index : Nat) (clientVersion : String) (serverEra : ConformanceServerEra)
    (direction : ConformanceDirection) (comparison : BaselineComparison) : List String :=
  let name := s!"{identity clientVersion serverEra} {direction.label} {comparison.lane.slug}"
  (match env.writeReport index direction comparison.lane with
    | .ok () => []
    | .error error => [s!"{name} baseline report: {error}"]) ++
  if !request.bless && !comparison.matches then
    [s!"{name} baseline mismatch: unexpected={
      debugList (comparison.unexpected.map ScoredFinding.debug)}; stale={
      debugList (comparison.stale.map ScoredFinding.debug)}"]
  else []

/-- Evaluate one direction's results against the baselines. -/
def evaluateDirection (index : Nat) (clientVersion : String) (serverEra : ConformanceServerEra)
    (direction : ConformanceDirection) (loaded : AppResult LaneResults) (progress : RunProgress) :
    RunProgress :=
  let progress := { progress with trace := progress.trace ++ [RunEvent.evaluated direction] }
  let (results, loadFailures) : LaneResults × List String := match loaded with
    | .ok results => (results, [])
    | .error error => (fun _ => none, [s!"{identity clientVersion serverEra} {
        direction.label} artifacts: {error.display}"])
  if results.keys = [] then
    { progress with failures := progress.failures ++ loadFailures }
  else
    match evaluateBaselines env.codec direction results results.keys baselines clientVersion
      serverEra request.bless with
    | .ok evaluation =>
        { progress with
          failures := progress.failures ++ loadFailures ++ evaluation.comparisons.flatMap
            (comparisonFailures env request index clientVersion serverEra direction)
          updates := progress.updates ++ evaluation.updates }
    | .error error =>
        { progress with failures := progress.failures ++ loadFailures ++
            [s!"{identity clientVersion serverEra} {direction.label} baseline gate: {error}"] }

def interruptionRequested (trace : List RunEvent) : Bool :=
  trace.any fun event => event.poll == some true

/-- What the entry's own result adds to the run. -/
def entryResult (clientVersion : String) (serverEra : ConformanceServerEra)
    (result : AppResult (List ConformanceOperationalFailure)) (progress : RunProgress) :
    RunProgress :=
  match result with
  | .ok operationalFailures =>
      { progress with
        reportedFailure := progress.reportedFailure || !operationalFailures.isEmpty }
  | .error error =>
      if error.isReported then { progress with reportedFailure := true }
      else
        { progress with failures := progress.failures ++
            [s!"{identity clientVersion serverEra}: {error.display}\n  Setup log: conformance/{
              clientVersion}/{serverEra.label}/setup.log"] }

/-- One pass of the matrix loop. -/
def matrixEntry (progress : RunProgress) (entry : (String × ConformanceServerEra) × Nat) :
    RunProgress :=
  if progress.stopped then progress
  else
    let ((clientVersion, serverEra), index) := entry
    let progress :=
      { progress with trace := progress.trace ++ [RunEvent.entryStarted clientVersion serverEra] }
    match env.setupLog index with
    | .error error =>
        { progress with failures := progress.failures ++
            [s!"{identity clientVersion serverEra} setup: {error.display}"] }
    | .ok () =>
        let outcome := runConformanceWithInterrupt env.parseChecks (env.entry index)
          (request.entry clientVersion serverEra) (progress.artifacts clientVersion serverEra)
        let results := match outcome.result with
          | .ok [] =>
              loadSelectedConformanceResults env.parseChecks ⟨clientVersion, serverEra⟩
                outcome.artifacts request.lanes
          | _ => loadCompletedConformanceResults env.parseChecks ⟨clientVersion, serverEra⟩
              outcome.artifacts request.lanes
        let progress := entryResult clientVersion serverEra outcome.result
          { progress with
            artifacts := progress.artifacts.set clientVersion serverEra outcome.artifacts
            trace := progress.trace ++ outcome.trace }
        let progress := evaluateDirection env request baselines index clientVersion serverEra
          .server results progress
        let progress := evaluateDirection env request baselines index clientVersion serverEra
          .client (loadCompletedClientConformanceResults env.parseChecks ⟨clientVersion, serverEra⟩
            outcome.artifacts) progress
        if interruptionRequested outcome.trace then
          { progress with reportedFailure := true, stopped := true }
        else progress

def runMatrix (artifacts : RunArtifacts) : RunProgress :=
  (conformanceMatrix request.clientVersions request.serverEras).zipIdx.foldl
    (matrixEntry env request baselines)
    { artifacts, failures := [], reportedFailure := false, updates := [], trace := [],
      stopped := false }

end Run

structure RunOutcome where
  result : AppResult Unit
  root : Option (Tree Bytes)
  artifacts : RunArtifacts
  trace : List RunEvent

/-- Decide the result of a run; the baselines are replaced only without any failure. -/
def finalizeConformanceExecution (env : RunEnv) (bless : Bool) (root : Option (Tree Bytes))
    (progress : RunProgress) : RunOutcome :=
  if progress.failures = [] ∧ progress.reportedFailure = false ∧ bless = true then
    let (result, disk) :=
      blessBaselinesTransactionally env.codec env.blessFaults env.rootName root progress.updates
    ⟨fromNative result, disk.root, progress.artifacts, progress.trace ++ [.baselinesReplaced]⟩
  else
    let result : AppResult Unit :=
      if progress.failures = [] ∧ progress.reportedFailure = true then .error .reported
      else if progress.failures = [] then .ok ()
      else .error (.native ("conformance completed the selected matrix with failures:\n- " ++
        "\n- ".intercalate progress.failures))
    ⟨result, root, progress.artifacts, progress.trace⟩

/-- Run the matrix against the baselines below a root. -/
def executeConformance (env : RunEnv) (request : RunRequest) (root : Option (Tree Bytes))
    (artifacts : RunArtifacts) : RunOutcome :=
  match env.docker with
  | .error failure => ⟨.error failure, root, artifacts, []⟩
  | .ok () =>
      finalizeConformanceExecution env request.bless root
        (runMatrix env request (baselineFileAt env.behindLink root) artifacts)

end CfIntegration.Runtime
