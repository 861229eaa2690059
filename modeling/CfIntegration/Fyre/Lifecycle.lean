import CfIntegration.Fyre.Matrix

/-! # The lifecycle of a run

`run` provisions, measures, reports and destroys; `destroy` reclaims what an
earlier run left. The phase and the cleanup flag in `run.json` tell which machines
may still exist.
-/

namespace CfIntegration.Fyre

open CfIntegration.Runtime

/-- A library result as a step of a run. -/
def ofNative {α : Type} (result : Except String α) : FyreAction α :=
  Action.mapError FyreStop.failed (Action.ofExcept (fromNative result))

/-- Whether the action ended before the time bound struck. -/
def timeout {α : Type} (action : FyreAction α) : FyreAction (Option α) := fun world =>
  match action world with
  | (.ok value, world) => (.ok (some value), world)
  | (.error .cutOff, world) => (.ok none, world)
  | (.error stop, world) => (.error stop, world)

section Calls

variable (env : FyreEnv)

def initialState (runId : String) (locust fastTime : Nat) : RunState where
  runId
  phase := .initializing
  currentScenario := none
  locustHelperSize := locust
  fastTimeHelperSize := fastTime
  completedScenarios := []
  cleanupRequired := true

/-- The checks before anything is created. -/
def checkRun (config : FyreConfig) (runId : String) : FyreAction Unit := do
  fileStep env
  let _ ← ofNative (validateConfig config)
  fileStep env
  let _ ← ofNative (validateRunId runId)
  let world ← readWorld
  if world.rootExists then
    failWith ("FYRE run " ++ runId ++
      " already exists; use status or destroy with this run ID")

/-- A failed creation may leave the directory behind. -/
def createRunDirectory : FyreAction Unit := do
  let step ← nextStep
  match env.file step with
  | none => update fun world => { world with rootExists := true }
  | some message => do
      if env.leavesRoot step then update fun world => { world with rootExists := true }
      failWith message

def createRun (config : FyreConfig) (runId : String) : FyreAction Unit := do
  createRunDirectory env
  fileStep env
  fileStep env
  let (locust, fastTime) ← ofNative (initialHelperIndices config)
  updateState fun _ => initialState runId locust fastTime
  writeState env

/-- Refresh Terraform's view of the product group and compare its quota. -/
def preflightFyreQuota (config : FyreConfig) (quota : FyreQuota) : FyreAction Unit := do
  let _ ← activateHelpers env config
  updateState fun state => { state with phase := .checkingQuota }
  writeState env
  fileStep env
  match config.scenarios.head? with
  | none => Action.fail .panicked
  | some _ => do
      writeVariables env
      emitEvent (.applyStarted none)
      runCancellable env
      fileStep env
      fileStep env
      let _ ← ofNative (ensureFyreQuota config quota)

/-- The matrix under the configured time bound. -/
def boundedMatrix (config : FyreConfig) : FyreAction Unit := do
  let matrix ← timeout (runFyreMatrix env config)
  match matrix with
  | some () => emitEvent .matrixCompleted
  | none => do
      let world ← readWorld
      if world.state.currentScenario.isSome then
        let _ ← settle (runCancellable env)
      failWith "FYRE campaign exceeded its configured time bound"

/-- Everything up to the manifest. -/
def primaryRun (config : FyreConfig) (quota : FyreQuota) : FyreAction Unit := do
  runCancellable env
  runCancellable env
  preflightFyreQuota env config quota
  boundedMatrix env config
  fileStep env

def generateFyreReport : FyreAction Unit := do
  runCancellable env
  emitEvent .reportSucceeded

def reportRun : AppResult Unit → FyreAction (AppResult Unit)
  | .ok () => settle (generateFyreReport env)
  | .error failure => pure (.error failure)

def destroyAttempts : Nat → AppFailure → FyreAction Unit
  | 0, last => Action.fail (.failed last)
  | attempts + 1, _ => do
      let result ← settle (runCancellable env)
      match result with
      | .ok () => emitEvent .destroySucceeded
      | .error failure => destroyAttempts attempts failure

/-- Without the variables no apply was ever started. -/
def terraformDestroy : FyreAction Unit := do
  let world ← readWorld
  if world.variablesWritten then destroyAttempts env 3 (.native "Terraform destroy failed")

/-- A write of `run.json` whose failure is ignored. -/
def tryWriteState : FyreAction Unit := do
  let _ ← settle (writeState env)

def finishRun (primary : AppResult Unit) : FyreAction Unit := do
  updateState fun state => { state with phase := .collecting }
  tryWriteState env
  let primary ← reportRun env primary
  updateState fun state => { state with phase := .destroying }
  tryWriteState env
  let cleanup ← settle (terraformDestroy env)
  match cleanup with
  | .ok () => updateState fun state =>
      { state with
        cleanupRequired := false
        phase := if primary = .ok () then .complete else .failed }
  | .error _ => updateState fun state => { state with phase := .cleanupFailed }
  tryWriteState env
  Action.mapError FyreStop.failed (Action.ofExcept (finishWithCleanup (err primary) cleanup))

def runFyre (config : FyreConfig) (quota : FyreQuota) (runId : String) : FyreAction Unit := do
  checkRun env config runId
  createRun env config runId
  fileStep env
  let primary ← settle (primaryRun env config quota)
  finishRun env primary

/-- The state in `run.json`, if the run owns the directory. -/
def readOwnedState (expectedRunId : String) : FyreAction RunState := do
  fileStep env
  let world ← readWorld
  match world.saved with
  | none => failWith "FYRE run state does not exist"
  | some state =>
      if state.runId ≠ expectedRunId then
        failWith "FYRE run ownership mismatch; refusing cleanup"
      else do
        fileStep env
        return state

def destroyFyre (runId : String) : FyreAction Unit := do
  let _ ← ofNative (validateRunId runId)
  let state ← readOwnedState env runId
  fileStep env
  updateState fun _ => { state with phase := .destroying }
  writeState env
  terraformDestroy env
  updateState fun state => { state with phase := .destroyed, cleanupRequired := false }
  writeState env

end Calls

/-- One invocation of the program for a run ID, with what it meets. -/
inductive FyreCall where
  | run (env : FyreEnv) (config : FyreConfig) (quota : FyreQuota)
  | destroy (env : FyreEnv)

def FyreCall.env : FyreCall → FyreEnv
  | .run env _ _ | .destroy env => env

def FyreCall.action (runId : String) : FyreCall → FyreAction Unit
  | .run env config quota => runFyre env config quota runId
  | .destroy env => destroyFyre env runId

/-- The directory after some calls. Each call counts its own steps. -/
def runCalls (runId : String) (calls : List FyreCall) (world : FyreWorld) : FyreWorld :=
  calls.foldl (fun world call => ((call.action runId).run { world with steps := 0 }).2) world

/-- No run directory exists yet. -/
def FyreWorld.absent : FyreWorld where
  rootExists := false
  state := initialState "" 0 0
  saved := none
  variablesWritten := false
  activeHelper := none
  results _ := none
  invalidated _ _ := none
  events := []
  steps := 0

end CfIntegration.Fyre
