import CfIntegration.Foundation.Action
import CfIntegration.Runtime.Failure
import CfIntegration.Fyre.Quota

/-! # The scenario matrix

The matrix runs the configured scenarios in order with one size for each helper.
When a helper saturates, everything measured so far is archived and the matrix
starts over with that helper one size larger.
-/

namespace CfIntegration.Fyre

open CfIntegration.Runtime

inductive HelperRole where
  | locust
  | fastTime
  deriving DecidableEq, Repr

def HelperRole.name : HelperRole → String
  | .locust => "locust"
  | .fastTime => "fast-time"

def HelperRole.ofName? (name : String) : Option HelperRole :=
  if name = "locust" then some .locust else if name = "fast-time" then some .fastTime else none

inductive Phase where
  | initializing
  | checkingQuota
  | provisioning
  | benchmarking
  | collecting
  | destroying
  | complete
  | failed
  | cleanupFailed
  | destroyed
  deriving DecidableEq, Repr

structure RunState where
  runId : String
  phase : Phase
  currentScenario : Option String
  locustHelperSize : Nat
  fastTimeHelperSize : Nat
  completedScenarios : List String
  cleanupRequired : Bool
  deriving DecidableEq, Repr

def RunState.helperSize (state : RunState) : HelperRole → Nat
  | .locust => state.locustHelperSize
  | .fastTime => state.fastTimeHelperSize

def RunState.growHelper (state : RunState) : HelperRole → RunState
  | .locust => { state with locustHelperSize := state.locustHelperSize + 1 }
  | .fastTime => { state with fastTimeHelperSize := state.fastTimeHelperSize + 1 }

structure ActiveHelper where
  locust : MachineSize
  fastTime : MachineSize
  deriving DecidableEq, Repr

/-- What one campaign left in its result directory. The serial number tells it from
any other measurement of the run. -/
structure Measurement where
  serial : Nat
  scenario : String
  locustHelperSize : Nat
  fastTimeHelperSize : Nat
  helpers : ActiveHelper
  deriving DecidableEq, Repr

inductive FyreEvent where
  /-- A Terraform apply was started; the refresh of the preflight provisions nothing. -/
  | applyStarted (set : Option VmSet)
  | measured (measurement : Measurement)
  | restarted (role : HelperRole)
  | matrixCompleted
  | reportSucceeded
  | destroySucceeded
  deriving DecidableEq, Repr

/-- One run with its directory: the state in memory and in `run.json`, whether the
Terraform variables were written, the result directories by scenario and the
archived ones by archive and scenario. -/
structure FyreWorld where
  rootExists : Bool
  state : RunState
  saved : Option RunState
  variablesWritten : Bool
  activeHelper : Option ActiveHelper
  results : String → Option Measurement
  invalidated : String → String → Option Measurement
  events : List FyreEvent
  steps : Nat

/-- The content of `helper-request.json` after a saturation exit. -/
inductive HelperRequest where
  | missing
  | invalid
  | role (name : Option String)
  deriving DecidableEq, Repr

/-- What the n-th step of a run meets: the error of a file operation or of a write
of `run.json`, the failure of a command, and whether the campaign's time bound
strikes while the command is awaited. -/
structure FyreEnv where
  file : Nat → Option String
  /-- Whether a failed creation of the run directory left it behind. -/
  leavesRoot : Nat → Bool
  saveState : Nat → Option String
  command : Nat → Option AppFailure
  cutOff : Nat → Bool
  helperRequest : Nat → HelperRequest

inductive FyreStop where
  | failed (failure : AppFailure)
  /-- The time bound dropped the matrix. -/
  | cutOff
  /-- A helper index is outside the list of sizes. -/
  | panicked
  /-- The loop of the model ran out of fuel. -/
  | exhausted
  deriving DecidableEq, Repr

abbrev FyreAction (α : Type) := Action FyreWorld FyreStop α

def nextStep : FyreAction Nat := fun world =>
  (.ok world.steps, { world with steps := world.steps + 1 })

def readWorld : FyreAction FyreWorld := fun world => (.ok world, world)

def update (change : FyreWorld → FyreWorld) : FyreAction Unit := fun world => (.ok (), change world)

def updateState (change : RunState → RunState) : FyreAction Unit :=
  update fun world => { world with state := change world.state }

def emitEvent (event : FyreEvent) : FyreAction Unit :=
  update fun world => { world with events := world.events ++ [event] }

def failWith {α : Type} (message : String) : FyreAction α :=
  Action.fail (.failed (.native message))

/-- Keep going after a failure; the time bound and a panic end the run. -/
def settle {α : Type} (action : FyreAction α) : FyreAction (Except AppFailure α) := fun world =>
  match action world with
  | (.ok value, world) => (.ok (.ok value), world)
  | (.error (.failed failure), world) => (.ok (.error failure), world)
  | (.error stop, world) => (.error stop, world)

variable (env : FyreEnv)

def fileStep : FyreAction Unit := do
  let step ← nextStep
  match env.file step with
  | none => pure ()
  | some message => failWith message

def writeState : FyreAction Unit := do
  let step ← nextStep
  match env.saveState step with
  | none => update fun world => { world with saved := some world.state }
  | some message => failWith message

def runCancellable : FyreAction Unit := do
  let step ← nextStep
  match env.command step with
  | none => pure ()
  | some failure => Action.fail (.failed failure)

/-- A command awaited under the campaign's time bound. -/
def awaitCancellable : FyreAction Unit := do
  let step ← nextStep
  if env.cutOff step then Action.fail .cutOff
  else
    match env.command step with
    | none => pure ()
    | some failure => Action.fail (.failed failure)

def helperSaturationExit : Int := 42

def isHelperSaturation : AppFailure → Bool
  | .infrastructure (.childExit code _) => code = some helperSaturationExit
  | _ => false

def helperAt (config : FyreConfig) (index : Nat) : FyreAction MachineSize :=
  match config.infrastructure.helperSizes[index]? with
  | some size => pure size
  | none => Action.fail .panicked

/-- Select the helper sizes of the state and record them in the configuration. -/
def activateHelpers (config : FyreConfig) : FyreAction ActiveHelper := do
  let world ← readWorld
  let locust ← helperAt config world.state.locustHelperSize
  let fastTime ← helperAt config world.state.fastTimeHelperSize
  let helpers : ActiveHelper := ⟨locust, fastTime⟩
  update fun world => { world with activeHelper := some helpers }
  fileStep env
  return helpers

def writeVariables : FyreAction Unit := do
  fileStep env
  update fun world => { world with variablesWritten := true }

def provisionScenario (scenario : Scenario) (helpers : ActiveHelper) : FyreAction Unit := do
  updateState fun state =>
    { state with currentScenario := some scenario.id, phase := .provisioning }
  writeState env
  writeVariables env
  emitEvent (.applyStarted (some ⟨scenario, helpers.locust, helpers.fastTime⟩))
  awaitCancellable env

/-- Make room for the scenario's results, next to its inventory. -/
def prepareResults (scenario : Scenario) : FyreAction Unit := do
  fileStep env
  let world ← readWorld
  if (world.results scenario.id).isSome then
    fileStep env
    update fun world => { world with results := Function.update world.results scenario.id none }
  fileStep env
  fileStep env
  updateState fun state => { state with phase := .benchmarking }
  writeState env

def measurementsOf (events : List FyreEvent) : List Measurement :=
  events.filterMap fun
    | .measured measurement => some measurement
    | _ => none

/-- The campaign writes into the scenario's result directory from its start on. -/
def beginMeasurement (scenario : Scenario) (helpers : ActiveHelper) : FyreAction Unit :=
  update fun world =>
    let measurement : Measurement := {
      serial := (measurementsOf world.events).length
      scenario := scenario.id
      locustHelperSize := world.state.locustHelperSize
      fastTimeHelperSize := world.state.fastTimeHelperSize
      helpers }
    { world with
      results := Function.update world.results scenario.id (some measurement)
      events := world.events ++ [.measured measurement] }

def archiveName (role : HelperRole) (size : Nat) (scenario : String) : String :=
  role.name ++ "-size-" ++ toString size ++ "-at-" ++ scenario

def requestedRole : FyreAction HelperRole := do
  let step ← nextStep
  match env.helperRequest step with
  | .missing => failWith "helper saturation did not produce helper-request.json"
  | .invalid => failWith "invalid helper saturation request"
  | .role none => failWith "helper saturation request has an unknown role"
  | .role (some name) =>
      match HelperRole.ofName? name with
      | none => failWith "helper saturation request has an unknown role"
      | some role => pure role

/-- Move the result directories of the scenarios under the archive. -/
def archiveResults (archive : String) : List Scenario → FyreAction Unit
  | [] => pure ()
  | scenario :: rest => do
      let world ← readWorld
      if (world.results scenario.id).isSome then
        fileStep env
        update fun world => { world with
          results := Function.update world.results scenario.id none
          invalidated := Function.update world.invalidated archive
            (Function.update (world.invalidated archive) scenario.id
              (world.results scenario.id)) }
      archiveResults archive rest

def growHelper (config : FyreConfig) (scenario : Scenario) : FyreAction Unit := do
  let role ← requestedRole env
  updateState fun state => state.growHelper role
  let world ← readWorld
  let size := world.state.helperSize role
  if config.infrastructure.helperSizes.length ≤ size then
    failWith ("helper headroom is inconclusive: the saturated helper reached the configured " ++
      "16 vCPU / 32 GB limit")
  else
    fileStep env
    archiveResults env (archiveName role size scenario.id) config.scenarios
    updateState fun state => { state with completedScenarios := [] }
    emitEvent (.restarted role)

inductive ScenarioOutcome where
  | confirmed
  | saturated
  deriving DecidableEq, Repr

/-- Recover what a failed campaign left on the hosts. -/
def collectFyreScenario : FyreAction Unit := awaitCancellable env

def runScenario (config : FyreConfig) (scenario : Scenario) : FyreAction ScenarioOutcome := do
  let helpers ← activateHelpers env config
  provisionScenario env scenario helpers
  prepareResults env scenario
  beginMeasurement scenario helpers
  let campaign ← settle (awaitCancellable env)
  match campaign with
  | .ok () =>
      updateState fun state =>
        { state with completedScenarios := state.completedScenarios ++ [scenario.id] }
      writeState env
      return .confirmed
  | .error failure =>
      let _ ← settle (collectFyreScenario env)
      if isHelperSaturation failure then
        growHelper env config scenario
        return .saturated
      else Action.fail (.failed failure)

def matrixLoop (config : FyreConfig) : Nat → Nat → FyreAction Unit
  | 0, _ => Action.fail .exhausted
  | fuel + 1, index =>
      match config.scenarios[index]? with
      | none => updateState fun state => { state with currentScenario := none }
      | some scenario => do
          let outcome ← runScenario env config scenario
          match outcome with
          | .confirmed => matrixLoop config fuel (index + 1)
          | .saturated => matrixLoop config fuel 0

/-- Enough turns of the loop for every restart the sizes allow. -/
def matrixFuel (config : FyreConfig) : Nat :=
  (2 * config.infrastructure.helperSizes.length + 1) * config.scenarios.length + 1

def runFyreMatrix (config : FyreConfig) : FyreAction Unit := do
  fileStep env
  matrixLoop env config (matrixFuel config) 0

end CfIntegration.Fyre
