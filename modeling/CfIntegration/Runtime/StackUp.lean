import CfIntegration.Foundation.Action
import CfIntegration.Infrastructure.Stack
import CfIntegration.Performance.RunTime
import CfIntegration.Runtime.Entry

/-! # Starting a stack

Sources, the build decision and images come first. A dataplane stack that counts as
current then is left as it is; otherwise the other stack must be stopped and Compose
creates the containers with the overrides of this run.
-/

namespace CfIntegration.Runtime.StackUp

open Infrastructure.Stack

/-! ## Containers -/

structure Container where
  id : String
  project : String
  service : String
  status : String
  exitCode : String
  configuredImage : String
  /-- The identifier of the image that it was created from. -/
  image : String
  revision : String
  memoryLimit : String
  cpuset : String
  deriving DecidableEq

/-- The containers that `docker ps` lists. -/
def Container.running (container : Container) : Bool :=
  container.status ∈ ["running", "paused", "restarting"]

/-- The checked-out revisions. -/
structure Revisions where
  controlplane : String
  dataplane : String
  deriving DecidableEq

abbrev Images := String → Option String

structure World where
  /-- All containers, as Docker lists them. -/
  containers : List Container
  /-- The identifiers of the local images, by name. -/
  images : Images
  revisions : Revisions

/-! ## Compose projects -/

/-- A service of the Compose files and overlays, and the overrides that these pass on. -/
structure ServiceSpec where
  service : String
  image : String
  /-- It ends after it has set something up. -/
  setup : Bool
  memoryLimited : Bool
  cpuTarget : Bool

structure ComposeProject where
  services : List ServiceSpec
  unique : (services.map ServiceSpec.service).Nodup
  serves : ∃ spec ∈ services, spec.setup = false

structure StackRuntimeOverrides where
  builtinMemoryLimit : Option String
  loadTargetCpuset : Option String

structure UpRequest where
  mode : StackMode
  fresh : Bool
  project : ComposeProject
  observability : Bool
  overrides : StackRuntimeOverrides

/-- Configuration and everything else that a start depends on. -/
structure Environment where
  text : String → Option String
  integrationProject : String
  controlplaneProject : String
  sources : StackMode → Revisions → Except String Unit × Revisions
  composeContract : Except String Unit
  resolveBuild : StackMode → Revisions → Images → Except String Bool
  pullImages : StackMode → Bool → Images → Except String Unit × Images
  expectedControlplaneImage : Except String String
  expectedDataplaneImage : Except String String
  expectedFastTimeImage : Except String String
  controlplaneImagePrebuilt : Bool
  dataplaneSourceEnabled : Bool
  controlplanePullPolicy : String
  dataplanePullPolicy : String
  /-- The error of asking for the revision of a checkout. -/
  git : StackMode → Option String
  /-- The error of a docker command, by its arguments. -/
  docker : List String → Option String
  cleanup : Option String
  observability : ComposeProject
  reportDirectory : Option String
  composeEnvironment : StackMode → Except String (String → Option String)
  imageRevision : String → String
  /-- What a start that failed leaves. -/
  leftover : List Container → List Container
  /-- Why the public endpoint does not answer. -/
  endpoint : StackMode → World → Option String

section
variable (env : Environment)

def environmentFlag (key : String) (default : Bool) : Bool :=
  match env.text key with
  | some value => value = "true" || value = "1"
  | none => default

/-! ## The snapshot -/

def requiredText (value name : String) : Except String String :=
  if value ≠ "" then .ok value else .error s!"{name} must be nonempty UTF-8"

/-- A docker command that only asks. -/
def ask {α : Type} (args : List String) (answer : α) : Except String α :=
  match env.docker args with
  | some error => .error error
  | none => .ok answer

def containerId (world : World) (project service : String) (all : Bool) :
    Except String (Option Container) :=
  ask env ["ps", if all then "-aq" else "-q", "--filter",
      s!"label=com.docker.compose.project={project}", "--filter",
      s!"label=com.docker.compose.service={service}"]
    (world.containers.find? fun container =>
      container.project = project && container.service = service && (all || container.running))

def inspect (container : Container) (format value : String) : Except String String :=
  ask env ["inspect", container.id, "--format", format] value

def imageId (world : World) (image : String) : Except String String :=
  match world.images image with
  | some id => ask env ["image", "inspect", image, "--format", "\x7b\x7b.Id\x7d\x7d"] id
  | none => .error s!"No such image: {image}"

/-- Ask about a container if there is one. -/
def transpose {α : Type} (found : Option Container) (question : Container → Except String α) :
    Except String (Option α) :=
  match found with
  | some container => (question container).map some
  | none => .ok none

def serviceSnapshot (world : World) (project service : String) :
    Except String ServiceSnapshot := do
  let running ← containerId env world project service false
  let any ← containerId env world project service true
  let configured ← transpose running fun container =>
    inspect env container "\x7b\x7b.Config.Image\x7d\x7d" container.configuredImage
  let runningImage ← transpose running fun container =>
    inspect env container "\x7b\x7b.Image\x7d\x7d" container.image
  let expected ← match configured with
    | some image => (imageId env world image).map some
    | none => .ok none
  let status ← transpose any fun container =>
    inspect env container "\x7b\x7b.State.Status\x7d\x7d" container.status
  let exited := any.filter fun _ => status = some "exited"
  let exitCode ← transpose exited fun container =>
    inspect env container "\x7b\x7b.State.ExitCode\x7d\x7d" container.exitCode
  let revision ← transpose running fun container =>
    inspect env container
      "\x7b\x7b index .Config.Labels \"org.opencontainers.image.revision\" \x7d\x7d"
      container.revision
  return {
    running := running.isSome
    completedSuccessfully := exitCode = some "0"
    configuredImage := configured
    runningImageMatchesConfigured := runningImage.isSome && runningImage = expected
    imageRevision := revision.filter (· ≠ "") }

def revision (world : World) (mode : StackMode) : Except String String :=
  match env.git mode, mode with
  | some error, _ => .error error
  | none, .controlplane => .ok world.revisions.controlplane
  | none, .dataplane => .ok world.revisions.dataplane

def integrationFreshness (world : World) : Except String StackFreshness := do
  let controlplaneImage ← env.expectedControlplaneImage
  let project ← requiredText env.integrationProject "CF_INTEGRATION_PROJECT"
  let snapshots ← (runningServices ++ setupServices).mapM fun service => do
    return (service, ← serviceSnapshot env world project service)
  let controlplane ← revision env world .controlplane
  let dataplane ← if env.dataplaneSourceEnabled then (revision env world .dataplane).map some
    else .ok none
  let expectedControlplane ← requiredText controlplaneImage "CF_CONTROLPLANE_IMAGE"
  let dataplaneImage ← env.expectedDataplaneImage
  let expectedDataplane ← requiredText dataplaneImage "CF_DATAPLANE_IMAGE"
  let fastTimeImage ← env.expectedFastTimeImage
  let expectedFastTime ← requiredText fastTimeImage "CF_FAST_TIME_EXPECTED_IMAGE"
  let snapshot : FreshnessSnapshot := {
    services := fun service => snapshots.lookup service
    controlplaneCheckoutRevision := some controlplane
    dataplaneCheckoutRevision := dataplane
    controlplaneImagePrebuilt := env.controlplaneImagePrebuilt
    dataplaneSourceEnabled := env.dataplaneSourceEnabled
    expectedControlplaneImage := expectedControlplane
    expectedDataplaneImage := expectedDataplane
    expectedFastTimeImage := expectedFastTime }
  return snapshot.evaluate

/-! ## Compose -/

def stackUpCommand (mode : StackMode) (build startLocustUi : Bool) (locustWorkers : Nat) :
    List String :=
  ["up", "-d", "--remove-orphans"] ++ (if build then ["--build"] else []) ++
    if mode = .controlplane ∧ startLocustUi then ["--scale", s!"locust_worker={locustWorkers}"]
    else []

def composePullPolicies (mode : StackMode) (build dataplaneSource : Bool)
    (controlplane dataplane : String) : String × String :=
  (if build && (mode = .controlplane || !dataplaneSource) then "build" else controlplane,
    if dataplaneSource then if build && mode = .dataplane then "build" else "never" else dataplane)

def createContainer (world : World) (project : String) (settings : String → Option String)
    (spec : ServiceSpec) : Container where
  id := s!"{project}-{spec.service}-1"
  project := project
  service := spec.service
  status := if spec.setup then "exited" else "running"
  exitCode := "0"
  configuredImage := spec.image
  image := (world.images spec.image).getD ""
  revision := env.imageRevision ((world.images spec.image).getD "")
  memoryLimit := if spec.memoryLimited then (settings "GATEWAY_MEM_LIMIT").getD "" else ""
  cpuset := if spec.cpuTarget then (settings "CF_LOAD_TARGET_CPUSET").getD "" else ""

/-- Compose replaces the containers of its project. -/
def composeUp (name : String) (project : ComposeProject) (args : List String)
    (settings : String → Option String) : Action World String Unit := fun world =>
  match env.docker ("compose" :: args) with
  | some error => (.error error, { world with containers := env.leftover world.containers })
  | none => (.ok (), { world with
      containers := project.services.map (createContainer env world name settings) ++
        world.containers.filter (·.project ≠ name) })

def assign (key : String) (value : Option String) (settings : String → Option String) :
    String → Option String :=
  match value with
  | some value => Function.update settings key (some value)
  | none => settings

/-! ## The start -/

def ownProject : StackMode → String
  | .dataplane => env.integrationProject
  | .controlplane => env.controlplaneProject

def otherProject : StackMode → String
  | .dataplane => env.controlplaneProject
  | .controlplane => env.integrationProject

def observabilityProject : String := env.integrationProject ++ "-observability"

def ensureModeSources (mode : StackMode) : Action World String Unit := fun world =>
  let (result, revisions) := env.sources mode world.revisions
  (result, { world with revisions := revisions })

def pullImages (mode : StackMode) (build : Bool) : Action World String Unit := fun world =>
  let (result, images) := env.pullImages mode build world.images
  (result, { world with images := images })

/-- An answer that depends on the state. -/
def query {α : Type} (answer : World → Except String α) : Action World String α := fun world =>
  (answer world, world)

/-- Up to the decision whether the stack is current; returns whether to build. -/
def prepareStack (mode : StackMode) : Action World String Bool := do
  ensureModeSources env mode
  Action.ofExcept (if mode = .dataplane then env.composeContract else .ok ())
  let build ← query fun world => env.resolveBuild mode world.revisions world.images
  pullImages env mode build
  return build

def mayBeCurrent (request : UpRequest) (build : Bool) : Bool :=
  request.mode = .dataplane && !request.observability && !request.fresh &&
    !environmentFlag env "CF_FORCE_STACK_RESTART" false && !build

def waitForPublicEndpoint (mode : StackMode) : Action World String Unit := query fun world =>
  match env.endpoint mode world with
  | some error => .error error
  | none => .ok ()

def resetStack (request : UpRequest) : Action World String Unit := fun world =>
  if request.fresh then
    match env.cleanup with
    | some error => (.error error, { world with containers := env.leftover world.containers })
    | none => (.ok (), { world with
        containers := world.containers.filter (·.project ≠ ownProject env request.mode) })
  else (.ok (), world)

def otherMode : StackMode → StackMode
  | .dataplane => .controlplane
  | .controlplane => .dataplane

/-- The variable that names the project of a stack. -/
def projectKey : StackMode → String
  | .dataplane => "CF_INTEGRATION_PROJECT"
  | .controlplane => "CF_CONTROLPLANE_PROJECT"

def projectHasRunningContainers (world : World) (project : String) : Except String Bool :=
  ask env ["ps", "-q", "--filter", s!"label=com.docker.compose.project={project}"]
    (world.containers.any fun container => container.project = project && container.running)

def otherStackStopped (mode : StackMode) (world : World) : Except String Unit := do
  let other ← requiredText (otherProject env mode) (projectKey (otherMode mode))
  if ← projectHasRunningContainers env world other then
    let fault := s!"the {(otherMode mode).laneLabel} stack is running on the same host ports; "
    .error (fault ++ "run \x60cf-integration stack down --lane all\x60 first")
  else .ok ()

def ensureOtherStackStopped (mode : StackMode) : Action World String Unit :=
  query (otherStackStopped env mode)

def startObservability (request : UpRequest) : Action World String Unit :=
  if request.observability then
    composeUp env (observabilityProject env) env.observability
      ["up", "-d", "--wait", "--remove-orphans"] env.text
  else return ()

def locustWorkers : Except String Nat :=
  match Performance.parseU64 (((env.text "CONTROLPLANE_LOCUST_WORKERS").filter (· ≠ "")).getD
      "1").toList with
  | some workers => .ok workers
  | none => .error "CONTROLPLANE_LOCUST_WORKERS must be an integer"

/-- The settings of the start, the overrides of this run last. -/
def upSettings (request : UpRequest) (build : Bool) (settings : String → Option String) :
    String → Option String :=
  let policies := composePullPolicies request.mode build env.dataplaneSourceEnabled
    env.controlplanePullPolicy env.dataplanePullPolicy
  let settings := assign "GATEWAY_MEM_LIMIT" request.overrides.builtinMemoryLimit settings
  let settings := assign "CF_LOAD_TARGET_CPUSET" request.overrides.loadTargetCpuset settings
  assign "CF_DATAPLANE_PULL_POLICY" (some policies.2)
    (assign "CF_CONTROLPLANE_PULL_POLICY" (some policies.1) settings)

def startStack (request : UpRequest) (build : Bool) : Action World String Unit := do
  resetStack env request
  ensureOtherStackStopped env request.mode
  startObservability env request
  Action.ofExcept <| match request.mode, env.reportDirectory with
    | .controlplane, some error => .error error
    | _, _ => .ok ()
  let workers ← Action.ofExcept (locustWorkers env)
  let settings ← Action.ofExcept (env.composeEnvironment request.mode)
  composeUp env (ownProject env request.mode) request.project
    (stackUpCommand request.mode build (environmentFlag env "CONTROLPLANE_START_LOCUST_UI" false)
      workers)
    (upSettings env request build settings)
  waitForPublicEndpoint env request.mode

def stackUpWithProject (request : UpRequest) : Action World String Unit := do
  let build ← prepareStack env request.mode
  if mayBeCurrent env request build then
    match ← query (integrationFreshness env) with
    | .current => waitForPublicEndpoint env request.mode
    | .stale _ => startStack env request build
  else startStack env request build

end

/-! ## What a start promises -/

def OtherStopped (env : Environment) (mode : StackMode) (world : World) : Prop :=
  ∀ container ∈ world.containers, container.project = otherProject env mode →
    container.running = false

/-- The running services have the overrides of this run. -/
def Carries (env : Environment) (request : UpRequest) (world : World) : Prop :=
  ∀ container ∈ world.containers, container.project = ownProject env request.mode →
    container.running = true →
    ∀ spec ∈ request.project.services, spec.service = container.service →
      (∀ limit, request.overrides.builtinMemoryLimit = some limit → spec.memoryLimited = true →
        container.memoryLimit = limit) ∧
      ∀ cpuset, request.overrides.loadTargetCpuset = some cpuset → spec.cpuTarget = true →
        container.cpuset = cpuset

def Promised (env : Environment) (request : UpRequest) (world : World) : Prop :=
  OtherStopped env request.mode world ∧ Carries env request world

/-- The names of the projects keep the other stack apart from what is started. -/
def Separate (env : Environment) (request : UpRequest) : Prop :=
  ownProject env request.mode ≠ otherProject env request.mode ∧
    (request.observability = true → observabilityProject env ≠ otherProject env request.mode)

/-- The stack is left as it is: nothing is to be built, no option asks for a start, and
the snapshot is current. -/
def LeavesCurrent (env : Environment) (request : UpRequest) (world : World) : Prop :=
  ∃ build prepared, (prepareStack env request.mode).run world = (.ok build, prepared) ∧
    mayBeCurrent env request build = true ∧ integrationFreshness env prepared = .ok .current

section
variable {env : Environment} {request : UpRequest} {world : World}

theorem running_createContainer {project : String} {settings : String → Option String}
    {spec : ServiceSpec} (hspec : spec.setup = false) :
    (createContainer env world project settings spec).running = true := by
  simp [createContainer, Container.running, hspec]

theorem upSettings_limit {build : Bool} {settings : String → Option String} {limit : String}
    (hlimit : request.overrides.builtinMemoryLimit = some limit) :
    upSettings env request build settings "GATEWAY_MEM_LIMIT" = some limit := by
  unfold upSettings
  rw [hlimit]
  cases request.overrides.loadTargetCpuset with
  | none => rfl
  | some cpuset => rfl

theorem upSettings_cpuset {build : Bool} {settings : String → Option String} {cpuset : String}
    (hcpuset : request.overrides.loadTargetCpuset = some cpuset) :
    upSettings env request build settings "CF_LOAD_TARGET_CPUSET" = some cpuset := by
  unfold upSettings
  rw [hcpuset]
  rfl

/-- Compose passes the overrides on to the containers that it creates. -/
theorem carries_create {build : Bool} {settings : String → Option String} {others : List Container}
    (hothers : ∀ container ∈ others, container.project ≠ ownProject env request.mode) :
    Carries env request { world with
      containers := request.project.services.map (createContainer env world
        (ownProject env request.mode) (upSettings env request build settings)) ++ others } := by
  intro container hcontainer hproject _ spec hspec hservice
  rcases List.mem_append.mp hcontainer with hcreated | hother
  · obtain ⟨created, hmem, rfl⟩ := List.mem_map.mp hcreated
    have hsame : spec = created :=
      List.inj_on_of_nodup_map request.project.unique hspec hmem hservice
    subst hsame
    constructor
    · intro limit hlimit hlimited
      simp [createContainer, hlimited, upSettings_limit hlimit]
    · intro cpuset hcpuset htarget
      simp [createContainer, htarget, upSettings_cpuset hcpuset]
  · exact absurd hproject (hothers container hother)

theorem prepareStack_containers (mode : StackMode) (containers : List Container) :
    Action.Keeps (fun world : World => world.containers = containers) (prepareStack env mode) := by
  apply Action.Keeps.bind
  · exact fun _ hstart => hstart
  · intro _
    apply (Action.keeps_ofExcept _).bind
    intro _
    apply Action.Keeps.bind
    · exact fun _ hstart => hstart
    · intro build
      apply Action.Keeps.bind
      · exact fun _ hstart => hstart
      · exact fun _ => Action.keeps_pure build

theorem otherStackStopped_ok {mode : StackMode}
    (hok : otherStackStopped env mode world = .ok ()) : OtherStopped env mode world := by
  unfold otherStackStopped at hok
  obtain ⟨other, hother, hok⟩ := except_bind_eq_ok.mp hok
  obtain ⟨running, hrunning, hok⟩ := except_bind_eq_ok.mp hok
  have hname : other = otherProject env mode := by
    rw [requiredText] at hother
    split at hother
    next => exact (Except.ok.inj hother).symm
    next => cases hother
  subst hname
  rw [projectHasRunningContainers, ask] at hrunning
  split at hrunning
  next => cases hrunning
  next =>
    cases hrunning
    split at hok
    next => cases hok
    next hnone =>
      intro container hcontainer hproject
      by_contra hcontrary
      apply hnone
      rw [List.any_eq_true]
      exact ⟨container, hcontainer, by simpa [hproject] using hcontrary⟩

/-- What runs of the other stack is the observability stack under its name. -/
structure Observed (env : Environment) (request : UpRequest) (world : World) : Prop where
  other : ∀ container ∈ world.containers, container.project = otherProject env request.mode →
    container.running = true → request.observability = true ∧
      observabilityProject env = otherProject env request.mode
  observing : request.observability = true → ∃ container ∈ world.containers,
    container.project = observabilityProject env ∧ container.running = true

theorem startObservability_observed (hstopped : OtherStopped env request.mode world) :
    (startObservability env request).Ensures world fun result after =>
      result = .ok () → Observed env request after := by
  have hkept : ∀ container ∈ world.containers,
      container.project = otherProject env request.mode → container.running = true → False := by
    intro container hcontainer hproject hrunning
    rw [hstopped container hcontainer hproject] at hrunning
    cases hrunning
  unfold startObservability
  split
  next hobservability =>
    unfold Action.Ensures Action.run composeUp
    split
    next => exact fun heq => by cases heq
    next =>
      intro _
      constructor
      · intro container hcontainer hproject hrunning
        rcases List.mem_append.mp hcontainer with hcreated | hother
        · obtain ⟨spec, -, rfl⟩ := List.mem_map.mp hcreated
          exact ⟨hobservability, hproject⟩
        · exact (hkept container (List.mem_filter.mp hother).1 hproject hrunning).elim
      · intro _
        obtain ⟨spec, hspec, hserves⟩ := env.observability.serves
        exact ⟨_, List.mem_append.mpr (Or.inl (List.mem_map_of_mem hspec)), rfl,
          running_createContainer hserves⟩
  next hobservability =>
    intro _
    constructor
    · intro container hcontainer hproject hrunning
      exact (hkept container hcontainer hproject hrunning).elim
    · exact fun hcontrary => absurd hcontrary hobservability

/-- Compose creates what is asked for, next to what was there. -/
theorem composeUp_promise {build : Bool} {args : List String} {settings : String → Option String}
    (hobserved : Observed env request world) :
    (composeUp env (ownProject env request.mode) request.project args
      (upSettings env request build settings)).Ensures world fun result after =>
        result = .ok () → (Promised env request after ↔ Separate env request) := by
  unfold Action.Ensures Action.run composeUp
  split
  next => exact fun heq => by cases heq
  next =>
    intro _
    constructor
    · intro hpromised
      -- A project has a service that runs after the start, so a stopped other project is
      -- another one.
      have happart : ownProject env request.mode ≠ otherProject env request.mode := by
        intro hsame
        obtain ⟨spec, hspec, hserves⟩ := request.project.serves
        have hstopped := hpromised.1 _
          (List.mem_append.mpr (Or.inl (List.mem_map_of_mem hspec))) hsame
        rw [running_createContainer hserves] at hstopped
        cases hstopped
      refine ⟨happart, ?_⟩
      intro hobservability hsame
      obtain ⟨container, hcontainer, hproject, hrunning⟩ := hobserved.observing hobservability
      -- Starting the project replaces its own containers only, so the observing one is still there.
      have hother : container ∈ world.containers.filter
          (·.project ≠ ownProject env request.mode) := by
        rw [List.mem_filter, hproject, hsame]
        exact ⟨hcontainer, by simpa using happart.symm⟩
      have hstopped := hpromised.1 container (List.mem_append.mpr (Or.inr hother))
        (hproject.trans hsame)
      rw [hrunning] at hstopped
      cases hstopped
    · intro hseparate
      constructor
      · intro container hcontainer hproject
        rcases List.mem_append.mp hcontainer with hcreated | hother
        · obtain ⟨spec, -, rfl⟩ := List.mem_map.mp hcreated
          exact absurd hproject hseparate.1
        -- A container of the other stack that still runs observes, and the names are apart.
        · by_contra hrunning
          have hname := hobserved.other container (List.mem_filter.mp hother).1 hproject
            (eq_true_of_ne_false hrunning)
          exact hseparate.2 hname.1 hname.2
      · apply carries_create
        intro container hcontainer
        simpa using (List.mem_filter.mp hcontainer).2

/-- A start that succeeds keeps its promise if and only if the names are apart. -/
theorem startStack_promise (build : Bool) :
    (startStack env request build).Ensures world fun result after =>
      result = .ok () → (Promised env request after ↔ Separate env request) := by
  have hreset : (resetStack env request).Ensures world fun _ _ => True := trivial
  apply hreset.bind
  · intro _ first _
    have hother : (ensureOtherStackStopped env request.mode).Ensures first fun result after =>
        after = first ∧ (result = .ok () → OtherStopped env request.mode first) :=
      ⟨rfl, otherStackStopped_ok⟩
    apply hother.bind
    · intro _ second hsecond
      obtain ⟨rfl, hstopped⟩ := hsecond
      apply (startObservability_observed (hstopped rfl)).bind
      · intro _ third hobserved
        apply Action.Ensures.ofExcept
        · intro _ _
          apply Action.Ensures.ofExcept
          · intro workers _
            apply Action.Ensures.ofExcept
            · intro settings _
              apply (composeUp_promise (hobserved rfl)).bind
              · intro _ fourth hpromised _
                exact hpromised rfl
              · exact fun _ _ _ heq => by cases heq
            · exact fun _ _ heq => by cases heq
          · exact fun _ _ heq => by cases heq
        · exact fun _ _ heq => by cases heq
      · exact fun _ _ _ heq => by cases heq
    · exact fun _ _ _ heq => by cases heq
  · exact fun _ _ _ heq => by cases heq

theorem promised_congr {before after : World} (hsame : after.containers = before.containers) :
    Promised env request after ↔ Promised env request before := by
  unfold Promised OtherStopped Carries
  rw [hsame]

/-- The start of a stack that is prepared. -/
theorem stackUp_prepared {build : Bool} {prepared : World}
    (hprepared : (prepareStack env request.mode).run world = (.ok build, prepared)) :
    Action.Ensures (if mayBeCurrent env request build then do
        match ← query (integrationFreshness env) with
        | .current => waitForPublicEndpoint env request.mode
        | .stale _ => startStack env request build
      else startStack env request build) prepared fun result after => result = .ok () →
        (Promised env request after ↔
          (LeavesCurrent env request world → Promised env request world) ∧
            (¬ LeavesCurrent env request world → Separate env request)) := by
  have hstart : ¬ LeavesCurrent env request world →
      (startStack env request build).Ensures prepared fun result after => result = .ok () →
        (Promised env request after ↔
          (LeavesCurrent env request world → Promised env request world) ∧
            (¬ LeavesCurrent env request world → Separate env request)) := by
    intro hleaves
    apply (startStack_promise build).mono
    intro result after hpromised hok
    rw [hpromised hok]
    exact ⟨fun hseparate => ⟨fun hcontrary => absurd hcontrary hleaves, fun _ => hseparate⟩,
      fun hboth => hboth.2 hleaves⟩
  -- The preparation is deterministic, so whether the stack is left is read off its result.
  have hleaves : LeavesCurrent env request world ↔ mayBeCurrent env request build = true ∧
      integrationFreshness env prepared = .ok .current := by
    constructor
    · intro hleaves
      obtain ⟨build', prepared', hrun, hcurrent⟩ := hleaves
      cases hprepared.symm.trans hrun
      exact hcurrent
    · exact fun hcurrent => ⟨build, prepared, hprepared, hcurrent⟩
  split
  next hmay =>
    have hquery : (query (integrationFreshness env)).Ensures prepared fun result after =>
        after = prepared ∧ result = integrationFreshness env prepared := ⟨rfl, rfl⟩
    apply hquery.bind
    · intro freshness after hfreshness
      obtain ⟨rfl, hfreshness⟩ := hfreshness
      cases freshness with
      | current =>
          have hleft := hleaves.mpr ⟨hmay, hfreshness.symm⟩
          intro _
          -- Preparing a stack touches no container.
          have hkept := @prepareStack_containers env request.mode world.containers world rfl
          unfold Action.Ensures at hkept
          rw [hprepared] at hkept
          rw [@promised_congr env request world]
          · exact ⟨fun hpromised => ⟨fun _ => hpromised, fun hcontrary => absurd hleft hcontrary⟩,
              fun hboth => hboth.1 hleft⟩
          · exact hkept
      | stale message =>
          apply hstart
          rw [hleaves, ← hfreshness]
          exact fun hcontrary => by cases hcontrary.2
    · intro error after _ heq
      cases heq
  next hmay =>
    apply hstart
    rw [hleaves]
    exact fun hcontrary => hmay hcontrary.1

end

/-! ## A load test on a current stack -/

def sampleService (service image : String) (setup cpuTarget : Bool) : ServiceSpec :=
  ⟨service, image, setup, false, cpuTarget⟩

def sampleProject : ComposeProject where
  services := [sampleService "gateway" "gateway:1" false false,
    sampleService "dataplane" "dataplane:1" false true]
  unique := by decide
  serves := ⟨_, List.mem_cons_self, rfl⟩

def sampleEnvironment : Environment where
  text _ := none
  integrationProject := "cf"
  controlplaneProject := "cf-controlplane-only"
  sources _ revisions := (.ok (), revisions)
  composeContract := .ok ()
  resolveBuild _ _ _ := .ok false
  pullImages _ _ images := (.ok (), images)
  expectedControlplaneImage := .ok "gateway:1"
  expectedDataplaneImage := .ok "dataplane:1"
  expectedFastTimeImage := .ok "fast_time_server:1"
  controlplaneImagePrebuilt := true
  dataplaneSourceEnabled := false
  controlplanePullPolicy := "always"
  dataplanePullPolicy := "always"
  git _ := none
  docker _ := none
  cleanup := none
  observability := sampleProject
  reportDirectory := none
  composeEnvironment _ := .ok fun _ => none
  imageRevision _ := ""
  leftover containers := containers
  endpoint _ _ := none

def sampleContainer (project service status : String) : Container :=
  ⟨service, project, service, status, "0", service ++ ":1", service ++ ":1", "", "", ""⟩

/-- The stack is current, without a CPU set, and the other stack runs as well. -/
def sampleWorld : World where
  containers := sampleContainer "cf-controlplane-only" "gateway" "running" ::
    runningServices.map (sampleContainer "cf" · "running") ++
    setupServices.map (sampleContainer "cf" · "exited")
  images := some
  revisions := ⟨"", ""⟩

/-- A load test that keeps the target on the first four processors. -/
def sampleRequest : UpRequest where
  mode := .dataplane
  fresh := false
  project := sampleProject
  observability := false
  overrides := ⟨none, some "0-3"⟩

def sampleRun : Except String Unit × World :=
  (stackUpWithProject sampleEnvironment sampleRequest).run sampleWorld

end CfIntegration.Runtime.StackUp
