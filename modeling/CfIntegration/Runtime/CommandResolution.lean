import CfIntegration.Foundation.FileSystem
import CfIntegration.Runtime.ReportRegeneration
import CfIntegration.Runtime.Run
import CfIntegration.Runtime.StackCleanup

/-! # Resolving a command

A parsed command line and the environment give the operation to run, with the defaults
filled in. What the workflows rely on is settled here: a standalone operation only concerns
the external lane, and the entries of a conformance matrix are distinct and keep their
artifacts apart.
-/

namespace CfIntegration.Runtime.CommandResolution

open Conformance FileSystem
open StackCleanup (LaneSelection)

/-! ## The command line -/

inductive CliRoutedLane where
  | builtin
  | external
  deriving DecidableEq, Repr

def CliRoutedLane.stackMode : CliRoutedLane → StackMode
  | .builtin => .controlplane
  | .external => .dataplane

inductive CliLane where
  | fixtureDirect
  | builtin
  | external
  deriving DecidableEq, Repr

def CliLane.semanticLane : CliLane → SemanticLane
  | .fixtureDirect => .fixtureDirect
  | .builtin => .builtInDataPlane
  | .external => .externalDataPlane

inductive ProtocolVersion where
  | modern
  | legacy
  deriving DecidableEq, Repr

def ProtocolVersion.fromStr : String → Except String ProtocolVersion
  | "modern" => .ok .modern
  | "legacy" => .ok .legacy
  | _ => .error "must be modern or legacy"

inductive CliConformanceEra where
  | dual
  | legacy
  | modern
  deriving DecidableEq, Repr

def CliConformanceEra.serverEra : CliConformanceEra → ConformanceServerEra
  | .dual => .dual
  | .legacy => .legacy
  | .modern => .modern

inductive LiveGroup where
  | mcp
  | rbac
  | protocol
  | all
  deriving DecidableEq, Repr

inductive TokenKind where
  | scoped
  | admin
  deriving DecidableEq, Repr

structure RoutedWorkflowTargetArgs where
  lane : Option CliRoutedLane
  protocolVersion : Option ProtocolVersion

structure LoadRequest where
  smoke : Bool
  users : Option Nat
  spawnRate : Option Float
  runTime : Option String
  workers : Option Nat

structure LoadRunArgs where
  lane : Option CliRoutedLane
  clientEra : ProtocolVersion
  observability : Bool
  builtinMemoryLimit : Option String
  isolateCpus : Bool
  request : LoadRequest

def legacyClientProtocolVersions : List String := [stableMcpSpecVersion]

def modernClientProtocolVersions : List String := [defaultMcpSpecVersion]

def dualClientProtocolVersions : List String := [stableMcpSpecVersion, defaultMcpSpecVersion]

/-- The parser admits only known client versions, and none beside an era. -/
structure ConformanceRunArgs where
  lane : List CliLane
  clientEra : List CliConformanceEra
  clientVersion : List String
  serverEra : List CliConformanceEra
  resultsDir : Option String
  baselineDir : Option String
  bless : Bool
  outputDir : Option String
  known : ∀ version ∈ clientVersion, version ∈ dualClientProtocolVersions
  exclusive : clientVersion = [] ∨ clientEra = []

structure CiPrepareImageArgs where
  artifact : String
  binary : Path String
  image : String
  repository : Option String
  revision : Option String
  dockerfile : String
  target : String
  downloadDir : String

inductive StackCommand where
  | up (target : RoutedWorkflowTargetArgs) (fresh : Bool)
  | down (lane : Option LaneSelection) (volumes : Bool)
  | status (lane : Option CliRoutedLane)
  | logs (lane : Option CliRoutedLane) (services : List String)
  | config (lane : Option CliRoutedLane)

inductive FyreCommand where
  | run (file runId : Option String)
  | status (runId : String)
  | destroy (runId : String)

inductive Command where
  | stack (command : StackCommand)
  | probe (target : RoutedWorkflowTargetArgs)
  | loadRun (args : LoadRunArgs)
  | loadFyre (command : FyreCommand)
  | live (lane : Option CliLane) (protocolVersion : Option ProtocolVersion) (group : LiveGroup)
  | conformanceRun (args : ConformanceRunArgs)
  | conformanceReport (resultsDir outputDir : Option String)
  | debugInspect (target : RoutedWorkflowTargetArgs) (method : String) (serverId : Option String)
  | debugToken (kind : TokenKind) (serverId : Option String)
  | ciPrepareImage (args : CiPrepareImageArgs)
  | ciPrepareRelease
  | ciSelectRelease

structure Cli where
  standalone : Bool
  command : Command

/-- The value of a variable as text, if it is UTF-8, and as it is shown in a message. -/
structure OsValue where
  text : Option String
  shown : String

abbrev Environment := String → Option OsValue

/-! ## Resolved operations -/

inductive StackAction where
  | up (topology : StackMode) (protocolVersion : ProtocolVersion) (fresh standalone : Bool)
  | down (lane : LaneSelection) (volumes standalone : Bool)
  | status (topology : StackMode) (standalone : Bool)
  | logs (topology : StackMode) (services : List String) (standalone : Bool)
  | config (topology : StackMode) (standalone : Bool)

inductive FyreAction where
  | run (file runId : Option String)
  | status (runId : String)
  | destroy (runId : String)

structure ResolvedLoadArgs where
  topology : StackMode
  clientEra : ProtocolVersion
  standalone : Bool
  observability : Bool
  builtinMemoryLimit : Option String
  isolateCpus : Bool
  request : LoadRequest

structure ConformanceRunAction where
  lanes : List SemanticLane
  standalone : Bool
  clientEras : List ConformanceServerEra
  clientVersions : List String
  serverEras : List ConformanceServerEra
  resultsDir : Option String
  baselineDir : Option String
  bless : Bool
  outputDir : Option String

structure PrepareImageAction where
  artifact : String
  binary : Path String
  image : String
  repository : String
  revision : Option String
  dockerfile : String
  target : String
  downloadDir : String

inductive Action where
  | stack (action : StackAction)
  | probe (topology : StackMode) (standalone : Bool) (protocolVersion : ProtocolVersion)
  | load (args : ResolvedLoadArgs)
  | fyre (action : FyreAction)
  | live (lane : SemanticLane) (group : LiveGroup) (protocolVersion : ProtocolVersion)
  | conformanceRun (action : ConformanceRunAction)
  | conformanceReport (resultsDir outputDir : Option String)
  | debugInspect (topology : StackMode) (standalone : Bool) (protocolVersion : ProtocolVersion)
      (method : String) (serverId : Option String)
  | debugToken (kind : TokenKind) (serverId : Option String) (standalone : Bool)
  | ciPrepareImage (action : PrepareImageAction)
  | ciPrepareRelease
  | ciSelectRelease

/-! ## Resolution -/

def laneEnv : String := "CF_MCP_LANE"

def protocolVersionEnv : String := "MCP_PROTOCOL_VERSION"

section
variable (environment : Environment)

def environmentUtf8 (key : String) : Option String := (environment key).bind OsValue.text

def environmentLane : Except String (Option StackMode) :=
  match environment laneEnv with
  | none => .ok none
  | some value => match value.text with
      | some "builtin" => .ok (some .controlplane)
      | some "external" => .ok (some .dataplane)
      | _ => .error s!"invalid {laneEnv}; expected builtin or external (got {value.shown})"

def resolveLane (explicit : Option CliRoutedLane) : Except String StackMode :=
  match explicit with
  | some lane => .ok lane.stackMode
  | none => (environmentLane environment).map fun lane => lane.getD .dataplane

def resolveLiveLane : Option CliLane → Except String SemanticLane
  | some lane => .ok lane.semanticLane
  | none => (resolveLane environment none).map fun
      | .controlplane => .builtInDataPlane
      | .dataplane => .externalDataPlane

def resolveProtocolVersion (explicit : Option ProtocolVersion) (fallback : ProtocolVersion) :
    Except String ProtocolVersion :=
  match explicit, environment protocolVersionEnv with
  | some version, _ => .ok version
  | none, none => .ok fallback
  | none, some value => match value.text with
      | none => .error s!"{protocolVersionEnv} must be UTF-8"
      | some text =>
          if text = "" then .ok fallback
          else (ProtocolVersion.fromStr text).mapError fun error =>
            s!"invalid {protocolVersionEnv}: {error}"

def validateStandaloneLane (standalone : Bool) (topology : StackMode) : Except String Unit :=
  if standalone ∧ topology ≠ .dataplane then .error "--standalone requires --lane external"
  else .ok ()

/-- The lane of a routed command that allows standalone runs. -/
def resolveTarget (standalone : Bool) (lane : Option CliRoutedLane) : Except String StackMode := do
  let topology ← resolveLane environment lane
  validateStandaloneLane standalone topology
  return topology

def resolveStack (standalone : Bool) : StackCommand → Except String StackAction
  | .up target fresh => do
      let topology ← resolveTarget environment standalone target.lane
      let version ← resolveProtocolVersion environment target.protocolVersion .modern
      return .up topology version fresh standalone
  | .down lane volumes =>
      let lane := lane.getD (if standalone then .external else .all)
      if standalone ∧ lane ≠ .external then .error "--standalone requires --lane external"
      else .ok (.down lane volumes standalone)
  | .status lane => do
      let topology ← resolveTarget environment standalone lane
      return .status topology standalone
  | .logs lane services => do
      let topology ← resolveTarget environment standalone lane
      return .logs topology services standalone
  | .config lane => do
      let topology ← resolveTarget environment standalone lane
      return .config topology standalone

end

/-- A list without what it already had, in the order of the first occurrences. -/
def distinct {α : Type} [DecidableEq α] (seen : List α) : List α → List α
  | [] => []
  | item :: rest => if item ∈ seen then distinct seen rest else item :: distinct (item :: seen) rest

def resolveLanes (lanes : List SemanticLane) : List SemanticLane :=
  if lanes = [] then allConformanceLanes
  else allConformanceLanes.filter fun lane => lane ∈ lanes

def clientVersionsOf : ConformanceServerEra → List String
  | .dual => dualClientProtocolVersions
  | .legacy => legacyClientProtocolVersions
  | .modern => modernClientProtocolVersions

def resolveClientProtocols (eras : List CliConformanceEra) (selectedVersions : List String) :
    List ConformanceServerEra × List String :=
  let eras := if selectedVersions ≠ [] then
      selectedVersions.map fun version =>
        if version ∈ legacyClientProtocolVersions then ConformanceServerEra.legacy else .modern
    else if eras = [] then [.modern]
    else eras.map CliConformanceEra.serverEra
  let eras := distinct [] eras
  let versions := if selectedVersions = [] then eras.flatMap clientVersionsOf else selectedVersions
  (eras, distinct [] versions)

def resolveServerEras (eras : List CliConformanceEra) : List ConformanceServerEra :=
  distinct [] ((if eras = [] then [CliConformanceEra.legacy, .modern] else eras).map
    CliConformanceEra.serverEra)

/-- A standalone run has the external lane by default. -/
def conformanceLanes (standalone : Bool) (lanes : List CliLane) : List SemanticLane :=
  if standalone ∧ lanes = [] then [.externalDataPlane]
  else resolveLanes (lanes.map CliLane.semanticLane)

def resolveConformanceRun (standalone : Bool) (args : ConformanceRunArgs) :
    Except String ConformanceRunAction :=
  let (clientEras, clientVersions) := resolveClientProtocols args.clientEra args.clientVersion
  let lanes := conformanceLanes standalone args.lane
  if standalone ∧ lanes ≠ [.externalDataPlane] then
    .error "--standalone requires --lane external as the only lane"
  else .ok {
    lanes
    standalone
    clientEras
    clientVersions
    serverEras := resolveServerEras args.serverEra
    resultsDir := args.resultsDir
    baselineDir := args.baselineDir
    bless := args.bless
    outputDir := args.outputDir }

def isRunIdChar (char : Char) : Bool := char.isLower || char.isDigit || char = '-'

def isValidRunId (runId : String) : Bool :=
  !runId.toList.isEmpty && runId.utf8ByteSize ≤ 48 && runId.toList.all isRunIdChar &&
    runId.toList.head?.any Char.isAlphanum && runId.toList.getLast?.any Char.isAlphanum

def validatedRunId (runId : String) : Except String String :=
  if isValidRunId runId then .ok runId
  else .error "--run-id must contain only lowercase letters, digits, and hyphens"

def resolveFyre : FyreCommand → Except String FyreAction
  | .run file runId => .ok (.run file runId)
  | .status runId => (validatedRunId runId).map .status
  | .destroy runId => (validatedRunId runId).map .destroy

def resolvePrepareImage (environment : Environment) (args : CiPrepareImageArgs) :
    Except String PrepareImageAction :=
  match args.binary with
  | [.normal _] =>
      match (args.repository.or (environmentUtf8 environment "GITHUB_REPOSITORY")).filter
        (· ≠ "") with
      | none => .error "set --repository or GITHUB_REPOSITORY"
      | some repository => .ok { args with repository }
  | _ => .error "--binary must be one filename at the artifact root"

def resolveAction (cli : Cli) (environment : Environment) : Except String Action :=
  match cli.command with
  | .stack command => (resolveStack environment cli.standalone command).map .stack
  | .probe target => do
      let topology ← resolveTarget environment cli.standalone target.lane
      let version ← resolveProtocolVersion environment target.protocolVersion .modern
      return .probe topology cli.standalone version
  | .loadRun args => do
      let topology ← resolveTarget environment cli.standalone args.lane
      if args.builtinMemoryLimit.isSome ∧ topology ≠ .controlplane then
        .error "--builtin-memory-limit requires --lane builtin"
      else return .load { args with topology, standalone := cli.standalone }
  | .loadFyre command =>
      if cli.standalone then .error ("--standalone is not used by load fyre; " ++
        "FYRE targets are always isolated")
      else (resolveFyre command).map .fyre
  | .live lane protocolVersion group => do
      let lane ← resolveLiveLane environment lane
      if cli.standalone then .error ("live suites require the control plane; " ++
        "use probe --standalone for isolated external route checks")
      else if lane = .fixtureDirect ∧ group ≠ .protocol then
        .error "--lane fixture-direct requires --group protocol"
      else do
        let version ← resolveProtocolVersion environment protocolVersion .modern
        return .live lane group version
  | .conformanceRun args => (resolveConformanceRun cli.standalone args).map .conformanceRun
  | .conformanceReport resultsDir outputDir =>
      if cli.standalone then .error "--standalone is not valid for conformance report"
      else .ok (.conformanceReport resultsDir outputDir)
  | .debugInspect target method serverId => do
      let topology ← resolveTarget environment cli.standalone target.lane
      let version ← resolveProtocolVersion environment target.protocolVersion .modern
      return .debugInspect topology cli.standalone version method serverId
  | .debugToken kind serverId =>
      if kind = .admin ∧ serverId.isSome then
        .error "--server-id is only valid with --kind scoped"
      else .ok (.debugToken kind serverId cli.standalone)
  | .ciPrepareImage args =>
      if cli.standalone then .error "--standalone is not valid for CI commands"
      else (resolvePrepareImage environment args).map .ciPrepareImage
  | .ciPrepareRelease =>
      if cli.standalone then .error "--standalone is not valid for CI commands"
      else .ok .ciPrepareRelease
  | .ciSelectRelease =>
      if cli.standalone then .error "--standalone is not valid for CI commands"
      else .ok .ciSelectRelease

inductive ConfigRequirements where
  | runtime
  | standaloneRuntime
  | readOnly
  deriving DecidableEq, Repr

def configRequirements (action : Action) : ConfigRequirements :=
  let runtime := fun (standalone : Bool) =>
    if standalone then ConfigRequirements.standaloneRuntime else .runtime
  match action with
  | .conformanceReport _ _ | .ciPrepareImage _ | .ciPrepareRelease | .ciSelectRelease
  | .debugToken _ _ false => .readOnly
  | .debugToken _ _ true => .standaloneRuntime
  | .probe _ standalone _ | .debugInspect _ standalone _ _ _ => runtime standalone
  | .conformanceRun action => runtime action.standalone
  | .stack (.up _ _ _ standalone) | .stack (.down _ _ standalone)
  | .stack (.status _ standalone) | .stack (.logs _ _ standalone)
  | .stack (.config _ standalone) => runtime standalone
  | .load args => runtime args.standalone
  | .fyre _ => .standaloneRuntime
  | .live _ _ _ => .runtime

/-! ## What a resolved operation touches -/

/-- The stacks that an operation may start, stop or talk to. -/
def topologies : Action → List StackMode
  | .stack (.up topology _ _ _) | .stack (.status topology _) | .stack (.logs topology _ _)
  | .stack (.config topology _) | .probe topology _ _ | .debugInspect topology _ _ _ _ =>
      [topology]
  | .stack (.down lane _ _) => StackCleanup.selectedTopologies lane
  | .load args => [args.topology]
  | .conformanceRun action => conformanceTopologies action.lanes
  | .live .fixtureDirect _ _ => []
  | .live .builtInDataPlane _ _ => [.controlplane]
  | .live .externalDataPlane _ _ => [.dataplane]
  | .fyre _ | .conformanceReport _ _ | .debugToken _ _ _ | .ciPrepareImage _
  | .ciPrepareRelease | .ciSelectRelease => []

/-- The directory of the artifacts of one lane, below the artifact root. -/
def laneRoot (paths : ConformancePaths) (direction : ConformanceDirection)
    (target : SemanticLane) : List String :=
  paths.partition ++ (match direction with
    | .server => []
    | .client => ["client"]) ++ [target.slug]

/-! ## Selections -/

section
variable {α : Type} [DecidableEq α]

theorem mem_distinct {items seen : List α} {item : α} :
    item ∈ distinct seen items ↔ item ∈ items ∧ item ∉ seen := by
  induction items generalizing seen with
  | nil => simp [distinct]
  | cons first items ih =>
      unfold distinct
      split
      next hseen =>
        rw [ih]
        grind
      next hseen =>
        rw [List.mem_cons, ih]
        grind

theorem nodup_distinct (items seen : List α) : (distinct seen items).Nodup := by
  induction items generalizing seen with
  | nil => exact List.nodup_nil
  | cons first items ih =>
      unfold distinct
      split
      next => exact ih seen
      next =>
        refine List.nodup_cons.mpr ⟨fun hmem => ?_, ih (first :: seen)⟩
        exact (mem_distinct.mp hmem).2 List.mem_cons_self

end

theorem nodup_conformanceMatrix {versions : List String} {eras : List ConformanceServerEra}
    (hversions : versions.Nodup) (heras : eras.Nodup) : (conformanceMatrix versions eras).Nodup :=
  List.Nodup.product hversions heras

theorem mem_conformanceMatrix {versions : List String} {eras : List ConformanceServerEra}
    {version : String} {era : ConformanceServerEra} :
    (version, era) ∈ conformanceMatrix versions eras ↔ version ∈ versions ∧ era ∈ eras := by
  simp [conformanceMatrix]

theorem slug_injective : Function.Injective SemanticLane.slug := by
  intro first second hslug
  cases first <;> cases second <;> first | rfl | exact absurd hslug (by decide)

theorem laneRoot_of_prefix {first second : ConformancePaths}
    {firstDirection secondDirection : ConformanceDirection}
    {firstTarget secondTarget : SemanticLane}
    (hbelow : laneRoot first firstDirection firstTarget <+:
      laneRoot second secondDirection secondTarget) :
    first = second ∧ firstDirection = secondDirection ∧ firstTarget = secondTarget := by
  rcases first with ⟨firstVersion, firstEra⟩
  rcases second with ⟨secondVersion, secondEra⟩
  have hclient : ∀ target : SemanticLane, target.slug ≠ "client" := by
    intro target
    cases target <;> decide
  simp only [laneRoot, ConformancePaths.partition, List.cons_append, List.nil_append,
    List.cons_prefix_cons, true_and] at hbelow
  obtain ⟨hversion, hera, hrest⟩ := hbelow
  have hpaths : firstVersion = secondVersion ∧ firstEra = secondEra :=
    ⟨hversion, ConformanceServerEra.label_injective hera⟩
  cases firstDirection <;> cases secondDirection <;>
    simp only [List.nil_append, List.cons_append, List.cons_prefix_cons] at hrest
  next => exact ⟨by rw [hpaths.1, hpaths.2], rfl, slug_injective hrest.1⟩
  next => exact absurd hrest.1 (hclient firstTarget)
  next => exact absurd hrest.1.symm (hclient secondTarget)
  next => exact ⟨by rw [hpaths.1, hpaths.2], rfl, slug_injective hrest.2.1⟩

/-! ## The conformance matrix -/

/-- A client version that the command line asks for. -/
def RequestedVersion (args : ConformanceRunArgs) (version : String) : Prop :=
  version ∈ args.clientVersion ∨ args.clientVersion = [] ∧
    (args.clientEra = [] ∧ version ∈ modernClientProtocolVersions ∨
      ∃ era ∈ args.clientEra, version ∈ clientVersionsOf era.serverEra)

def RequestedEra (args : ConformanceRunArgs) (era : ConformanceServerEra) : Prop :=
  era ∈ args.serverEra.map CliConformanceEra.serverEra ∨
    args.serverEra = [] ∧ (era = .legacy ∨ era = .modern)

def RequestedLane (standalone : Bool) (args : ConformanceRunArgs) (lane : SemanticLane) : Prop :=
  lane ∈ args.lane.map CliLane.semanticLane ∨
    args.lane = [] ∧ (standalone = true → lane = .externalDataPlane)

/-- A run has an entry for each client version and server era that was asked for, once, and
the artifacts of its lanes lie apart from each other. -/
structure SelectsMatrix (standalone : Bool) (args : ConformanceRunArgs)
    (run : ConformanceRunAction) : Prop where
  isolated : run.standalone = standalone
  routed : standalone = true → run.lanes = [.externalDataPlane]
  ordered : run.lanes.Sublist allConformanceLanes
  lanes : ∀ lane, lane ∈ run.lanes ↔ RequestedLane standalone args lane
  once : (conformanceMatrix run.clientVersions run.serverEras).Nodup
  some : conformanceMatrix run.clientVersions run.serverEras ≠ []
  entries : ∀ version era, (version, era) ∈ conformanceMatrix run.clientVersions run.serverEras ↔
    RequestedVersion args version ∧ RequestedEra args era
  spoken : ∀ version ∈ run.clientVersions, ∃ era ∈ run.clientEras, version ∈ clientVersionsOf era
  speaking : ∀ era ∈ run.clientEras, ∃ version ∈ run.clientVersions, version ∈ clientVersionsOf era
  apart : ∀ first ∈ conformanceMatrix run.clientVersions run.serverEras,
    ∀ second ∈ conformanceMatrix run.clientVersions run.serverEras,
    ∀ firstDirection firstTarget secondDirection secondTarget,
      laneRoot ⟨first.1, first.2⟩ firstDirection firstTarget <+:
        laneRoot ⟨second.1, second.2⟩ secondDirection secondTarget →
      first = second ∧ firstDirection = secondDirection ∧ firstTarget = secondTarget

section
variable {args : ConformanceRunArgs}

theorem mem_resolveServerEras {era : ConformanceServerEra} :
    era ∈ resolveServerEras args.serverEra ↔ RequestedEra args era := by
  unfold resolveServerEras RequestedEra
  rw [mem_distinct]
  split
  next hempty => simp [hempty, CliConformanceEra.serverEra]
  next hsome => simp [hsome]

theorem resolveClientProtocols_era {version : String} (hversion : version ∈ args.clientVersion) :
    version ∈ clientVersionsOf (if version ∈ legacyClientProtocolVersions then
      ConformanceServerEra.legacy else .modern) := by
  have hknown := args.known version hversion
  simp only [dualClientProtocolVersions, List.mem_cons, List.not_mem_nil, or_false] at hknown
  rcases hknown with rfl | rfl <;> decide

theorem mem_clientVersions {version : String} :
    version ∈ (resolveClientProtocols args.clientEra args.clientVersion).2 ↔
      RequestedVersion args version := by
  unfold resolveClientProtocols RequestedVersion
  rw [mem_distinct]
  by_cases hversions : args.clientVersion = []
  · by_cases heras : args.clientEra = []
    · simp [hversions, heras, distinct, clientVersionsOf]
    · simp [hversions, heras, mem_distinct]
  · simp [hversions]

theorem clientEras_speak {era : ConformanceServerEra}
    (hera : era ∈ (resolveClientProtocols args.clientEra args.clientVersion).1) :
    ∃ version ∈ (resolveClientProtocols args.clientEra args.clientVersion).2,
      version ∈ clientVersionsOf era := by
  by_cases hversions : args.clientVersion = []
  · have hspoken : ∃ version, version ∈ clientVersionsOf era := by
      cases era
      next => exact ⟨stableMcpSpecVersion, by decide⟩
      next => exact ⟨stableMcpSpecVersion, by decide⟩
      next => exact ⟨defaultMcpSpecVersion, by decide⟩
    obtain ⟨version, hversion⟩ := hspoken
    refine ⟨version, ?_, hversion⟩
    simp only [resolveClientProtocols, hversions] at hera ⊢
    exact mem_distinct.mpr ⟨List.mem_flatMap.mpr ⟨era, hera, hversion⟩, List.not_mem_nil⟩
  · simp only [resolveClientProtocols, hversions, ne_eq, not_false_eq_true, if_true, if_false,
      mem_distinct, List.mem_map] at hera ⊢
    obtain ⟨⟨version, hversion, rfl⟩, -⟩ := hera
    exact ⟨version, ⟨hversion, List.not_mem_nil⟩, resolveClientProtocols_era hversion⟩

theorem clientVersions_spoken {version : String}
    (hversion : version ∈ (resolveClientProtocols args.clientEra args.clientVersion).2) :
    ∃ era ∈ (resolveClientProtocols args.clientEra args.clientVersion).1,
      version ∈ clientVersionsOf era := by
  by_cases hversions : args.clientVersion = []
  · simp only [resolveClientProtocols, hversions] at hversion ⊢
    exact List.mem_flatMap.mp (mem_distinct.mp hversion).1
  · simp only [resolveClientProtocols, hversions, ne_eq, not_false_eq_true, if_true, if_false,
      mem_distinct, List.mem_map] at hversion ⊢
    exact ⟨_, ⟨⟨version, hversion.1, rfl⟩, List.not_mem_nil⟩,
      resolveClientProtocols_era hversion.1⟩

theorem requestedVersion_exists (args : ConformanceRunArgs) :
    ∃ version, RequestedVersion args version := by
  unfold RequestedVersion
  cases hversions : args.clientVersion with
  | cons version versions => exact ⟨version, .inl List.mem_cons_self⟩
  | nil =>
      cases heras : args.clientEra with
      | nil => exact ⟨defaultMcpSpecVersion, .inr ⟨rfl, .inl ⟨rfl, by decide⟩⟩⟩
      | cons era eras =>
          have hspoken : ∃ version, version ∈ clientVersionsOf era.serverEra := by
            cases era
            next => exact ⟨stableMcpSpecVersion, by decide⟩
            next => exact ⟨stableMcpSpecVersion, by decide⟩
            next => exact ⟨defaultMcpSpecVersion, by decide⟩
          obtain ⟨version, hversion⟩ := hspoken
          exact ⟨version, .inr ⟨rfl, .inr ⟨era, List.mem_cons_self, hversion⟩⟩⟩

theorem requestedEra_exists (args : ConformanceRunArgs) : ∃ era, RequestedEra args era := by
  unfold RequestedEra
  cases heras : args.serverEra with
  | nil => exact ⟨.legacy, .inr ⟨rfl, .inl rfl⟩⟩
  | cons era eras => exact ⟨era.serverEra, .inl List.mem_cons_self⟩

theorem mem_resolveLanes {lanes : List SemanticLane} {lane : SemanticLane} :
    lane ∈ resolveLanes lanes ↔ lanes = [] ∨ lane ∈ lanes := by
  unfold resolveLanes
  split
  next hempty => simp [hempty, mem_allConformanceLanes]
  next hsome => simp [hsome, mem_allConformanceLanes]

theorem mem_conformanceLanes {standalone : Bool} {lane : SemanticLane} :
    lane ∈ conformanceLanes standalone args.lane ↔ RequestedLane standalone args lane := by
  unfold conformanceLanes RequestedLane
  split
  next hdefault => simp [hdefault]
  next hexplicit =>
    rw [mem_resolveLanes, List.map_eq_nil_iff]
    by_cases hempty : args.lane = []
    · have hrouted : standalone = false := by simpa [hempty] using hexplicit
      simp [hempty, hrouted]
    · simp [hempty]

theorem conformanceLanes_sublist (standalone : Bool) (lanes : List CliLane) :
    (conformanceLanes standalone lanes).Sublist allConformanceLanes := by
  unfold conformanceLanes resolveLanes
  split
  next => decide
  next =>
    split
    next => exact List.Sublist.refl _
    next => exact List.filter_sublist

theorem resolveConformanceRun_selects {standalone : Bool} {run : ConformanceRunAction}
    (hrun : resolveConformanceRun standalone args = .ok run) :
    SelectsMatrix standalone args run := by
  unfold resolveConformanceRun at hrun
  simp only at hrun
  split at hrun
  next => cases hrun
  next hlanes =>
    cases hrun
    have hentries : ∀ version era, (version, era) ∈ conformanceMatrix
        (resolveClientProtocols args.clientEra args.clientVersion).2
        (resolveServerEras args.serverEra) ↔
          RequestedVersion args version ∧ RequestedEra args era := fun version era => by
      rw [mem_conformanceMatrix, mem_clientVersions, mem_resolveServerEras]
    exact {
      isolated := rfl
      routed := fun hstandalone => not_not.mp fun hne => hlanes ⟨hstandalone, hne⟩
      ordered := conformanceLanes_sublist standalone args.lane
      lanes := fun lane => mem_conformanceLanes
      once := nodup_conformanceMatrix (nodup_distinct _ _) (nodup_distinct _ _)
      some := by
        obtain ⟨version, hversion⟩ := requestedVersion_exists args
        obtain ⟨era, hera⟩ := requestedEra_exists args
        exact List.ne_nil_of_mem ((hentries version era).mpr ⟨hversion, hera⟩)
      entries := hentries
      spoken := fun version hversion => clientVersions_spoken hversion
      speaking := fun era hera => clientEras_speak hera
      apart := fun first _ second _ _ _ _ _ hbelow => by
        obtain ⟨hpaths, hdirection, htarget⟩ := laneRoot_of_prefix hbelow
        exact ⟨Prod.ext (congrArg ConformancePaths.clientVersion hpaths)
          (congrArg ConformancePaths.serverEra hpaths), hdirection, htarget⟩ }

end

/-! ## Resolved operations -/

/-- What the workflows rely on. An operation that is configured as standalone leaves the
control plane's stack alone. -/
def Admissible (cli : Cli) (action : Action) : Prop :=
  (configRequirements action = .standaloneRuntime → ∀ mode ∈ topologies action, mode = .dataplane) ∧
  match action with
  | .load args => args.builtinMemoryLimit.isSome = true → args.topology = .controlplane
  | .fyre (.status runId) | .fyre (.destroy runId) => isValidRunId runId = true
  | .live lane group _ => lane = .fixtureDirect → group = .protocol
  | .conformanceRun run =>
      ∃ args, cli.command = .conformanceRun args ∧ SelectsMatrix cli.standalone args run
  | .debugToken kind serverId _ => kind = .admin → serverId = none
  | .ciPrepareImage image => image.repository ≠ "" ∧ ∃ name, image.binary = [.normal name]
  | _ => True

section
variable {environment : Environment} {standalone : Bool}

theorem resolveTarget_eq_ok {lane : Option CliRoutedLane} {topology : StackMode}
    (hok : resolveTarget environment standalone lane = .ok topology) :
    standalone = true → topology = .dataplane := by
  unfold resolveTarget at hok
  obtain ⟨resolved, -, hok⟩ := except_bind_eq_ok.mp hok
  obtain ⟨⟨⟩, hvalid, hok⟩ := except_bind_eq_ok.mp hok
  cases hok
  unfold validateStandaloneLane at hvalid
  split at hvalid
  next => cases hvalid
  next hlane => exact fun hstandalone => not_not.mp fun hne => hlane ⟨hstandalone, hne⟩

theorem standalone_of_requirements
    (hruntime : (if standalone then ConfigRequirements.standaloneRuntime else .runtime) =
      .standaloneRuntime) : standalone = true := by
  cases standalone with
  | true => rfl
  | false => cases hruntime

theorem resolveTarget_isolated {lane : Option CliRoutedLane} {topology : StackMode}
    (htarget : resolveTarget environment standalone lane = .ok topology)
    (hruntime : (if standalone then ConfigRequirements.standaloneRuntime else .runtime) =
      .standaloneRuntime) : ∀ mode ∈ [topology], mode = .dataplane := by
  intro mode hmode
  rw [List.mem_singleton.mp hmode]
  exact resolveTarget_eq_ok htarget (standalone_of_requirements hruntime)

theorem resolveStack_isolated {command : StackCommand} {action : StackAction}
    (hok : resolveStack environment standalone command = .ok action)
    (hruntime : configRequirements (.stack action) = .standaloneRuntime) :
    ∀ mode ∈ topologies (.stack action), mode = .dataplane := by
  cases command with
  | up target fresh =>
      obtain ⟨topology, htarget, hok⟩ := except_bind_eq_ok.mp hok
      obtain ⟨version, -, hok⟩ := except_bind_eq_ok.mp hok
      cases hok
      exact resolveTarget_isolated htarget hruntime
  | down lane volumes =>
      unfold resolveStack at hok
      simp only at hok
      generalize lane.getD (if standalone then .external else .all) = selected at hok
      split at hok
      next => cases hok
      next hlane =>
        cases hok
        have hstandalone := standalone_of_requirements hruntime
        have hexternal := not_not.mp fun hne => hlane ⟨hstandalone, hne⟩
        intro mode hmode
        rw [hexternal] at hmode
        exact List.mem_singleton.mp hmode
  | status lane =>
      obtain ⟨topology, htarget, hok⟩ := except_bind_eq_ok.mp hok
      cases hok
      exact resolveTarget_isolated htarget hruntime
  | logs lane services =>
      obtain ⟨topology, htarget, hok⟩ := except_bind_eq_ok.mp hok
      cases hok
      exact resolveTarget_isolated htarget hruntime
  | config lane =>
      obtain ⟨topology, htarget, hok⟩ := except_bind_eq_ok.mp hok
      cases hok
      exact resolveTarget_isolated htarget hruntime

theorem validatedRunId_eq_ok {runId valid : String} (hok : validatedRunId runId = .ok valid) :
    isValidRunId valid = true := by
  unfold validatedRunId at hok
  split at hok
  next hvalid =>
    cases hok
    exact hvalid
  next => cases hok

theorem resolvePrepareImage_eq_ok {args : CiPrepareImageArgs} {action : PrepareImageAction}
    (hok : resolvePrepareImage environment args = .ok action) :
    action.repository ≠ "" ∧ ∃ name, action.binary = [.normal name] := by
  unfold resolvePrepareImage at hok
  split at hok
  next name hbinary =>
    split at hok
    next => cases hok
    next repository hrepository =>
      cases hok
      exact ⟨by simpa using (Option.filter_eq_some_iff.mp hrepository).2, name, hbinary⟩
  next => cases hok

/-- A guarded result is there where the guard is open. -/
theorem guarded_eq_ok {α : Type} {closed : Prop} [Decidable closed] {message : String}
    {result : Except String α} {value : α} :
    (if closed then .error message else result) = .ok value ↔ ¬ closed ∧ result = .ok value := by
  by_cases hclosed : closed <;> simp [hclosed]

theorem resolveFyre_admissible {cli : Cli} {command : FyreCommand} {fyre : FyreAction}
    (hok : resolveFyre command = .ok fyre) : Admissible cli (.fyre fyre) := by
  refine ⟨fun _ mode hmode => absurd hmode List.not_mem_nil, ?_⟩
  cases command with
  | run file runId =>
      cases hok
      trivial
  | status runId =>
      obtain ⟨valid, hvalid, rfl⟩ := except_map_eq_ok.mp hok
      exact validatedRunId_eq_ok hvalid
  | destroy runId =>
      obtain ⟨valid, hvalid, rfl⟩ := except_map_eq_ok.mp hok
      exact validatedRunId_eq_ok hvalid

/-- A standalone run selects the external lane alone. -/
theorem resolveConformanceRun_admissible {cli : Cli} {args : ConformanceRunArgs}
    {run : ConformanceRunAction} (hcommand : cli.command = .conformanceRun args)
    (hok : resolveConformanceRun cli.standalone args = .ok run) :
    Admissible cli (.conformanceRun run) := by
  have hselects := resolveConformanceRun_selects hok
  refine ⟨fun hruntime mode hmode => ?_, args, hcommand, hselects⟩
  have hstandalone : cli.standalone = true :=
    hselects.isolated.symm.trans (standalone_of_requirements hruntime)
  unfold topologies at hmode
  simp only [hselects.routed hstandalone] at hmode
  exact List.mem_singleton.mp hmode

end

/-- Every operation that a command line resolves to is admissible. -/
theorem resolveAction_admissible (cli : Cli) (environment : Environment) (action : Action)
    (hok : resolveAction cli environment = .ok action) : Admissible cli action := by
  unfold resolveAction at hok
  split at hok
  next command hcommand =>
    obtain ⟨stack, hstack, rfl⟩ := except_map_eq_ok.mp hok
    exact ⟨resolveStack_isolated hstack, trivial⟩
  next target hcommand =>
    obtain ⟨topology, htarget, hok⟩ := except_bind_eq_ok.mp hok
    obtain ⟨version, -, hok⟩ := except_bind_eq_ok.mp hok
    cases hok
    exact ⟨resolveTarget_isolated htarget, trivial⟩
  next args hcommand =>
    obtain ⟨topology, htarget, hok⟩ := except_bind_eq_ok.mp hok
    obtain ⟨hlimit, hok⟩ := guarded_eq_ok.mp hok
    cases hok
    exact ⟨resolveTarget_isolated htarget, fun hsome => not_not.mp fun hne => hlimit ⟨hsome, hne⟩⟩
  next command hcommand =>
    obtain ⟨-, hok⟩ := guarded_eq_ok.mp hok
    obtain ⟨fyre, hfyre, rfl⟩ := except_map_eq_ok.mp hok
    exact resolveFyre_admissible hfyre
  next lane protocolVersion group hcommand =>
    obtain ⟨selected, -, hok⟩ := except_bind_eq_ok.mp hok
    obtain ⟨-, hok⟩ := guarded_eq_ok.mp hok
    obtain ⟨hgroup, hok⟩ := guarded_eq_ok.mp hok
    obtain ⟨version, -, hok⟩ := except_bind_eq_ok.mp hok
    cases hok
    exact ⟨nofun, fun hlane => not_not.mp fun hne => hgroup ⟨hlane, hne⟩⟩
  next args hcommand =>
    obtain ⟨run, hrun, rfl⟩ := except_map_eq_ok.mp hok
    exact resolveConformanceRun_admissible hcommand hrun
  next resultsDir outputDir hcommand =>
    obtain ⟨-, hok⟩ := guarded_eq_ok.mp hok
    cases hok
    exact ⟨nofun, trivial⟩
  next target method serverId hcommand =>
    obtain ⟨topology, htarget, hok⟩ := except_bind_eq_ok.mp hok
    obtain ⟨version, -, hok⟩ := except_bind_eq_ok.mp hok
    cases hok
    exact ⟨resolveTarget_isolated htarget, trivial⟩
  next kind serverId hcommand =>
    obtain ⟨hserver, hok⟩ := guarded_eq_ok.mp hok
    cases hok
    refine ⟨fun _ mode hmode => absurd hmode List.not_mem_nil, fun hkind => ?_⟩
    exact Option.not_isSome_iff_eq_none.mp fun hsome => hserver ⟨hkind, hsome⟩
  next args hcommand =>
    obtain ⟨-, hok⟩ := guarded_eq_ok.mp hok
    obtain ⟨image, himage, rfl⟩ := except_map_eq_ok.mp hok
    exact ⟨nofun, resolvePrepareImage_eq_ok himage⟩
  next hcommand =>
    obtain ⟨-, hok⟩ := guarded_eq_ok.mp hok
    cases hok
    exact ⟨nofun, trivial⟩
  next hcommand =>
    obtain ⟨-, hok⟩ := guarded_eq_ok.mp hok
    cases hok
    exact ⟨nofun, trivial⟩

/-- Two client eras and no server era: each client version meets both server eras, once. -/
def matrixCli : Cli where
  standalone := true
  command := .conformanceRun {
    lane := []
    clientEra := [.dual, .legacy]
    clientVersion := []
    serverEra := []
    resultsDir := none
    baselineDir := none
    bless := false
    outputDir := none
    known := nofun
    exclusive := .inl rfl }

theorem resolveAction_admissible_matrix :
    ∃ action, resolveAction matrixCli (fun _ => none) = .ok action ∧ Admissible matrixCli action :=
  ⟨_, rfl, resolveAction_admissible matrixCli (fun _ => none) _ rfl⟩

end CfIntegration.Runtime.CommandResolution
