import Mathlib.Data.List.MinMax
import Mathlib.Data.Rat.Defs
import CfIntegration.Foundation.Fallible

/-! # FYRE campaign configuration

The configuration of a benchmark campaign, the checks it has to pass and the
capacity the preflight asks for. Sizes and counts are 32-bit words; products and
sums of them wrap, as release builds compute them.
-/

namespace CfIntegration.Fyre

structure MachineSize where
  cpu : UInt32
  memoryGb : UInt32
  deriving DecidableEq, Repr

structure InitialHelpers where
  locust : MachineSize
  fastTime : MachineSize
  deriving DecidableEq, Repr

structure InfrastructureConfig where
  os : String
  expiryHours : UInt32
  helperSizes : List MachineSize
  initialHelpers : Option InitialHelpers
  deriving DecidableEq, Repr

structure ImageConfig where
  dataplane : String
  controlplane : Option String
  fastTime : String
  helpers : String
  locust : String
  postgres : Option String
  redis : String
  deriving DecidableEq, Repr

/-- The percentages are finite binary floating-point numbers, which are rationals. -/
structure WorkloadConfig where
  protocolVersion : String
  userLevels : List UInt32
  firstUsers : UInt32
  maximumUsers : UInt32
  measureSeconds : UInt32
  repetitions : UInt32
  maximumCampaignSeconds : UInt32
  plateauImprovementPercent : ℚ
  boundaryPercent : ℚ
  tools : List String
  deriving DecidableEq, Repr

structure Scenario where
  id : String
  label : String
  replicas : UInt32
  cpu : UInt32
  memoryGb : UInt32
  multiplier : UInt32
  deriving DecidableEq, Repr

structure FyreConfig where
  schemaVersion : UInt32
  benchmarkKind : String
  infrastructure : InfrastructureConfig
  images : ImageConfig
  workload : WorkloadConfig
  scenarios : List Scenario
  deriving DecidableEq, Repr

def isLowercaseOrDigit (character : Char) : Bool :=
  ('a' ≤ character && character ≤ 'z') || ('0' ≤ character && character ≤ '9')

def validateRunId (runId : String) : Except String PUnit :=
  let characters := runId.toList
  bailIf (¬ (characters ≠ [] ∧ characters.length ≤ 48 ∧
      (characters.all fun character => isLowercaseOrDigit character || character == '-') ∧
      characters.head? ≠ some '-' ∧ characters.getLast? ≠ some '-'))
    "run ID must contain only lowercase letters, digits, and internal hyphens"

/-- The index of an initial helper size, with the size named in the error. -/
def findHelper (helperSizes : List MachineSize) (role : String) (size : MachineSize) :
    Except String Nat :=
  match helperSizes.findIdx? fun candidate => candidate = size with
  | some index => .ok index
  | none => .error ("initial " ++ role ++ " helper " ++ toString size.cpu ++ " vCPU / " ++
      toString size.memoryGb ++ " GB is not present in helper_sizes")

def initialHelperIndices (config : FyreConfig) : Except String (Nat × Nat) :=
  match config.infrastructure.initialHelpers with
  | none => .ok (0, 0)
  | some initial => do
      let locust ← findHelper config.infrastructure.helperSizes "Locust" initial.locust
      let fastTime ← findHelper config.infrastructure.helperSizes "Fast Time" initial.fastTime
      return (locust, fastTime)

def expectedTools : List String :=
  ["convert_time", "echo", "get_stats", "get_system_time", "schema_success", "verify-protocol"]

def validateBenchmarkKind (config : FyreConfig) : Except String PUnit :=
  if config.benchmarkKind = "scaling" then
    bailIf (config.workload.repetitions ≠ 3) "candidate capacity must use three repetitions"
  else if config.benchmarkKind = "comparison" then do
    bailIf (config.workload.repetitions ≠ 1) "the fixed comparison runs each benchmark once"
    bailIf (config.workload.userLevels ≠ [125, 250, 500, 1000])
      "the default comparison must run 125, 250, 500, and 1,000 users"
    bailIf (config.workload.measureSeconds ≠ 3600)
      "each default comparison benchmark must measure for one hour"
    bailIf (¬ (config.scenarios.length = 1 ∧
        ∀ scenario ∈ config.scenarios.head?, scenario.replicas = 1))
      "the comparison target must be exactly one VM"
    bailIf (¬ (config.images.controlplane.isSome ∧ config.images.postgres.isSome))
      "the comparison requires pinned control-plane and PostgreSQL images"
  else .error ("unsupported FYRE benchmark kind " ++ config.benchmarkKind)

/-- One scenario, against the totals of the baseline and the ids before it. -/
def validateScenario (baselineCpu baselineMemory : UInt32) (ids : List String)
    (scenario : Scenario) : Except String (List String) := do
  validateRunId scenario.id
  bailIf (scenario.id ∈ ids) ("duplicate FYRE scenario " ++ scenario.id)
  bailIf (¬ (0 < scenario.replicas ∧ 0 < scenario.cpu ∧ 0 < scenario.memoryGb))
    ("scenario " ++ scenario.id ++ " has zero resources")
  bailIf (¬ 0 < scenario.multiplier) ("scenario " ++ scenario.id ++ " has a zero multiplier")
  bailIf (scenario.replicas * scenario.cpu ≠ scenario.multiplier * baselineCpu)
    ("scenario " ++ scenario.id ++ " CPU total does not match its multiplier")
  bailIf (scenario.replicas * scenario.memoryGb ≠ scenario.multiplier * baselineMemory)
    ("scenario " ++ scenario.id ++ " memory total does not match its multiplier")
  return ids ++ [scenario.id]

def containsText (text part : String) : Bool :=
  text.toList.tails.any fun suffix => part.toList.isPrefixOf suffix

def FyreConfig.pinnedImages (config : FyreConfig) : List String :=
  [config.images.dataplane, config.images.fastTime, config.images.helpers, config.images.locust,
    config.images.redis] ++ config.images.controlplane.toList ++ config.images.postgres.toList

def validateConfig (config : FyreConfig) : Except String PUnit := do
  bailIf (config.schemaVersion ≠ 1) "unsupported FYRE configuration schema"
  bailIf (config.infrastructure.os ≠ "Ubuntu 24.04") "FYRE benchmark OS must be Ubuntu 24.04"
  bailIf (¬ (8 ≤ config.infrastructure.expiryHours ∧ config.infrastructure.expiryHours ≤ 24))
    "FYRE expiry must be between eight and 24 hours"
  bailIf (config.workload.protocolVersion ≠ "2026-07-28")
    "FYRE load supports only modern 2026-07-28"
  bailIf (¬ 125 ≤ config.workload.firstUsers) "FYRE load must start at 125 users or more"
  bailIf (¬ config.workload.maximumUsers ≤ 32000) "FYRE load must be bounded at 32,000 users"
  bailIf (¬ config.workload.maximumCampaignSeconds ≤ 36000)
    "FYRE campaign must be bounded at ten hours"
  validateBenchmarkKind config
  bailIf (¬ (config.workload.tools ⊆ expectedTools ∧ expectedTools ⊆ config.workload.tools))
    "FYRE workload must contain the six nonfailure Fast Time tools"
  bailIf (config.infrastructure.helperSizes = []) "at least one helper size is required"
  let _ ← initialHelperIndices config
  bailIf (¬ ∀ maximum ∈ config.infrastructure.helperSizes.getLast?,
      maximum.cpu ≤ 16 ∧ maximum.memoryGb ≤ 32)
    "helper resources exceed 16 vCPU / 32 GB"
  match config.scenarios.find? fun scenario => scenario.multiplier = 1 with
  | none => .error "FYRE matrix requires a multiplier-one baseline"
  | some baseline => do
      bailIf (baseline.multiplier ≠ 1) "baseline scenario multiplier must be one"
      let _ ← config.scenarios.foldlM
        (validateScenario (baseline.replicas * baseline.cpu)
          (baseline.replicas * baseline.memoryGb))
        []
      bailIf (¬ ∀ image ∈ config.pinnedImages, containsText image "@sha256:")
        "all benchmark images must be pinned by digest"

/-- A helper that is found is one of the configured sizes. -/
theorem findHelper_lt {helperSizes : List MachineSize} {role : String} {size : MachineSize}
    {index : Nat} (hfound : findHelper helperSizes role size = .ok index) :
    index < helperSizes.length := by
  unfold findHelper at hfound
  split at hfound
  next found hindex =>
    cases hfound
    exact (List.findIdx?_eq_some_iff_findIdx_eq.mp hindex).1
  next => cases hfound

/-- The initial helper indices are within a nonempty list of sizes. -/
theorem initialHelperIndices_lt {config : FyreConfig} {locust fastTime : Nat}
    (hsizes : config.infrastructure.helperSizes ≠ [])
    (hinitial : initialHelperIndices config = .ok (locust, fastTime)) :
    locust < config.infrastructure.helperSizes.length ∧
      fastTime < config.infrastructure.helperSizes.length := by
  unfold initialHelperIndices at hinitial
  split at hinitial
  next =>
    cases hinitial
    exact ⟨List.length_pos_of_ne_nil hsizes, List.length_pos_of_ne_nil hsizes⟩
  next initial =>
    obtain ⟨first, hfirst, hinitial⟩ := except_bind_eq_ok.mp hinitial
    obtain ⟨second, hsecond, hinitial⟩ := except_bind_eq_ok.mp hinitial
    cases hinitial
    exact ⟨findHelper_lt hfirst, findHelper_lt hsecond⟩

/-- What one accepted scenario satisfies on its own. -/
structure ValidScenario (scenario : Scenario) : Prop where
  replicas : 0 < scenario.replicas
  cpu : 0 < scenario.cpu
  memoryGb : 0 < scenario.memoryGb
  multiplier : 0 < scenario.multiplier

/-- A scenario that passes is valid and adds its identifier to those seen. -/
theorem validateScenario_ok {baselineCpu baselineMemory : UInt32} {ids later : List String}
    {scenario : Scenario}
    (hvalid : validateScenario baselineCpu baselineMemory ids scenario = .ok later) :
    ValidScenario scenario ∧ scenario.id ∉ ids ∧ later = ids ++ [scenario.id] := by
  simp only [validateScenario, except_bind_eq_ok, bailIf_eq_ok] at hvalid
  obtain ⟨-, -, -, hfresh, -, hresources, -, hmultiplier, -, -, -, -, hlater⟩ := hvalid
  cases hlater
  obtain ⟨hreplicas, hcpu, hmemory⟩ := not_not.mp hresources
  exact ⟨⟨hreplicas, hcpu, hmemory, not_not.mp hmultiplier⟩, hfresh, rfl⟩

theorem foldlM_validateScenario {baselineCpu baselineMemory : UInt32} {scenarios : List Scenario}
    {ids later : List String} (hids : ids.Nodup)
    (hvalid : scenarios.foldlM (validateScenario baselineCpu baselineMemory) ids = .ok later) :
    later = ids ++ scenarios.map Scenario.id ∧ later.Nodup := by
  induction scenarios generalizing ids with
  | nil =>
      cases hvalid
      simpa using hids
  | cons scenario rest ih =>
      rw [List.foldlM_cons, except_bind_eq_ok] at hvalid
      obtain ⟨middle, hscenario, hrest⟩ := hvalid
      obtain ⟨-, hfresh, rfl⟩ := validateScenario_ok hscenario
      have hmiddle : (ids ++ [scenario.id]).Nodup :=
        List.nodup_append.mpr ⟨hids, List.pairwise_singleton _ _, fun id hid other hother heq =>
          hfresh (List.mem_singleton.mp hother ▸ heq ▸ hid)⟩
      obtain ⟨hlater, hnodup⟩ := ih hmiddle hrest
      exact ⟨by rw [hlater, List.append_assoc]; rfl, hnodup⟩

/-- What every accepted configuration satisfies. -/
structure ValidConfig (config : FyreConfig) : Prop where
  firstUsers : 125 ≤ config.workload.firstUsers
  maximumUsers : config.workload.maximumUsers ≤ 32000
  kind : config.benchmarkKind = "scaling" ∧ config.workload.repetitions = 3 ∨
    config.benchmarkKind = "comparison" ∧ config.workload.userLevels = [125, 250, 500, 1000] ∧
      config.scenarios.length = 1
  helperSizes : config.infrastructure.helperSizes ≠ []
  initialHelpers : ∃ indices, initialHelperIndices config = .ok indices
  baseline : ∃ scenario ∈ config.scenarios, scenario.multiplier = 1
  scenarios : ∀ scenario ∈ config.scenarios, ValidScenario scenario
  ids : (config.scenarios.map Scenario.id).Nodup

/-- A valid benchmark is a scaling with three repetitions or a comparison of one scenario. -/
theorem validateBenchmarkKind_ok {config : FyreConfig}
    (hvalid : validateBenchmarkKind config = .ok ⟨⟩) :
    config.benchmarkKind = "scaling" ∧ config.workload.repetitions = 3 ∨
      config.benchmarkKind = "comparison" ∧ config.workload.userLevels = [125, 250, 500, 1000] ∧
        config.scenarios.length = 1 := by
  unfold validateBenchmarkKind at hvalid
  split at hvalid
  next hkind => exact .inl ⟨hkind, not_not.mp (bailIf_eq_ok.mp hvalid)⟩
  next =>
    split at hvalid
    next hkind =>
      simp only [except_bind_eq_ok, bailIf_eq_ok] at hvalid
      obtain ⟨-, -, -, hlevels, -, -, -, hscenarios, -⟩ := hvalid
      exact .inr ⟨hkind, not_not.mp hlevels, (not_not.mp hscenarios).1⟩
    next => cases hvalid

theorem validateConfig_ok {config : FyreConfig} (hvalid : validateConfig config = .ok ⟨⟩) :
    ValidConfig config := by
  unfold validateConfig at hvalid
  simp only [except_bind_eq_ok, bailIf_eq_ok] at hvalid
  obtain ⟨-, -, -, -, -, -, -, -, -, hfirst, -, hmaximum, -, -, ⟨⟩, hkind, -, -, -, hsizes,
    indices, hinitial, -, -, hscenarios⟩ := hvalid
  split at hscenarios
  next => cases hscenarios
  next baseline hbaseline =>
    simp only [except_bind_eq_ok, bailIf_eq_ok] at hscenarios
    obtain ⟨-, -, ids, hids, -⟩ := hscenarios
    obtain ⟨hmap, hnodup⟩ := foldlM_validateScenario List.nodup_nil hids
    have hvalid : ∀ scenario ∈ config.scenarios, ValidScenario scenario := by
      refine except_foldlM_forall ?_ hids
      exact fun _ _ _ hscenario => (validateScenario_ok hscenario).1
    exact {
      firstUsers := not_not.mp hfirst
      maximumUsers := not_not.mp hmaximum
      kind := validateBenchmarkKind_ok hkind
      helperSizes := hsizes
      initialHelpers := ⟨indices, hinitial⟩
      baseline := ⟨baseline, List.mem_of_find?_eq_some hbaseline,
        by simpa using List.find?_some hbaseline⟩
      scenarios := hvalid
      ids := by rwa [hmap, List.nil_append] at hnodup }

/-- A scaling campaign repeats three times, a comparison once. -/
theorem repetitions_pos {config : FyreConfig} (hvalid : validateConfig config = .ok ⟨⟩) :
    0 < config.workload.repetitions.toNat := by
  unfold validateConfig at hvalid
  simp only [except_bind_eq_ok, bailIf_eq_ok] at hvalid
  obtain ⟨-, -, -, -, -, -, -, -, -, -, -, -, -, -, ⟨⟩, hkind, -⟩ := hvalid
  unfold validateBenchmarkKind at hkind
  split at hkind
  next =>
    rw [not_not.mp (bailIf_eq_ok.mp hkind)]
    decide
  next =>
    split at hkind
    next =>
      obtain ⟨⟨⟩, hrepetitions, -⟩ := except_bind_eq_ok.mp hkind
      rw [not_not.mp (bailIf_eq_ok.mp hrepetitions)]
      decide
    next => cases hkind

def fyreStandaloneUbuntuOsDiskGb : UInt32 := 250

structure FyreQuota where
  productGroupId : UInt64
  productGroupName : String
  cpu : UInt32
  cpuUsed : UInt32
  memory : UInt32
  memoryUsed : UInt32
  disk : UInt32
  diskUsed : UInt32
  publicIps : UInt32
  publicIpsUsed : UInt32
  deriving DecidableEq, Repr

structure RequiredCapacity where
  cpu : UInt32
  memory : UInt32
  disk : UInt32
  publicIps : UInt32
  deriving DecidableEq, Repr

/-- Sizes compare by CPU first and by memory second. -/
def MachineSize.le (first second : MachineSize) : Bool :=
  first.cpu < second.cpu || (first.cpu = second.cpu && first.memoryGb ≤ second.memoryGb)

/-- The last of the largest sizes. -/
def maximumHelper : List MachineSize → Option MachineSize
  | [] => none
  | size :: rest => some (rest.foldl (fun largest size => if largest.le size then size else largest)
      size)

def maximumOf (value : Scenario → UInt32) (scenarios : List Scenario) : UInt32 :=
  (scenarios.map value).foldl max 0

def requiredCapacity (config : FyreConfig) : RequiredCapacity :=
  let maximumReplicas := maximumOf Scenario.replicas config.scenarios
  let dataplaneCpu := maximumOf (fun scenario => scenario.replicas * scenario.cpu) config.scenarios
  let dataplaneMemory :=
    maximumOf (fun scenario => scenario.replicas * scenario.memoryGb) config.scenarios
  let maximum := (maximumHelper config.infrastructure.helperSizes).getD ⟨0, 0⟩
  let vmCount := maximumReplicas + 2
  { cpu := dataplaneCpu + maximum.cpu + maximum.cpu
    memory := dataplaneMemory + maximum.memoryGb + maximum.memoryGb
    disk := vmCount * fyreStandaloneUbuntuOsDiskGb
    publicIps := vmCount }

def saturatingSub (total used : UInt32) : UInt32 := if used ≤ total then total - used else 0

/-- One resource of the quota check. -/
def shortage (name unit : String) (needed total used : UInt32) : List String :=
  let free := saturatingSub total used
  if free < needed then
    [name ++ " requires " ++ toString needed ++ " " ++ unit ++ ", but only " ++ toString free ++
      " are available (" ++ toString total ++ " total, " ++ toString used ++ " used; shortage " ++
      toString (needed - free) ++ ")"]
  else []

def quotaShortages (required : RequiredCapacity) (quota : FyreQuota) : List String :=
  shortage "CPU" "vCPU" required.cpu quota.cpu quota.cpuUsed ++
  shortage "memory" "GB" required.memory quota.memory quota.memoryUsed ++
  shortage "disk" "GB" required.disk quota.disk quota.diskUsed ++
  shortage "public IPs" "addresses" required.publicIps quota.publicIps quota.publicIpsUsed

def ensureFyreQuota (config : FyreConfig) (quota : FyreQuota) : Except String PUnit :=
  let shortages := quotaShortages (requiredCapacity config) quota
  if shortages = [] then .ok ⟨⟩
  else .error ("FYRE product group " ++ toString quota.productGroupId ++ " (" ++
    quota.productGroupName ++ ") cannot fit the configured campaign: " ++
    "; ".intercalate shortages ++ ". The standalone VM API and pinned Terraform provider " ++
    "allocate a " ++ toString fyreStandaloneUbuntuOsDiskGb ++ " GB Ubuntu 24.04 root disk and " ++
    "expose no create-time root-disk setting; the OCP cluster API's base_disk_size setting does " ++
    "not apply to these standalone VMs")

/-- The low-memory vertical profile, with its helper sizes left open. -/
def lowMemoryProfile (helperSizes : List MachineSize) (initialHelpers : Option InitialHelpers) :
    FyreConfig where
  schemaVersion := 1
  benchmarkKind := "scaling"
  infrastructure := ⟨"Ubuntu 24.04", 8, helperSizes, initialHelpers⟩
  images := ⟨"contextforge-data-plane@sha256:0b", none, "cfex-mcp-fast-time-server@sha256:11",
    "cf-integration-helpers@sha256:f7", "locust@sha256:fd", none, "redis@sha256:a7"⟩
  workload := ⟨"2026-07-28", [], 125, 32000, 120, 3, 21600, 5, 25 / 2, expectedTools⟩
  scenarios := [⟨"baseline", "2 vCPU / 2 GB", 1, 2, 2, 1⟩,
    ⟨"vertical-2x", "4 vCPU / 4 GB", 1, 4, 4, 2⟩]

/-- The sizes of the packaged profile, and where its helpers start. -/
def packagedProfile : FyreConfig :=
  lowMemoryProfile [⟨2, 8⟩, ⟨4, 16⟩, ⟨8, 32⟩, ⟨16, 32⟩] (some ⟨⟨4, 16⟩, ⟨8, 32⟩⟩)

/-- The packaged profile is valid. -/
theorem validateConfig_packagedProfile : validateConfig packagedProfile = .ok ⟨⟩ := by rfl

example : requiredCapacity packagedProfile = ⟨36, 68, 750, 3⟩ := by decide

end CfIntegration.Fyre
