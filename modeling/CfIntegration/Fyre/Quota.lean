import Mathlib.Algebra.Ring.Nat
import CfIntegration.Fyre.Config

/-! # The quota preflight and the machines of the matrix

The preflight forms one requirement from the largest scenario and one helper
size; the matrix provisions a scenario with a size for each helper. This module
compares the two in exact arithmetic.
-/

namespace CfIntegration.Fyre

/-- The virtual machines of one apply: the scenario's replicas and two helpers. -/
structure VmSet where
  scenario : Scenario
  locust : MachineSize
  fastTime : MachineSize
  deriving DecidableEq, Repr

/-- The sizes that saturations can reach, from the initial ones on. -/
def ReachableHelpers (config : FyreConfig) (locust fastTime : MachineSize) : Prop :=
  ∃ locustIndex fastTimeIndex, initialHelperIndices config = .ok (locustIndex, fastTimeIndex) ∧
    locust ∈ config.infrastructure.helperSizes.drop locustIndex ∧
    fastTime ∈ config.infrastructure.helperSizes.drop fastTimeIndex

/-- Any scenario, with any reachable helper sizes. -/
def Provisionable (config : FyreConfig) (set : VmSet) : Prop :=
  set.scenario ∈ config.scenarios ∧ ReachableHelpers config set.locust set.fastTime

def Scenario.totalCpu (scenario : Scenario) : Nat := scenario.replicas.toNat * scenario.cpu.toNat

def Scenario.totalMemory (scenario : Scenario) : Nat :=
  scenario.replicas.toNat * scenario.memoryGb.toNat

def available (total used : UInt32) : Nat := total.toNat - used.toNat

/-- The machines fit the available quota, in exact arithmetic. -/
structure VmSet.Fits (set : VmSet) (quota : FyreQuota) : Prop where
  cpu : set.scenario.totalCpu + set.locust.cpu.toNat + set.fastTime.cpu.toNat ≤
    available quota.cpu quota.cpuUsed
  memory : set.scenario.totalMemory + set.locust.memoryGb.toNat + set.fastTime.memoryGb.toNat ≤
    available quota.memory quota.memoryUsed
  disk : (set.scenario.replicas.toNat + 2) * fyreStandaloneUbuntuOsDiskGb.toNat ≤
    available quota.disk quota.diskUsed
  publicIps : set.scenario.replicas.toNat + 2 ≤ available quota.publicIps quota.publicIpsUsed

theorem toNat_saturatingSub (total used : UInt32) :
    (saturatingSub total used).toNat = available total used := by
  unfold saturatingSub available
  split
  next hle => exact UInt32.toNat_sub_of_le _ _ hle
  next hgt =>
    have hlt : total.toNat < used.toNat := UInt32.lt_iff_toNat_lt.mp (UInt32.not_le.mp hgt)
    exact (Nat.sub_eq_zero_of_le hlt.le).symm

/-- A resource falls short exactly where less is available than needed. -/
theorem shortage_eq_nil {name unit : String} {needed total used : UInt32} :
    shortage name unit needed total used = [] ↔ needed.toNat ≤ available total used := by
  rw [← toNat_saturatingSub]
  unfold shortage
  simp [UInt32.lt_iff_toNat_lt]

/-- The check passes exactly where no resource falls short. -/
theorem ensureFyreQuota_ok_iff {config : FyreConfig} {quota : FyreQuota} :
    ensureFyreQuota config quota = .ok ⟨⟩ ↔
      (requiredCapacity config).cpu.toNat ≤ available quota.cpu quota.cpuUsed ∧
      (requiredCapacity config).memory.toNat ≤ available quota.memory quota.memoryUsed ∧
      (requiredCapacity config).disk.toNat ≤ available quota.disk quota.diskUsed ∧
      (requiredCapacity config).publicIps.toNat ≤
        available quota.publicIps quota.publicIpsUsed := by
  unfold ensureFyreQuota
  simp only
  split
  next hshortages =>
    simpa [quotaShortages, shortage_eq_nil, and_assoc] using hshortages
  next hshortages =>
    simpa [quotaShortages, shortage_eq_nil, and_assoc] using hshortages

/-- The largest value of the scenarios. -/
def largest (value : Scenario → Nat) (scenarios : List Scenario) : Nat :=
  (scenarios.map value).foldl max 0

theorem le_foldl_max {values : List Nat} {start value : Nat}
    (hvalue : value ≤ start ∨ value ∈ values) : value ≤ values.foldl max start := by
  induction values generalizing start with
  | nil => simpa using hvalue
  | cons first rest ih =>
      refine ih ?_
      rcases hvalue with hstart | hmem
      · exact .inl (hstart.trans (le_max_left _ _))
      · rcases List.mem_cons.mp hmem with rfl | hrest
        · exact .inl (le_max_right _ _)
        · exact .inr hrest

theorem foldl_max_mem {values : List Nat} {start : Nat} :
    values.foldl max start = start ∨ values.foldl max start ∈ values := by
  induction values generalizing start with
  | nil => exact .inl rfl
  | cons first rest ih =>
      rcases @ih (max start first) with hstart | hmem
      · rw [List.foldl_cons, hstart]
        rcases max_choice start first with hmax | hmax <;> rw [hmax]
        · exact .inl rfl
        · exact .inr List.mem_cons_self
      · exact .inr (List.mem_cons_of_mem _ hmem)

/-- No scenario has more than the largest value. -/
theorem le_largest {value : Scenario → Nat} {scenarios : List Scenario} {scenario : Scenario}
    (hscenario : scenario ∈ scenarios) : value scenario ≤ largest value scenarios :=
  le_foldl_max (.inr (List.mem_map_of_mem hscenario))

/-- Some scenario has the largest value. -/
theorem exists_largest (value : Scenario → Nat) {scenarios : List Scenario}
    (hscenarios : scenarios ≠ []) :
    ∃ scenario ∈ scenarios, value scenario = largest value scenarios := by
  obtain ⟨first, hfirst⟩ := List.exists_mem_of_ne_nil _ hscenarios
  rcases @foldl_max_mem (scenarios.map value) 0 with hzero | hmem
  · refine ⟨first, hfirst, Nat.le_antisymm (le_largest hfirst) ?_⟩
    exact hzero.le.trans (Nat.zero_le _)
  · exact List.mem_map.mp hmem

/-- The maximum of machine integers is the largest of their values. -/
theorem toNat_maximumOf (value : Scenario → UInt32) (scenarios : List Scenario) :
    (maximumOf value scenarios).toNat =
      largest (fun scenario => (value scenario).toNat) scenarios := by
  have hmax : ∀ first second : UInt32, (max first second).toNat = max first.toNat second.toNat := by
    intro first second
    change (if first ≤ second then second else first).toNat = _
    split
    next hle => exact (max_eq_right (UInt32.le_iff_toNat_le.mp hle)).symm
    next hgt =>
      have hlt := UInt32.lt_iff_toNat_lt.mp (UInt32.not_le.mp hgt)
      exact (max_eq_left hlt.le).symm
  have hfold : ∀ (values : List UInt32) (start : UInt32),
      (values.foldl max start).toNat = (values.map UInt32.toNat).foldl max start.toNat := by
    intro values
    induction values with
    | nil => exact fun _ => rfl
    | cons first rest ih => exact fun start => by rw [List.foldl_cons, ih, hmax]; rfl
  simp [maximumOf, largest, hfold, Function.comp_def]

def FyreConfig.maximumHelper (config : FyreConfig) : MachineSize :=
  (Fyre.maximumHelper config.infrastructure.helperSizes).getD ⟨0, 0⟩

/-- Two reachable helpers need no more of one resource than twice the size the
preflight takes, less what its sum loses by wrapping. -/
def HelpersCovered (config : FyreConfig) (total : Scenario → Nat) (value : MachineSize → UInt32) :
    Prop :=
  ∀ locust fastTime, ReachableHelpers config locust fastTime →
    (value locust).toNat + (value fastTime).toNat +
        2 ^ 32 *
            ((largest total config.scenarios + 2 * (value config.maximumHelper).toNat) / 2 ^ 32) ≤
      2 * (value config.maximumHelper).toNat

/-- When the preflight's requirement covers every set of machines of the matrix. -/
structure CoversMatrix (config : FyreConfig) : Prop where
  totals : ∀ scenario ∈ config.scenarios, scenario.totalCpu < 2 ^ 32 ∧
    scenario.totalMemory < 2 ^ 32 ∧ (scenario.replicas.toNat + 2) * 250 < 2 ^ 32
  cpu : HelpersCovered config Scenario.totalCpu MachineSize.cpu
  memory : HelpersCovered config Scenario.totalMemory MachineSize.memoryGb

/-- One resource: the wrapping sum of the preflight is enough for every set of
machines exactly when no scenario's product wraps and the helpers are covered. -/
theorem resource_covered_iff {config : FyreConfig} {total : Scenario → Nat}
    {product : Scenario → UInt32} {value : MachineSize → UInt32}
    (hproduct : ∀ scenario, (product scenario).toNat = total scenario % 2 ^ 32)
    (hscenarios : config.scenarios ≠ [])
    (hhelpers : ∃ locust fastTime, ReachableHelpers config locust fastTime) :
    (∀ scenario ∈ config.scenarios, ∀ locust fastTime, ReachableHelpers config locust fastTime →
      total scenario + (value locust).toNat + (value fastTime).toNat ≤
        (maximumOf product config.scenarios + value config.maximumHelper +
          value config.maximumHelper).toNat) ↔
      (∀ scenario ∈ config.scenarios, total scenario < 2 ^ 32) ∧
        HelpersCovered config total value := by
  -- Without a wrapped product the preflight's maximum is the exact one.
  have hsum : (∀ scenario ∈ config.scenarios, total scenario < 2 ^ 32) →
      (maximumOf product config.scenarios + value config.maximumHelper +
        value config.maximumHelper).toNat =
          (largest total config.scenarios + 2 * (value config.maximumHelper).toNat) % 2 ^ 32 := by
    intro hsmall
    have hexact : largest (fun scenario => (product scenario).toNat) config.scenarios =
        largest total config.scenarios := by
      unfold largest
      congr 1
      refine List.map_congr_left fun scenario hscenario => ?_
      rw [hproduct, Nat.mod_eq_of_lt (hsmall scenario hscenario)]
    rw [UInt32.toNat_add, UInt32.toNat_add, toNat_maximumOf, hexact]
    omega
  constructor
  · intro hcovers
    have hsmall : ∀ scenario ∈ config.scenarios, total scenario < 2 ^ 32 := by
      intro scenario hscenario
      obtain ⟨locust, fastTime, hreachable⟩ := hhelpers
      have hle := hcovers scenario hscenario locust fastTime hreachable
      have hword := UInt32.toNat_lt (maximumOf product config.scenarios +
        value config.maximumHelper + value config.maximumHelper)
      omega
    refine ⟨hsmall, fun locust fastTime hreachable => ?_⟩
    obtain ⟨scenario, hscenario, hlargest⟩ := exists_largest total hscenarios
    have hle := hcovers scenario hscenario locust fastTime hreachable
    rw [hsum hsmall, hlargest] at hle
    omega
  · rintro ⟨hsmall, hcovered⟩ scenario hscenario locust fastTime hreachable
    have hle := hcovered locust fastTime hreachable
    have hlargest : total scenario ≤ largest total config.scenarios := le_largest hscenario
    rw [hsum hsmall]
    omega

/-- The disks and addresses of every scenario are covered exactly where no disk total overflows.
-/
theorem vmCount_covered_iff {config : FyreConfig} (hscenarios : config.scenarios ≠ []) :
    (∀ scenario ∈ config.scenarios,
      (scenario.replicas.toNat + 2) * fyreStandaloneUbuntuOsDiskGb.toNat ≤
          (requiredCapacity config).disk.toNat ∧
        scenario.replicas.toNat + 2 ≤ (requiredCapacity config).publicIps.toNat) ↔
      ∀ scenario ∈ config.scenarios, (scenario.replicas.toNat + 2) * 250 < 2 ^ 32 := by
  have hdisk : (requiredCapacity config).disk.toNat =
      ((largest (fun scenario => scenario.replicas.toNat) config.scenarios + 2) % 2 ^ 32 * 250) %
        2 ^ 32 := by
    simp [requiredCapacity, toNat_maximumOf, fyreStandaloneUbuntuOsDiskGb]
  have hips : (requiredCapacity config).publicIps.toNat =
      (largest (fun scenario => scenario.replicas.toNat) config.scenarios + 2) % 2 ^ 32 := by
    simp [requiredCapacity, toNat_maximumOf]
  have hsize : fyreStandaloneUbuntuOsDiskGb.toNat = 250 := rfl
  constructor
  · intro hcovers scenario hscenario
    obtain ⟨hle, -⟩ := hcovers scenario hscenario
    rw [hsize] at hle
    exact hle.trans_lt (UInt32.toNat_lt _)
  · intro hsmall scenario hscenario
    obtain ⟨top, htop, hlargest⟩ :=
      exists_largest (fun scenario => scenario.replicas.toNat) hscenarios
    have hbound := hsmall top htop
    have hle := @le_largest (fun scenario => scenario.replicas.toNat) _ _ hscenario
    rw [hdisk, hips, hsize]
    omega

/-- Every quota the preflight accepts fits every set of machines the matrix may
provision exactly when the requirement covers the matrix. -/
theorem quota_fits_iff {config : FyreConfig} (hvalid : validateConfig config = .ok ⟨⟩) :
    (∀ quota, ensureFyreQuota config quota = .ok ⟨⟩ →
      ∀ set, Provisionable config set → set.Fits quota) ↔ CoversMatrix config := by
  have hconfig := validateConfig_ok hvalid
  have hscenarios : config.scenarios ≠ [] := by
    obtain ⟨baseline, hbaseline, -⟩ := hconfig.baseline
    exact List.ne_nil_of_mem hbaseline
  have hhelpers : ∃ locust fastTime, ReachableHelpers config locust fastTime := by
    obtain ⟨⟨locust, fastTime⟩, hinitial⟩ := hconfig.initialHelpers
    obtain ⟨hlocust, hfastTime⟩ := initialHelperIndices_lt hconfig.helperSizes hinitial
    have hmem : ∀ index, (hindex : index < config.infrastructure.helperSizes.length) →
        config.infrastructure.helperSizes[index] ∈
          config.infrastructure.helperSizes.drop index := by
      intro index hindex
      rw [List.drop_eq_getElem_cons hindex]
      exact List.mem_cons_self
    exact ⟨_, _, locust, fastTime, hinitial, hmem locust hlocust, hmem fastTime hfastTime⟩
  have hcpu := @resource_covered_iff config Scenario.totalCpu
    (fun scenario => scenario.replicas * scenario.cpu) MachineSize.cpu
    (fun _ => UInt32.toNat_mul _ _) hscenarios hhelpers
  have hmemory := @resource_covered_iff config Scenario.totalMemory
    (fun scenario => scenario.replicas * scenario.memoryGb) MachineSize.memoryGb
    (fun _ => UInt32.toNat_mul _ _) hscenarios hhelpers
  have hcount := vmCount_covered_iff hscenarios
  constructor
  · intro hfits
    -- A quota that offers exactly what the preflight asks for.
    let required := requiredCapacity config
    let tight : FyreQuota :=
      ⟨0, "", required.cpu, 0, required.memory, 0, required.disk, 0, required.publicIps, 0⟩
    have haccepted : ensureFyreQuota config tight = .ok ⟨⟩ :=
      ensureFyreQuota_ok_iff.mpr ⟨le_refl _, le_refl _, le_refl _, le_refl _⟩
    have hset := fun scenario hscenario locust fastTime hreachable =>
      hfits tight haccepted ⟨scenario, locust, fastTime⟩ ⟨hscenario, hreachable⟩
    obtain ⟨hcpuTotals, hcpuHelpers⟩ := hcpu.mp fun scenario hscenario locust fastTime hreachable =>
      (hset scenario hscenario locust fastTime hreachable).cpu
    obtain ⟨hmemoryTotals, hmemoryHelpers⟩ :=
      hmemory.mp fun scenario hscenario locust fastTime hreachable =>
        (hset scenario hscenario locust fastTime hreachable).memory
    have hcounts := hcount.mp fun scenario hscenario => by
      obtain ⟨locust, fastTime, hreachable⟩ := hhelpers
      have hfit := hset scenario hscenario locust fastTime hreachable
      exact ⟨hfit.disk, hfit.publicIps⟩
    exact ⟨fun scenario hscenario => ⟨hcpuTotals scenario hscenario,
      hmemoryTotals scenario hscenario, hcounts scenario hscenario⟩, hcpuHelpers, hmemoryHelpers⟩
  · rintro hcovers quota haccepted ⟨scenario, locust, fastTime⟩ ⟨hscenario, hreachable⟩
    obtain ⟨hquotaCpu, hquotaMemory, hquotaDisk, hquotaIps⟩ := ensureFyreQuota_ok_iff.mp haccepted
    have htotals := hcovers.totals
    have hcounts := hcount.mpr (fun other hother => (htotals other hother).2.2) scenario hscenario
    exact {
      cpu := (hcpu.mpr ⟨fun other hother => (htotals other hother).1, hcovers.cpu⟩ scenario
        hscenario locust fastTime hreachable).trans hquotaCpu
      memory := (hmemory.mpr ⟨fun other hother => (htotals other hother).2.1, hcovers.memory⟩
        scenario hscenario locust fastTime hreachable).trans hquotaMemory
      disk := hcounts.1.trans hquotaDisk
      publicIps := hcounts.2.trans hquotaIps }

/-- In the packaged profile the largest size is the largest in each resource. -/
theorem quota_fits_packagedProfile :
    validateConfig packagedProfile = .ok ⟨⟩ ∧
      ∀ quota, ensureFyreQuota packagedProfile quota = .ok ⟨⟩ →
        ∀ set, Provisionable packagedProfile set → set.Fits quota := by
  refine ⟨validateConfig_packagedProfile,
    (quota_fits_iff validateConfig_packagedProfile).mpr ⟨by decide, ?_, ?_⟩⟩
  all_goals
    rintro locust fastTime ⟨locustIndex, fastTimeIndex, hinitial, hlocust, hfastTime⟩
    obtain ⟨rfl, rfl⟩ : 1 = locustIndex ∧ 2 = fastTimeIndex := by
      have hindices : initialHelperIndices packagedProfile = .ok (1, 2) := by rfl
      rw [hindices] at hinitial
      simpa using hinitial
    revert fastTime
    revert locust
    decide

/-- A first size with more memory than the one with more CPU. -/
def unevenProfile : FyreConfig := lowMemoryProfile [⟨4, 64⟩, ⟨16, 32⟩] none

def unevenQuota : FyreQuota := ⟨808, "benchmark", 36, 0, 68, 0, 750, 0, 3, 0⟩

/-- The accepted quota does not fit the machines of the first apply. -/
theorem quota_misses_unevenProfile :
    validateConfig unevenProfile = .ok ⟨⟩ ∧ ensureFyreQuota unevenProfile unevenQuota = .ok ⟨⟩ ∧
      ∃ set, Provisionable unevenProfile set ∧ ¬ set.Fits unevenQuota := by
  refine ⟨by rfl, by rfl, ⟨⟨"baseline", "2 vCPU / 2 GB", 1, 2, 2, 1⟩, ⟨4, 64⟩, ⟨4, 64⟩⟩,
    ⟨by decide, 0, 0, by rfl, by decide, by decide⟩, fun hfits => ?_⟩
  exact absurd hfits.memory (by decide)

end CfIntegration.Fyre
