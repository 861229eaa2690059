import Mathlib.Data.List.Nodup
import Mathlib.Data.List.ReduceOption
import CfIntegration.Fyre.CapacitySoundness

/-! # The report of a campaign

The report reads the results that a campaign left under the ids of its scenarios, and
puts them in relation to one of them. It stops at a missing result and at a division by
zero.
-/

namespace CfIntegration.Fyre

open Capacity

/-- The measured traffic of one lane at one level. -/
structure Traffic where
  requests : Nat
  failures : Nat
  rps : ℚ
  p50Ms : ℚ
  p95Ms : ℚ
  p99Ms : ℚ
  deriving DecidableEq, Repr

structure ComparisonPhase where
  users : Nat
  traffic : Traffic
  deriving DecidableEq, Repr

structure ComparisonResult where
  status : String
  rust : List ComparisonPhase
  builtin : List ComparisonPhase
  deriving DecidableEq, Repr

/-- The runs of a lane, in the order of the levels; none when a run fails or raises. -/
def laneRuns (onePhase : Nat → Option Traffic) : List UInt32 → Option (List ComparisonPhase)
  | [] => some []
  | users :: rest =>
      match onePhase users.toNat with
      | some traffic =>
          if traffic.failures = 0 then
            (laneRuns onePhase rest).map fun later => ⟨users.toNat, traffic⟩ :: later
          else none
      | none => none

/-- The result of a comparison all of whose runs pass. -/
def fixedComparison (rust builtin : Nat → Option Traffic) (config : FyreConfig) :
    Option ComparisonResult :=
  match laneRuns rust config.workload.userLevels, laneRuns builtin config.workload.userLevels with
  | some rust, some builtin => some ⟨"confirmed", rust, builtin⟩
  | _, _ => none

/-- The content of a result file. -/
inductive ResultFile where
  | scaling (result : SearchResult)
  | comparison (result : ComparisonResult)
  deriving DecidableEq, Repr

def ResultFile.status : ResultFile → String
  | .scaling (.confirmed _) => "confirmed"
  | .scaling .inconclusive => "inconclusive"
  | .scaling _ => "failed"
  | .comparison result => result.status

inductive ReportError where
  | runtime (message : String)
  | key (name : String)
  | index
  | zeroDivision
  deriving DecidableEq, Repr

/-- The measured values of a scaling result. -/
def ResultFile.measured : ResultFile → Except ReportError ConfirmedResult
  | .scaling (.confirmed result) => .ok result
  | _ => .error (.key "rps")

structure ComparisonRow where
  users : Nat
  builtIn : Traffic
  external : Traffic
  externalVsBuiltIn : ℚ
  deriving DecidableEq, Repr

structure ScalingRow where
  scenario : Scenario
  totalCpu : Nat
  totalMemoryGb : Nat
  result : ConfirmedResult
  speedup : ℚ
  efficiency : ℚ
  rpsPerVcpu : ℚ
  horizontalAdvantage : Option ℚ
  deriving DecidableEq, Repr

inductive Summary where
  | comparison (rows : List ComparisonRow)
  | scaling (rows : List ScalingRow)
  deriving DecidableEq, Repr

/-- The table takes its columns from the first row. -/
def requireRows {α : Type} (rows : List α) : Except ReportError (List α) :=
  if rows = [] then .error .index else .ok rows

/-- A text with every occurrence of a part replaced, from the left; `skip` characters belong to
the last one. -/
def replaceFrom (part replacement : List Char) : Nat → List Char → List Char
  | _, [] => []
  | skip + 1, _ :: rest => replaceFrom part replacement skip rest
  | 0, char :: rest =>
      if part.isPrefixOf (char :: rest) then
        replacement ++ replaceFrom part replacement (part.length - 1) rest
      else char :: replaceFrom part replacement 0 rest

def verticalId (id : String) : String :=
  String.ofList (replaceFrom "horizontal".toList "vertical".toList 0 id.toList)

section Report

variable (floating : Floating)

def reportDivide (first second : ℚ) : Except ReportError ℚ :=
  if second = 0 then .error .zeroDivision else .ok (floating.div first second)

/-- The last run of a lane with so many users. -/
def laneItem (runs : List ComparisonPhase) (users : Nat) : Except ReportError Traffic :=
  match runs.reverse.find? fun phase => phase.users = users with
  | some phase => .ok phase.traffic
  | none => .error (.key (toString users))

def comparisonRow (result : ComparisonResult) (users : UInt32) :
    Except ReportError ComparisonRow := do
  let builtin ← laneItem result.builtin users.toNat
  let rust ← laneItem result.rust users.toNat
  let ratio ← reportDivide floating rust.rps builtin.rps
  return ⟨users.toNat, builtin, rust, ratio⟩

def comparisonReport (config : FyreConfig) (results : String → Option ResultFile) :
    Except ReportError Summary :=
  match results "comparison" with
  | none => .error (.runtime "comparison result is required")
  | some file =>
      if file.status ≠ "confirmed" then
        .error (.runtime "all eight comparison benchmarks must pass before reporting")
      else
        match file with
        | .scaling _ => .error (.key "runs")
        | .comparison result => do
            let rows ← config.workload.userLevels.mapM (comparisonRow floating result)
            let rows ← requireRows rows
            return .comparison rows

/-- The result that was loaded for a scenario of the configuration. -/
def loadedResult (config : FyreConfig) (results : String → Option ResultFile) (id : String) :
    Option ResultFile :=
  if id ∈ config.scenarios.map Scenario.id then results id else none

def horizontalAdvantage (config : FyreConfig) (results : String → Option ResultFile) (id : String)
    (rps : ℚ) : Except ReportError (Option ℚ) :=
  if "horizontal-".toList.isPrefixOf id.toList then
    match loadedResult config results (verticalId id) with
    | none => .ok none
    | some file =>
        if file.status = "confirmed" then do
          let vertical ← file.measured
          let advantage ← reportDivide floating rps vertical.rps
          return some advantage
        else .ok none
  else .ok none

def scalingRow (config : FyreConfig) (results : String → Option ResultFile) (baseline : ℚ)
    (scenario : Scenario) : Except ReportError (Option ScalingRow) :=
  match loadedResult config results scenario.id with
  | none => .ok none
  | some file =>
      if file.status ≠ "confirmed" then .ok none
      else do
        let totalCpu := scenario.replicas.toNat * scenario.cpu.toNat
        let result ← file.measured
        let speedup ← reportDivide floating result.rps baseline
        let efficiency ← reportDivide floating speedup scenario.multiplier.toNat
        let rpsPerVcpu ← reportDivide floating result.rps totalCpu
        let advantage ← horizontalAdvantage floating config results scenario.id result.rps
        return some {
          scenario := scenario
          totalCpu := totalCpu
          totalMemoryGb := scenario.replicas.toNat * scenario.memoryGb.toNat
          result := result
          speedup := speedup
          efficiency := efficiency
          rpsPerVcpu := rpsPerVcpu
          horizontalAdvantage := advantage }

def scalingReport (config : FyreConfig) (results : String → Option ResultFile) :
    Except ReportError Summary :=
  match loadedResult config results "baseline" with
  | none => .error (.runtime "baseline result is required to calculate scaling")
  | some file => do
      let baseline ← file.measured
      let rows ← config.scenarios.mapM (scalingRow floating config results baseline.rps)
      let rows ← requireRows rows.reduceOption
      return .scaling rows

/-- The report up to the writing of `summary.json` and `summary.csv`. -/
def report (config : FyreConfig) (results : String → Option ResultFile) :
    Except ReportError Summary :=
  if config.benchmarkKind = "comparison" then comparisonReport floating config results
  else scalingReport floating config results

/-- The result that a scenario ends with when it is confirmed. -/
def Confirms (config : FyreConfig) (file : ResultFile) : Prop :=
  if config.benchmarkKind = "comparison" then
    ∃ rust builtin result, fixedComparison rust builtin config = some result ∧
      file = .comparison result
  else
    ∃ env fuel result,
      ((capacitySearch floating env config.workload fuel).run .initial).1 =
        .ok (.confirmed result) ∧ file = .scaling (.confirmed result)

/-- A campaign in which all scenarios end confirmed, each under its own id. -/
structure Campaign (config : FyreConfig) (results : String → Option ResultFile) : Prop where
  confirmed : ∀ scenario ∈ config.scenarios, ∃ file,
    results scenario.id = some file ∧ Confirms floating config file
  only : ∀ id file, results id = some file → id ∈ config.scenarios.map Scenario.id

/-- A scaling campaign names a scenario `baseline`. A comparison names its scenario
`comparison`, and the built-in lane had traffic at every level. -/
def Reportable (config : FyreConfig) (results : String → Option ResultFile) : Prop :=
  (config.benchmarkKind = "scaling" → "baseline" ∈ config.scenarios.map Scenario.id) ∧
  (config.benchmarkKind = "comparison" → "comparison" ∈ config.scenarios.map Scenario.id ∧
    ∀ result, results "comparison" = some (.comparison result) →
      ∀ phase ∈ result.builtin, phase.traffic.rps ≠ 0)

end Report

section Confirmed

variable {floating : Floating} {env : SearchEnv} {workload : WorkloadConfig}

/-- A confirmed candidate has as many phases as the workload repeats. -/
theorem confirmLoop_repetitions (total fuel : Nat) (candidate : Passing)
    (failures : List ConfirmationFailure) (start : SearchState) :
    (confirmLoop floating env workload total fuel candidate failures).Ensures start
      fun result _ => ∀ confirmed, result = .ok (some confirmed) →
        confirmed.confirmations.length = workload.repetitions.toNat := by
  induction fuel generalizing candidate failures start with
  | zero => exact fun _ hok => by cases hok
  | succ fuel ih =>
      refine (confirmRound_ensures _ _ [] start).bind ?_ fun _ _ _ _ hok => by cases hok
      rintro ⟨phases, passed⟩ state ⟨hpassed, -⟩
      dsimp only
      split
      next htrue =>
        obtain ⟨hlength, -⟩ := hpassed phases (by rw [htrue])
        intro confirmed hok
        cases hok
        simpa using hlength
      · refine update_then ?_
        have hrefined : (refineBelow floating env workload total candidate.users).Ensures
            { state with failing := some candidate.users } fun _ _ => True := trivial
        refine hrefined.bind (fun refined after _ => ?_) fun _ _ _ _ hok => by cases hok
        cases refined with
        | none => exact fun _ hok => by cases hok
        | some refined => exact ih refined _ after

/-- The spread of the repetitions is not computed without traffic. -/
theorem coefficientOfVariation_ensures {values : List ℚ} (hlength : 1 < values.length)
    (start : SearchState) :
    (coefficientOfVariation floating values).Ensures start fun result _ =>
      ∀ variation, result = .ok variation → floating.fmean values ≠ 0 := by
  unfold coefficientOfVariation divide
  rw [if_pos hlength]
  split
  · exact fun _ hok => by cases hok
  next hmean => exact fun _ _ => hmean

/-- A summary of two or more phases has a rate other than zero, since their deviation was divided
by it. -/
theorem summarize_rps {boundary : Option PlateauBoundary} {confirmed : Confirmed}
    (hlength : 1 < confirmed.confirmations.length) (start : SearchState) :
    (summarize floating env workload boundary confirmed).Ensures start fun result _ =>
      ∀ summary, result = .ok (.confirmed summary) → summary.rps ≠ 0 := by
  unfold summarize
  dsimp only
  split
  · exact fun _ hok => by cases hok
  · refine readState_then ?_
    split
    · exact fun _ hok => by cases hok
    · exact fun _ hok => by cases hok
    · split
      · exact fun _ hok => by cases hok
      · have hvalues : 1 < (confirmed.confirmations.map Phase.rps).length := by
          rwa [List.length_map]
        refine (coefficientOfVariation_ensures hvalues start).bind ?_
          fun _ _ _ _ hok => by cases hok
        intro variation state hmean summary hok
        cases hok
        exact hmean variation rfl

/-- A capacity confirmed by several repetitions is not zero. -/
theorem capacitySearch_rps (hrepetitions : 1 < workload.repetitions.toNat) (fuel : Nat) :
    (capacitySearch floating env workload fuel).Ensures .initial fun result _ =>
      ∀ summary, result = .ok (.confirmed summary) → summary.rps ≠ 0 := by
  have hgrowth : (growthLoop floating env workload fuel (firstUsers workload) []).Ensures .initial
      fun _ _ => True := trivial
  refine hgrowth.bind (fun plateau state _ => ?_) fun _ _ _ _ hok => by cases hok
  refine readState_then ?_
  split
  · exact fun _ hok => by cases hok
  have hfound : (findCandidate floating env workload fuel plateau).Ensures state
      fun _ _ => True := trivial
  refine hfound.bind (fun found after _ => ?_) fun _ _ _ _ hok => by cases hok
  split
  · exact fun _ hok => by cases hok
  next candidate boundary =>
    refine (confirmLoop_repetitions fuel fuel candidate [] after).bind ?_
      fun _ _ _ _ hok => by cases hok
    intro outcome last hlast
    split
    · exact fun _ hok => by cases hok
    next confirmed =>
      exact summarize_rps (by rw [hlast confirmed rfl]; exact hrepetitions) last

end Confirmed

/-- The runs of a lane have the levels it was given, in order. -/
theorem laneRuns_users {onePhase : Nat → Option Traffic} {levels : List UInt32}
    {runs : List ComparisonPhase} (hruns : laneRuns onePhase levels = some runs) :
    runs.map ComparisonPhase.users = levels.map UInt32.toNat := by
  induction levels generalizing runs with
  | nil =>
      cases hruns
      rfl
  | cons users rest ih =>
      unfold laneRuns at hruns
      split at hruns
      · split at hruns
        · obtain ⟨later, hlater, rfl⟩ := Option.map_eq_some_iff.mp hruns
          rw [List.map_cons, List.map_cons, ih hlater]
        · cases hruns
      · cases hruns

/-- A level that was measured once is found. -/
theorem laneItem_of_mem {runs : List ComparisonPhase}
    (hnodup : (runs.map ComparisonPhase.users).Nodup) {phase : ComparisonPhase}
    (hphase : phase ∈ runs) : laneItem runs phase.users = .ok phase.traffic := by
  unfold laneItem
  split
  next found hfound =>
    have husers : found.users = phase.users := by simpa using List.find?_some hfound
    have hmem : found ∈ runs := List.mem_reverse.mp (List.mem_of_find?_eq_some hfound)
    rw [List.inj_on_of_nodup_map hnodup hmem hphase husers]
  next hnone =>
    have hother := List.find?_eq_none.mp hnone phase (List.mem_reverse.mpr hphase)
    exact absurd (decide_eq_true rfl) hother

/-- The runs of both lanes, one for each level. -/
theorem fixedComparison_eq_some {rust builtin : Nat → Option Traffic} {config : FyreConfig}
    {result : ComparisonResult} (hresult : fixedComparison rust builtin config = some result) :
    result.status = "confirmed" ∧
      result.rust.map ComparisonPhase.users = config.workload.userLevels.map UInt32.toNat ∧
      result.builtin.map ComparisonPhase.users = config.workload.userLevels.map UInt32.toNat := by
  unfold fixedComparison at hresult
  split at hresult
  next hrust hbuiltin =>
    cases hresult
    exact ⟨rfl, laneRuns_users hrust, laneRuns_users hbuiltin⟩
  · cases hresult

section Reports

variable {floating : Floating} {config : FyreConfig} {results : String → Option ResultFile}

/-- A scaling campaign has a confirmed result with a rate for each scenario. -/
theorem Campaign.scaling (hcampaign : Campaign floating config results)
    (hkind : config.benchmarkKind ≠ "comparison") (hrepetitions : config.workload.repetitions = 3)
    {scenario : Scenario} (hscenario : scenario ∈ config.scenarios) :
    ∃ result, loadedResult config results scenario.id = some (.scaling (.confirmed result)) ∧
      result.rps ≠ 0 := by
  obtain ⟨file, hfile, hconfirms⟩ := hcampaign.confirmed scenario hscenario
  rw [Confirms, if_neg hkind] at hconfirms
  obtain ⟨env, fuel, result, hsearch, rfl⟩ := hconfirms
  have hseveral : 1 < config.workload.repetitions.toNat := by
    rw [hrepetitions]
    decide
  refine ⟨result, ?_, capacitySearch_rps hseveral fuel result hsearch⟩
  rw [loadedResult, if_pos (List.mem_map_of_mem hscenario), hfile]

/-- A comparison campaign has the runs of both lanes at every level. -/
theorem Campaign.comparison (hcampaign : Campaign floating config results)
    (hkind : config.benchmarkKind = "comparison")
    (hid : "comparison" ∈ config.scenarios.map Scenario.id) :
    ∃ result, results "comparison" = some (.comparison result) ∧ result.status = "confirmed" ∧
      result.rust.map ComparisonPhase.users = config.workload.userLevels.map UInt32.toNat ∧
      result.builtin.map ComparisonPhase.users = config.workload.userLevels.map UInt32.toNat := by
  obtain ⟨scenario, hscenario, hid⟩ := List.mem_map.mp hid
  obtain ⟨file, hfile, hconfirms⟩ := hcampaign.confirmed scenario hscenario
  rw [Confirms, if_pos hkind] at hconfirms
  obtain ⟨rust, builtin, result, hresult, rfl⟩ := hconfirms
  rw [hid] at hfile
  exact ⟨result, hfile, fixedComparison_eq_some hresult⟩

@[simp] theorem reportDivide_eq_ok {first second result : ℚ} :
    reportDivide floating first second = .ok result ↔
      second ≠ 0 ∧ floating.div first second = result := by
  unfold reportDivide
  split <;> simp_all

theorem requireRows_eq_ok {α : Type} {rows result : List α} :
    requireRows rows = .ok result ↔ rows ≠ [] ∧ rows = result := by
  unfold requireRows
  split <;> simp_all

/-- The vertical scenario is left out or confirmed. -/
theorem Campaign.horizontalAdvantage (hcampaign : Campaign floating config results)
    (hkind : config.benchmarkKind ≠ "comparison") (hrepetitions : config.workload.repetitions = 3)
    (id : String) (rps : ℚ) :
    ∃ advantage, Fyre.horizontalAdvantage floating config results id rps = .ok advantage := by
  unfold Fyre.horizontalAdvantage
  split
  · split
    · exact ⟨_, rfl⟩
    next file hfile =>
      have hvertical : verticalId id ∈ config.scenarios.map Scenario.id := by
        unfold loadedResult at hfile
        split at hfile
        next hvertical => exact hvertical
        · cases hfile
      obtain ⟨scenario, hscenario, hid⟩ := List.mem_map.mp hvertical
      obtain ⟨result, hresult, hrps⟩ := hcampaign.scaling hkind hrepetitions hscenario
      rw [hid, hfile] at hresult
      cases hresult
      refine ⟨some (floating.div rps result.rps), ?_⟩
      have hstatus : (ResultFile.scaling (.confirmed result)).status = "confirmed" := rfl
      rw [if_pos hstatus]
      exact except_bind_eq_ok.mpr ⟨result, rfl, except_bind_eq_ok.mpr
        ⟨_, reportDivide_eq_ok.mpr ⟨hrps, rfl⟩, rfl⟩⟩
  · exact ⟨_, rfl⟩

/-- Every valid scenario of a scaling campaign has a row. -/
theorem Campaign.scalingRow (hcampaign : Campaign floating config results)
    (hkind : config.benchmarkKind ≠ "comparison") (hrepetitions : config.workload.repetitions = 3)
    {baseline : ℚ} (hbaseline : baseline ≠ 0) {scenario : Scenario}
    (hscenario : scenario ∈ config.scenarios) (hvalid : ValidScenario scenario) :
    ∃ row, Fyre.scalingRow floating config results baseline scenario = .ok (some row) := by
  obtain ⟨result, hresult, -⟩ := hcampaign.scaling hkind hrepetitions hscenario
  obtain ⟨advantage, hadvantage⟩ :=
    hcampaign.horizontalAdvantage hkind hrepetitions scenario.id result.rps
  have hreplicas := UInt32.lt_iff_toNat_lt.mp hvalid.replicas
  have hcpu := UInt32.lt_iff_toNat_lt.mp hvalid.cpu
  have hmultiplier := UInt32.lt_iff_toNat_lt.mp hvalid.multiplier
  have htotal : ((scenario.replicas.toNat * scenario.cpu.toNat : Nat) : ℚ) ≠ 0 := by
    exact_mod_cast (Nat.mul_pos hreplicas hcpu).ne'
  have hfactor : ((scenario.multiplier.toNat : Nat) : ℚ) ≠ 0 := by
    exact_mod_cast hmultiplier.ne'
  unfold Fyre.scalingRow
  rw [hresult]
  have hstatus : (ResultFile.scaling (.confirmed result)).status = "confirmed" := rfl
  dsimp only
  rw [if_neg (not_not.mpr hstatus)]
  refine ⟨_, except_bind_eq_ok.mpr ⟨result, rfl, except_bind_eq_ok.mpr
    ⟨_, reportDivide_eq_ok.mpr ⟨hbaseline, rfl⟩, except_bind_eq_ok.mpr
    ⟨_, reportDivide_eq_ok.mpr ⟨hfactor, rfl⟩, except_bind_eq_ok.mpr
    ⟨_, reportDivide_eq_ok.mpr ⟨htotal, rfl⟩, except_bind_eq_ok.mpr
    ⟨advantage, hadvantage, rfl⟩⟩⟩⟩⟩⟩

/-- A scaling campaign is reported exactly where it has a baseline. -/
theorem scalingReport_iff (hvalid : ValidConfig config)
    (hcampaign : Campaign floating config results)
    (hkind : config.benchmarkKind ≠ "comparison") (hrepetitions : config.workload.repetitions = 3) :
    (∃ summary, scalingReport floating config results = .ok summary) ↔
      "baseline" ∈ config.scenarios.map Scenario.id := by
  constructor
  · rintro ⟨summary, hsummary⟩
    unfold scalingReport loadedResult at hsummary
    by_contra habsent
    rw [if_neg habsent] at hsummary
    cases hsummary
  · intro hbaseline
    obtain ⟨scenario, hscenario, hid⟩ := List.mem_map.mp hbaseline
    obtain ⟨result, hresult, hrps⟩ := hcampaign.scaling hkind hrepetitions hscenario
    have hrow : ∀ other ∈ config.scenarios, ∃ row,
        Fyre.scalingRow floating config results result.rps other = .ok (some row) :=
      fun other hother =>
        hcampaign.scalingRow hkind hrepetitions hrps hother (hvalid.scenarios other hother)
    obtain ⟨rows, hrows⟩ := except_mapM_of_forall fun other hother =>
      (hrow other hother).imp' some fun _ => id
    have hnonempty : rows.reduceOption ≠ [] := by
      obtain ⟨row, hrow⟩ := hrow scenario hscenario
      obtain ⟨output, houtput, heq⟩ := forall₂_mem_left (except_mapM_eq_ok.mp hrows) hscenario
      rw [hrow] at heq
      cases heq
      exact List.ne_nil_of_mem (List.reduceOption_mem_iff.mpr houtput)
    rw [hid] at hresult
    unfold scalingReport
    rw [hresult]
    exact ⟨_, except_bind_eq_ok.mpr ⟨result, rfl, except_bind_eq_ok.mpr ⟨rows, hrows,
      except_bind_eq_ok.mpr ⟨_, requireRows_eq_ok.mpr ⟨hnonempty, rfl⟩, rfl⟩⟩⟩⟩

/-- The row of a level joins the traffic of both lanes. -/
theorem comparisonRow_ok {result : ComparisonResult} {users : UInt32} {builtin rust : Traffic}
    (hbuiltin : laneItem result.builtin users.toNat = .ok builtin)
    (hrust : laneItem result.rust users.toNat = .ok rust) :
    (∃ row, comparisonRow floating result users = .ok row) ↔ builtin.rps ≠ 0 := by
  unfold comparisonRow
  constructor
  · rintro ⟨row, hrow⟩
    obtain ⟨first, hfirst, hrow⟩ := except_bind_eq_ok.mp hrow
    obtain ⟨second, _, hrow⟩ := except_bind_eq_ok.mp hrow
    obtain ⟨ratio, hratio, _⟩ := except_bind_eq_ok.mp hrow
    obtain rfl : builtin = first := Except.ok.inj (hbuiltin.symm.trans hfirst)
    exact (reportDivide_eq_ok.mp hratio).1
  · intro hrps
    exact ⟨_, except_bind_eq_ok.mpr ⟨builtin, hbuiltin, except_bind_eq_ok.mpr ⟨rust, hrust,
      except_bind_eq_ok.mpr ⟨_, reportDivide_eq_ok.mpr ⟨hrps, rfl⟩, rfl⟩⟩⟩⟩

/-- Every level has its run in a lane, and every run its level. -/
theorem laneItem_of_level {runs : List ComparisonPhase} {levels : List UInt32}
    (hruns : runs.map ComparisonPhase.users = levels.map UInt32.toNat) (hlevels : levels.Nodup) :
    (∀ users ∈ levels, ∃ phase ∈ runs, laneItem runs users.toNat = .ok phase.traffic) ∧
      ∀ phase ∈ runs, ∃ users ∈ levels, laneItem runs users.toNat = .ok phase.traffic := by
  have hnodup : (runs.map ComparisonPhase.users).Nodup := by
    rw [hruns]
    exact List.Nodup.map (fun _ _ => UInt32.toNat_inj.mp) hlevels
  refine ⟨fun users husers => ?_, fun phase hphase => ?_⟩
  · have hmem : users.toNat ∈ runs.map ComparisonPhase.users := by
      rw [hruns]
      exact List.mem_map_of_mem husers
    obtain ⟨phase, hphase, hsame⟩ := List.mem_map.mp hmem
    exact ⟨phase, hphase, hsame ▸ laneItem_of_mem hnodup hphase⟩
  · have hmem : phase.users ∈ levels.map UInt32.toNat := by
      rw [← hruns]
      exact List.mem_map_of_mem hphase
    obtain ⟨users, husers, hsame⟩ := List.mem_map.mp hmem
    exact ⟨users, husers, hsame ▸ laneItem_of_mem hnodup hphase⟩

/-- A comparison at the packaged levels is reported exactly where its scenario is named so and the
built-in lane had a rate at every level. -/
theorem comparisonReport_iff (hcampaign : Campaign floating config results)
    (hkind : config.benchmarkKind = "comparison")
    (hlevels : config.workload.userLevels = [125, 250, 500, 1000]) :
    (∃ summary, comparisonReport floating config results = .ok summary) ↔
      "comparison" ∈ config.scenarios.map Scenario.id ∧
        ∀ result, results "comparison" = some (.comparison result) →
          ∀ phase ∈ result.builtin, phase.traffic.rps ≠ 0 := by
  have hnodup : config.workload.userLevels.Nodup := by
    rw [hlevels]
    decide
  by_cases hid : "comparison" ∈ config.scenarios.map Scenario.id
  · obtain ⟨result, hresult, hstatus, hrust, hbuiltin⟩ := hcampaign.comparison hkind hid
    have hstatus : (ResultFile.comparison result).status = "confirmed" := hstatus
    obtain ⟨hrustLevels, -⟩ := laneItem_of_level hrust hnodup
    obtain ⟨hbuiltinLevels, hbuiltinRuns⟩ := laneItem_of_level hbuiltin hnodup
    unfold comparisonReport
    rw [hresult]
    dsimp only
    rw [if_neg (not_not.mpr hstatus)]
    constructor
    · rintro ⟨summary, hsummary⟩
      refine ⟨hid, fun other hother phase hphase => ?_⟩
      cases hother
      -- A row divides by the builtin rate of its level.
      obtain ⟨rows, hrows, _⟩ := except_bind_eq_ok.mp hsummary
      obtain ⟨users, husers, hitem⟩ := hbuiltinRuns phase hphase
      obtain ⟨rust, _, hrustItem⟩ := hrustLevels users husers
      obtain ⟨row, _, hrow⟩ := forall₂_mem_left (except_mapM_eq_ok.mp hrows) husers
      exact (comparisonRow_ok hitem hrustItem).mp ⟨row, hrow⟩
    · rintro ⟨-, htraffic⟩
      have hrow : ∀ users ∈ config.workload.userLevels,
          ∃ row, comparisonRow floating result users = .ok row := fun users husers => by
        obtain ⟨builtin, hmem, hitem⟩ := hbuiltinLevels users husers
        obtain ⟨rust, _, hrustItem⟩ := hrustLevels users husers
        exact (comparisonRow_ok hitem hrustItem).mpr (htraffic result rfl builtin hmem)
      obtain ⟨rows, hrows⟩ := except_mapM_of_forall hrow
      have hnonempty : rows ≠ [] := by
        rintro rfl
        have hlength := (except_mapM_eq_ok.mp hrows).length_eq
        rw [hlevels] at hlength
        cases hlength
      exact ⟨_, except_bind_eq_ok.mpr ⟨rows, hrows,
        except_bind_eq_ok.mpr ⟨_, requireRows_eq_ok.mpr ⟨hnonempty, rfl⟩, rfl⟩⟩⟩
  -- Without the scenario there is no result to report.
  · have hnone : results "comparison" = none := by
      cases hfile : results "comparison" with
      | none => rfl
      | some file => exact absurd (hcampaign.only _ file hfile) hid
    refine ⟨?_, fun hreportable => absurd hreportable.1 hid⟩
    rintro ⟨summary, hsummary⟩
    unfold comparisonReport at hsummary
    rw [hnone] at hsummary
    cases hsummary

/-- After a confirmed campaign the report succeeds exactly when the scenario it looks for has
the id it looks for, and it divides by no zero throughput. -/
theorem report_iff (hvalid : validateConfig config = .ok ⟨⟩)
    (hcampaign : Campaign floating config results) :
    (∃ summary, report floating config results = .ok summary) ↔ Reportable config results := by
  have hconfig := validateConfig_ok hvalid
  unfold report Reportable
  rcases hconfig.kind with ⟨hkind, hrepetitions⟩ | ⟨hkind, hlevels, -⟩
  · have hother : config.benchmarkKind ≠ "comparison" := by
      rw [hkind]
      decide
    rw [if_neg hother, scalingReport_iff hconfig hcampaign hother hrepetitions]
    exact ⟨fun hbaseline => ⟨fun _ => hbaseline, fun hcomparison => absurd hcomparison hother⟩,
      fun hreportable => hreportable.1 hkind⟩
  · have hother : config.benchmarkKind ≠ "scaling" := by
      rw [hkind]
      decide
    rw [if_pos hkind, comparisonReport_iff hcampaign hkind hlevels]
    exact ⟨fun hcomparison => ⟨fun hscaling => absurd hscaling hother, fun _ => hcomparison⟩,
      fun hreportable => hreportable.2 hkind⟩

end Reports

/-- A comparison on one machine, under some id. -/
def comparisonProfile (id : String) (size : MachineSize) : FyreConfig where
  schemaVersion := 1
  benchmarkKind := "comparison"
  infrastructure := ⟨"Ubuntu 24.04", 12, [⟨4, 16⟩, ⟨8, 32⟩, ⟨16, 32⟩], some ⟨⟨4, 16⟩, ⟨8, 32⟩⟩⟩
  images := ⟨"contextforge-data-plane@sha256:0b", some "cf-integration-fixture@sha256:5b",
    "cfex-mcp-fast-time-server@sha256:11", "cf-integration-helpers@sha256:f7", "locust@sha256:fd",
    some "postgres@sha256:4e", "redis@sha256:a7"⟩
  workload := ⟨"2026-07-28", [125, 250, 500, 1000], 125, 1000, 3600, 1, 36000, 5, 25 / 2,
    expectedTools⟩
  scenarios := [⟨id, "Built-in dataplane vs external dataplane", 1, size.cpu, size.memoryGb, 1⟩]

def steadyTraffic (_ : Nat) : Option Traffic := some ⟨1000, 0, 10, 1, 2, 3⟩

def steadyResult : ComparisonResult where
  status := "confirmed"
  rust := [125, 250, 500, 1000].map fun users => ⟨users, ⟨1000, 0, 10, 1, 2, 3⟩⟩
  builtin := [125, 250, 500, 1000].map fun users => ⟨users, ⟨1000, 0, 10, 1, 2, 3⟩⟩

def steadyResults (id : String) (name : String) : Option ResultFile :=
  if name = id then some (.comparison steadyResult) else none

theorem campaign_steady (floating : Floating) (id : String) (size : MachineSize) :
    Campaign floating (comparisonProfile id size) (steadyResults id) where
  confirmed scenario hscenario := by
    cases List.mem_singleton.mp hscenario
    refine ⟨.comparison steadyResult, if_pos rfl, ?_⟩
    have hkind : (comparisonProfile id size).benchmarkKind = "comparison" := rfl
    rw [Confirms, if_pos hkind]
    exact ⟨steadyTraffic, steadyTraffic, steadyResult, by rfl, rfl⟩
  only name file hfile := by
    unfold steadyResults at hfile
    split at hfile
    next hname => exact List.mem_singleton.mpr hname
    · cases hfile

theorem report_comparison : validateConfig (comparisonProfile "comparison" ⟨4, 4⟩) = .ok ⟨⟩ ∧
    ∃ summary, report (.exact fun _ => 0) (comparisonProfile "comparison" ⟨4, 4⟩)
      (steadyResults "comparison") = .ok summary := by
  refine ⟨by rfl, (report_iff (by rfl) (campaign_steady _ _ _)).mpr ⟨nofun, fun _ =>
    ⟨List.mem_singleton.mpr rfl, fun result hresult phase hphase => ?_⟩⟩⟩
  cases hresult
  obtain ⟨users, _, rfl⟩ := List.mem_map.mp hphase
  norm_num

/-- The report of the packaged two-core profile finds no result under the id it looks for. -/
theorem report_comparison2v2 :
    validateConfig (comparisonProfile "comparison-2v2" ⟨2, 2⟩) = .ok ⟨⟩ ∧
      Campaign (.exact fun _ => 0) (comparisonProfile "comparison-2v2" ⟨2, 2⟩)
        (steadyResults "comparison-2v2") ∧
      ¬ ∃ summary, report (.exact fun _ => 0) (comparisonProfile "comparison-2v2" ⟨2, 2⟩)
        (steadyResults "comparison-2v2") = .ok summary := by
  refine ⟨by rfl, campaign_steady _ _ _, ?_⟩
  rintro ⟨summary, hsummary⟩
  cases hsummary

end CfIntegration.Fyre
