import CfIntegration.Conformance.Baseline
import CfIntegration.Conformance.Outcome
import CfIntegration.Runtime.Run

/-! # The result table

After the comparisons of one matrix entry are known, its scenarios are printed lane
by lane with a status each, and a summary counts the statuses. The gate looks at the
comparisons alone. A difference from a baseline turns a row red only where a scenario
of its name has a row.
-/

namespace CfIntegration.Runtime

open Conformance

/-- Human-readable status for one test or scenario. -/
inductive TestStatus where
  | pass
  | expectedFailure
  | unexpectedPass
  | fail
  | skip
  | unknown
  deriving DecidableEq, Repr

def TestStatus.label : TestStatus → String
  | .pass => "PASS"
  | .expectedFailure => "XFAIL"
  | .unexpectedPass => "XPASS"
  | .fail => "FAIL"
  | .skip => "SKIP"
  | .unknown => "UNKNOWN"

/-- A text filled up with blanks on its left. -/
def alignRight (width : Nat) (text : String) : String :=
  "".pushn ' ' (width - text.length) ++ text

structure OutputStyle where
  color : Bool
  deriving DecidableEq, Repr

namespace OutputStyle

def ansi (style : OutputStyle) (text code : String) : String :=
  if style.color then code ++ text ++ "\x1b[0m" else text

def info (style : OutputStyle) (text : String) : String := style.ansi text "\x1b[36m"
def heading (style : OutputStyle) (text : String) : String := style.ansi text "\x1b[1;36m"
def success (style : OutputStyle) (text : String) : String := style.ansi text "\x1b[32m"
def successHeading (style : OutputStyle) (text : String) : String := style.ansi text "\x1b[1;32m"
def failure (style : OutputStyle) (text : String) : String := style.ansi text "\x1b[31m"
def failureHeading (style : OutputStyle) (text : String) : String := style.ansi text "\x1b[1;31m"
def warning (style : OutputStyle) (text : String) : String := style.ansi text "\x1b[33m"
def unknown (style : OutputStyle) (text : String) : String := style.ansi text "\x1b[35m"
def unknownHeading (style : OutputStyle) (text : String) : String := style.ansi text "\x1b[1;35m"

/-- One aligned test result line; `elapsed` is in seconds with three decimals. -/
def testResult (style : OutputStyle) (status : TestStatus) (name : String)
    (elapsed : Option String) (position : Option (Nat × Nat)) : String :=
  let label := alignRight 12 status.label
  let label := match status with
    | .pass => style.success label
    | .expectedFailure | .skip => style.warning label
    | .unexpectedPass | .fail => style.failure label
    | .unknown => style.unknown label
  let elapsed := match elapsed with
    | none => ""
    | some seconds => s!" [{alignRight 8 seconds}s]"
  let position := match position with
    | none => ""
    | some (current, total) => s!" ({current}/{total})"
  s!"{label}{elapsed}{position} {name}"

end OutputStyle

def ConformanceOperationalFailure.testName (failure : ConformanceOperationalFailure) : String :=
  let lane := (failure.lane.map SemanticLane.slug).getD "matrix"
  s!"{failure.direction.label}::{lane}::{failure.stage}"

def findingsMention (findings : List ScoredFinding) (scenario : String) : Bool :=
  findings.any (·.scenario = scenario)

/-- The status by the outcome of the scenario alone. -/
def outcomeStatus (result : ConformanceScenarioResult) (compared : Bool) : TestStatus :=
  match result.gatedOutcome with
  | .compliant => .pass
  | .nonCompliant | .fixtureFailure => if compared then .expectedFailure else .fail
  | .notApplicable => .skip
  | .ambiguous | .missing => .unknown

def conformanceTestStatus (result : ConformanceScenarioResult)
    (comparison : Option BaselineComparison) (blessing : Bool) : TestStatus :=
  match comparison with
  | none => outcomeStatus result false
  | some comparison =>
      if !blessing && findingsMention comparison.unexpected result.scenario then .fail
      else if !blessing && findingsMention comparison.stale result.scenario then .unexpectedPass
      else if findingsMention comparison.actual result.scenario then .expectedFailure
      else outcomeStatus result true

structure ConformanceGateDisplay where
  comparisons : Option (List BaselineComparison)
  operationalFailures : List ConformanceOperationalFailure
  blessing : Bool

/-- The comparison of a lane, where there is one. -/
def ConformanceGateDisplay.comparison (gate : ConformanceGateDisplay) (lane : SemanticLane) :
    Option BaselineComparison :=
  gate.comparisons.bind fun comparisons => comparisons.find? (·.lane = lane)

/-- What has been printed so far, and how often each status has. -/
structure ConformanceTable where
  passed : Nat
  expectedFailures : Nat
  unexpectedPasses : Nat
  failed : Nat
  skipped : Nat
  ambiguous : Nat
  output : String
  deriving DecidableEq, Repr

namespace ConformanceTable

def empty : ConformanceTable := ⟨0, 0, 0, 0, 0, 0, ""⟩

def count (table : ConformanceTable) : TestStatus → ConformanceTable
  | .pass => { table with passed := table.passed + 1 }
  | .expectedFailure => { table with expectedFailures := table.expectedFailures + 1 }
  | .unexpectedPass => { table with unexpectedPasses := table.unexpectedPasses + 1 }
  | .fail => { table with failed := table.failed + 1 }
  | .skip => { table with skipped := table.skipped + 1 }
  | .unknown => { table with ambiguous := table.ambiguous + 1 }

def writeLine (table : ConformanceTable) (line : String) : ConformanceTable :=
  { table with output := table.output ++ line ++ "\n" }

end ConformanceTable

section Render

variable (clientVersion : String) (serverEra : ConformanceServerEra)
  (direction : ConformanceDirection) (gate : ConformanceGateDisplay) (style : OutputStyle)

def divider : String := style.info "────────────"

/-- The lines above the rows of a lane, or above the operational failures. -/
def blockHeading (heading : String) : String :=
  s!"{divider style}\n{heading}\n Client era: {clientEraForVersion clientVersion} [{
    clientVersion}]\n Server era: {serverEra.label} [{serverEra.protocolVersionsLabel}]"

/-- The row of a scenario and its count. -/
def renderScenario (lane : SemanticLane) (total : Nat) (table : ConformanceTable)
    (row : ConformanceScenarioResult × Nat) : ConformanceTable :=
  let (result, index) := row
  let status := conformanceTestStatus result (gate.comparison lane) gate.blessing
  let name := s!"{direction.label}::{lane.slug}::{result.scenario}"
  (table.count status).writeLine (style.testResult status name none (some (index + 1, total)))

def renderLane (table : ConformanceTable) (entry : SemanticLane × ConformanceResults) :
    ConformanceTable :=
  let (lane, laneResults) := entry
  let heading := style.heading s!" MCP {direction.label} conformance results: {lane.label}"
  laneResults.scenarios.values.zipIdx.foldl
    (renderScenario direction gate style lane laneResults.scenarios.entries.length)
    (table.writeLine (blockHeading clientVersion serverEra style heading))

def renderOperationalFailure (table : ConformanceTable)
    (row : ConformanceOperationalFailure × Nat) : ConformanceTable :=
  let (failure, index) := row
  let position := (index + 1, gate.operationalFailures.length)
  ((table.count .fail).writeLine
    (style.testResult .fail failure.testName none (some position))).writeLine
      s!"             {failure.message}"

def renderOperationalFailures (table : ConformanceTable) : ConformanceTable :=
  if gate.operationalFailures.isEmpty then table
  else
    let heading := style.failureHeading
      s!" MCP {direction.label} conformance operational failures"
    gate.operationalFailures.zipIdx.foldl (renderOperationalFailure gate style)
      (table.writeLine (blockHeading clientVersion serverEra style heading))

/-- The lanes that produced results, in their order. -/
def laneEntries (results : LaneResults) : List (SemanticLane × ConformanceResults) :=
  allConformanceLanes.filterMap fun lane => (results lane).map (lane, ·)

/-- Everything above the summary. -/
def conformanceTable (results : LaneResults) : ConformanceTable :=
  renderOperationalFailures clientVersion serverEra direction gate style
    ((laneEntries results).foldl
      (renderLane clientVersion serverEra direction gate style) ConformanceTable.empty)

def summaryHeading (table : ConformanceTable) : String :=
  if table.failed > 0 ∨ table.unexpectedPasses > 0 then style.failureHeading "Summary"
  else if table.ambiguous > 0 then style.unknownHeading "Summary"
  else style.successHeading "Summary"

def renderConformanceResults (results : LaneResults) (elapsed : String) : String :=
  let table := conformanceTable clientVersion serverEra direction gate style results
  table.output ++ s!"{divider style}\n     {summaryHeading style table} [{
    alignRight 8 elapsed}s] {table.passed} passed, {table.expectedFailures} xfailed, {
    table.unexpectedPasses} xpassed, {table.failed} failed, {table.skipped} skipped, {
    table.ambiguous} unknown"

end Render

/-- A status that turns the summary red. -/
def TestStatus.IsRed (status : TestStatus) : Prop := status = .fail ∨ status = .unexpectedPass

instance (status : TestStatus) : Decidable status.IsRed := inferInstanceAs (Decidable (_ ∨ _))

/-- A failed or unexpectedly passing row has been counted. -/
def ConformanceTable.IsRed (table : ConformanceTable) : Prop :=
  0 < table.failed ∨ 0 < table.unexpectedPasses

instance (table : ConformanceTable) : Decidable table.IsRed :=
  inferInstanceAs (Decidable (_ ∨ _))

/-- How many rows with the status have been counted. -/
def ConformanceTable.counted (table : ConformanceTable) : TestStatus → Nat
  | .pass => table.passed
  | .expectedFailure => table.expectedFailures
  | .unexpectedPass => table.unexpectedPasses
  | .fail => table.failed
  | .skip => table.skipped
  | .unknown => table.ambiguous

theorem ConformanceTable.counted_count (table : ConformanceTable) (status other : TestStatus) :
    (table.count status).counted other = table.counted other + [status].count other := by
  cases status <;> cases other <;> rfl

@[simp] theorem ConformanceTable.counted_writeLine (table : ConformanceTable) (line : String)
    (status : TestStatus) : (table.writeLine line).counted status = table.counted status := by
  cases status <;> rfl

/-- The statuses of the rows of a lane. -/
def laneStatuses (gate : ConformanceGateDisplay) (entry : SemanticLane × ConformanceResults) :
    List TestStatus :=
  entry.2.scenarios.values.map fun result =>
    conformanceTestStatus result (gate.comparison entry.1) gate.blessing

/-- The statuses of all rows. -/
def shownStatuses (gate : ConformanceGateDisplay) (results : LaneResults) : List TestStatus :=
  (laneEntries results).flatMap (laneStatuses gate) ++
    List.replicate gate.operationalFailures.length .fail

/-- The summary of rows with these statuses, after its divider. -/
def summaryOf (style : OutputStyle) (elapsed : String) (statuses : List TestStatus) : String :=
  let heading :=
    if ∃ status ∈ statuses, status.IsRed then style.failureHeading "Summary"
    else if .unknown ∈ statuses then style.unknownHeading "Summary"
    else style.successHeading "Summary"
  s!"\n     {heading} [{alignRight 8 elapsed}s] {statuses.count .pass} passed, {
    statuses.count .expectedFailure} xfailed, {statuses.count .unexpectedPass} xpassed, {
    statuses.count .fail} failed, {statuses.count .skip} skipped, {
    statuses.count .unknown} unknown"

section Red

variable {clientVersion : String} {serverEra : ConformanceServerEra}
  {direction : ConformanceDirection} {gate : ConformanceGateDisplay} {style : OutputStyle}

theorem counted_renderLane (table : ConformanceTable)
    (entry : SemanticLane × ConformanceResults) (status : TestStatus) :
    (renderLane clientVersion serverEra direction gate style table entry).counted status =
      table.counted status + (laneStatuses gate entry).count status := by
  have hrows : ∀ (rows : List (ConformanceScenarioResult × Nat)) (table : ConformanceTable) total,
      (rows.foldl (renderScenario direction gate style entry.1 total) table).counted status =
        table.counted status + ((rows.map Prod.fst).map fun result =>
          conformanceTestStatus result (gate.comparison entry.1) gate.blessing).count status := by
    intro rows
    induction rows with
    | nil => intro table total; rfl
    | cons row rows ih =>
        intro table total
        rw [List.foldl_cons, ih, renderScenario, ConformanceTable.counted_writeLine,
          ConformanceTable.counted_count, Nat.add_assoc, ← List.count_append]
        rfl
  rw [renderLane, hrows, ConformanceTable.counted_writeLine, List.zipIdx_map_fst]
  rfl

theorem counted_renderOperationalFailures (table : ConformanceTable) (status : TestStatus) :
    (renderOperationalFailures clientVersion serverEra direction gate style table).counted status =
      table.counted status +
        (List.replicate gate.operationalFailures.length TestStatus.fail).count status := by
  have hrows : ∀ (rows : List (ConformanceOperationalFailure × Nat)) (table : ConformanceTable),
      (rows.foldl (renderOperationalFailure gate style) table).counted status =
        table.counted status + (List.replicate rows.length TestStatus.fail).count status := by
    intro rows
    induction rows with
    | nil => intro table; rfl
    | cons row rows ih =>
        intro table
        rw [List.foldl_cons, ih, renderOperationalFailure, ConformanceTable.counted_writeLine,
          ConformanceTable.counted_writeLine, ConformanceTable.counted_count, Nat.add_assoc,
          ← List.count_append]
        rfl
  unfold renderOperationalFailures
  split
  next hnone =>
    rw [List.isEmpty_iff.mp hnone]
    rfl
  next => rw [hrows, ConformanceTable.counted_writeLine, List.length_zipIdx]

theorem counted_conformanceTable (results : LaneResults) (status : TestStatus) :
    (conformanceTable clientVersion serverEra direction gate style results).counted status =
      (shownStatuses gate results).count status := by
  have hlanes : ∀ (entries : List (SemanticLane × ConformanceResults)) (table : ConformanceTable),
      (entries.foldl (renderLane clientVersion serverEra direction gate style) table).counted
          status = table.counted status + (entries.flatMap (laneStatuses gate)).count status := by
    intro entries
    induction entries with
    | nil => intro table; rfl
    | cons entry entries ih =>
        intro table
        rw [List.foldl_cons, ih, counted_renderLane, List.flatMap_cons, List.count_append,
          Nat.add_assoc]
  have hempty : ConformanceTable.empty.counted status = 0 := by cases status <;> rfl
  rw [conformanceTable, counted_renderOperationalFailures, hlanes, hempty, Nat.zero_add,
    shownStatuses, List.count_append]

/-- The table is red exactly when the status of some row is. -/
theorem conformanceTable_isRed_iff_shown {results : LaneResults} :
    (conformanceTable clientVersion serverEra direction gate style results).IsRed ↔
      ∃ status ∈ shownStatuses gate results, status.IsRed := by
  change 0 < (conformanceTable clientVersion serverEra direction gate style results).counted
      .fail ∨
    0 < (conformanceTable clientVersion serverEra direction gate style results).counted
      .unexpectedPass ↔ _
  rw [counted_conformanceTable, counted_conformanceTable, List.count_pos_iff, List.count_pos_iff]
  constructor
  · rintro (hfail | hpass)
    · exact ⟨_, hfail, .inl rfl⟩
    · exact ⟨_, hpass, .inr rfl⟩
  · rintro ⟨_, hstatus, rfl | rfl⟩
    · exact .inl hstatus
    · exact .inr hstatus

/-- Without operational failures the table is red exactly when some row of a lane is. -/
theorem conformanceTable_isRed {results : LaneResults}
    (hoperational : gate.operationalFailures = []) :
    (conformanceTable clientVersion serverEra direction gate style results).IsRed ↔
      ∃ lane laneResults, results lane = some laneResults ∧
        ∃ result ∈ laneResults.scenarios.values,
          (conformanceTestStatus result (gate.comparison lane) gate.blessing).IsRed := by
  rw [conformanceTable_isRed_iff_shown, shownStatuses, hoperational, List.length_nil,
    List.replicate_zero, List.append_nil]
  constructor
  · rintro ⟨status, hstatus, hred⟩
    obtain ⟨⟨lane, laneResults⟩, hentry, hrow⟩ := List.mem_flatMap.mp hstatus
    obtain ⟨result, hresult, rfl⟩ := List.mem_map.mp hrow
    obtain ⟨_, _, hresults⟩ := List.mem_filterMap.mp hentry
    obtain ⟨_, hresults, heq⟩ := Option.map_eq_some_iff.mp hresults
    cases heq
    exact ⟨lane, laneResults, hresults, result, hresult, hred⟩
  · rintro ⟨lane, laneResults, hresults, result, hresult, hred⟩
    refine ⟨_, List.mem_flatMap.mpr ⟨(lane, laneResults), List.mem_filterMap.mpr
      ⟨lane, mem_allConformanceLanes lane, ?_⟩, List.mem_map_of_mem hresult⟩, hred⟩
    rw [hresults, Option.map_some]

/-- The summary below the rows counts their statuses. Its heading is that of a failure exactly
when a row, and with it the table, is red. -/
theorem renderConformanceResults_summary (results : LaneResults) (elapsed : String) :
    renderConformanceResults clientVersion serverEra direction gate style results elapsed =
      (conformanceTable clientVersion serverEra direction gate style results).output ++
        (divider style ++ summaryOf style elapsed (shownStatuses gate results)) := by
  have hcounted := @counted_conformanceTable clientVersion serverEra direction gate style results
  have hred :=
    @conformanceTable_isRed_iff_shown clientVersion serverEra direction gate style results
  have hheading : summaryHeading style
      (conformanceTable clientVersion serverEra direction gate style results) =
        if ∃ status ∈ shownStatuses gate results, status.IsRed then style.failureHeading "Summary"
        else if .unknown ∈ shownStatuses gate results then style.unknownHeading "Summary"
        else style.successHeading "Summary" := by
    unfold summaryHeading
    refine if_congr hred rfl (if_congr ?_ rfl rfl)
    rw [← List.count_pos_iff, ← hcounted]
    rfl
  unfold renderConformanceResults summaryOf
  simp only [hheading, ← hcounted, ConformanceTable.counted]
  simp only [toString, String.append_assoc]

theorem findingsMention_iff {findings : List ScoredFinding} {scenario : String} :
    findingsMention findings scenario = true ↔
      ∃ finding ∈ findings, finding.scenario = scenario := by
  simp [findingsMention]

/-- A lane that was not compared shows its non-compliant scenarios as failed. -/
theorem conformanceTestStatus_none_isRed {result : ConformanceScenarioResult} {blessing : Bool} :
    (conformanceTestStatus result none blessing).IsRed ↔ result.gatedOutcome = .nonCompliant := by
  have hfixture := result.gatedOutcome_ne_fixtureFailure
  unfold conformanceTestStatus outcomeStatus TestStatus.IsRed
  cases houtcome : result.gatedOutcome <;> simp_all

/-- A compared scenario is red exactly when some difference is on it. -/
theorem conformanceTestStatus_some_isRed {result : ConformanceScenarioResult}
    {comparison : BaselineComparison} :
    (conformanceTestStatus result (some comparison) false).IsRed ↔
      ∃ finding ∈ comparison.unexpected ++ comparison.stale,
        finding.scenario = result.scenario := by
  have hplain : ¬ (outcomeStatus result true).IsRed := by
    unfold outcomeStatus TestStatus.IsRed
    cases result.gatedOutcome <;> simp
  simp only [List.mem_append, or_and_right, exists_or, ← findingsMention_iff]
  unfold conformanceTestStatus
  simp only [Bool.not_false, Bool.true_and]
  split
  next hunexpected => simp [hunexpected, TestStatus.IsRed]
  next hunexpected =>
    split
    next hstale => simp [hstale, TestStatus.IsRed]
    next hstale =>
      simp only [hunexpected, hstale, Bool.false_eq_true, or_self, iff_false]
      split
      · simp [TestStatus.IsRed]
      · exact hplain

end Red

section Agreement

variable (codec : YamlCodec) (direction : ConformanceDirection) (results : LaneResults)
  (baselines : BaselineView) (clientVersion : String) (serverEra : ConformanceServerEra)
  (selectedLanes : List SemanticLane)

/-- The lane has a row under the scenario's name. -/
def ShowsScenario (lane : SemanticLane) (scenario : String) : Prop :=
  ∃ laneResults, results lane = some laneResults ∧
    ∃ result ∈ laneResults.scenarios.values, result.scenario = scenario

/-- A selected lane differs from its baseline on a scenario it has a row for. -/
def ShownDifference : Prop :=
  ∃ lane ∈ selectedLanes, ∃ finding,
    BaselineDifference codec direction results baselines clientVersion serverEra lane finding ∧
      ShowsScenario results lane finding.scenario

/-- A selected lane differs from its baseline on a scenario it has no row for. -/
def HiddenDifference : Prop :=
  ∃ lane ∈ selectedLanes, ∃ finding,
    BaselineDifference codec direction results baselines clientVersion serverEra lane finding ∧
      ¬ ShowsScenario results lane finding.scenario

/-- A lane that is not compared has a scenario with a failed check. -/
def UncomparedFailure : Prop :=
  ∃ lane laneResults, lane ∉ selectedLanes ∧ results lane = some laneResults ∧
    ∃ result ∈ laneResults.scenarios.values, ∃ check ∈ result.checks, check.status = .failure

/-- The comparison of some rendered lane does not match. -/
def RedGate (comparisons : List BaselineComparison) : Prop :=
  ∃ comparison ∈ comparisons, (results comparison.lane).isSome = true ∧
    comparison.matches = false

variable {codec direction results baselines clientVersion serverEra selectedLanes}

theorem redGate_iff {evaluation : BaselineEvaluation}
    (hevaluated : evaluateBaselines codec direction results selectedLanes baselines clientVersion
      serverEra false = .ok evaluation) :
    RedGate results evaluation.comparisons ↔
      ShownDifference codec direction results baselines clientVersion serverEra selectedLanes ∨
      HiddenDifference codec direction results baselines clientVersion serverEra
        selectedLanes := by
  obtain ⟨hselected, hcompared⟩ := evaluateBaselines_find? hevaluated
  constructor
  · rintro ⟨comparison, hcomparison, _, hmatches⟩
    obtain ⟨finding, hfinding⟩ := BaselineComparison.matches_eq_false_iff.mp hmatches
    obtain ⟨hlane, hfind⟩ := hcompared comparison hcomparison
    obtain ⟨_, _, hfound, hdifferences⟩ := hselected comparison.lane hlane
    cases hfind.symm.trans hfound
    have hdifference := (hdifferences finding).mp hfinding
    by_cases hshown : ShowsScenario results comparison.lane finding.scenario
    · exact .inl ⟨comparison.lane, hlane, finding, hdifference, hshown⟩
    · exact .inr ⟨comparison.lane, hlane, finding, hdifference, hshown⟩
  · intro hdifferent
    obtain ⟨lane, hlane, finding, hdifference⟩ : ∃ lane ∈ selectedLanes, ∃ finding,
        BaselineDifference codec direction results baselines clientVersion serverEra lane
          finding := by
      rcases hdifferent with ⟨lane, hlane, finding, hdifference, _⟩ |
        ⟨lane, hlane, finding, hdifference, _⟩ <;>
      exact ⟨lane, hlane, finding, hdifference⟩
    obtain ⟨comparison, hcomparison, hfind, hdifferences⟩ := hselected lane hlane
    have hsame : comparison.lane = lane := by simpa using List.find?_some hfind
    refine ⟨comparison, hcomparison, ?_, ?_⟩
    · obtain ⟨_, laneResults, _, _, _, hresults, _⟩ := hdifference
      rw [hsame, hresults, Option.isSome_some]
    · exact BaselineComparison.matches_eq_false_iff.mpr
        ⟨finding, (hdifferences finding).mpr hdifference⟩

theorem conformanceTable_isRed_iff {evaluation : BaselineEvaluation} (style : OutputStyle)
    (hevaluated : evaluateBaselines codec direction results selectedLanes baselines clientVersion
      serverEra false = .ok evaluation) :
    (conformanceTable clientVersion serverEra direction ⟨some evaluation.comparisons, [], false⟩
        style results).IsRed ↔
      ShownDifference codec direction results baselines clientVersion serverEra selectedLanes ∨
      UncomparedFailure results selectedLanes := by
  obtain ⟨hselected, hcompared⟩ := evaluateBaselines_find? hevaluated
  have huncompared : ∀ lane ∉ selectedLanes,
      evaluation.comparisons.find? (·.lane = lane) = none := by
    intro lane hlane
    refine List.find?_eq_none.mpr fun comparison hcomparison hsame => hlane ?_
    rw [← decide_eq_true_iff.mp hsame]
    exact (hcompared comparison hcomparison).1
  rw [conformanceTable_isRed rfl]
  simp only [ConformanceGateDisplay.comparison, Option.bind_some]
  constructor
  · rintro ⟨lane, laneResults, hresults, result, hresult, hred⟩
    by_cases hlane : lane ∈ selectedLanes
    · obtain ⟨_, _, hfind, hdifferences⟩ := hselected lane hlane
      rw [hfind, conformanceTestStatus_some_isRed] at hred
      obtain ⟨finding, hfinding, hscenario⟩ := hred
      exact .inl ⟨lane, hlane, finding, (hdifferences finding).mp hfinding, laneResults, hresults,
        result, hresult, hscenario.symm⟩
    · rw [huncompared lane hlane, conformanceTestStatus_none_isRed,
        ConformanceScenarioResult.gatedOutcome_eq_nonCompliant_iff] at hred
      exact .inr ⟨lane, laneResults, hlane, hresults, result, hresult, hred⟩
  · rintro (⟨lane, hlane, finding, hdifference, laneResults, hresults, result, hresult, hscenario⟩ |
      ⟨lane, laneResults, hlane, hresults, result, hresult, hfailed⟩)
    · obtain ⟨_, _, hfind, hdifferences⟩ := hselected lane hlane
      refine ⟨lane, laneResults, hresults, result, hresult, ?_⟩
      rw [hfind, conformanceTestStatus_some_isRed]
      exact ⟨finding, (hdifferences finding).mpr hdifference, hscenario.symm⟩
    · refine ⟨lane, laneResults, hresults, result, hresult, ?_⟩
      rwa [huncompared lane hlane, conformanceTestStatus_none_isRed,
        ConformanceScenarioResult.gatedOutcome_eq_nonCompliant_iff]

/-- The table and the gate agree exactly when some difference has a row, or the
differences without one and the failures without a comparison come together. -/
theorem renderConformanceResults_agrees_iff {evaluation : BaselineEvaluation} (style : OutputStyle)
    (hevaluated : evaluateBaselines codec direction results selectedLanes baselines clientVersion
      serverEra false = .ok evaluation) :
    ((conformanceTable clientVersion serverEra direction ⟨some evaluation.comparisons, [], false⟩
          style results).IsRed ↔
        RedGate results evaluation.comparisons) ↔
      ShownDifference codec direction results baselines clientVersion serverEra selectedLanes ∨
      (HiddenDifference codec direction results baselines clientVersion serverEra selectedLanes ↔
        UncomparedFailure results selectedLanes) := by
  rw [conformanceTable_isRed_iff style hevaluated, redGate_iff hevaluated]
  tauto

/-- Where every lane is compared and every baseline only lists scenarios its lane ran,
loaded results are displayed as they are gated. -/
theorem renderConformanceResults_agrees {evaluation : BaselineEvaluation} (style : OutputStyle)
    (hevaluated : evaluateBaselines codec direction results results.keys baselines clientVersion
      serverEra false = .ok evaluation)
    (hshown : ¬ HiddenDifference codec direction results baselines clientVersion serverEra
      results.keys) :
    (conformanceTable clientVersion serverEra direction ⟨some evaluation.comparisons, [], false⟩
        style results).IsRed ↔ RedGate results evaluation.comparisons := by
  refine (renderConformanceResults_agrees_iff style hevaluated).mpr (.inr (iff_of_false hshown ?_))
  rintro ⟨lane, laneResults, hlane, hresults, _⟩
  exact hlane (LaneResults.mem_keys.mpr (by rw [hresults, Option.isSome_some]))

end Agreement

/-- A finding on a scenario that the current catalog has no longer. -/
def retiredFinding : ScoredFinding := ⟨"ping", "ping-response", "Ping", .failure⟩

def retiredSource : Bytes := utf8Bytes
  "findings:\n- scenario: ping\n  check: ping-response\n  name: Ping\n  status: FAILURE\n".toList

def retiredCodec : YamlCodec := YamlCodec.single ⟨[retiredFinding]⟩ retiredSource

def retiredBaselines : BaselineView := fun _ => .file retiredSource

/-- A lane whose only scenario passes. -/
def passingLane : ConformanceResults where
  scenarios := OrderedMap.empty.insert "tools-list"
    ⟨"tools-list", [⟨"tools-list-response", some "Tools list", .success, [], none⟩], []⟩

def passingResults : LaneResults
  | .fixtureDirect => some passingLane
  | _ => none

def retiredEvaluation : BaselineEvaluation where
  comparisons := [⟨.fixtureDirect, [], [retiredFinding], [], [retiredFinding]⟩]
  updates := []

theorem evaluateBaselines_retired :
    evaluateBaselines retiredCodec .server passingResults [.fixtureDirect] retiredBaselines
      defaultMcpSpecVersion .dual false = .ok retiredEvaluation := by
  decide +kernel

/-- The gate is red, and the table counts one passed scenario and nothing else. -/
theorem renderConformanceResults_hides_stale :
    evaluateBaselines retiredCodec .server passingResults [.fixtureDirect] retiredBaselines
        defaultMcpSpecVersion .dual false = .ok retiredEvaluation ∧
      RedGate passingResults retiredEvaluation.comparisons ∧
      ¬ (conformanceTable defaultMcpSpecVersion .dual .server
        ⟨some retiredEvaluation.comparisons, [], false⟩ ⟨false⟩ passingResults).IsRed :=
  ⟨evaluateBaselines_retired, ⟨_, List.mem_singleton_self _, rfl, rfl⟩, by decide +kernel⟩

/-- The equivalence on the retired scenario. -/
theorem renderConformanceResults_agrees_iff_retired :
    ((conformanceTable defaultMcpSpecVersion .dual .server
          ⟨some retiredEvaluation.comparisons, [], false⟩ ⟨false⟩ passingResults).IsRed ↔
        RedGate passingResults retiredEvaluation.comparisons) ↔
      ShownDifference retiredCodec .server passingResults retiredBaselines defaultMcpSpecVersion
        .dual [.fixtureDirect] ∨
      (HiddenDifference retiredCodec .server passingResults retiredBaselines
          defaultMcpSpecVersion .dual [.fixtureDirect] ↔
        UncomparedFailure passingResults [.fixtureDirect]) :=
  renderConformanceResults_agrees_iff ⟨false⟩ evaluateBaselines_retired

end CfIntegration.Runtime
