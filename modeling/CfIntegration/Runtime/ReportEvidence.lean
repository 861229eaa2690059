import CfIntegration.Conformance.ResultSets
import CfIntegration.Runtime.ReportRegeneration

/-! # What a written report accounts for

A report is written from three trusted lanes of one run. Its rows are the scenarios of
the catalog, each with evidence from each lane.
-/

namespace CfIntegration

namespace Conformance

theorem hasUnknown_eq_false {result : ConformanceScenarioResult}
    (hknown : ∀ check ∈ result.checks, ∀ status, check.status ≠ .other status) :
    result.hasUnknown = false := by
  rw [ConformanceScenarioResult.hasUnknown, List.any_eq_false]
  intro check hcheck
  split
  · next status hstatus => exact absurd hstatus (hknown check hcheck status)
  · exact Bool.false_ne_true

/-- Some check is a failure, or it has one of the other known statuses. -/
theorem has_known_status {result : ConformanceScenarioResult} (hchecked : result.checks ≠ [])
    (hknown : ∀ check ∈ result.checks, ∀ status, check.status ≠ .other status)
    (hfailures : result.failures.isEmpty = true) :
    (result.has .success || result.has .warning || (result.has .skipped || result.has .info)) =
      true := by
  obtain ⟨check, hcheck⟩ := List.exists_mem_of_ne_nil _ hchecked
  have hhas : ∀ status, check.status = status → result.has status = true := by
    intro status hstatus
    rw [ConformanceScenarioResult.has, List.any_eq_true]
    exact ⟨check, hcheck, decide_eq_true hstatus⟩
  cases hstatus : check.status with
  | success => rw [hhas _ hstatus, Bool.true_or, Bool.true_or]
  | failure =>
      have hnone := ConformanceScenarioResult.failures_isEmpty_iff.mp hfailures
      exact absurd hstatus (hnone check hcheck)
  | warning => rw [hhas _ hstatus, Bool.or_true, Bool.true_or]
  | skipped => rw [hhas _ hstatus, Bool.true_or, Bool.or_true]
  | info => rw [hhas _ hstatus, Bool.or_true, Bool.or_true]
  | other status => exact absurd hstatus (hknown check hcheck status)

/-- Checks whose statuses are known settle the scenario. -/
theorem gatedOutcome_conclusive {result : ConformanceScenarioResult} (hchecked : result.checks ≠ [])
    (hknown : ∀ check ∈ result.checks, ∀ status, check.status ≠ .other status) :
    result.gatedOutcome.conclusive = true := by
  have houtcome : result.outcome.conclusive = true := by
    unfold ConformanceScenarioResult.outcome
    split
    · rfl
    split
    · rfl
    next hfailures =>
    rw [hasUnknown_eq_false hknown, if_neg Bool.false_ne_true]
    have hsome := has_known_status hchecked hknown (by simpa using hfailures)
    split
    · rfl
    next hpassed =>
    rw [Bool.not_eq_true] at hpassed
    rw [hpassed, Bool.false_or] at hsome
    rw [if_pos hsome]
    rfl
  rw [ConformanceScenarioResult.gatedOutcome]
  split
  · rfl
  · exact houtcome

end Conformance

namespace Runtime

open Conformance

variable {env : ReportEnv}

theorem TrustedLane.conclusive {lane : SemanticLane} {files : LaneFiles}
    {loaded : LoadedConformanceArtifact} (hlane : TrustedLane env lane files loaded)
    {scenario : String} (hscenario : scenario ∈ loaded.results.scenarios.keys) :
    (gatedOutcomeOf (loaded.results.scenarios.find? scenario)).conclusive = true := by
  obtain ⟨findings, hscored⟩ := hlane.trusted.scored
  obtain ⟨expected, -, hcovers⟩ := hlane.trusted.covers
  cases hfound : loaded.results.scenarios.find? scenario with
  | none => exact absurd hscenario (OrderedMap.find?_eq_none_iff.mp hfound)
  | some result =>
      have hentry := OrderedMap.find?_eq_some_iff.mp hfound
      exact gatedOutcome_conclusive (hcovers.checked _ hentry)
        (known_status_of_scoredFindings hscored _ hentry)

/-- The report accounts for each scenario of a catalog, and nothing in it is left open. -/
structure CoversCatalog (report : ComparisonReport) (expected : OrderedSet String) : Prop where
  rows : report.scenarios.map (·.scenario) = expected.elems
  conclusive : ∀ row ∈ report.scenarios, ∀ lane, (row.outcome lane).conclusive = true ∧
    row.outcome lane ≠ .fixtureFailure
  blamed : ∀ row ∈ report.scenarios, row.classification ≠ .ambiguous ∧
    ∀ lane, lane ∈ row.classification.blames ↔ 0 < row.failedChecks lane
  summaries : ∀ summary ∈ report.targetSummaries, summary.fixtureFailure = 0 ∧
    summary.ambiguous = 0 ∧ summary.missing = 0 ∧
      summary.compliant + summary.nonCompliant + summary.notApplicable = expected.elems.length

/-- The loaded results of each lane. -/
def laneResults (fixture builtIn external : LoadedConformanceArtifact) :
    SemanticLane → ConformanceResults
  | .fixtureDirect => fixture.results
  | .builtInDataPlane => builtIn.results
  | .externalDataPlane => external.results

variable {files : RunFiles} {fixture builtIn external : LoadedConformanceArtifact}

theorem ComparableRun.laneResults_covers (hrun : ComparableRun env files fixture builtIn external) :
    ∃ expected, expectedServerScenarios fixture.metadata.suite fixture.metadata.clientVersion =
      .ok expected ∧
        ∀ lane, (laneResults fixture builtIn external lane).scenarios.keys = expected := by
  obtain ⟨expected, hexpected, hfixture⟩ := hrun.fixtureLane.trusted.covers
  obtain ⟨builtInExpected, hbuiltInExpected, hbuiltIn⟩ := hrun.builtInLane.trusted.covers
  obtain ⟨externalExpected, hexternalExpected, hexternal⟩ := hrun.externalLane.trusted.covers
  rw [hrun.builtInRun.suite, hrun.builtInRun.clientVersion, hexpected,
    Except.ok.injEq] at hbuiltInExpected
  rw [hrun.externalRun.suite, hrun.externalRun.clientVersion, hexpected,
    Except.ok.injEq] at hexternalExpected
  subst hbuiltInExpected hexternalExpected
  refine ⟨expected, hexpected, fun lane => ?_⟩
  cases lane with
  | fixtureDirect => exact hfixture.scenarios
  | builtInDataPlane => exact hbuiltIn.scenarios
  | externalDataPlane => exact hexternal.scenarios

theorem ComparableRun.conclusive (hrun : ComparableRun env files fixture builtIn external)
    {scenario : String} {lane : SemanticLane}
    (hscenario : scenario ∈ (laneResults fixture builtIn external lane).scenarios.keys) :
    (gatedOutcomeOf ((laneResults fixture builtIn external lane).scenarios.find?
      scenario)).conclusive = true := by
  cases lane with
  | fixtureDirect => exact hrun.fixtureLane.conclusive hscenario
  | builtInDataPlane => exact hrun.builtInLane.conclusive hscenario
  | externalDataPlane => exact hrun.externalLane.conclusive hscenario

theorem count_eq_zero {target : Target} {report : ComparisonReport} {outcome : ScenarioOutcome}
    (hnone : ∀ row ∈ report.scenarios, target.outcome row ≠ outcome) :
    countBy target.outcome report.scenarios outcome = 0 := by
  rw [countBy_eq_count, List.count_eq_zero, List.mem_map]
  rintro ⟨row, hrow, heq⟩
  exact hnone row hrow heq

/-- The columns of a target are the outcomes of a lane. -/
theorem exists_lane_of_mem_targetOutcomes {target : Target} (htarget : target ∈ targetOutcomes) :
    ∃ lane, ∀ row, target.outcome row = ScenarioComparison.outcome row lane := by
  simp only [targetOutcomes, List.mem_cons, List.not_mem_nil, or_false] at htarget
  obtain rfl | rfl | rfl := htarget
  · exact ⟨.fixtureDirect, fun _ => rfl⟩
  · exact ⟨.builtInDataPlane, fun _ => rfl⟩
  · exact ⟨.externalDataPlane, fun _ => rfl⟩

theorem CoversCatalog.of_rows {report : ComparisonReport} {expected : OrderedSet String}
    (hrows : report.scenarios.map (·.scenario) = expected.elems)
    (hconclusive : ∀ row ∈ report.scenarios, ∀ lane, (row.outcome lane).conclusive = true ∧
      row.outcome lane ≠ .fixtureFailure)
    (hblamed : ∀ row ∈ report.scenarios, row.classification ≠ .ambiguous ∧
      ∀ lane, lane ∈ row.classification.blames ↔ 0 < row.failedChecks lane) :
    CoversCatalog report expected := by
  refine ⟨hrows, hconclusive, hblamed, fun summary hsummary => ?_⟩
  have htotal := ComparisonReport.scenarios_of_mem_targetSummaries hsummary
  obtain ⟨target, htarget, rfl⟩ := List.mem_map.mp hsummary
  obtain ⟨lane, hlane⟩ := exists_lane_of_mem_targetOutcomes htarget
  have hfixture : (report.targetSummary target).fixtureFailure = 0 :=
    count_eq_zero fun row hrow => by
      rw [hlane]
      exact (hconclusive row hrow lane).2
  have hopen : ∀ outcome : ScenarioOutcome, outcome.conclusive = false →
      countBy target.outcome report.scenarios outcome = 0 := by
    refine fun outcome houtcome => count_eq_zero fun row hrow heq => ?_
    rw [hlane] at heq
    have hrowConclusive := (hconclusive row hrow lane).1
    rw [heq, houtcome] at hrowConclusive
    cases hrowConclusive
  have hambiguous : (report.targetSummary target).ambiguous = 0 := hopen .ambiguous rfl
  have hmissing : (report.targetSummary target).missing = 0 := hopen .missing rfl
  refine ⟨hfixture, hambiguous, hmissing, ?_⟩
  have hlength : report.scenarios.length = expected.elems.length := by
    rw [← hrows, List.length_map]
  rw [TargetSummary.scenarios, hfixture, hambiguous, hmissing, hlength] at htotal
  simpa using htotal

/-- A written report has a row for each scenario of the catalog of its run, evidence from
each lane in every row, and no scenario that its totals leave unaccounted for. -/
theorem writeComparisonFromArtifacts_covers {paths : ConformancePaths}
    {expectedRun : Option (String × ConformanceServerEra × String)} {report : ComparisonReport}
    (hcompare : env.compareResultSets = compareResultSets)
    (hwritten : writeComparisonFromArtifacts env files paths expectedRun = .ok report) :
    ∃ expected, expectedServerScenarios report.suite report.clientVersion = .ok expected ∧
      CoversCatalog report expected := by
  obtain ⟨fixture, builtIn, external, hrun, -, -, rfl⟩ :=
    writeComparisonFromArtifacts_ok_iff.mp hwritten
  obtain ⟨expected, hexpected, hkeys⟩ := hrun.laneResults_covers
  refine ⟨expected, hexpected, ?_⟩
  have hscenarios : (comparisonReport env fixture builtIn external).scenarios =
      compareResultSets (laneResults fixture builtIn external .fixtureDirect)
        (laneResults fixture builtIn external .builtInDataPlane)
        (laneResults fixture builtIn external .externalDataPlane) :=
    congrFun (congrFun (congrFun hcompare _) _) _
  have hsorted := sorted_compareResultSets (laneResults fixture builtIn external)
  have hnamed : ∀ scenario, scenario ∈ (comparisonReport env fixture builtIn external).scenarios.map
      (·.scenario) ↔ scenario ∈ expected := by
    intro scenario
    rw [hscenarios, List.mem_map]
    refine (exists_row_iff (laneResults fixture builtIn external)).trans ?_
    simp only [hkeys]
    exact ⟨fun hsome => hsome.elim fun _ hmem => hmem, fun hmem => ⟨.fixtureDirect, hmem⟩⟩
  have hconclusive : ∀ row ∈ (comparisonReport env fixture builtIn external).scenarios, ∀ lane,
      (row.outcome lane).conclusive = true ∧ row.outcome lane ≠ .fixtureFailure := by
    intro row hrow lane
    have hscenario := (hnamed row.scenario).mp (List.mem_map_of_mem hrow)
    rw [hscenarios] at hrow
    obtain ⟨scenario, -, rfl⟩ := (mem_compareResultSets _).mp hrow
    rw [outcome_compareLanes]
    exact ⟨hrun.conclusive ((hkeys lane).symm ▸ hscenario), gatedOutcomeOf_ne_fixtureFailure _⟩
  refine .of_rows ?_ hconclusive fun row hrow => ?_
  · rw [← hscenarios] at hsorted
    exact congrArg OrderedSet.elems
      (@OrderedSet.ext_mem _ _ ⟨_, hsorted⟩ expected hnamed)
  · have hcompares := compares_of_mem (laneResults fixture builtIn external) (hscenarios ▸ hrow)
    have hclosed : row.classification ≠ .ambiguous := by
      intro hambiguous
      obtain ⟨lane, hlane⟩ := hcompares.ambiguous.mp hambiguous
      rw [(hconclusive row hrow lane).1] at hlane
      cases hlane
    exact ⟨hclosed, hcompares.blamed hclosed⟩

/-- An environment that compares the results it has loaded. -/
def comparedEnv : ReportEnv :=
  { renamedEnv with compareResultSets := compareResultSets }

theorem writeComparisonFromArtifacts_covers_stable :
    ∃ report, writeComparisonFromArtifacts comparedEnv renamedFiles renamedPaths none = .ok report ∧
      ∃ expected, expectedServerScenarios report.suite report.clientVersion = .ok expected ∧
        CoversCatalog report expected := by
  have hlane : ∀ lane, ∃ loaded,
      TrustedLane comparedEnv lane (renamedFiles .server lane) loaded ∧
        loaded.metadata = stableMetadata lane := by
    intro lane
    obtain ⟨loaded, hloaded, hmetadata⟩ := renamedLane lane
    exact ⟨loaded, ⟨hloaded.parsed, hloaded.trusted⟩, hmetadata⟩
  obtain ⟨fixture, hfixture, hfixtureNames⟩ := hlane .fixtureDirect
  obtain ⟨builtIn, hbuiltIn, hbuiltInNames⟩ := hlane .builtInDataPlane
  obtain ⟨external, hexternal, hexternalNames⟩ := hlane .externalDataPlane
  have hrun : ComparableRun comparedEnv renamedFiles fixture builtIn external := by
    refine ⟨hfixture, hbuiltIn, hexternal, ?_, ?_⟩
    · rw [hfixtureNames, hbuiltInNames]
      exact ⟨rfl, rfl, rfl, rfl, rfl⟩
    · rw [hfixtureNames, hexternalNames]
      exact ⟨rfl, rfl, rfl, rfl, rfl⟩
  have hexpected : ExpectedRun none fixture.metadata := nofun
  have hwritten : writeComparisonFromArtifacts comparedEnv renamedFiles renamedPaths none =
      .ok (comparisonReport comparedEnv fixture builtIn external) :=
    writeComparisonFromArtifacts_ok_iff.mpr
      ⟨fixture, builtIn, external, hrun, hexpected, rfl, rfl⟩
  exact ⟨_, hwritten, writeComparisonFromArtifacts_covers rfl hwritten⟩

end Runtime

end CfIntegration
