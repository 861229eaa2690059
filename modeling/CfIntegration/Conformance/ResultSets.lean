import CfIntegration.Foundation.KeyedSort
import CfIntegration.Conformance.Comparison

/-! # Comparing result sets

The results of the three lanes are set side by side, scenario by scenario. Each row has the
outcome of each lane, what the outcomes together say, and the specification references of
all checks.
-/

namespace CfIntegration.Conformance

/-- Classify the outcomes of the direct fixture and of the two dataplanes. -/
def classifyOutcomes (fixture builtInDataPlane externalDataPlane : ScenarioOutcome) :
    ComparisonClassification :=
  if fixture = .fixtureFailure ∨ builtInDataPlane = .fixtureFailure ∨
      externalDataPlane = .fixtureFailure then .fixtureFailure
  else if fixture ∈ [.ambiguous, .missing] ∨ builtInDataPlane ∈ [.ambiguous, .missing] ∨
      externalDataPlane ∈ [.ambiguous, .missing] then .ambiguous
  else if fixture = .notApplicable ∧ builtInDataPlane = .notApplicable ∧
      externalDataPlane = .notApplicable then .notApplicable
  else match decide (fixture = .nonCompliant), decide (builtInDataPlane = .nonCompliant),
      decide (externalDataPlane = .nonCompliant) with
    | false, false, false => .allCompliant
    | true, false, false => .fixtureOnlyFailure
    | false, true, false => .builtInDataPlaneOnlyFailure
    | false, false, true => .externalDataPlaneOnlyFailure
    | true, true, false => .fixtureAndBuiltInDataPlaneFailure
    | true, false, true => .fixtureAndExternalDataPlaneFailure
    | false, true, true => .gatewaysOnlyFailure
    | true, true, true => .sharedFailure

def failedCheckCount (result : Option ConformanceScenarioResult) : Nat :=
  match result with
  | none => 0
  | some result => (result.checks.filter (·.status = .failure)).length

/-- A reference as it is handed to the JSON library, its own fields first. -/
def SpecReference.toValue (reference : SpecReference) : Mcp.Value :=
  .object (("id", .string reference.id) :: ("url", reference.url.elim .null .string) ::
    reference.extensions.entries.map fun entry => (entry.1, entry.2.val))

def referenceKey (reference : SpecReference) : String :=
  String.ofList (Mcp.writeValue reference.toValue)

def sortAndDeduplicateReferences (references : List SpecReference) : List SpecReference :=
  KeyedSort.sortDedup referenceKey references

def gatedOutcomeOf (result : Option ConformanceScenarioResult) : ScenarioOutcome :=
  match result with
  | none => .missing
  | some result => result.gatedOutcome

def appendReferences (output : List SpecReference) (result : ConformanceScenarioResult) :
    List SpecReference :=
  result.checks.foldl (fun output check => output ++ check.specReferences) output

/-- The references of a lane that has a result are appended. -/
def appendResult (output : List SpecReference) (result : Option ConformanceScenarioResult) :
    List SpecReference :=
  match result with
  | none => output
  | some result => appendReferences output result

def compareScenario (fixture builtInDataPlane externalDataPlane : ConformanceResults)
    (scenario : String) : ScenarioComparison :=
  let fixtureResult := fixture.scenarios.find? scenario
  let builtInResult := builtInDataPlane.scenarios.find? scenario
  let externalResult := externalDataPlane.scenarios.find? scenario
  let references := appendResult [] fixtureResult
  let references := appendResult references builtInResult
  let references := appendResult references externalResult
  { scenario
    fixture := gatedOutcomeOf fixtureResult
    fixtureFailedChecks := failedCheckCount fixtureResult
    builtInDataPlane := gatedOutcomeOf builtInResult
    builtInDataPlaneFailedChecks := failedCheckCount builtInResult
    externalDataPlane := gatedOutcomeOf externalResult
    externalDataPlaneFailedChecks := failedCheckCount externalResult
    classification := classifyOutcomes (gatedOutcomeOf fixtureResult)
      (gatedOutcomeOf builtInResult) (gatedOutcomeOf externalResult)
    specReferences := sortAndDeduplicateReferences references }

def compareResultSets (fixture builtInDataPlane externalDataPlane : ConformanceResults) :
    List ScenarioComparison :=
  let scenarios := OrderedSet.ofList (fixture.scenarios.keys.elems ++
    builtInDataPlane.scenarios.keys.elems ++ externalDataPlane.scenarios.keys.elems)
  scenarios.elems.map (compareScenario fixture builtInDataPlane externalDataPlane)

namespace ScenarioComparison

def outcome (row : ScenarioComparison) : SemanticLane → ScenarioOutcome
  | .fixtureDirect => row.fixture
  | .builtInDataPlane => row.builtInDataPlane
  | .externalDataPlane => row.externalDataPlane

def failedChecks (row : ScenarioComparison) : SemanticLane → Nat
  | .fixtureDirect => row.fixtureFailedChecks
  | .builtInDataPlane => row.builtInDataPlaneFailedChecks
  | .externalDataPlane => row.externalDataPlaneFailedChecks

end ScenarioComparison

/-- The lanes that a classification says have failed. -/
def ComparisonClassification.blames : ComparisonClassification → List SemanticLane
  | .fixtureOnlyFailure => [.fixtureDirect]
  | .builtInDataPlaneOnlyFailure => [.builtInDataPlane]
  | .externalDataPlaneOnlyFailure => [.externalDataPlane]
  | .fixtureAndBuiltInDataPlaneFailure => [.fixtureDirect, .builtInDataPlane]
  | .fixtureAndExternalDataPlaneFailure => [.fixtureDirect, .externalDataPlane]
  | .gatewaysOnlyFailure => [.builtInDataPlane, .externalDataPlane]
  | .sharedFailure => [.fixtureDirect, .builtInDataPlane, .externalDataPlane]
  | .allCompliant | .fixtureFailure | .notApplicable | .ambiguous => []

/-- A failed check leaves nothing open; other evidence may. -/
def ScenarioOutcome.conclusive : ScenarioOutcome → Bool
  | .ambiguous | .missing => false
  | .compliant | .nonCompliant | .fixtureFailure | .notApplicable => true

/-- The row of a scenario, read against the results of the lanes. -/
structure Compares (results : SemanticLane → ConformanceResults) (row : ScenarioComparison) :
    Prop where
  missing : ∀ lane, row.outcome lane = .missing ↔ row.scenario ∉ (results lane).scenarios.keys
  failed : ∀ lane, row.outcome lane = .nonCompliant ↔ 0 < row.failedChecks lane
  counted : ∀ lane, row.failedChecks lane =
    failedCheckCount ((results lane).scenarios.find? row.scenario)
  ambiguous : row.classification = .ambiguous ↔ ∃ lane, (row.outcome lane).conclusive = false
  blamed : row.classification ≠ .ambiguous →
    ∀ lane, lane ∈ row.classification.blames ↔ 0 < row.failedChecks lane
  compliant : row.classification = .allCompliant ↔ (∀ lane, (row.outcome lane).conclusive = true ∧
    row.failedChecks lane = 0) ∧ ∃ lane, row.outcome lane = .compliant
  references : ∀ reference, reference ∈ row.specReferences ↔ ∃ lane result,
    (results lane).scenarios.find? row.scenario = some result ∧
      ∃ check ∈ result.checks, reference ∈ check.specReferences
  distinct : row.specReferences.Pairwise fun first second =>
    referenceKey first < referenceKey second

/-- Something holds of some lane if it does of one of the three. -/
theorem exists_lane {holds : SemanticLane → Prop} :
    (∃ lane, holds lane) ↔ holds .fixtureDirect ∨ holds .builtInDataPlane ∨
      holds .externalDataPlane := by
  constructor
  · rintro ⟨lane, hlane⟩
    cases lane with
    | fixtureDirect => exact .inl hlane
    | builtInDataPlane => exact .inr (.inl hlane)
    | externalDataPlane => exact .inr (.inr hlane)
  · rintro (hlane | hlane | hlane) <;> exact ⟨_, hlane⟩

/-- Something holds of every lane if it does of each of the three. -/
theorem forall_lane {holds : SemanticLane → Prop} :
    (∀ lane, holds lane) ↔ holds .fixtureDirect ∧ holds .builtInDataPlane ∧
      holds .externalDataPlane := by
  refine ⟨fun hall => ⟨hall _, hall _, hall _⟩, fun hall lane => ?_⟩
  cases lane with
  | fixtureDirect => exact hall.1
  | builtInDataPlane => exact hall.2.1
  | externalDataPlane => exact hall.2.2

/-- The inconclusive outcomes are the ambiguous and the missing one. -/
theorem mem_inconclusive {outcome : ScenarioOutcome} :
    outcome ∈ [.ambiguous, .missing] ↔ outcome.conclusive = false := by
  cases outcome <;> simp [ScenarioOutcome.conclusive]

/-- The classification of conclusive outcomes, by the lanes that failed. -/
def blaming (failed : SemanticLane → Bool) : ComparisonClassification :=
  match failed .fixtureDirect, failed .builtInDataPlane, failed .externalDataPlane with
  | false, false, false => .allCompliant
  | true, false, false => .fixtureOnlyFailure
  | false, true, false => .builtInDataPlaneOnlyFailure
  | false, false, true => .externalDataPlaneOnlyFailure
  | true, true, false => .fixtureAndBuiltInDataPlaneFailure
  | true, false, true => .fixtureAndExternalDataPlaneFailure
  | false, true, true => .gatewaysOnlyFailure
  | true, true, true => .sharedFailure

/-- The classification by failures blames the lanes that failed. -/
theorem mem_blames_blaming {failed : SemanticLane → Bool} {lane : SemanticLane} :
    lane ∈ (blaming failed).blames ↔ failed lane = true := by
  rw [blaming]
  cases hfixture : failed .fixtureDirect <;> cases hbuiltIn : failed .builtInDataPlane <;>
    cases hexternal : failed .externalDataPlane <;> cases lane <;>
    simp [ComparisonClassification.blames, hfixture, hbuiltIn, hexternal]

theorem blaming_ne {failed : SemanticLane → Bool} :
    blaming failed ≠ .ambiguous ∧ blaming failed ≠ .notApplicable ∧
      blaming failed ≠ .fixtureFailure := by
  rw [blaming]
  split <;> refine ⟨?_, ?_, ?_⟩ <;> nofun

/-- No lane is blamed exactly when none failed. -/
theorem blaming_allCompliant_iff {failed : SemanticLane → Bool} :
    blaming failed = .allCompliant ↔ ∀ lane, failed lane = false := by
  constructor
  · intro hcompliant lane
    have hblamed := @mem_blames_blaming failed lane
    rw [hcompliant] at hblamed
    rw [Bool.eq_false_iff, ne_eq, ← hblamed]
    exact List.not_mem_nil
  · intro hnone
    simp only [blaming, hnone]

section
variable {outcome : SemanticLane → ScenarioOutcome}

def classifyLanes (outcome : SemanticLane → ScenarioOutcome) : ComparisonClassification :=
  classifyOutcomes (outcome .fixtureDirect) (outcome .builtInDataPlane) (outcome .externalDataPlane)

/-- The classification of outcomes: inconclusive ones first, then whether the scenario applies,
then the failures. -/
theorem classifyLanes_cases (hgated : ∀ lane, outcome lane ≠ .fixtureFailure) :
    (∃ lane, (outcome lane).conclusive = false) ∧ classifyLanes outcome = .ambiguous ∨
      (∀ lane, (outcome lane).conclusive = true) ∧
        ((∀ lane, outcome lane = .notApplicable) ∧ classifyLanes outcome = .notApplicable ∨
          (∃ lane, outcome lane ≠ .notApplicable) ∧
            classifyLanes outcome = blaming fun lane => decide (outcome lane = .nonCompliant)) := by
  have hnone : ¬ (outcome .fixtureDirect = .fixtureFailure ∨
      outcome .builtInDataPlane = .fixtureFailure ∨
      outcome .externalDataPlane = .fixtureFailure) := by
    rw [← @exists_lane fun lane => outcome lane = .fixtureFailure]
    rintro ⟨lane, hlane⟩
    exact hgated lane hlane
  rw [classifyLanes, classifyOutcomes, if_neg hnone]
  simp only [mem_inconclusive]
  split
  · next hopen => exact .inl ⟨exists_lane.mpr hopen, rfl⟩
  · next hclosed =>
    refine .inr ⟨fun lane => ?_, ?_⟩
    · rw [← Bool.not_eq_false]
      intro hlane
      have hopen : ∃ lane, (outcome lane).conclusive = false := ⟨lane, hlane⟩
      exact hclosed (exists_lane.mp hopen)
    · split
      · next hall => exact .inl ⟨forall_lane.mpr hall, rfl⟩
      · next hsome =>
        refine .inr ⟨?_, rfl⟩
        by_contra hnone
        push Not at hnone
        exact hsome (forall_lane.mp hnone)

end

/-- Results that are there are not missing. -/
theorem gatedOutcome_ne_missing (result : ConformanceScenarioResult) :
    result.gatedOutcome ≠ .missing := by
  have houtcome : result.outcome ≠ .missing := by
    rw [ConformanceScenarioResult.outcome]
    split_ifs <;> nofun
  rw [ConformanceScenarioResult.gatedOutcome]
  split
  · nofun
  · exact houtcome

theorem gatedOutcomeOf_ne_fixtureFailure (result : Option ConformanceScenarioResult) :
    gatedOutcomeOf result ≠ .fixtureFailure := by
  cases result with
  | none => nofun
  | some result => exact result.gatedOutcome_ne_fixtureFailure

/-- A scenario is missing where the lane has no result for it. -/
theorem gatedOutcomeOf_eq_missing_iff {result : Option ConformanceScenarioResult} :
    gatedOutcomeOf result = .missing ↔ result = none := by
  cases result with
  | none => exact iff_of_true rfl rfl
  | some result => exact iff_of_false (gatedOutcome_ne_missing result) nofun

/-- A scenario is non-compliant where a check failed. -/
theorem gatedOutcomeOf_eq_nonCompliant_iff {result : Option ConformanceScenarioResult} :
    gatedOutcomeOf result = .nonCompliant ↔ 0 < failedCheckCount result := by
  cases result with
  | none => exact iff_of_false nofun (Nat.lt_irrefl 0)
  | some result =>
      rw [gatedOutcomeOf, failedCheckCount,
        ConformanceScenarioResult.gatedOutcome_eq_nonCompliant_iff, List.length_filter_pos_iff]
      simp

/-- A reference is written as a well-formed value. -/
theorem SpecReference.written_toValue (reference : SpecReference) : reference.toValue.Written := by
  refine .object (List.forall_mem_cons.mpr ⟨.string _, List.forall_mem_cons.mpr ⟨?_, ?_⟩⟩)
  · cases reference.url with
    | none => exact .null
    | some url => exact .string _
  · rintro _ hentry
    obtain ⟨entry, -, rfl⟩ := List.mem_map.mp hentry
    exact entry.2.property

/-- A reference is determined by what is written of it. -/
theorem SpecReference.toValue_injective : Function.Injective toValue := by
  rintro ⟨id, url, extensions⟩ ⟨otherId, otherUrl, otherExtensions⟩ heq
  simp only [toValue, Mcp.Value.object.injEq, List.cons.injEq, Prod.mk.injEq, true_and,
    Mcp.Value.string.injEq] at heq
  obtain ⟨rfl, hurl, hextensions⟩ := heq
  have hsame : url = otherUrl := by
    cases url <;> cases otherUrl <;> simp_all
  have hentries : extensions.entries = otherExtensions.entries := by
    refine List.map_injective_iff.mpr (fun first second hentry => ?_) hextensions
    obtain ⟨hname, hvalue⟩ := Prod.mk.inj hentry
    exact Prod.ext hname (Subtype.ext hvalue)
  subst hsame
  cases extensions
  cases otherExtensions
  cases hentries
  rfl

/-- The written reference tells the references apart. -/
theorem referenceKey_injective : Function.Injective referenceKey := by
  intro first second hkey
  refine SpecReference.toValue_injective (Mcp.writeValue_injective first.written_toValue
    second.written_toValue ?_)
  have htext := congrArg String.toList hkey
  rwa [referenceKey, referenceKey, String.toList_ofList, String.toList_ofList] at htext

/-- The references of a result are those of its checks, besides the earlier ones. -/
theorem mem_appendReferences {output : List SpecReference} {result : ConformanceScenarioResult}
    {reference : SpecReference} :
    reference ∈ appendReferences output result ↔ reference ∈ output ∨
      ∃ check ∈ result.checks, reference ∈ check.specReferences := by
  simp [appendReferences]

/-- A missing result adds no reference. -/
theorem mem_appendResult {output : List SpecReference} {result : Option ConformanceScenarioResult}
    {reference : SpecReference} :
    reference ∈ appendResult output result ↔ reference ∈ output ∨ ∃ found, result = some found ∧
      ∃ check ∈ found.checks, reference ∈ check.specReferences := by
  cases result with
  | none => simp [appendResult]
  | some result => simp [appendResult, mem_appendReferences]

section
variable (results : SemanticLane → ConformanceResults)

def compareLanes (scenario : String) : ScenarioComparison :=
  compareScenario (results .fixtureDirect) (results .builtInDataPlane)
    (results .externalDataPlane) scenario

/-- The outcome of a lane in a row. -/
theorem outcome_compareLanes (scenario : String) (lane : SemanticLane) :
    (compareLanes results scenario).outcome lane =
      gatedOutcomeOf ((results lane).scenarios.find? scenario) := by
  cases lane <;> rfl

/-- The failed checks of a lane in a row. -/
theorem failedChecks_compareLanes (scenario : String) (lane : SemanticLane) :
    (compareLanes results scenario).failedChecks lane =
      failedCheckCount ((results lane).scenarios.find? scenario) := by
  cases lane <;> rfl

/-- The references of a row are those of all checks of the scenario. -/
theorem mem_references_compareLanes {scenario : String} {reference : SpecReference} :
    reference ∈ (compareLanes results scenario).specReferences ↔ ∃ lane result,
      (results lane).scenarios.find? scenario = some result ∧
        ∃ check ∈ result.checks, reference ∈ check.specReferences := by
  rw [exists_lane]
  simp only [compareLanes, compareScenario, sortAndDeduplicateReferences, KeyedSort.mem_sortDedup,
    mem_appendResult, List.not_mem_nil, false_or, or_assoc]

theorem exists_inconclusive_false {outcome : SemanticLane → ScenarioOutcome}
    (hclosed : ∀ lane, (outcome lane).conclusive = true) :
    ¬ ∃ lane, (outcome lane).conclusive = false := by
  rintro ⟨lane, hlane⟩
  rw [hclosed lane] at hlane
  cases hlane

theorem compliant_of {outcome : ScenarioOutcome} (hclosed : outcome.conclusive = true)
    (hgated : outcome ≠ .fixtureFailure) (hfailed : outcome ≠ .nonCompliant)
    (happlies : outcome ≠ .notApplicable) : outcome = .compliant := by
  cases outcome with
  | compliant => rfl
  | nonCompliant => exact absurd rfl hfailed
  | fixtureFailure => exact absurd rfl hgated
  | notApplicable => exact absurd rfl happlies
  | ambiguous => cases hclosed
  | missing => cases hclosed

/-- The row of a scenario compares its results. -/
theorem compareLanes_compares (scenario : String) :
    Compares results (compareLanes results scenario) := by
  have houtcome := outcome_compareLanes results scenario
  have hchecks := failedChecks_compareLanes results scenario
  generalize hrow : compareLanes results scenario = row at houtcome hchecks
  have hscenario : row.scenario = scenario := by rw [← hrow]; rfl
  have hclassified : row.classification = classifyLanes row.outcome := by rw [← hrow]; rfl
  have hgated : ∀ lane, row.outcome lane ≠ .fixtureFailure := fun lane => by
    rw [houtcome]
    exact gatedOutcomeOf_ne_fixtureFailure _
  have hfailed : ∀ lane, row.outcome lane = .nonCompliant ↔ 0 < row.failedChecks lane :=
    fun lane => by rw [houtcome, hchecks, gatedOutcomeOf_eq_nonCompliant_iff]
  constructor
  case missing =>
    intro lane
    rw [houtcome, gatedOutcomeOf_eq_missing_iff, OrderedMap.find?_eq_none_iff, hscenario]
  case failed => exact hfailed
  case counted =>
    intro lane
    rw [hchecks, hscenario]
  case ambiguous =>
    rw [hclassified]
    obtain ⟨hopen, hambiguous⟩ | ⟨hclosed, ⟨-, hnone⟩ | ⟨-, hblaming⟩⟩ := classifyLanes_cases hgated
    · exact iff_of_true hambiguous hopen
    · rw [hnone]
      exact iff_of_false nofun (exists_inconclusive_false hclosed)
    · rw [hblaming]
      exact iff_of_false blaming_ne.1 (exists_inconclusive_false hclosed)
  case blamed =>
    intro hconclusive lane
    rw [hclassified] at hconclusive ⊢
    rw [← hfailed]
    obtain ⟨-, hambiguous⟩ | ⟨-, ⟨hall, hnone⟩ | ⟨-, hblaming⟩⟩ := classifyLanes_cases hgated
    · exact absurd hambiguous hconclusive
    · rw [hnone, hall lane]
      exact iff_of_false List.not_mem_nil nofun
    · rw [hblaming, mem_blames_blaming, decide_eq_true_iff]
  case compliant =>
    rw [hclassified]
    obtain ⟨hopen, hambiguous⟩ | ⟨hclosed, ⟨hall, hnone⟩ | ⟨hsome, hblaming⟩⟩ :=
      classifyLanes_cases hgated
    · rw [hambiguous]
      refine iff_of_false nofun fun hcompliant => ?_
      exact exists_inconclusive_false (fun lane => (hcompliant.1 lane).1) hopen
    · rw [hnone]
      refine iff_of_false nofun ?_
      rintro ⟨-, lane, hlane⟩
      rw [hall lane] at hlane
      cases hlane
    · rw [hblaming, blaming_allCompliant_iff]
      simp only [decide_eq_false_iff_not, hfailed, Nat.pos_iff_ne_zero, not_not]
      constructor
      · intro hclean
        obtain ⟨lane, hlane⟩ := hsome
        refine ⟨fun lane => ⟨hclosed lane, hclean lane⟩, lane, ?_⟩
        have hlaneFailed := (hfailed lane).not.mpr (Nat.not_lt.mpr (hclean lane).le)
        exact compliant_of (hclosed lane) (hgated lane) hlaneFailed hlane
      · intro hclean lane
        exact (hclean.1 lane).2
  case references =>
    intro reference
    rw [hscenario, ← hrow]
    exact mem_references_compareLanes results
  case distinct =>
    rw [← hrow]
    exact KeyedSort.pairwise_sortDedup referenceKey_injective _

/-- The rows are those of the scenarios that some lane has a result for. -/
theorem mem_compareResultSets {row : ScenarioComparison} :
    row ∈ compareResultSets (results .fixtureDirect) (results .builtInDataPlane)
        (results .externalDataPlane) ↔
      ∃ scenario, (∃ lane, scenario ∈ (results lane).scenarios.keys) ∧
        compareLanes results scenario = row := by
  simp only [compareResultSets, List.mem_map, OrderedSet.mem_elems, OrderedSet.mem_ofList,
    List.mem_append, exists_lane, or_assoc, compareLanes]

/-- The rows are in the order of their scenarios. -/
theorem sorted_compareResultSets :
    ((compareResultSets (results .fixtureDirect) (results .builtInDataPlane)
      (results .externalDataPlane)).map (·.scenario)).Pairwise (· < ·) := by
  have hnames : ∀ names : List String, names.map ((·.scenario) ∘ compareScenario
      (results .fixtureDirect) (results .builtInDataPlane) (results .externalDataPlane)) = names :=
    fun names => List.map_id' names
  rw [compareResultSets, List.map_map, hnames]
  exact OrderedSet.sorted _

/-- A scenario has a row where some lane has a result for it. -/
theorem exists_row_iff {scenario : String} :
    (∃ row ∈ compareResultSets (results .fixtureDirect) (results .builtInDataPlane)
      (results .externalDataPlane), row.scenario = scenario) ↔
        ∃ lane, scenario ∈ (results lane).scenarios.keys := by
  constructor
  · rintro ⟨row, hrow, rfl⟩
    obtain ⟨name, hname, rfl⟩ := (mem_compareResultSets results).mp hrow
    exact hname
  · intro hknown
    exact ⟨_, (mem_compareResultSets results).mpr ⟨scenario, hknown, rfl⟩, rfl⟩

/-- Every row compares the results of its scenario. -/
theorem compares_of_mem {row : ScenarioComparison}
    (hrow : row ∈ compareResultSets (results .fixtureDirect) (results .builtInDataPlane)
      (results .externalDataPlane)) : Compares results row := by
  obtain ⟨name, -, rfl⟩ := (mem_compareResultSets results).mp hrow
  exact compareLanes_compares results name

/-- The comparison has one row for each scenario that some lane knows, in the order of the
names, and each row tells what the lanes found. -/
theorem compareResultSets_compares :
    ((compareResultSets (results .fixtureDirect) (results .builtInDataPlane)
        (results .externalDataPlane)).map (·.scenario)).Pairwise (· < ·) ∧
      (∀ scenario, (∃ row ∈ compareResultSets (results .fixtureDirect)
          (results .builtInDataPlane) (results .externalDataPlane), row.scenario = scenario) ↔
        ∃ lane, scenario ∈ (results lane).scenarios.keys) ∧
      ∀ row ∈ compareResultSets (results .fixtureDirect)
          (results .builtInDataPlane) (results .externalDataPlane), Compares results row :=
  ⟨sorted_compareResultSets results, fun _ => exists_row_iff results,
    fun _ => compares_of_mem results⟩

end

end CfIntegration.Conformance
