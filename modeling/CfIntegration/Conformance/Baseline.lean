import CfIntegration.Foundation.Fallible
import CfIntegration.Conformance.ResultLoading

/-! # Strict conformance baselines

A lane's scored findings are compared with the document checked in for its
client version, server era and direction. Routed server lanes are compared after
subtracting what the direct fixture reproduces. With `bless`, the same findings
become the documents to install.
-/

namespace CfIntegration.Conformance

def maxBaselineBytes : Nat := 1024 * 1024

/-- A baseline-eligible official check status. -/
inductive ScoredStatus where
  | failure
  | warning
  deriving DecidableEq, Repr

def ScoredStatus.debug : ScoredStatus → String
  | .failure => "Failure"
  | .warning => "Warning"

/-- Stable identity of one scored official finding. -/
structure ScoredFinding where
  scenario : String
  check : String
  name : String
  status : ScoredStatus
  deriving DecidableEq, Repr

namespace ScoredFinding

/-- A finding as it is shown for debugging. -/
def debug (finding : ScoredFinding) : String :=
  s!"ScoredFinding \x7b scenario: {finding.scenario.quote}, check: {finding.check.quote}, name: {
    finding.name.quote}, status: {finding.status.debug} \x7d"

/-- The fields in the order the derived comparison looks at them. -/
def sortKey (finding : ScoredFinding) : String ×ₗ String ×ₗ String ×ₗ Bool :=
  toLex (finding.scenario, toLex (finding.check, toLex (finding.name,
    finding.status = .warning)))

/-- A finding is determined by the key it is sorted by. -/
theorem sortKey_injective : Function.Injective sortKey := by
  rintro ⟨scenario, check, name, status⟩ ⟨scenario', check', name', status'⟩ heq
  simp only [sortKey, EmbeddingLike.apply_eq_iff_eq, Prod.mk.injEq, decide_eq_decide] at heq
  obtain ⟨rfl, rfl, rfl, hstatus⟩ := heq
  cases status <;> cases status' <;> simp_all

instance : LinearOrder ScoredFinding := LinearOrder.lift' sortKey sortKey_injective

end ScoredFinding

/-- Strict payload stored in one lane baseline. -/
structure ConformanceBaseline where
  findings : List ScoredFinding
  deriving DecidableEq, Repr

/-- One lane's evaluated baseline state. -/
structure BaselineComparison where
  lane : SemanticLane
  actual : List ScoredFinding
  expected : List ScoredFinding
  unexpected : List ScoredFinding
  stale : List ScoredFinding
  deriving DecidableEq, Repr

def BaselineComparison.matches (comparison : BaselineComparison) : Bool :=
  comparison.unexpected.isEmpty && comparison.stale.isEmpty

/-- A staged baseline replacement produced by a successful evaluation. -/
structure BaselineUpdate where
  relativePath : List String
  document : ConformanceBaseline
  deriving DecidableEq, Repr

structure BaselineEvaluation where
  comparisons : List BaselineComparison
  updates : List BaselineUpdate
  deriving DecidableEq, Repr

/-- Results of the lanes that produced evidence, in the stable lane order. -/
abbrev LaneResults := SemanticLane → Option ConformanceResults

def LaneResults.keys (results : LaneResults) : List SemanticLane :=
  allConformanceLanes.filter fun lane => (results lane).isSome

/-- The keys are the lanes that have results. -/
theorem LaneResults.mem_keys {results : LaneResults} {lane : SemanticLane} :
    lane ∈ results.keys ↔ (results lane).isSome = true := by
  simp [LaneResults.keys, mem_allConformanceLanes]

def scoredStatus (scenario : String) (check : ConformanceCheck) :
    Except String (Option ScoredStatus) :=
  match check.status with
  | .failure => .ok (some .failure)
  | .warning => .ok (some .warning)
  | .success | .skipped | .info => .ok none
  | .other status =>
      .error s!"unknown official check status {status.quote} for scenario {
        scenario.quote}, check {check.id.quote}"

def scoreCheck (scenario : String) (findings : OrderedSet ScoredFinding)
    (check : ConformanceCheck) : Except String (OrderedSet ScoredFinding) := do
  match ← scoredStatus scenario check with
  | some status =>
      return findings.insert
        { scenario, check := check.id, name := check.name.getD "", status }
  | none => return findings

def scoreScenario (findings : OrderedSet ScoredFinding)
    (entry : String × ConformanceScenarioResult) : Except String (OrderedSet ScoredFinding) :=
  entry.2.checks.foldlM (scoreCheck entry.1) findings

/-- The scored findings of one lane; an unknown official status is an error. -/
def scoredFindings (results : ConformanceResults) : Except String (OrderedSet ScoredFinding) :=
  results.scenarios.entries.foldlM scoreScenario OrderedSet.empty

def validateScoredResults (results : ConformanceResults) : Except String Unit := do
  let _ ← scoredFindings results
  return ()

/-- The YAML library, as far as baselines use it. -/
structure YamlCodec where
  toString : ConformanceBaseline → Except String Bytes
  fromSlice : Bytes → Except String ConformanceBaseline

/-- The library reads back every document it wrote. -/
def YamlCodec.ReadsBack (codec : YamlCodec) : Prop :=
  ∀ document source, codec.toString document = .ok source → codec.fromSlice source = .ok document

/-- The library restricted to one document and its text. -/
def YamlCodec.single (document : ConformanceBaseline) (source : Bytes) : YamlCodec where
  toString candidate :=
    if candidate = document then .ok source else .error "failed to serialize conformance baseline"
  fromSlice candidate :=
    if candidate = source then .ok document else .error "failed to parse conformance baseline"

theorem YamlCodec.single_readsBack (document : ConformanceBaseline) (source : Bytes) :
    (YamlCodec.single document source).ReadsBack := by
  intro candidate written hwritten
  simp only [YamlCodec.single] at hwritten ⊢
  split at hwritten
  next heq =>
    cases hwritten
    rw [if_pos rfl, heq]
  · contradiction

/-- What inspecting and reading one baseline path finds. -/
inductive BaselineFile where
  | missing
  | file (content : Bytes)
  | notRegular
  | unreadable (message : String)
  deriving DecidableEq, Repr

/-- A baseline root, by the relative paths read from it. -/
abbrev BaselineView := List String → BaselineFile

def baselineRelativePath (clientVersion : String) (serverEra : ConformanceServerEra)
    (direction : ConformanceDirection) (lane : SemanticLane) : List String :=
  match direction with
  | .server => [clientVersion, serverEra.label, lane.slug ++ ".yml"]
  | .client => [clientVersion, serverEra.label, direction.label, lane.slug ++ ".yml"]

def strictlySorted (findings : List ScoredFinding) : Bool :=
  !(findings.zip findings.tail).any fun (left, right) => right ≤ left

def readBaselineWithMetadata (codec : YamlCodec) (path : List String) (content : Bytes) :
    Except String ConformanceBaseline := do
  bailIf (content.length > maxBaselineBytes)
    s!"conformance baseline {path} exceeds the {maxBaselineBytes} byte safety limit"
  let baseline ← codec.fromSlice content
  bailIf (strictlySorted baseline.findings = false)
    s!"conformance baseline {path} findings must be strictly sorted without duplicates"
  return baseline

def readBaselineOptional (codec : YamlCodec) (baselines : BaselineView) (path : List String) :
    Except String (Option ConformanceBaseline) :=
  match baselines path with
  | .missing => .ok none
  | .file content => some <$> readBaselineWithMetadata codec path content
  | .notRegular => .error s!"conformance baseline {path} must be a real file"
  | .unreadable message => .error s!"failed to inspect conformance baseline {path}: {message}"

def readBaseline (codec : YamlCodec) (baselines : BaselineView) (path : List String) :
    Except String ConformanceBaseline := do
  match ← readBaselineOptional codec baselines path with
  | some baseline => return baseline
  | none => .error s!"failed to inspect conformance baseline {path}"

/-- The direct fixture's findings, which routed server lanes are compared without. -/
def directFindings (results : LaneResults) : Except String (OrderedSet ScoredFinding) :=
  match results .fixtureDirect with
  | some laneResults => scoredFindings laneResults
  | none => .ok OrderedSet.empty

/-- Findings the lane is judged by, after subtracting the direct fixture's. -/
def gatedFindings (direction : ConformanceDirection) (direct : OrderedSet ScoredFinding)
    (lane : SemanticLane) (scored : OrderedSet ScoredFinding) : OrderedSet ScoredFinding :=
  if direction = .server ∧ lane ≠ .fixtureDirect then scored.difference direct else scored

/-- The comparison of actual with expected findings, each difference in order. -/
def compareFindings (lane : SemanticLane) (actual expected : OrderedSet ScoredFinding) :
    BaselineComparison where
  lane
  actual := actual.elems
  expected := expected.elems
  unexpected := (actual.difference expected).elems
  stale := (expected.difference actual).elems

/-- One iteration of the lane loop: the comparison, and the update to bless. -/
def evaluateLane (codec : YamlCodec) (direction : ConformanceDirection) (results : LaneResults)
    (baselines : BaselineView) (clientVersion : String) (serverEra : ConformanceServerEra)
    (bless : Bool) (direct : OrderedSet ScoredFinding) (lane : SemanticLane) :
    Except String (BaselineComparison × Option BaselineUpdate) := do
  let some laneResults := results lane
    | .error s!"missing selected conformance lane {lane.slug}"
  let actual := gatedFindings direction direct lane (← scoredFindings laneResults)
  let path := baselineRelativePath clientVersion serverEra direction lane
  let loaded ← readBaselineOptional codec baselines path
  bailIf (loaded = none ∧ bless = false) s!"missing conformance baseline {path}"
  let expected := OrderedSet.ofList ((loaded.map ConformanceBaseline.findings).getD [])
  return (compareFindings lane actual expected,
    if bless then some { relativePath := path, document := ⟨actual.elems⟩ } else none)

/-- Evaluate selected lanes; server findings reproduced by the direct fixture
are subtracted from routed results. Client findings are compared directly. -/
def evaluateBaselines (codec : YamlCodec) (direction : ConformanceDirection)
    (results : LaneResults) (selectedLanes : List SemanticLane) (baselines : BaselineView)
    (clientVersion : String) (serverEra : ConformanceServerEra) (bless : Bool) :
    Except String BaselineEvaluation := do
  let selected := allConformanceLanes.filter (· ∈ selectedLanes)
  bailIf (selected = []) "at least one conformance lane must be selected"
  bailIf (direction = .server ∧ selected.any SemanticLane.isRouted ∧
      (results .fixtureDirect).isNone)
    "missing fixture-direct lane required to gate routed findings"
  match selected.find? fun lane => (results lane).isNone with
  | some lane => .error s!"missing selected conformance lane {lane.slug}"
  | none =>
      let direct ← directFindings results
      let lanes ← selected.mapM
        (evaluateLane codec direction results baselines clientVersion serverEra bless direct)
      return { comparisons := lanes.map Prod.fst, updates := lanes.filterMap Prod.snd }

/-- A comparison is about the lane it was made for. -/
@[simp] theorem compareFindings_lane (lane : SemanticLane)
    (actual expected : OrderedSet ScoredFinding) :
    (compareFindings lane actual expected).lane = lane := rfl

/-- A comparison matches exactly when the two finding sets are the same. -/
theorem compareFindings_matches {lane : SemanticLane} {actual expected : OrderedSet ScoredFinding} :
    (compareFindings lane actual expected).matches = true ↔ actual = expected := by
  rw [BaselineComparison.matches, Bool.and_eq_true]
  constructor
  · rintro ⟨hunexpected, hstale⟩
    exact OrderedSet.eq_of_difference_isEmpty hunexpected hstale
  · rintro rfl
    exact ⟨OrderedSet.difference_self actual, OrderedSet.difference_self actual⟩

/-- A check that was scored has a status of the official catalog. -/
theorem known_status_of_scoreCheck {scenario : String} (findings : OrderedSet ScoredFinding)
    (check : ConformanceCheck) (next : OrderedSet ScoredFinding)
    (hscore : scoreCheck scenario findings check = .ok next)
    (status : String) : check.status ≠ .other status := by
  rintro hstatus
  simp [scoreCheck, scoredStatus, hstatus, bind, Except.bind] at hscore

/-- Results that could be scored hold no unknown status. -/
theorem known_status_of_scoredFindings {results : ConformanceResults}
    {findings : OrderedSet ScoredFinding} (hscored : scoredFindings results = .ok findings) :
    ∀ entry ∈ results.scenarios.entries, ∀ check ∈ entry.2.checks, ∀ status,
      check.status ≠ .other status := by
  have hscenario : ∀ findings entry next, scoreScenario findings entry = .ok next →
      ∀ check ∈ entry.2.checks, ∀ status, check.status ≠ .other status :=
    fun _ _ _ hentry => except_foldlM_forall known_status_of_scoreCheck hentry
  exact except_foldlM_forall hscenario hscored

/-- Results whose checks all succeeded have no findings. -/
theorem scoredFindings_of_success {results : ConformanceResults}
    (hsuccess : ∀ entry ∈ results.scenarios.entries, ∀ check ∈ entry.2.checks,
      check.status = .success) :
    scoredFindings results = .ok OrderedSet.empty := by
  have hchecks : ∀ (scenario : String) (checks : List ConformanceCheck),
      (∀ check ∈ checks, check.status = .success) →
      checks.foldlM (scoreCheck scenario) OrderedSet.empty = .ok OrderedSet.empty := by
    intro scenario checks hchecks
    induction checks with
    | nil => rfl
    | cons check rest ih =>
        rw [List.forall_mem_cons] at hchecks
        rw [List.foldlM_cons, scoreCheck, scoredStatus, hchecks.1]
        exact ih hchecks.2
  unfold scoredFindings
  generalize results.scenarios.entries = entries at hsuccess
  induction entries with
  | nil => rfl
  | cons entry rest ih =>
      rw [List.forall_mem_cons] at hsuccess
      rw [List.foldlM_cons, scoreScenario, hchecks entry.1 entry.2.checks hsuccess.1]
      exact ih hsuccess.2

/-- The test for strict order decides it. -/
theorem strictlySorted_iff {findings : List ScoredFinding} :
    strictlySorted findings = true ↔ findings.Pairwise (· < ·) := by
  rw [← List.isChain_iff_pairwise]
  induction findings with
  | nil => simp [strictlySorted]
  | cons head tail ih =>
      cases tail with
      | nil => simp [strictlySorted]
      | cons next rest =>
          rw [List.isChain_cons_cons, ← ih]
          simp [strictlySorted]

/-- A baseline is accepted if it is small enough, parses and is strictly sorted. -/
theorem readBaselineWithMetadata_ok_iff {codec : YamlCodec} {path : List String} {content : Bytes}
    {document : ConformanceBaseline} :
    readBaselineWithMetadata codec path content = .ok document ↔
      content.length ≤ maxBaselineBytes ∧ codec.fromSlice content = .ok document ∧
        document.findings.Pairwise (· < ·) := by
  unfold readBaselineWithMetadata
  simp only [except_bind_eq_ok, bailIf_eq_ok, not_lt, ← strictlySorted_iff, pure, Except.pure,
    Except.ok.injEq, Bool.not_eq_false]
  constructor
  · rintro ⟨_, hsize, _, hparse, _, hsorted, rfl⟩
    exact ⟨hsize, hparse, hsorted⟩
  · rintro ⟨hsize, hparse, hsorted⟩
    exact ⟨⟨⟩, hsize, document, hparse, ⟨⟩, hsorted, rfl⟩

/-- A document that was read lists its findings as the set they form. -/
theorem ofList_elems_of_readBaselineOptional {codec : YamlCodec} {baselines : BaselineView}
    {path : List String} {document : ConformanceBaseline}
    (hread : readBaselineOptional codec baselines path = .ok (some document)) :
    (OrderedSet.ofList document.findings).elems = document.findings := by
  unfold readBaselineOptional at hread
  cases hfile : baselines path with
  | missing | notRegular | unreadable => simp [hfile] at hread
  | file content =>
      simp only [hfile, except_map_eq_ok, Option.some.injEq] at hread
      obtain ⟨_, hread, rfl⟩ := hread
      rw [OrderedSet.ofList_of_pairwise (readBaselineWithMetadata_ok_iff.mp hread).2.2]

/-- What an evaluated lane was compared with, and the update that blessing leaves of it. -/
theorem evaluateLane_ok_iff {codec : YamlCodec} {direction : ConformanceDirection}
    {results : LaneResults} {baselines : BaselineView} {clientVersion : String}
    {serverEra : ConformanceServerEra} {bless : Bool} {direct : OrderedSet ScoredFinding}
    {lane : SemanticLane} {output : BaselineComparison × Option BaselineUpdate} :
    evaluateLane codec direction results baselines clientVersion serverEra bless direct lane =
        .ok output ↔
      ∃ laneResults scored loaded, results lane = some laneResults ∧
        scoredFindings laneResults = .ok scored ∧
        readBaselineOptional codec baselines
          (baselineRelativePath clientVersion serverEra direction lane) = .ok loaded ∧
        (loaded.isSome = true ∨ bless = true) ∧
        output = (compareFindings lane (gatedFindings direction direct lane scored)
            (OrderedSet.ofList ((loaded.map ConformanceBaseline.findings).getD [])),
          if bless then some
            { relativePath := baselineRelativePath clientVersion serverEra direction lane,
              document := ⟨(gatedFindings direction direct lane scored).elems⟩ } else none) := by
  unfold evaluateLane
  cases hresults : results lane with
  | none => simp
  | some laneResults =>
      simp only [except_bind_eq_ok, bailIf_eq_ok, pure, Except.pure, Except.ok.injEq,
        Option.some.injEq]
      constructor
      · rintro ⟨scored, hscored, loaded, hloaded, _, hmissing, rfl⟩
        refine ⟨laneResults, scored, loaded, rfl, hscored, hloaded, ?_, rfl⟩
        cases loaded with
        | none => exact Or.inr (by simpa using hmissing)
        | some => exact Or.inl rfl
      · rintro ⟨_, scored, loaded, rfl, hscored, hloaded, hmissing, rfl⟩
        refine ⟨scored, hscored, loaded, hloaded, ⟨⟩, ?_, rfl⟩
        rintro ⟨rfl, rfl⟩
        simp at hmissing

/-- The evaluation of a matrix entry is that of its selected lanes, in their order. -/
theorem evaluateBaselines_ok_iff {codec : YamlCodec} {direction : ConformanceDirection}
    {results : LaneResults} {selectedLanes : List SemanticLane} {baselines : BaselineView}
    {clientVersion : String} {serverEra : ConformanceServerEra} {bless : Bool}
    {evaluation : BaselineEvaluation} :
    evaluateBaselines codec direction results selectedLanes baselines clientVersion serverEra
        bless = .ok evaluation ↔
      selectedLanes ≠ [] ∧
      (direction = .server → (∃ lane ∈ selectedLanes, lane.isRouted = true) →
        (results .fixtureDirect).isSome = true) ∧
      (∀ lane ∈ selectedLanes, (results lane).isSome = true) ∧
      ∃ direct outputs, directFindings results = .ok direct ∧
        List.Forall₂ (fun lane output => evaluateLane codec direction results baselines
            clientVersion serverEra bless direct lane = .ok output)
          (allConformanceLanes.filter (· ∈ selectedLanes)) outputs ∧
        evaluation = ⟨outputs.map Prod.fst, outputs.filterMap Prod.snd⟩ := by
  have hselected : ∀ {lane}, lane ∈ allConformanceLanes.filter (· ∈ selectedLanes) ↔
      lane ∈ selectedLanes := by simp [mem_allConformanceLanes]
  unfold evaluateBaselines
  simp only [except_bind_eq_ok, bailIf_eq_ok, exists_and_left, exists_const]
  -- The three checks of the source, in its order: lanes, direct evidence, presence.
  have hnonempty : ¬ allConformanceLanes.filter (· ∈ selectedLanes) = [] ↔ selectedLanes ≠ [] := by
    rw [ne_eq, List.eq_nil_iff_forall_not_mem, List.eq_nil_iff_forall_not_mem]
    simp only [hselected]
  rw [hnonempty]
  refine and_congr_right fun _ => ?_
  have hrouted : (¬ (direction = .server ∧
      (allConformanceLanes.filter (· ∈ selectedLanes)).any SemanticLane.isRouted = true ∧
      (results .fixtureDirect).isNone = true)) ↔
      (direction = .server → (∃ lane ∈ selectedLanes, lane.isRouted = true) →
        (results .fixtureDirect).isSome = true) := by
    simp only [List.any_eq_true, hselected, not_and, Option.isNone_iff_eq_none,
      Option.isSome_iff_ne_none, ne_eq]
  rw [hrouted]
  refine and_congr_right fun _ => ?_
  -- The source looks for a lane without results.
  cases hfind : (allConformanceLanes.filter (· ∈ selectedLanes)).find?
      fun lane => (results lane).isNone with
  | some lane =>
      have hmem := hselected.mp (List.mem_of_find?_eq_some hfind)
      have hnone := List.find?_some hfind
      simp only [reduceCtorEq, false_iff, not_and]
      intro hall
      have hsome := hall lane hmem
      rw [Option.isNone_iff_eq_none] at hnone
      rw [hnone] at hsome
      contradiction
  | none =>
      have hall : ∀ lane ∈ selectedLanes, (results lane).isSome = true := by
        intro lane hlane
        have := List.find?_eq_none.mp hfind lane (hselected.mpr hlane)
        simpa [Option.isSome_iff_ne_none] using this
      simp only [except_bind_eq_ok, except_mapM_eq_ok, pure, Except.pure, Except.ok.injEq]
      constructor
      · rintro ⟨direct, hdirect, outputs, houtputs, rfl⟩
        exact ⟨hall, direct, hdirect, outputs, houtputs, rfl⟩
      · rintro ⟨_, direct, hdirect, outputs, houtputs, rfl⟩
        exact ⟨direct, hdirect, outputs, houtputs, rfl⟩

/-- Every selected lane was evaluated, on its own results. -/
theorem evaluateBaselines_lane {codec : YamlCodec} {direction : ConformanceDirection}
    {results : LaneResults} {selectedLanes : List SemanticLane} {baselines : BaselineView}
    {clientVersion : String} {serverEra : ConformanceServerEra} {bless : Bool}
    {evaluation : BaselineEvaluation}
    (hevaluated : evaluateBaselines codec direction results selectedLanes baselines clientVersion
      serverEra bless = .ok evaluation) :
    ∃ direct, directFindings results = .ok direct ∧
      (∀ lane ∈ selectedLanes, ∃ output, evaluateLane codec direction results baselines
          clientVersion serverEra bless direct lane = .ok output ∧
        output.1 ∈ evaluation.comparisons ∧ ∀ update ∈ output.2, update ∈ evaluation.updates) ∧
      ∀ update ∈ evaluation.updates, ∃ lane ∈ selectedLanes, ∃ output, evaluateLane codec direction
        results baselines clientVersion serverEra bless direct lane = .ok output ∧
          output.2 = some update := by
  obtain ⟨_, _, _, direct, outputs, hdirect, houtputs, rfl⟩ :=
    evaluateBaselines_ok_iff.mp hevaluated
  refine ⟨direct, hdirect, fun lane hlane => ?_, fun update hupdate => ?_⟩
  · have hselected : lane ∈ allConformanceLanes.filter (· ∈ selectedLanes) := by
      simpa [mem_allConformanceLanes] using hlane
    obtain ⟨output, houtput, hevaluated⟩ := forall₂_mem_left houtputs hselected
    exact ⟨output, hevaluated, List.mem_map_of_mem houtput,
      fun update hupdate => List.mem_filterMap.mpr ⟨output, houtput, hupdate⟩⟩
  · obtain ⟨output, houtput, hupdate⟩ := List.mem_filterMap.mp hupdate
    obtain ⟨lane, hlane, hevaluated⟩ := forall₂_mem_right houtputs houtput
    exact ⟨lane, by simpa using (List.mem_filter.mp hlane).2, output, hevaluated, hupdate⟩

/-- Without `bless`, a lane that matches has exactly the findings of its baseline. -/
theorem evaluateBaselines_matches {codec : YamlCodec} {direction : ConformanceDirection}
    {results : LaneResults} {selectedLanes : List SemanticLane} {baselines : BaselineView}
    {clientVersion : String} {serverEra : ConformanceServerEra} {evaluation : BaselineEvaluation}
    (hevaluated : evaluateBaselines codec direction results selectedLanes baselines clientVersion
      serverEra false = .ok evaluation)
    (hmatch : ∀ comparison ∈ evaluation.comparisons, comparison.matches = true)
    {lane : SemanticLane} (hlane : lane ∈ selectedLanes) :
    ∃ direct laneResults scored document, directFindings results = .ok direct ∧
      results lane = some laneResults ∧ scoredFindings laneResults = .ok scored ∧
      readBaselineOptional codec baselines
        (baselineRelativePath clientVersion serverEra direction lane) = .ok (some document) ∧
      document.findings = (gatedFindings direction direct lane scored).elems := by
  obtain ⟨direct, hdirect, hlanes, _⟩ := evaluateBaselines_lane hevaluated
  obtain ⟨output, hlaneEvaluated, houtput, _⟩ := hlanes lane hlane
  have hmatches := hmatch output.1 houtput
  obtain ⟨laneResults, scored, loaded, hresults, hscored, hloaded, hpresent, rfl⟩ :=
    evaluateLane_ok_iff.mp hlaneEvaluated
  obtain ⟨document, rfl⟩ : ∃ document, loaded = some document := by
    simpa [Option.isSome_iff_exists] using hpresent
  refine ⟨direct, laneResults, scored, document, hdirect, hresults, hscored, hloaded, ?_⟩
  rw [compareFindings_matches.mp hmatches]
  exact (ofList_elems_of_readBaselineOptional hloaded).symm

/-- A comparison fails exactly when it lists a difference. -/
theorem BaselineComparison.matches_eq_false_iff {comparison : BaselineComparison} :
    comparison.matches = false ↔
      ∃ finding, finding ∈ comparison.unexpected ++ comparison.stale := by
  rw [← List.isEmpty_eq_false_iff_exists_mem, BaselineComparison.matches]
  cases comparison.unexpected <;> simp

section Differences

variable (codec : YamlCodec) (direction : ConformanceDirection) (results : LaneResults)
  (baselines : BaselineView) (clientVersion : String) (serverEra : ConformanceServerEra)

/-- The finding is in exactly one of what the lane is judged by and its baseline. -/
def BaselineDifference (lane : SemanticLane) (finding : ScoredFinding) : Prop :=
  ∃ direct laneResults scored document, directFindings results = .ok direct ∧
    results lane = some laneResults ∧ scoredFindings laneResults = .ok scored ∧
    readBaselineOptional codec baselines
      (baselineRelativePath clientVersion serverEra direction lane) = .ok (some document) ∧
    (finding ∈ gatedFindings direction direct lane scored ↔ finding ∉ document.findings)

variable {codec direction results baselines clientVersion serverEra}

/-- The differences are the findings on one side only. -/
theorem mem_differences_compareFindings {lane : SemanticLane}
    {actual expected : OrderedSet ScoredFinding} {finding : ScoredFinding} :
    finding ∈ (compareFindings lane actual expected).unexpected ++
        (compareFindings lane actual expected).stale ↔
      (finding ∈ actual ↔ finding ∉ expected) := by
  rw [List.mem_append]
  change finding ∈ actual.difference expected ∨ finding ∈ expected.difference actual ↔ _
  rw [OrderedSet.mem_difference, OrderedSet.mem_difference]
  tauto

/-- The differences of a lane's comparison are those of its findings and its baseline. -/
theorem evaluateLane_differences {direct : OrderedSet ScoredFinding} {lane : SemanticLane}
    {output : BaselineComparison × Option BaselineUpdate}
    (hdirect : directFindings results = .ok direct)
    (hevaluated : evaluateLane codec direction results baselines clientVersion serverEra false
      direct lane = .ok output) (finding : ScoredFinding) :
    finding ∈ output.1.unexpected ++ output.1.stale ↔
      BaselineDifference codec direction results baselines clientVersion serverEra lane
        finding := by
  obtain ⟨laneResults, scored, loaded, hresults, hscored, hloaded, hpresent, rfl⟩ :=
    evaluateLane_ok_iff.mp hevaluated
  obtain ⟨document, rfl⟩ : ∃ document, loaded = some document := by
    simpa [Option.isSome_iff_exists] using hpresent
  rw [mem_differences_compareFindings, Option.map_some, Option.getD_some, OrderedSet.mem_ofList]
  constructor
  · intro hdifference
    exact ⟨direct, laneResults, scored, document, hdirect, hresults, hscored, hloaded, hdifference⟩
  · rintro ⟨_, _, _, _, hdirect', hresults', hscored', hloaded', hdifference⟩
    cases hdirect.symm.trans hdirect'
    cases hresults.symm.trans hresults'
    cases hscored.symm.trans hscored'
    cases hloaded.symm.trans hloaded'
    exact hdifference

/-- In a list without repeated keys the first item with the key of an item is that item. -/
theorem find?_key_eq {α β : Type} [DecidableEq β] (key : α → β) {items : List α}
    (hnodup : (items.map key).Nodup) {item : α} (hitem : item ∈ items) :
    items.find? (key · = key item) = some item := by
  induction items with
  | nil => cases hitem
  | cons first rest ih =>
      rw [List.map_cons, List.nodup_cons] at hnodup
      rcases List.mem_cons.mp hitem with rfl | hrest
      · simp
      · have hne : key first ≠ key item := fun heq =>
          hnodup.1 (heq ▸ List.mem_map_of_mem hrest)
        rw [List.find?_cons_of_neg (by simpa using hne)]
        exact ih hnodup.2 hrest

/-- Each selected lane is found with its comparison, and no other lane is found. -/
theorem evaluateBaselines_find? {selectedLanes : List SemanticLane}
    {evaluation : BaselineEvaluation}
    (hevaluated : evaluateBaselines codec direction results selectedLanes baselines clientVersion
      serverEra false = .ok evaluation) :
    (∀ lane ∈ selectedLanes, ∃ comparison ∈ evaluation.comparisons,
      evaluation.comparisons.find? (·.lane = lane) = some comparison ∧
      ∀ finding, finding ∈ comparison.unexpected ++ comparison.stale ↔
        BaselineDifference codec direction results baselines clientVersion serverEra lane
          finding) ∧
    (∀ comparison ∈ evaluation.comparisons, comparison.lane ∈ selectedLanes ∧
      evaluation.comparisons.find? (·.lane = comparison.lane) = some comparison) := by
  obtain ⟨_, _, _, direct, outputs, hdirect, houtputs, rfl⟩ :=
    evaluateBaselines_ok_iff.mp hevaluated
  have hlane : ∀ {lane output}, evaluateLane codec direction results baselines clientVersion
      serverEra false direct lane = .ok output → output.1.lane = lane := by
    intro lane output houtput
    obtain ⟨_, _, _, _, _, _, _, rfl⟩ := evaluateLane_ok_iff.mp houtput
    rfl
  -- The comparisons come in the order of the lanes, so no lane occurs twice.
  have hlanes : (outputs.map Prod.fst).map BaselineComparison.lane =
      allConformanceLanes.filter (· ∈ selectedLanes) := by
    clear hevaluated
    generalize allConformanceLanes.filter (· ∈ selectedLanes) = lanes at houtputs
    induction houtputs with
    | nil => rfl
    | cons houtput _ ih => rw [List.map_cons, List.map_cons, hlane houtput, ih]
  have hnodup : ((outputs.map Prod.fst).map BaselineComparison.lane).Nodup := by
    rw [hlanes]
    exact List.Nodup.filter _ (by decide)
  constructor
  · intro lane hselected
    have hmem : lane ∈ allConformanceLanes.filter (· ∈ selectedLanes) := by
      simpa [mem_allConformanceLanes] using hselected
    obtain ⟨output, houtput, hevaluated⟩ := forall₂_mem_left houtputs hmem
    have hcomparison := List.mem_map_of_mem (f := Prod.fst) houtput
    refine ⟨output.1, hcomparison, ?_, evaluateLane_differences hdirect hevaluated⟩
    rw [← hlane hevaluated]
    exact find?_key_eq _ hnodup hcomparison
  · intro comparison hcomparison
    refine ⟨?_, find?_key_eq _ hnodup hcomparison⟩
    have hmem := List.mem_map_of_mem (f := BaselineComparison.lane) hcomparison
    rw [hlanes] at hmem
    simpa using (List.mem_filter.mp hmem).2

end Differences

section Installed

variable {codec : YamlCodec} {direction : ConformanceDirection} {results : LaneResults}
  {baselines installed : BaselineView} {clientVersion : String} {serverEra : ConformanceServerEra}

/-- Where its update was installed, a blessed lane is evaluated again without differences. -/
theorem evaluateLane_of_installed {direct : OrderedSet ScoredFinding} {lane : SemanticLane}
    {output : BaselineComparison × Option BaselineUpdate}
    (hevaluated : evaluateLane codec direction results baselines clientVersion serverEra true
      direct lane = .ok output)
    (hinstalled : ∀ update, output.2 = some update →
      readBaselineOptional codec installed update.relativePath = .ok (some update.document))
    (bless : Bool) :
    ∃ repeated, evaluateLane codec direction results installed clientVersion serverEra bless
        direct lane = .ok repeated ∧
      repeated.1.lane = lane ∧ repeated.1.matches = true ∧
      (bless = true → repeated.2 = output.2) := by
  obtain ⟨laneResults, scored, _, hresults, hscored, _, _, rfl⟩ :=
    evaluateLane_ok_iff.mp hevaluated
  have hread := hinstalled _ rfl
  refine ⟨_, evaluateLane_ok_iff.mpr
    ⟨laneResults, scored, _, hresults, hscored, hread, Or.inl rfl, rfl⟩, rfl, ?_, ?_⟩
  · rw [compareFindings_matches, Option.map_some, Option.getD_some, OrderedSet.ofList_elems]
  · rintro rfl
    rfl

/-- Where every document of a blessed evaluation is installed, evaluating the
same results again succeeds and every selected lane matches. -/
theorem evaluateBaselines_of_installed {selectedLanes : List SemanticLane}
    {evaluation : BaselineEvaluation}
    (hevaluated : evaluateBaselines codec direction results selectedLanes baselines clientVersion
      serverEra true = .ok evaluation)
    (hinstalled : ∀ update ∈ evaluation.updates,
      readBaselineOptional codec installed update.relativePath = .ok (some update.document))
    (bless : Bool) :
    ∃ repeated, evaluateBaselines codec direction results selectedLanes installed clientVersion
        serverEra bless = .ok repeated ∧
      repeated.comparisons.map BaselineComparison.lane =
        allConformanceLanes.filter (· ∈ selectedLanes) ∧
      (∀ comparison ∈ repeated.comparisons, comparison.matches = true) ∧
      (bless = true → repeated.updates = evaluation.updates) := by
  obtain ⟨hselected, hgate, hpresent, direct, outputs, hdirect, houtputs, rfl⟩ :=
    evaluateBaselines_ok_iff.mp hevaluated
  -- The checks before the lanes do not read the baselines.
  suffices hlanes : ∃ repeated, List.Forall₂ (fun lane output => evaluateLane codec direction
        results installed clientVersion serverEra bless direct lane = .ok output)
        (allConformanceLanes.filter (· ∈ selectedLanes)) repeated ∧
      (repeated.map Prod.fst).map BaselineComparison.lane =
        allConformanceLanes.filter (· ∈ selectedLanes) ∧
      (∀ comparison ∈ repeated.map Prod.fst, comparison.matches = true) ∧
      (bless = true → repeated.filterMap Prod.snd = outputs.filterMap Prod.snd) by
    obtain ⟨repeated, hrepeated, hconclusion⟩ := hlanes
    exact ⟨_, evaluateBaselines_ok_iff.mpr
      ⟨hselected, hgate, hpresent, direct, repeated, hdirect, hrepeated, rfl⟩, hconclusion⟩
  clear hevaluated
  generalize allConformanceLanes.filter (· ∈ selectedLanes) = lanes at houtputs ⊢
  induction houtputs with
  | nil => exact ⟨[], List.Forall₂.nil, rfl, by simp, fun _ => rfl⟩
  | @cons lane output lanes outputs hlane _ ih =>
      obtain ⟨first, hfirst, hfirstLane, hfirstMatches, hfirstUpdate⟩ :=
        evaluateLane_of_installed hlane (fun update hupdate => hinstalled update (by
          simp [hupdate])) bless
      obtain ⟨others, hothers, hotherLanes, hotherMatches, hotherUpdates⟩ :=
        ih fun update hupdate => hinstalled update (by
          rw [List.filterMap_cons]
          split
          · exact hupdate
          · exact List.mem_cons_of_mem _ hupdate)
      refine ⟨first :: others, List.Forall₂.cons hfirst hothers, ?_, ?_, fun hbless => ?_⟩
      · rw [List.map_cons, List.map_cons, hfirstLane, hotherLanes]
      · rw [List.map_cons, List.forall_mem_cons]
        exact ⟨hfirstMatches, hotherMatches⟩
      · rw [List.filterMap_cons, List.filterMap_cons, hfirstUpdate hbless, hotherUpdates hbless]

end Installed

end CfIntegration.Conformance
