import CfIntegration.Runtime.Passing

/-! # The gate

A run without `bless` that returns `Ok` left trusted artifacts for every lane
each of its entries had to run, and the findings of each of those lanes are
exactly the ones its checked-in baseline lists.
-/

namespace CfIntegration.Runtime

open Conformance

/-- Trusted artifacts of the entry's own run of a lane: they cover the catalog of
the entry's client version, each scenario was checked, and no status is unknown. -/
structure TrustedRun (parseChecks : ChecksParser) (request : EntryRequest)
    (artifacts : EntryArtifacts) (direction : ConformanceDirection) (lane : SemanticLane)
    (results : ConformanceResults) : Prop where
  artifact : TrustedArtifact parseChecks direction lane (artifacts direction lane)
    ⟨results, runMetadata request direction lane (recordedSuite direction)⟩
  catalog : expectedScenarios direction (recordedSuite direction) request.clientVersion =
    .ok results.scenarios.keys
  checked : ∀ entry ∈ results.scenarios.entries, entry.2.checks ≠ []
  known : ∀ entry ∈ results.scenarios.entries, ∀ check ∈ entry.2.checks, ∀ status,
    check.status ≠ .other status

/-- A lane whose findings are exactly the ones its baseline lists, those of the
direct fixture aside where the lane is a routed server lane. -/
def LaneGated (parseChecks : ChecksParser) (codec : YamlCodec) (baselines : BaselineView)
    (request : EntryRequest) (artifacts : EntryArtifacts) (direction : ConformanceDirection)
    (lane : SemanticLane) : Prop :=
  ∃ results scored direct document,
    TrustedRun parseChecks request artifacts direction lane results ∧
    scoredFindings results = .ok scored ∧
    (direction = .server → lane.isRouted = true → ∃ fixtureResults,
      TrustedRun parseChecks request artifacts .server .fixtureDirect fixtureResults ∧
        scoredFindings fixtureResults = .ok direct) ∧
    readBaselineOptional codec baselines (baselineRelativePath request.clientVersion
      request.serverEra direction lane) = .ok (some document) ∧
    document.findings = (gatedFindings direction direct lane scored).elems

/-- Every lane the entry had to run is gated. -/
def EntryGated (parseChecks : ChecksParser) (codec : YamlCodec) (baselines : BaselineView)
    (request : EntryRequest) (artifacts : EntryArtifacts) : Prop :=
  (∀ lane ∈ request.lanes,
    LaneGated parseChecks codec baselines request artifacts .server lane) ∧
  (request.runsExternalClient = true →
    LaneGated parseChecks codec baselines request artifacts .client .externalDataPlane)

theorem trustedRun_of_recorded {parseChecks : ChecksParser} {env : EntryEnv}
    {request : EntryRequest} {artifacts : EntryArtifacts} {direction : ConformanceDirection}
    {lane : SemanticLane}
    {loaded : LoadedConformanceArtifact} (hrecorded : Recorded env request artifacts)
    (hlane : EntryLane direction lane)
    (htrusted : TrustedArtifact parseChecks direction lane (artifacts direction lane) loaded) :
    TrustedRun parseChecks request artifacts direction lane loaded.results := by
  obtain ⟨results, metadata⟩ := loaded
  obtain rfl := (hrecorded direction lane hlane).metadata metadata htrusted.metadata
  obtain ⟨expected, hexpected, hcovers⟩ := htrusted.covers
  obtain ⟨findings, hscored⟩ := htrusted.scored
  refine ⟨htrusted, ?_, hcovers.checked, known_status_of_scoredFindings hscored⟩
  rw [hcovers.scenarios]
  exact hexpected

section Gate

variable {env : RunEnv} {request : RunRequest} {baselines : BaselineView}
  {clientVersion : String} {serverEra : ConformanceServerEra} {index : Nat}
  {before after : RunProgress} {server client : LaneResults}
  {serverUpdates clientUpdates : List BaselineUpdate}

theorem PassedEntry.record (hentry : PassedEntry env request baselines clientVersion serverEra
    index before after server client serverUpdates clientUpdates) :
    EntryRecord (env.entry index) (request.entry clientVersion serverEra) []
      (after.artifacts clientVersion serverEra) := by
  rw [hentry.artifacts, RunArtifacts.set_self]
  exact runConformanceWithInterrupt_ok hentry.result

theorem EvaluatedDirection.evaluated {direction : ConformanceDirection} {results : LaneResults}
    {updates : List BaselineUpdate} (hevaluated : EvaluatedDirection env request baselines
      clientVersion serverEra direction results updates) {lane : SemanticLane}
    (hlane : (results lane).isSome = true) :
    ∃ evaluation, evaluateBaselines env.codec direction results results.keys baselines
        clientVersion serverEra request.bless = .ok evaluation ∧
      evaluation.updates = updates ∧
      (request.bless = false → ∀ comparison ∈ evaluation.comparisons,
        comparison.matches = true) := by
  have hkeys : results.keys ≠ [] := List.ne_nil_of_mem (LaneResults.mem_keys.mpr hlane)
  rwa [EvaluatedDirection, if_neg hkeys] at hevaluated

theorem PassedEntry.server_gated (hentry : PassedEntry env request baselines clientVersion serverEra
    index before after server client serverUpdates clientUpdates) (hbless : request.bless = false)
    {lane : SemanticLane} (hlane : lane ∈ request.lanes) :
    LaneGated env.parseChecks env.codec baselines (request.entry clientVersion serverEra)
      (after.artifacts clientVersion serverEra) .server lane := by
  have hrecorded := hentry.record.recorded
  obtain ⟨hevidence, _⟩ := loadSelectedConformanceResults_ok_iff.mp hentry.serverResults
  have htrusted : ∀ lane ∈ conformanceEvidenceLanes request.lanes, ∃ loaded,
      TrustedRun env.parseChecks (request.entry clientVersion serverEra)
        (after.artifacts clientVersion serverEra) .server lane loaded ∧
      server lane = some loaded := by
    intro lane hlane
    obtain ⟨loaded, hloaded, hresults⟩ := hevidence lane hlane
    exact ⟨loaded.results, trustedRun_of_recorded hrecorded (Or.inl rfl) hloaded, hresults⟩
  obtain ⟨results, hrun, hresults⟩ :=
    htrusted lane (mem_conformanceEvidenceLanes.mpr (Or.inl hlane))
  have hsome : (server lane).isSome = true := by simp [hresults]
  obtain ⟨evaluation, hevaluated, _, hmatch⟩ := hentry.serverEvaluated.evaluated hsome
  rw [hbless] at hevaluated
  obtain ⟨direct, laneResults, scored, document, hdirect, hlaneResults, hscored, hread, hequal⟩ :=
    evaluateBaselines_matches hevaluated (hmatch hbless) (LaneResults.mem_keys.mpr hsome)
  cases hresults.symm.trans hlaneResults
  refine ⟨results, scored, direct, document, hrun, hscored, fun _ hrouted => ?_, hread, hequal⟩
  obtain ⟨fixtureResults, hfixture, hfixtureResults⟩ := htrusted .fixtureDirect
    (mem_conformanceEvidenceLanes.mpr (Or.inr ⟨rfl, lane, hlane, hrouted⟩))
  rw [directFindings, hfixtureResults] at hdirect
  exact ⟨fixtureResults, hfixture, hdirect⟩

theorem PassedEntry.client_gated (hentry : PassedEntry env request baselines clientVersion serverEra
    index before after server client serverUpdates clientUpdates) (hbless : request.bless = false)
    (hclient : (request.entry clientVersion serverEra).runsExternalClient = true) :
    LaneGated env.parseChecks env.codec baselines (request.entry clientVersion serverEra)
      (after.artifacts clientVersion serverEra) .client .externalDataPlane := by
  have hrecorded := hentry.record.recorded
  obtain ⟨hnone, _⟩ | ⟨loaded, htrusted, hloaded⟩ :=
    loadCompletedClientConformanceResults_ok_iff.mp hentry.clientResults
  · have hmissing := (loadConformanceArtifact_none_iff.mp hnone).2.2
    rw [hentry.record.client rfl hclient] at hmissing
    contradiction
  have hrun := trustedRun_of_recorded hrecorded (Or.inr rfl) htrusted
  have hresults : client .externalDataPlane = some loaded.results := by
    simp [hloaded]
  have hsome : (client .externalDataPlane).isSome = true := by simp [hresults]
  obtain ⟨evaluation, hevaluated, _, hmatch⟩ := hentry.clientEvaluated.evaluated hsome
  rw [hbless] at hevaluated
  obtain ⟨direct, laneResults, scored, document, _, hlaneResults, hscored, hread, hequal⟩ :=
    evaluateBaselines_matches hevaluated (hmatch hbless) (LaneResults.mem_keys.mpr hsome)
  cases hresults.symm.trans hlaneResults
  exact ⟨loaded.results, scored, direct, document, hrun, hscored,
    fun hserver => absurd hserver (by decide), hread, hequal⟩

theorem PassedEntries.gated {entries : List ((String × ConformanceServerEra) × Nat)}
    (hrun : PassedEntries env request baselines entries before after)
    (hbless : request.bless = false) :
    ∀ entry ∈ entries, EntryGated env.parseChecks env.codec baselines
      (request.entry entry.1.1 entry.1.2) (after.artifacts entry.1.1 entry.1.2) :=
  (hrun.establishes
    (fun clientVersion serverEra => EntryGated env.parseChecks env.codec baselines
      (request.entry clientVersion serverEra))
    fun hentry => ⟨fun _ hlane => hentry.server_gated hbless hlane,
      hentry.client_gated hbless⟩).2

end Gate

/-- A run without `bless` that returns `Ok` has gated every entry of its matrix. -/
theorem executeConformance_gated {env : RunEnv} {request : RunRequest}
    {root : Option (Tree Bytes)} {artifacts : RunArtifacts} (hbless : request.bless = false)
    (hok : (executeConformance env request root artifacts).result = .ok ()) :
    ∀ clientVersion ∈ request.clientVersions, ∀ serverEra ∈ request.serverEras,
      EntryGated env.parseChecks env.codec (baselineFileAt env.behindLink root)
        (request.entry clientVersion serverEra)
        ((executeConformance env request root artifacts).artifacts clientVersion serverEra) := by
  intro clientVersion hversion serverEra hera
  obtain ⟨hdocker, hclean⟩ := runMatrix_clean_of_ok hok
  have hartifacts : (executeConformance env request root artifacts).artifacts =
      (runMatrix env request (baselineFileAt env.behindLink root) artifacts).artifacts := by
    rw [executeConformance, hdocker]
    exact finalizeConformanceExecution_artifacts _ _ _ _
  rw [hartifacts]
  have hmem : (clientVersion, serverEra) ∈
      conformanceMatrix request.clientVersions request.serverEras := by
    simp [conformanceMatrix, hversion, hera]
  obtain ⟨index, hindex⟩ := List.getElem?_of_mem hmem
  have hentry := List.mk_mem_zipIdx_iff_getElem?.mpr hindex
  exact (matrix_clean hclean).2.gated hbless _ hentry

/-- Checked-in baselines without findings. -/
def emptyBaselineTree : Tree Bytes :=
  .directory [(stableMcpSpecVersion, .directory [("dual", .directory
    (allConformanceLanes.map fun lane => (lane.slug ++ ".yml", .file emptySource)))])]

/-- A routed run whose checks all succeed, against empty baselines. -/
theorem executeConformance_gated_success :
    EntryGated successParser exampleCodec
      (baselineFileAt (fun _ => .missing) (some emptyBaselineTree))
      ((successRequest .builtInDataPlane false).entry stableMcpSpecVersion .dual)
      ((executeConformance successEnv (successRequest .builtInDataPlane false)
        (some emptyBaselineTree) fun _ _ _ _ => .empty).artifacts stableMcpSpecVersion .dual) := by
  have hfile : ∀ lane, baselineFileAt (fun _ => .missing) (some emptyBaselineTree)
      (baselineRelativePath stableMcpSpecVersion .dual .server lane) = .file emptySource := by
    intro lane
    cases lane <;> rfl
  have hread : ∀ lane, ∃ loaded, readBaselineOptional exampleCodec
      (baselineFileAt (fun _ => .missing) (some emptyBaselineTree))
      (baselineRelativePath stableMcpSpecVersion .dual .server lane) = .ok loaded ∧
      (false = false → loaded = some ⟨[]⟩) := by
    intro lane
    refine ⟨some ⟨[]⟩, ?_, fun _ => rfl⟩
    rw [readBaselineOptional, hfile]
    exact except_map_eq_ok.mpr ⟨_, readBaselineWithMetadata_emptySource _, rfl⟩
  have hclean := (runMatrix_success .builtInDataPlane hread fun _ _ _ _ => .empty).1
  have hok := ((executeConformance_of_clean rfl hclean).1 rfl).1
  exact executeConformance_gated rfl hok stableMcpSpecVersion List.mem_cons_self .dual
    List.mem_cons_self

end CfIntegration.Runtime
