import CfIntegration.Runtime.EntryRecords

/-! # An undisturbed entry

Where nothing fails and the interrupt stays pending, an entry whose runners leave
results that cover their catalogs ends without operational failures, with every
lane it ran complete.
-/

namespace CfIntegration.Runtime

open Conformance

/-- The artifacts a lane's own run leaves when it is marked complete. -/
def completeLane (request : EntryRequest) (direction : ConformanceDirection)
    (target : SemanticLane) (official : Option OfficialDirectory) : LaneArtifact where
  metadata := some (runMetadata request direction target (recordedSuite direction))
  official
  completion := some conformanceCompletionMarker

/-- Results that cover the catalog of a client version and can be scored. -/
structure ValidResults (parseChecks : ChecksParser) (direction : ConformanceDirection)
    (clientVersion : String) (official : Option OfficialDirectory) (results : ConformanceResults) :
    Prop where
  loaded : loadOfficialResults parseChecks direction official = .ok results
  covers : ∃ expected, expectedScenarios direction (recordedSuite direction) clientVersion =
    .ok expected ∧ CoversExactly results expected
  scored : ∃ findings, scoredFindings results = .ok findings

theorem directory_of_loadResults {parseChecks : ChecksParser} {rootName : Option String}
    {root : Option (Tree Bytes)} {directoryPrefix : Option String} {results : ConformanceResults}
    (hloaded : loadResults parseChecks rootName root directoryPrefix = .ok results) :
    ∃ entries, root = some (.directory entries) := by
  unfold loadResults at hloaded
  cases root with
  | none => simp at hloaded
  | some tree =>
      cases tree with
      | directory entries => exact ⟨entries, rfl⟩
      | _ => simp at hloaded

namespace ValidResults

variable {parseChecks : ChecksParser} {direction : ConformanceDirection} {request : EntryRequest}
  {official : Option OfficialDirectory} {results : ConformanceResults}

theorem directory {clientVersion : String}
    (hvalid : ValidResults parseChecks direction clientVersion official results) :
    ∃ name entries, official = some ⟨name, .directory entries⟩ := by
  have hloaded := hvalid.loaded
  obtain ⟨entries, hentries⟩ : ∃ entries,
      official.map OfficialDirectory.tree = some (.directory entries) := by
    cases direction <;> exact directory_of_loadResults hloaded
  obtain ⟨⟨name, _⟩, rfl, rfl⟩ := Option.map_eq_some_iff.mp hentries
  exact ⟨name, entries, rfl⟩

/-- Complete lanes with valid results are trusted. -/
theorem trusted (hvalid : ValidResults parseChecks direction request.clientVersion official results)
    (target : SemanticLane) :
    TrustedArtifact parseChecks direction target (completeLane request direction target official)
      ⟨results, runMetadata request direction target (recordedSuite direction)⟩ := by
  obtain ⟨name, entries, rfl⟩ := hvalid.directory
  exact ⟨rfl, rfl, rfl, rfl, rfl, rfl, rfl, hvalid.loaded, hvalid.covers, hvalid.scored⟩

theorem validateServerRun
    (hvalid : ValidResults parseChecks .server request.clientVersion official results)
    (target : SemanticLane) : validateServerRun parseChecks request target official = .ok () := by
  have hloaded : loadServerResults parseChecks official = .ok results := hvalid.loaded
  have hcovers : validateServerScenarioSet results defaultConformanceSuite request.clientVersion =
      .ok () := validateServerScenarioSet_ok_iff.mpr hvalid.covers
  simp [Runtime.validateServerRun, hloaded, hcovers, bind, Except.bind, pure, Except.pure]

theorem validateClientRun
    (hvalid : ValidResults parseChecks .client request.clientVersion official results) :
    validateClientRun parseChecks request official = .ok () := by
  have hloaded : loadClientResults parseChecks official = .ok results := hvalid.loaded
  have hcovers : validateClientScenarioSet results request.clientVersion = .ok () :=
    validateClientScenarioSet_ok_iff.mpr hvalid.covers
  obtain ⟨findings, hscored⟩ := hvalid.scored
  simp [Runtime.validateClientRun, validateScoredResults, hloaded, hcovers, hscored, bind,
    Except.bind, pure, Except.pure]

end ValidResults

def undisturbedTarget (official : Option OfficialDirectory) : TargetEnv where
  step _ := .ok ()
  tool := .ok ()
  official

def undisturbedTopology (official : Option OfficialDirectory) : TopologyEnv where
  stackUp := .ok ()
  startService := .ok ()
  adminClient := .ok ()
  provision := .ok "fixture-server"
  publisherSnapshot := .ok ()
  standaloneToken := .ok ()
  conformanceToken := .ok "catalog-token"
  publishConfig := .ok ()
  gatewayEndpoint := .ok ()
  target := undisturbedTarget official
  revokeToken := .ok ()
  cleanupFixture := .ok ()
  stopService := .ok ()
  cleanupStack := .ok ()

def undisturbedClient (official : Option OfficialDirectory) : ClientEnv where
  stackUp := .ok ()
  pausePublisher := .ok ()
  run :=
    { step := fun _ => .ok ()
      token := fun _ => .ok ()
      tool := fun _ => .ok ()
      cancelledAfter := fun _ => false
      official
      driverFailures := .ok [] }
  restorePublisher := .ok ()
  cleanupStack := .ok ()

/-- Every operation succeeds and the interrupt stays pending; the runners leave
the given results. -/
def undisturbedEntry
    (official : ConformanceDirection → SemanticLane → Option OfficialDirectory) : EntryEnv where
  fires _ := false
  clear _ _ := .ok ()
  leftover _ _ := .empty
  loopbackFixture := .ok ()
  directPreCleanup := .ok ()
  directStart := .ok ()
  directEndpoint := .ok ()
  directTarget := undisturbedTarget (official .server .fixtureDirect)
  directStop := .ok ()
  routedCleanup := .ok ()
  topology mode := undisturbedTopology (official .server (conformanceTarget mode))
  client := undisturbedClient (official .client .externalDataPlane)
  writeComparison := .ok ()
  appendLog := .ok ()

section Phases

variable {parseChecks : ChecksParser} {request : EntryRequest}
  {official : ConformanceDirection → SemanticLane → Option OfficialDirectory}
  {results : ConformanceDirection → SemanticLane → ConformanceResults}

theorem runOfficialConformanceTarget_undisturbed {target : SemanticLane}
    {official : Option OfficialDirectory} {results : ConformanceResults}
    (hvalid : ValidResults parseChecks .server request.clientVersion official results)
    (artifact : LaneArtifact) :
    runOfficialConformanceTarget parseChecks (undisturbedTarget official) request target artifact =
      (.ok (), completeLane request .server target official) := by
  obtain ⟨expected, hexpected, _⟩ := hvalid.covers
  have hscenarios : expectedServerScenarios defaultConformanceSuite request.clientVersion =
      .ok expected := hexpected
  rw [runOfficialConformanceTarget, hscenarios]
  simp [undisturbedTarget, prepareLane, runSteps, conformanceProcessCompleted, markComplete,
    hvalid.validateServerRun, fromNative, completeLane, recordedSuite]

theorem runOfficialClientConformance_undisturbed {results : ConformanceResults}
    (hvalid : ValidResults parseChecks .client request.clientVersion
      (official .client .externalDataPlane) results) (artifact : LaneArtifact) :
    runOfficialClientConformance parseChecks (undisturbedEntry official).client.run false request
        artifact =
      (.ok (), completeLane request .client .externalDataPlane
        (official .client .externalDataPlane)) := by
  obtain ⟨expected, hexpected, _⟩ := hvalid.covers
  have hscenarios : expectedClientScenarios request.clientVersion = .ok expected := hexpected
  have hquiet : ∀ scenarios : List String, clientScenarioFailures
      (undisturbedEntry official).client.run false scenarios = [] := by
    intro scenarios
    induction scenarios with
    | nil => rfl
    | cons scenario rest ih => simpa [clientScenarioFailures, undisturbedEntry, undisturbedClient]
  simp only [undisturbedEntry, undisturbedClient] at hquiet
  rw [runOfficialClientConformance, hscenarios]
  simp [prepareLane, runSteps, finishClientRun, hquiet, undisturbedEntry, undisturbedClient,
    markComplete, hvalid.validateClientRun, fromNative, completeLane, recordedSuite]

/-- The direct fixture's phase, step by step. -/
theorem directPhase_undisturbed {results : ConformanceResults}
    (hvalid : ValidResults parseChecks .server request.clientVersion
      (official .server .fixtureDirect) results)
    (artifacts : EntryArtifacts) :
    directPhase parseChecks (undisturbedEntry official) request artifacts =
      { artifacts := artifacts.set .server .fixtureDirect
          (completeLane request .server .fixtureDirect (official .server .fixtureDirect))
        trace := [.released .directFixture, .acquired .directFixture, .selected .directStart false,
          .selected .directRun false, .released .directFixture]
        failures := []
        interrupted := false
        externalStackRetained := false } := by
  have hrun := fun artifact => @runOfficialConformanceTarget_undisturbed parseChecks request
    .fixtureDirect _ _ hvalid artifact
  simp [directPhase, directLane, startDirectFixture, runDirectFixture, LaneProgress.select,
    LaneProgress.awaitRun, LaneProgress.cleanUp, EntryProgress.absorb, undisturbedEntry, hrun,
    finishWithCleanup, finishWithCleanupFailures]

/-- What an undisturbed phase does: it only changes artifacts and events. -/
structure Undisturbed (before after : EntryProgress) (artifacts : EntryArtifacts) : Prop where
  artifacts : after.artifacts = artifacts
  failures : after.failures = before.failures
  interrupted : after.interrupted = before.interrupted

theorem routedCleanupPhase_undisturbed (request : EntryRequest)
    (official : ConformanceDirection → SemanticLane → Option OfficialDirectory)
    (progress : EntryProgress) :
    Undisturbed progress (routedCleanupPhase (undisturbedEntry official) request progress)
      progress.artifacts := by
  unfold routedCleanupPhase
  split
  · exact ⟨rfl, rfl, rfl⟩
  · exact ⟨rfl, by simp [undisturbedEntry], rfl⟩

/-- A topology that loses nothing before its stack is cleaned up loses nothing then. -/
theorem finishStack_undisturbed (topology : StackMode) {progress : TopologyProgress}
    (hfailure : progress.failure = none) :
    let run := topologyRun parseChecks (undisturbedEntry official) request topology
    (run.finishStack progress).artifacts = progress.artifacts ∧
      (run.finishStack progress).failure = none ∧
      (run.finishStack progress).interrupted = progress.interrupted := by
  dsimp only
  unfold TopologyRun.finishStack
  split
  · exact ⟨rfl, hfailure, rfl⟩
  · exact ⟨rfl, err_finishWithCleanup_eq_none.mpr ⟨hfailure, rfl⟩, rfl⟩

theorem topology_undisturbed {topology : StackMode}
    (hselected : conformanceTarget topology ∈ request.lanes)
    (hvalid : ValidResults parseChecks .server request.clientVersion
      (official .server (conformanceTarget topology))
      (results .server (conformanceTarget topology)))
    (artifacts : EntryArtifacts) :
    let run := topologyRun parseChecks (undisturbedEntry official) request topology
    (run.complete artifacts).artifacts = artifacts.set .server (conformanceTarget topology)
        (completeLane request .server (conformanceTarget topology)
          (official .server (conformanceTarget topology))) ∧
      (run.complete artifacts).failure = none ∧ (run.complete artifacts).interrupted = false := by
  have hrun := fun artifact => @runOfficialConformanceTarget_undisturbed parseChecks request
    (conformanceTarget topology) _ _ hvalid artifact
  intro run
  have hbefore : (run.cleanUpFixture <| run.revokeManagedToken <| run.runTests <|
      run.provisionFixture <| run.startService <| run.prepareStack artifacts).artifacts =
        artifacts.set .server (conformanceTarget topology) (completeLane request .server
          (conformanceTarget topology) (official .server (conformanceTarget topology))) ∧
      (run.cleanUpFixture <| run.revokeManagedToken <| run.runTests <| run.provisionFixture <|
        run.startService <| run.prepareStack artifacts).failure = none ∧
      (run.cleanUpFixture <| run.revokeManagedToken <| run.runTests <| run.provisionFixture <|
        run.startService <| run.prepareStack artifacts).interrupted = false := by
    cases topology <;> cases hstandalone : request.standalone <;>
      simp_all [run, topologyRun, TopologyRun.prepareStack, TopologyRun.startService,
        TopologyRun.provisionFixture, TopologyRun.runTests, TopologyRun.revokeManagedToken,
        TopologyRun.cleanUpFixture, TopologyRun.standalone, TopologyRun.runsRouted,
        TopologyRun.target, TopologyRun.issueToken, TopologyRun.runOfficialConformanceMode,
        undisturbedEntry, undisturbedTopology, LaneProgress.select, LaneProgress.awaitRun,
        LaneProgress.cleanUp, finishWithCleanup, finishWithCleanupFailures, combineCleanupResults,
        conformanceTarget]
  obtain ⟨hartifacts, hfailure, hinterrupted⟩ := hbefore
  have hfinish := @finishStack_undisturbed parseChecks request official topology _ hfailure
  rw [← hartifacts, ← hinterrupted]
  exact hfinish

theorem topologyPhase_undisturbed {topology : StackMode} {progress : EntryProgress}
    (hselected : conformanceTarget topology ∈ request.lanes)
    (hvalid : ValidResults parseChecks .server request.clientVersion
      (official .server (conformanceTarget topology))
      (results .server (conformanceTarget topology)))
    (hquiet : progress.interrupted = false) :
    Undisturbed progress (topologyPhase parseChecks (undisturbedEntry official) request progress
      topology) (progress.artifacts.set .server (conformanceTarget topology)
        (completeLane request .server (conformanceTarget topology)
          (official .server (conformanceTarget topology)))) := by
  obtain ⟨hartifacts, hfailure, hinterrupted⟩ :=
    topology_undisturbed hselected hvalid progress.artifacts
  rw [topologyPhase, if_neg (by simp [hquiet])]
  exact ⟨hartifacts, by simp [EntryProgress.absorb, hfailure],
    by simp [EntryProgress.absorb, hinterrupted, hquiet]⟩

theorem clientPhase_undisturbed {progress : EntryProgress}
    (hclient : request.runsExternalClient = true)
    (hvalid : ValidResults parseChecks .client request.clientVersion
      (official .client .externalDataPlane) (results .client .externalDataPlane))
    (hquiet : progress.interrupted = false) :
    Undisturbed progress (clientPhase parseChecks (undisturbedEntry official) request progress)
      (progress.artifacts.set .client .externalDataPlane
        (completeLane request .client .externalDataPlane
          (official .client .externalDataPlane))) := by
  have hrun := fun artifact => @runOfficialClientConformance_undisturbed parseChecks request
    official _ hvalid artifact
  have htests : ∀ lane : LaneProgress, lane.interrupted = false →
      ((undisturbedEntry official).client.runTests parseChecks request lane).artifacts =
        lane.artifacts.set .client .externalDataPlane (completeLane request .client
          .externalDataPlane (official .client .externalDataPlane)) ∧
      ((undisturbedEntry official).client.runTests parseChecks request lane).failure = none := by
    intro lane hlane
    simp [ClientEnv.runTests, hlane, hrun]
  -- With or without a retained stack the tests run once, and every release succeeds.
  have hcomplete : ∀ reuseStack artifacts,
      ((undisturbedEntry official).client.complete parseChecks request false reuseStack
        artifacts).artifacts = artifacts.set .client .externalDataPlane (completeLane request
          .client .externalDataPlane (official .client .externalDataPlane)) ∧
      ((undisturbedEntry official).client.complete parseChecks request false reuseStack
        artifacts).failure = none := by
    intro reuseStack artifacts
    rw [ClientEnv.complete, ClientEnv.runWithPublisherPaused, if_neg (by exact Bool.false_ne_true)]
    split
    · obtain ⟨hartifacts, hfailure⟩ := htests ((undisturbedEntry official).client.prepareStack
        false reuseStack artifacts) rfl
      exact ⟨hartifacts, err_finishWithCleanup_eq_none.mpr ⟨hfailure, rfl⟩⟩
    · obtain ⟨hartifacts, hfailure⟩ := htests
        { (undisturbedEntry official).client.prepareStack false reuseStack artifacts with
          trace := [if reuseStack then .externalStackReused else .acquired (.stack .dataplane)] ++
            [.acquired .publisherPause] } rfl
      exact ⟨hartifacts, err_finishWithCleanup_eq_none.mpr
        ⟨err_finishWithCleanup_eq_none.mpr ⟨hfailure, rfl⟩, rfl⟩⟩
  obtain ⟨hartifacts, hfailure⟩ :=
    hcomplete progress.externalStackRetained progress.artifacts
  rw [clientPhase, if_neg (by simp [hquiet, hclient])]
  refine ⟨hartifacts, ?_, hquiet.symm⟩
  change progress.failures ++ (((undisturbedEntry official).client.complete parseChecks request
    false progress.externalStackRetained progress.artifacts).failure.map _).toList = _
  rw [hfailure]
  simp

/-- The lanes an entry runs: the direct fixture and the selected ones. -/
theorem topologies_undisturbed
    (hvalid : ∀ lane ∈ request.lanes, ValidResults parseChecks .server request.clientVersion
      (official .server lane) (results .server lane))
    {topologies : List StackMode}
    (hselected : ∀ topology ∈ topologies, conformanceTarget topology ∈ request.lanes)
    {progress : EntryProgress} (hquiet : progress.interrupted = false) :
    let after := topologies.foldl (topologyPhase parseChecks (undisturbedEntry official) request)
      progress
    after.failures = progress.failures ∧ after.interrupted = false ∧
      ∀ lane, lane ∈ topologies.map conformanceTarget ∨ progress.artifacts .server lane =
          completeLane request .server lane (official .server lane) →
        after.artifacts .server lane =
          completeLane request .server lane (official .server lane) := by
  induction topologies generalizing progress with
  | nil => exact ⟨rfl, hquiet, by simp⟩
  | cons topology rest ih =>
      rw [List.forall_mem_cons] at hselected
      have hphase := topologyPhase_undisturbed hselected.1 (hvalid _ hselected.1) hquiet
      obtain ⟨hfailures, hinterrupted, hlanes⟩ :=
        ih hselected.2 (hphase.interrupted.trans hquiet)
      refine ⟨hfailures.trans hphase.failures, hinterrupted, fun lane hlane => hlanes lane ?_⟩
      rw [hphase.artifacts]
      by_cases hsame : lane = conformanceTarget topology
      · rw [hsame, EntryArtifacts.set_self]
        exact Or.inr rfl
      · rw [EntryArtifacts.set_of_ne _ (by simp [hsame])]
        simpa [hsame] using hlane

theorem comparisonArtifacts_undisturbed {paths : ConformancePaths} {artifacts : EntryArtifacts}
    (hvalid : ∀ lane, ValidResults parseChecks .server request.clientVersion
      (official .server lane) (results .server lane))
    (hcomplete : ∀ lane, artifacts .server lane =
      completeLane request .server lane (official .server lane)) :
    ∃ written, comparisonArtifacts parseChecks paths artifacts
      (some (request.clientVersion, request.serverEra, defaultConformanceSuite)) = .ok written := by
  have hloaded : ∀ lane, loadConformanceArtifact parseChecks paths artifacts .server lane =
      .ok (some ⟨results .server lane, runMetadata request .server lane (recordedSuite .server)⟩) :=
    fun lane => loadConformanceArtifact_some_iff.mpr
      ((hcomplete lane).symm ▸ (hvalid lane).trusted lane)
  simp [comparisonArtifacts, hloaded, compatibleMetadata, runMetadata, recordedSuite, fromNative,
    bind, Except.bind, pure, Except.pure]

theorem comparisonPhase_undisturbed {progress : EntryProgress}
    (hvalid : ∀ lane, lane = .fixtureDirect ∨ lane ∈ request.lanes →
      ValidResults parseChecks .server request.clientVersion (official .server lane)
        (results .server lane))
    (hcomplete : ∀ lane, lane = .fixtureDirect ∨ lane ∈ request.lanes →
      progress.artifacts .server lane =
        completeLane request .server lane (official .server lane))
    (hfailures : progress.failures = []) :
    (comparisonPhase parseChecks (undisturbedEntry official) request progress).failures = [] := by
  unfold comparisonPhase
  split
  next hall =>
    have hselected : ∀ lane, lane ∈ request.lanes := by
      have := hall.2.2
      simp only [List.all_eq_true, List.contains_iff_mem] at this
      exact fun lane => this lane (mem_allConformanceLanes lane)
    obtain ⟨written, hwritten⟩ := @comparisonArtifacts_undisturbed _ _ _ _
      ⟨request.clientVersion, request.serverEra⟩ _
      (fun lane => hvalid lane (Or.inr (hselected lane)))
      (fun lane => hcomplete lane (Or.inr (hselected lane)))
    rw [hwritten]
    rfl
  · exact hfailures

theorem mem_conformanceTopologies {lanes : List SemanticLane} {lane : SemanticLane} :
    lane ∈ (conformanceTopologies lanes).map conformanceTarget ↔
      lane ∈ lanes ∧ lane.isRouted = true := by
  unfold conformanceTopologies
  cases lane <;> split <;> split <;> simp_all [conformanceTarget, SemanticLane.isRouted]

theorem runPhases_undisturbed
    (hserver : ∀ lane, lane = .fixtureDirect ∨ lane ∈ request.lanes →
      ValidResults parseChecks .server request.clientVersion (official .server lane)
        (results .server lane))
    (hclient : request.runsExternalClient = true →
      ValidResults parseChecks .client request.clientVersion (official .client .externalDataPlane)
        (results .client .externalDataPlane))
    (artifacts : EntryArtifacts) :
    let after := runPhases parseChecks (undisturbedEntry official) request artifacts
    after.failures = [] ∧
    (∀ lane, lane = .fixtureDirect ∨ lane ∈ request.lanes → after.artifacts .server lane =
      completeLane request .server lane (official .server lane)) ∧
    (request.runsExternalClient = true → after.artifacts .client .externalDataPlane =
      completeLane request .client .externalDataPlane (official .client .externalDataPlane)) := by
  intro after
  have hselected : ∀ topology ∈ conformanceTopologies request.lanes,
      conformanceTarget topology ∈ request.lanes := fun topology htopology =>
    (mem_conformanceTopologies.mp (List.mem_map_of_mem htopology)).1
  have hdirect := @directPhase_undisturbed parseChecks request official _
    (hserver .fixtureDirect (Or.inl rfl)) artifacts
  have hcleared := routedCleanupPhase_undisturbed request official
    (directPhase parseChecks (undisturbedEntry official) request artifacts)
  have hcleanedQuiet := hcleared.interrupted
  rw [hdirect] at hcleanedQuiet
  have htopologies := topologies_undisturbed (fun lane hlane => hserver lane (Or.inr hlane))
    hselected hcleanedQuiet
  rw [← hdirect] at htopologies
  obtain ⟨hfailures, hquiet, hlanes⟩ := htopologies
  have hnone : (routedCleanupPhase (undisturbedEntry official) request
      (directPhase parseChecks (undisturbedEntry official) request artifacts)).failures = [] := by
    rw [hcleared.failures, hdirect]
  -- The cleanup between the phases touches no artifact, so the direct lane is carried through.
  have hcomplete : ∀ lane, lane = .fixtureDirect ∨ lane ∈ request.lanes →
      ((conformanceTopologies request.lanes).foldl (topologyPhase parseChecks
        (undisturbedEntry official) request) (routedCleanupPhase (undisturbedEntry official) request
          (directPhase parseChecks (undisturbedEntry official) request artifacts))).artifacts
          .server lane = completeLane request .server lane (official .server lane) := by
    intro lane hlane
    refine hlanes lane ?_
    rw [mem_conformanceTopologies, hcleared.artifacts, hdirect]
    cases lane with
    | fixtureDirect =>
        right
        dsimp only
        rw [EntryArtifacts.set_self]
    | builtInDataPlane | externalDataPlane =>
        exact Or.inl ⟨hlane.resolve_left (by decide), rfl⟩
  have hafter : after = comparisonPhase parseChecks (undisturbedEntry official) request
      (clientPhase parseChecks (undisturbedEntry official) request
        ((conformanceTopologies request.lanes).foldl (topologyPhase parseChecks
          (undisturbedEntry official) request) (routedCleanupPhase (undisturbedEntry official)
            request
            (directPhase parseChecks (undisturbedEntry official) request artifacts)))) := rfl
  rw [hafter, comparisonPhase_artifacts]
  rw [hnone] at hfailures
  generalize (conformanceTopologies request.lanes).foldl (topologyPhase parseChecks
    (undisturbedEntry official) request) (routedCleanupPhase (undisturbedEntry official) request
      (directPhase parseChecks (undisturbedEntry official) request artifacts)) = progress at *
  cases hruns : request.runsExternalClient with
  | false =>
      rw [clientPhase, if_pos (by simp [hruns])]
      exact ⟨comparisonPhase_undisturbed hserver hcomplete hfailures, hcomplete, by simp⟩
  | true =>
      have hphase := clientPhase_undisturbed hruns (hclient hruns) hquiet
      have hcompleteAfter : ∀ lane, lane = .fixtureDirect ∨ lane ∈ request.lanes →
          (clientPhase parseChecks (undisturbedEntry official) request progress).artifacts .server
            lane = completeLane request .server lane (official .server lane) := by
        intro lane hlane
        rw [hphase.artifacts, EntryArtifacts.set_of_ne _ (by simp)]
        exact hcomplete lane hlane
      refine ⟨comparisonPhase_undisturbed hserver hcompleteAfter
        (hphase.failures.trans hfailures), hcompleteAfter, fun _ => ?_⟩
      rw [hphase.artifacts, EntryArtifacts.set_self]

/-- An undisturbed entry with valid results ends without operational failures,
and every lane it ran is complete. -/
theorem runConformanceWithInterrupt_undisturbed (hlanes : request.lanes ≠ [])
    (hserver : ∀ lane, lane = .fixtureDirect ∨ lane ∈ request.lanes →
      ValidResults parseChecks .server request.clientVersion (official .server lane)
        (results .server lane))
    (hclient : request.runsExternalClient = true →
      ValidResults parseChecks .client request.clientVersion (official .client .externalDataPlane)
        (results .client .externalDataPlane))
    (artifacts : EntryArtifacts) :
    let outcome := runConformanceWithInterrupt parseChecks (undisturbedEntry official) request
      artifacts
    outcome.result = .ok [] ∧
    (∀ lane, lane = .fixtureDirect ∨ lane ∈ request.lanes → outcome.artifacts .server lane =
      completeLane request .server lane (official .server lane)) ∧
    (request.runsExternalClient = true → outcome.artifacts .client .externalDataPlane =
      completeLane request .client .externalDataPlane (official .client .externalDataPlane)) := by
  have hvalid : validateEntry request = .ok () := by
    obtain ⟨expected, hexpected, _⟩ := (hserver .fixtureDirect (Or.inl rfl)).covers
    have hscenarios : expectedServerScenarios defaultConformanceSuite request.clientVersion =
        .ok expected := hexpected
    unfold validateEntry
    rw [hscenarios]
    cases hruns : request.runsExternalClient with
    | false => simp [hlanes, fromNative, bind, Except.bind, pure, Except.pure]
    | true =>
        obtain ⟨clientExpected, hclientExpected, _⟩ := (hclient hruns).covers
        have hscenarios : expectedClientScenarios request.clientVersion = .ok clientExpected :=
          hclientExpected
        simp [hlanes, hscenarios, fromNative, bind, Except.bind, pure, Except.pure]
  have hcleared : ∀ lanes artifacts, ∃ cleared,
      clearConformance (undisturbedEntry official) artifacts lanes = (.ok (), cleared) := by
    intro lanes
    induction lanes with
    | nil => exact fun artifacts => ⟨artifacts, rfl⟩
    | cons head rest ih => exact fun artifacts => ih _
  obtain ⟨cleared, hcleared⟩ := hcleared [(.server, .fixtureDirect), (.server, .builtInDataPlane),
    (.server, .externalDataPlane), (.client, .externalDataPlane)] artifacts
  have hloopback : (if conformanceTopologies request.lanes = [] then .ok ()
      else (undisturbedEntry official).loopbackFixture) = .ok () := by
    split <;> rfl
  obtain ⟨hfailures, hcomplete, hclientComplete⟩ := runPhases_undisturbed hserver hclient cleared
  unfold runConformanceWithInterrupt
  simp only [hvalid, hcleared, hloopback]
  rw [if_pos hfailures, hfailures]
  exact ⟨rfl, hcomplete, hclientComplete⟩

end Phases

end CfIntegration.Runtime
