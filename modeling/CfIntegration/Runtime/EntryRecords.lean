import CfIntegration.Runtime.EntryResources

/-! # What an entry records

The metadata an entry leaves is the one it wrote for its own client version and
server era, and an entry without operational failures that runs the client
direction leaves it marked complete.
-/

namespace CfIntegration.Runtime

open Conformance

theorem runSteps_invariant {σ α : Type} {outcome : σ → AppResult Unit} (invariant : α → Prop)
    {steps : List (σ × (α → α))}
    (hstep : ∀ step ∈ steps, ∀ state, invariant state → invariant (step.2 state)) {state : α}
    (hstate : invariant state) : invariant (runSteps outcome steps state).2 := by
  induction steps generalizing state with
  | nil => exact hstate
  | cons step rest ih =>
      unfold runSteps
      rw [List.forall_mem_cons] at hstep
      split
      · exact ih hstep.2 (hstep.1 state hstate)
      · exact hstate

/-- The suite recorded for a direction's runs. -/
def recordedSuite : ConformanceDirection → String
  | .server => defaultConformanceSuite
  | .client => "scoped"

/-- A lane's metadata, if any, is the one its own run writes, and a completed lane
holds the results its runner left. -/
structure RecordedLane (request : EntryRequest) (official : Option OfficialDirectory)
    (direction : ConformanceDirection) (target : SemanticLane) (artifact : LaneArtifact) :
    Prop where
  metadata : ∀ metadata, artifact.metadata = some metadata →
    metadata = runMetadata request direction target (recordedSuite direction)
  official : artifact.completion ≠ none → artifact.official = official

theorem recordedLane_empty (request : EntryRequest) (official : Option OfficialDirectory)
    (direction : ConformanceDirection) (target : SemanticLane) :
    RecordedLane request official direction target .empty :=
  ⟨fun _ hmetadata => (nomatch hmetadata), fun hnone => absurd rfl hnone⟩

theorem prepareLane_recorded {step : TargetStep → AppResult Unit} {request : EntryRequest}
    {official : Option OfficialDirectory} {direction : ConformanceDirection}
    {target : SemanticLane} {artifact : LaneArtifact}
    (hrecorded : RecordedLane request official direction target artifact) :
    RecordedLane request official direction target
      (prepareLane step (runMetadata request direction target (recordedSuite direction))
        artifact).2 := by
  unfold prepareLane runSteps
  split
  · refine (runSteps_invariant (fun artifact => artifact.completion = none ∧
      RecordedLane request official direction target artifact) ?_ ?_).2
    · simp only [List.mem_cons, List.not_mem_nil, or_false]
      rintro _ (rfl | rfl | rfl | rfl | rfl) state ⟨hcompletion, hmetadata, _⟩ <;>
        refine ⟨hcompletion, ⟨?_, fun hsome => absurd hcompletion hsome⟩⟩
      case inr.inr.inr.inl =>
        intro metadata hwritten
        exact (Option.some.inj hwritten).symm
      all_goals exact hmetadata
    · exact ⟨rfl, hrecorded.metadata, fun hsome => absurd rfl hsome⟩
  · exact hrecorded

/-- Marking a lane complete keeps its metadata and its results. -/
theorem markComplete_recorded {request : EntryRequest} {official : Option OfficialDirectory}
    {direction : ConformanceDirection} {target : SemanticLane} {artifact : LaneArtifact}
    (validation : Except String Unit) (writeCompletion : AppResult Unit)
    (hrecorded : RecordedLane request official direction target artifact)
    (hofficial : artifact.official = official) :
    RecordedLane request official direction target
      (markComplete validation writeCompletion artifact).2 := by
  unfold markComplete
  split
  · exact hrecorded
  · exact hrecorded
  · exact ⟨hrecorded.metadata, fun _ => hofficial⟩

theorem markComplete_completion {validation : Except String Unit}
    {writeCompletion : AppResult Unit} {artifact : LaneArtifact}
    (hok : err (markComplete validation writeCompletion artifact).1 = none) :
    (markComplete validation writeCompletion artifact).2.completion =
      some conformanceCompletionMarker := by
  unfold markComplete at hok ⊢
  split at hok
  · simp at hok
  · simp at hok
  · rfl

theorem runOfficialConformanceTarget_recorded {parseChecks : ChecksParser} {env : TargetEnv}
    {request : EntryRequest} {target : SemanticLane} {artifact : LaneArtifact}
    (hrecorded : RecordedLane request env.official .server target artifact) :
    RecordedLane request env.official .server target
      (runOfficialConformanceTarget parseChecks env request target artifact).2 := by
  have hprepared : RecordedLane request env.official .server target (prepareLane env.step
      (runMetadata request .server target defaultConformanceSuite) artifact).2 :=
    prepareLane_recorded hrecorded
  unfold runOfficialConformanceTarget
  split
  · exact hrecorded
  · split
    next hprepare =>
      rw [hprepare] at hprepared
      exact hprepared
    next hprepare =>
      rw [hprepare] at hprepared
      dsimp only
      split
      · exact ⟨hprepared.metadata, fun _ => rfl⟩
      · exact markComplete_recorded _ _ ⟨hprepared.metadata, fun _ => rfl⟩ rfl

theorem runOfficialClientConformance_recorded {parseChecks : ChecksParser} {env : ClientRunEnv}
    {interrupted : Bool} {request : EntryRequest} {artifact : LaneArtifact}
    (hrecorded : RecordedLane request env.official .client .externalDataPlane artifact) :
    RecordedLane request env.official .client .externalDataPlane
      (runOfficialClientConformance parseChecks env interrupted request artifact).2 := by
  have hprepared : RecordedLane request env.official .client .externalDataPlane (prepareLane
      env.step (runMetadata request .client .externalDataPlane "scoped") artifact).2 :=
    prepareLane_recorded hrecorded
  unfold runOfficialClientConformance
  split
  · exact hrecorded
  · split
    next hprepare =>
      rw [hprepare] at hprepared
      exact hprepared
    next hprepare =>
      rw [hprepare] at hprepared
      exact markComplete_recorded _ _ ⟨hprepared.metadata, fun _ => rfl⟩ rfl

/-- A client run without failure marked its lane complete. -/
theorem runOfficialClientConformance_completion {parseChecks : ChecksParser} {env : ClientRunEnv}
    {interrupted : Bool} {request : EntryRequest} {artifact : LaneArtifact}
    (hok : err (runOfficialClientConformance parseChecks env interrupted request artifact).1 =
      none) :
    (runOfficialClientConformance parseChecks env interrupted request artifact).2.completion =
      some conformanceCompletionMarker := by
  unfold runOfficialClientConformance at hok ⊢
  split at hok
  · simp at hok
  · split at hok
    · simp at hok
    · dsimp only [finishClientRun] at hok ⊢
      refine markComplete_completion ?_
      split_ifs at hok with hnone
      · simp only [List.append_eq_nil_iff, List.map_eq_nil_iff, Option.toList_eq_nil_iff] at hnone
        exact hnone.2
      · simp at hok

/-- The lanes of an entry; the client direction has only the external one. -/
def EntryLane (direction : ConformanceDirection) (lane : SemanticLane) : Prop :=
  direction = .server ∨ lane = .externalDataPlane

/-- The results a lane's runner leaves. -/
def EntryEnv.official (env : EntryEnv) : ConformanceDirection → SemanticLane →
    Option OfficialDirectory
  | .server, .fixtureDirect => env.directTarget.official
  | .server, .builtInDataPlane => (env.topology .controlplane).target.official
  | .server, .externalDataPlane => (env.topology .dataplane).target.official
  | .client, _ => env.client.run.official

/-- Every lane holds the entry's own records. -/
def Recorded (env : EntryEnv) (request : EntryRequest) (artifacts : EntryArtifacts) : Prop :=
  ∀ direction lane, EntryLane direction lane →
    RecordedLane request (env.official direction lane) direction lane (artifacts direction lane)

theorem Recorded.set {env : EntryEnv} {request : EntryRequest} {artifacts : EntryArtifacts}
    (hrecorded : Recorded env request artifacts) {direction : ConformanceDirection}
    {lane : SemanticLane} {artifact : LaneArtifact}
    (hartifact : RecordedLane request (env.official direction lane) direction lane artifact) :
    Recorded env request (artifacts.set direction lane artifact) := by
  intro otherDirection otherLane hlane
  by_cases hsame : otherDirection = direction ∧ otherLane = lane
  · obtain ⟨rfl, rfl⟩ := hsame
    rwa [EntryArtifacts.set_self]
  · rw [EntryArtifacts.set_of_ne _ hsame]
    exact hrecorded otherDirection otherLane hlane

theorem LaneProgress.awaitRun_artifacts (fires : SelectPoint → Bool) (point : SelectPoint)
    (target : SemanticLane) (run : LaneArtifact → AppResult Unit × LaneArtifact)
    (lane : LaneProgress) :
    (lane.awaitRun fires point target run).artifacts =
      lane.artifacts.set .server target (run (lane.artifacts .server target)).2 := rfl

theorem clearConformance_ok {env : EntryEnv} {lanes : List (ConformanceDirection × SemanticLane)}
    {artifacts cleared : EntryArtifacts}
    (hcleared : clearConformance env artifacts lanes = (.ok (), cleared)) :
    ∀ direction lane, (direction, lane) ∈ lanes ∨ artifacts direction lane = .empty →
      cleared direction lane = .empty := by
  induction lanes generalizing artifacts with
  | nil =>
      cases hcleared
      simp
  | cons head rest ih =>
      obtain ⟨headDirection, headLane⟩ := head
      unfold clearConformance at hcleared
      split at hcleared
      · intro direction lane hlane
        refine ih hcleared direction lane ?_
        by_cases hsame : direction = headDirection ∧ lane = headLane
        · obtain ⟨rfl, rfl⟩ := hsame
          exact Or.inr (EntryArtifacts.set_self _ _ _ _)
        · rw [EntryArtifacts.set_of_ne _ hsame]
          simpa [hsame] using hlane
      · simp at hcleared

theorem clearConformance_empty {env : EntryEnv} {artifacts cleared : EntryArtifacts}
    (hcleared : clearConformance env artifacts [(.server, .fixtureDirect),
      (.server, .builtInDataPlane), (.server, .externalDataPlane),
      (.client, .externalDataPlane)] = (.ok (), cleared))
    {direction : ConformanceDirection} {lane : SemanticLane} (hlane : EntryLane direction lane) :
    cleared direction lane = .empty := by
  refine clearConformance_ok hcleared direction lane (Or.inl ?_)
  obtain rfl | rfl := hlane
  · cases lane <;> simp
  · cases direction <;> simp

theorem recorded_of_empty {env : EntryEnv} {request : EntryRequest} {cleared : EntryArtifacts}
    (hempty : ∀ direction lane, EntryLane direction lane → cleared direction lane = .empty) :
    Recorded env request cleared := by
  intro direction lane hlane
  rw [hempty direction lane hlane]
  exact recordedLane_empty request (env.official direction lane) direction lane

namespace TopologyRun

variable (run : TopologyRun) {progress : TopologyProgress}

theorem startService_artifacts : (run.startService progress).artifacts = progress.artifacts := by
  unfold startService
  split
  · rfl
  · split <;> rfl

theorem provisionFixture_artifacts :
    (run.provisionFixture progress).artifacts = progress.artifacts := by
  unfold provisionFixture
  split
  · rfl
  · split
    · rfl
    · split <;> rfl

theorem runTests_artifacts : (run.runTests progress).artifacts = progress.artifacts ∨
    (run.runTests progress).artifacts = progress.artifacts.set .server run.target
      (run.runOfficialConformanceMode (progress.artifacts .server run.target)).2 := by
  unfold runTests
  split
  · exact Or.inl rfl
  · dsimp only
    split
    · split
      · exact Or.inl rfl
      · dsimp only
        split
        · exact Or.inl rfl
        · exact Or.inr rfl
    · exact Or.inl rfl

theorem revokeManagedToken_artifacts :
    (run.revokeManagedToken progress).artifacts = progress.artifacts := by
  unfold revokeManagedToken
  split
  · split <;> rfl
  · rfl
  · rfl

theorem cleanUpFixture_artifacts :
    (run.cleanUpFixture progress).artifacts = progress.artifacts := by
  unfold cleanUpFixture
  split
  · rfl
  · split <;> rfl

theorem finishStack_artifacts : (run.finishStack progress).artifacts = progress.artifacts := by
  unfold finishStack
  split <;> rfl

theorem runOfficialConformanceMode_recorded {artifact : LaneArtifact}
    (hrecorded : RecordedLane run.request run.env.target.official .server run.target artifact) :
    RecordedLane run.request run.env.target.official .server run.target
      (run.runOfficialConformanceMode artifact).2 := by
  unfold runOfficialConformanceMode
  split
  · exact hrecorded
  · exact runOfficialConformanceTarget_recorded hrecorded

/-- The artifacts of a topology: none changed, or its own lane was run. -/
theorem complete_artifacts (artifacts : EntryArtifacts) :
    (run.complete artifacts).artifacts = artifacts ∨
    (run.complete artifacts).artifacts = artifacts.set .server run.target
      (run.runOfficialConformanceMode (artifacts .server run.target)).2 := by
  rw [complete, finishStack_artifacts, cleanUpFixture_artifacts, revokeManagedToken_artifacts]
  have hbefore : (run.provisionFixture (run.startService (run.prepareStack artifacts))).artifacts =
      artifacts := by rw [provisionFixture_artifacts, startService_artifacts, prepareStack]
  generalize run.provisionFixture (run.startService (run.prepareStack artifacts)) = progress at *
  rw [← hbefore]
  exact run.runTests_artifacts

end TopologyRun

section Entry

variable {parseChecks : ChecksParser} {env : EntryEnv} {request : EntryRequest}

theorem directPhase_recorded {artifacts : EntryArtifacts}
    (hrecorded : Recorded env request artifacts) :
    Recorded env request (directPhase parseChecks env request artifacts).artifacts := by
  have hrun : Recorded env request (runDirectFixture parseChecks env request
      (startDirectFixture env ⟨none, false, artifacts, []⟩)).artifacts := by
    unfold runDirectFixture
    split
    · exact hrecorded
    · split
      · exact hrecorded
      · exact hrecorded.set (runOfficialConformanceTarget_recorded
          (hrecorded .server .fixtureDirect (Or.inl rfl)))
  exact hrun

theorem routedCleanupPhase_artifacts (progress : EntryProgress) :
    (routedCleanupPhase env request progress).artifacts = progress.artifacts := by
  unfold routedCleanupPhase
  split <;> rfl

/-- A topology changes nothing, or runs its own lane. -/
theorem topologyPhase_artifacts (progress : EntryProgress) (topology : StackMode) :
    (topologyPhase parseChecks env request progress topology).artifacts = progress.artifacts ∨
    (topologyPhase parseChecks env request progress topology).artifacts =
      progress.artifacts.set .server (conformanceTarget topology)
        ((topologyRun parseChecks env request topology).runOfficialConformanceMode
          (progress.artifacts .server (conformanceTarget topology))).2 := by
  unfold topologyPhase
  split
  · exact Or.inl rfl
  · exact (topologyRun parseChecks env request topology).complete_artifacts progress.artifacts

theorem topologyPhase_recorded {progress : EntryProgress} (topology : StackMode)
    (hrecorded : Recorded env request progress.artifacts) :
    Recorded env request (topologyPhase parseChecks env request progress topology).artifacts := by
  obtain hsame | hset := topologyPhase_artifacts progress topology
  · rw [hsame]
    exact hrecorded
  · rw [hset]
    have hlane := hrecorded .server (conformanceTarget topology) (Or.inl rfl)
    refine hrecorded.set ?_
    cases topology <;>
      exact (topologyRun parseChecks env request _).runOfficialConformanceMode_recorded hlane

theorem topologies_recorded {progress : EntryProgress} (topologies : List StackMode)
    (hrecorded : Recorded env request progress.artifacts) :
    Recorded env request
      (topologies.foldl (topologyPhase parseChecks env request) progress).artifacts := by
  induction topologies generalizing progress with
  | nil => exact hrecorded
  | cons topology rest ih => exact ih (topologyPhase_recorded topology hrecorded)

theorem clientTests_artifacts (request : EntryRequest) (lane : LaneProgress) :
    (ClientEnv.runTests parseChecks env.client request lane).artifacts =
      lane.artifacts.set .client .externalDataPlane (runOfficialClientConformance parseChecks
        env.client.run lane.interrupted request
        (lane.artifacts .client .externalDataPlane)).2 := rfl

theorem clientComplete_recorded {artifacts : EntryArtifacts} (interrupted reuseStack : Bool)
    (hrecorded : Recorded env request artifacts) :
    Recorded env request (env.client.complete parseChecks request interrupted reuseStack
      artifacts).artifacts := by
  have htests : ∀ lane : LaneProgress, lane.artifacts = artifacts →
      Recorded env request (env.client.runTests parseChecks request lane).artifacts := by
    rintro lane rfl
    exact hrecorded.set (runOfficialClientConformance_recorded
      (hrecorded .client .externalDataPlane (Or.inr rfl)))
  have hpaused : Recorded env request (env.client.runWithPublisherPaused parseChecks request
      (env.client.prepareStack interrupted reuseStack artifacts)).artifacts := by
    unfold ClientEnv.runWithPublisherPaused
    split
    · exact hrecorded
    · split
      · exact htests _ rfl
      · split
        · exact hrecorded
        · exact htests _ rfl
  exact hpaused

theorem clientPhase_recorded {progress : EntryProgress}
    (hrecorded : Recorded env request progress.artifacts) :
    Recorded env request (clientPhase parseChecks env request progress).artifacts := by
  unfold clientPhase
  split
  · exact hrecorded
  · exact clientComplete_recorded _ _ hrecorded

theorem comparisonPhase_artifacts (progress : EntryProgress) :
    (comparisonPhase parseChecks env request progress).artifacts = progress.artifacts := by
  unfold comparisonPhase
  split <;> rfl

theorem runPhases_recorded {artifacts : EntryArtifacts}
    (hrecorded : Recorded env request artifacts) :
    Recorded env request (runPhases parseChecks env request artifacts).artifacts := by
  rw [runPhases, comparisonPhase_artifacts]
  refine clientPhase_recorded (topologies_recorded _ ?_)
  rw [routedCleanupPhase_artifacts]
  exact directPhase_recorded hrecorded

theorem clientComplete_completion {artifacts : EntryArtifacts} (interrupted reuseStack : Bool)
    (hok : (env.client.complete parseChecks request interrupted reuseStack artifacts).failure =
      none) :
    ((env.client.complete parseChecks request interrupted reuseStack artifacts).artifacts .client
      .externalDataPlane).completion = some conformanceCompletionMarker := by
  have htests : ∀ lane : LaneProgress,
      (env.client.runTests parseChecks request lane).failure = none →
      ((env.client.runTests parseChecks request lane).artifacts .client
        .externalDataPlane).completion = some conformanceCompletionMarker := by
    intro lane hnone
    rw [clientTests_artifacts, EntryArtifacts.set_self]
    exact runOfficialClientConformance_completion hnone
  have hpaused := (err_finishWithCleanup_eq_none.mp hok).1
  change ((env.client.runWithPublisherPaused parseChecks request
    (env.client.prepareStack interrupted reuseStack artifacts)).artifacts .client
      .externalDataPlane).completion = some conformanceCompletionMarker
  unfold ClientEnv.runWithPublisherPaused at hpaused ⊢
  split at hpaused
  next hsome => simp [hpaused] at hsome
  next hnone =>
    rw [if_neg hnone]
    split at hpaused
    next hstandalone =>
      rw [if_pos hstandalone]
      exact htests _ hpaused
    next hstandalone =>
      rw [if_neg hstandalone]
      split at hpaused
      · contradiction
      · exact htests _ (err_finishWithCleanup_eq_none.mp hpaused).1

theorem clientPhase_completion {progress : EntryProgress} (hquiet : progress.interrupted = false)
    (hclient : request.runsExternalClient = true)
    (hok : (clientPhase parseChecks env request progress).failures = []) :
    ((clientPhase parseChecks env request progress).artifacts .client
      .externalDataPlane).completion = some conformanceCompletionMarker := by
  unfold clientPhase at hok ⊢
  rw [if_neg (by simp [hquiet, hclient])] at hok ⊢
  simp only [List.append_eq_nil_iff] at hok
  obtain ⟨_, hok⟩ := hok
  split at hok
  · contradiction
  · refine clientComplete_completion _ _ ?_
    simpa using hok

/-- Nothing was interrupted before a client phase that ended without failures. -/
theorem quiet_of_clientPhase {progress : EntryProgress} (hafter : AfterTopologies request progress)
    (hok : (clientPhase parseChecks env request progress).failures = []) :
    progress.interrupted = false := by
  cases hafter with
  | released haccounted =>
      by_contra hinterrupted
      have hinterrupted : progress.interrupted = true := by simpa using hinterrupted
      rw [clientPhase, if_pos (by simp [hinterrupted])] at hok
      exact haccounted.failed hinterrupted hok
  | retained _ _ _ _ hquiet => exact hquiet

theorem failures_of_comparisonPhase {progress : EntryProgress}
    (hok : (comparisonPhase parseChecks env request progress).failures = []) :
    progress.failures = [] := by
  unfold comparisonPhase at hok
  split at hok
  next hquiet => exact hquiet.1
  · exact hok

theorem runPhases_completion {artifacts : EntryArtifacts}
    (hclient : request.runsExternalClient = true)
    (hok : (runPhases parseChecks env request artifacts).failures = []) :
    ((runPhases parseChecks env request artifacts).artifacts .client
      .externalDataPlane).completion = some conformanceCompletionMarker := by
  have hafter := topologies_after parseChecks env request
    (routedCleanupPhase_accounted env request (directPhase_accounted parseChecks env request
      artifacts) (directPhase_stack parseChecks env request artifacts))
    (routedCleanupPhase_externalStackRetained env request _)
  have hok := failures_of_comparisonPhase hok
  rw [runPhases, comparisonPhase_artifacts]
  exact clientPhase_completion (quiet_of_clientPhase hafter hok) hclient hok

/-- Without a client direction to run, the client artifacts are left alone. -/
theorem runPhases_client {artifacts : EntryArtifacts}
    (hclient : request.runsExternalClient = false) (lane : SemanticLane) :
    (runPhases parseChecks env request artifacts).artifacts .client lane =
      artifacts .client lane := by
  have htopologies : ∀ (topologies : List StackMode) (progress : EntryProgress),
      (topologies.foldl (topologyPhase parseChecks env request) progress).artifacts .client lane =
        progress.artifacts .client lane := by
    intro topologies
    induction topologies with
    | nil => exact fun _ => rfl
    | cons topology rest ih =>
        intro progress
        rw [List.foldl_cons, ih]
        obtain hsame | hset := topologyPhase_artifacts progress topology
        · rw [hsame]
        · rw [hset, EntryArtifacts.set_of_ne _ (by simp)]
  have hdirect : (directPhase parseChecks env request artifacts).artifacts .client lane =
      artifacts .client lane := by
    change (runDirectFixture parseChecks env request
      (startDirectFixture env ⟨none, false, artifacts, []⟩)).artifacts .client lane = _
    unfold runDirectFixture
    split
    · rfl
    · split
      · rfl
      · rw [LaneProgress.awaitRun_artifacts, EntryArtifacts.set_of_ne _ (by simp)]
        rfl
  rw [runPhases, comparisonPhase_artifacts, clientPhase, if_pos (by simp [hclient]), htopologies,
    routedCleanupPhase_artifacts, hdirect]

/-- What an entry that ended without an error of its own leaves. -/
structure EntryRecord (env : EntryEnv) (request : EntryRequest)
    (failures : List ConformanceOperationalFailure) (artifacts : EntryArtifacts) : Prop where
  lanes : request.lanes ≠ []
  recorded : Recorded env request artifacts
  /-- Without operational failures, the client direction completed where it runs. -/
  client : failures = [] → request.runsExternalClient = true →
    (artifacts .client .externalDataPlane).completion = some conformanceCompletionMarker
  noClient : request.runsExternalClient = false → artifacts .client .externalDataPlane = .empty

theorem runConformanceWithInterrupt_ok {artifacts : EntryArtifacts}
    {failures : List ConformanceOperationalFailure}
    (hresult : (runConformanceWithInterrupt parseChecks env request artifacts).result =
      .ok failures) :
    EntryRecord env request failures
      (runConformanceWithInterrupt parseChecks env request artifacts).artifacts := by
  obtain ⟨_, herror, _⟩ | ⟨cleared, hcleared, hvalid, houtcome⟩ :=
    runConformanceWithInterrupt_cases parseChecks env request artifacts
  · rw [herror] at hresult
    contradiction
  rw [houtcome] at hresult ⊢
  dsimp only at hresult ⊢
  obtain ⟨_, _, rfl⟩ := except_map_eq_ok.mp hresult
  refine ⟨?_, runPhases_recorded (recorded_of_empty fun _ _ => clearConformance_empty hcleared),
    fun hnone hclient => runPhases_completion hclient hnone, fun hclient => ?_⟩
  · simp only [validateEntry, fromNative_eq_ok, except_bind_eq_ok, bailIf_eq_ok] at hvalid
    obtain ⟨_, hlanes, _⟩ := hvalid
    exact hlanes
  · refine (runPhases_client hclient _).trans ?_
    exact clearConformance_empty hcleared (Or.inr rfl)

end Entry

end CfIntegration.Runtime
