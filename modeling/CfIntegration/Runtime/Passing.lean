import CfIntegration.Runtime.Run
import CfIntegration.Runtime.Undisturbed

/-! # Runs that pass

A run without failures passed every entry of its matrix: the entry had no
operational failure, its results were loaded, and both directions were evaluated.
Conversely, an undisturbed run whose results can be evaluated passes.
-/

namespace CfIntegration.Runtime

open Conformance

/-! ## Passing entries -/

/-- Nothing has failed and the matrix loop is still running. -/
structure RunProgress.Clean (progress : RunProgress) : Prop where
  failures : progress.failures = []
  unreported : progress.reportedFailure = false
  running : progress.stopped = false

section Passing

variable (env : RunEnv) (request : RunRequest) (baselines : BaselineView)

/-- One direction of an entry was evaluated, where it had any results, without failure. -/
def EvaluatedDirection (clientVersion : String) (serverEra : ConformanceServerEra)
    (direction : ConformanceDirection) (results : LaneResults) (updates : List BaselineUpdate) :
    Prop :=
  if results.keys = [] then updates = []
  else
    ∃ evaluation, evaluateBaselines env.codec direction results results.keys baselines
        clientVersion serverEra request.bless = .ok evaluation ∧
      evaluation.updates = updates ∧
      (request.bless = false → ∀ comparison ∈ evaluation.comparisons, comparison.matches = true)

/-- What one pass of the matrix loop does when it adds no failure. -/
structure PassedEntry (clientVersion : String) (serverEra : ConformanceServerEra) (index : Nat)
    (before after : RunProgress) (server client : LaneResults)
    (serverUpdates clientUpdates : List BaselineUpdate) : Prop where
  setupLog : env.setupLog index = .ok ()
  result : (runConformanceWithInterrupt env.parseChecks (env.entry index)
    (request.entry clientVersion serverEra)
    (before.artifacts clientVersion serverEra)).result = .ok []
  artifacts : after.artifacts = before.artifacts.set clientVersion serverEra
    (runConformanceWithInterrupt env.parseChecks (env.entry index)
      (request.entry clientVersion serverEra)
      (before.artifacts clientVersion serverEra)).artifacts
  serverResults : loadSelectedConformanceResults env.parseChecks ⟨clientVersion, serverEra⟩
    (after.artifacts clientVersion serverEra) request.lanes = .ok server
  serverEvaluated : EvaluatedDirection env request baselines clientVersion serverEra .server
    server serverUpdates
  clientResults : loadCompletedClientConformanceResults env.parseChecks ⟨clientVersion, serverEra⟩
    (after.artifacts clientVersion serverEra) = .ok client
  clientEvaluated : EvaluatedDirection env request baselines clientVersion serverEra .client
    client clientUpdates
  updates : after.updates = before.updates ++ serverUpdates ++ clientUpdates

variable {env request baselines}

theorem RunArtifacts.set_self (artifacts : RunArtifacts) (clientVersion : String)
    (serverEra : ConformanceServerEra) (entry : EntryArtifacts) :
    artifacts.set clientVersion serverEra entry clientVersion serverEra = entry :=
  if_pos ⟨rfl, rfl⟩

theorem RunArtifacts.set_of_ne (artifacts : RunArtifacts) {clientVersion otherVersion : String}
    {serverEra otherEra : ConformanceServerEra}
    (hne : (otherVersion, otherEra) ≠ (clientVersion, serverEra)) (entry : EntryArtifacts) :
    artifacts.set clientVersion serverEra entry otherVersion otherEra =
      artifacts otherVersion otherEra :=
  if_neg fun heq => hne (Prod.ext heq.1 heq.2)

theorem comparisonFailures_eq_nil {index : Nat} {clientVersion : String}
    {serverEra : ConformanceServerEra} {direction : ConformanceDirection}
    {comparison : BaselineComparison}
    (hnone : comparisonFailures env request index clientVersion serverEra direction comparison =
      [])
    (hbless : request.bless = false) : comparison.matches = true := by
  unfold comparisonFailures at hnone
  rw [List.append_eq_nil_iff] at hnone
  simpa [hbless] using hnone.2

theorem evaluateDirection_clean {index : Nat} {clientVersion : String}
    {serverEra : ConformanceServerEra} {direction : ConformanceDirection}
    {loaded : AppResult LaneResults} {progress : RunProgress}
    (hclean : (evaluateDirection env request baselines index clientVersion serverEra direction
      loaded progress).failures = []) :
    progress.failures = [] ∧ ∃ results updates, loaded = .ok results ∧
      EvaluatedDirection env request baselines clientVersion serverEra direction results updates ∧
      (evaluateDirection env request baselines index clientVersion serverEra direction loaded
        progress).updates = progress.updates ++ updates := by
  unfold evaluateDirection at hclean ⊢
  cases loaded with
  | error error =>
      dsimp only [LaneResults.keys] at hclean
      simp at hclean
  | ok results =>
      dsimp only at hclean ⊢
      split at hclean
      next hkeys =>
        rw [List.append_nil] at hclean
        exact ⟨hclean, results, [], rfl, by rw [EvaluatedDirection, if_pos hkeys],
          by simp [hkeys]⟩
      next hkeys =>
        rw [if_neg hkeys]
        split at hclean
        next evaluation hevaluated =>
          simp only [List.append_nil, List.append_eq_nil_iff, List.flatMap_eq_nil_iff] at hclean
          refine ⟨hclean.1, results, evaluation.updates, rfl, ?_, rfl⟩
          rw [EvaluatedDirection, if_neg hkeys]
          exact ⟨evaluation, hevaluated, rfl, fun hbless comparison hcomparison =>
            comparisonFailures_eq_nil (hclean.2 comparison hcomparison) hbless⟩
        · simp at hclean

/-- Evaluating a direction only adds failures, updates and an event. -/
theorem evaluateDirection_frame (index : Nat) (clientVersion : String)
    (serverEra : ConformanceServerEra) (direction : ConformanceDirection)
    (loaded : AppResult LaneResults) (progress : RunProgress) :
    let after := evaluateDirection env request baselines index clientVersion serverEra direction
      loaded progress
    after.artifacts = progress.artifacts ∧ after.reportedFailure = progress.reportedFailure ∧
      after.stopped = progress.stopped ∧
      after.trace = progress.trace ++ [.evaluated direction] := by
  unfold evaluateDirection
  dsimp only
  cases loaded with
  | error error => exact ⟨rfl, rfl, rfl, rfl⟩
  | ok results =>
      dsimp only
      split
      · exact ⟨rfl, rfl, rfl, rfl⟩
      · split <;> exact ⟨rfl, rfl, rfl, rfl⟩

section Frame

variable (index : Nat) (clientVersion : String) (serverEra : ConformanceServerEra)
  (direction : ConformanceDirection) (loaded : AppResult LaneResults) (progress : RunProgress)

@[simp] theorem evaluateDirection_artifacts :
    (evaluateDirection env request baselines index clientVersion serverEra direction loaded
      progress).artifacts = progress.artifacts :=
  (evaluateDirection_frame index clientVersion serverEra direction loaded progress).1

@[simp] theorem evaluateDirection_reportedFailure :
    (evaluateDirection env request baselines index clientVersion serverEra direction loaded
      progress).reportedFailure = progress.reportedFailure :=
  (evaluateDirection_frame index clientVersion serverEra direction loaded progress).2.1

@[simp] theorem evaluateDirection_stopped :
    (evaluateDirection env request baselines index clientVersion serverEra direction loaded
      progress).stopped = progress.stopped :=
  (evaluateDirection_frame index clientVersion serverEra direction loaded progress).2.2.1

@[simp] theorem evaluateDirection_trace :
    (evaluateDirection env request baselines index clientVersion serverEra direction loaded
      progress).trace = progress.trace ++ [.evaluated direction] :=
  (evaluateDirection_frame index clientVersion serverEra direction loaded progress).2.2.2

end Frame

theorem entryResult_clean {clientVersion : String} {serverEra : ConformanceServerEra}
    {result : AppResult (List ConformanceOperationalFailure)} {progress : RunProgress}
    (hfailures : (entryResult clientVersion serverEra result progress).failures = [])
    (hreported : (entryResult clientVersion serverEra result progress).reportedFailure = false) :
    result = .ok [] ∧ progress.failures = [] ∧ progress.reportedFailure = false := by
  unfold entryResult at hfailures hreported
  split at hfailures
  next failures => simp_all
  next error =>
    split at hfailures
    next hreportedError => simp [hreportedError] at hreported
    · simp at hfailures

@[simp] theorem entryResult_ok_nil (clientVersion : String) (serverEra : ConformanceServerEra)
    (progress : RunProgress) :
    entryResult clientVersion serverEra (.ok []) progress = progress := by
  simp [entryResult]

/-- A pass that leaves the run clean found it clean and passed its entry. -/
theorem matrixEntry_clean {progress : RunProgress} {clientVersion : String}
    {serverEra : ConformanceServerEra} {index : Nat}
    (hclean : (matrixEntry env request baselines progress
      ((clientVersion, serverEra), index)).Clean) :
    progress.Clean ∧ ∃ server client serverUpdates clientUpdates,
      PassedEntry env request baselines clientVersion serverEra index progress
        (matrixEntry env request baselines progress ((clientVersion, serverEra), index))
        server client serverUpdates clientUpdates := by
  by_cases hstopped : progress.stopped = true
  · have hrunning := hclean.running
    rw [matrixEntry, if_pos hstopped] at hrunning
    rw [hrunning] at hstopped
    contradiction
  obtain ⟨hfailures, hreported, hrunning⟩ := hclean
  unfold matrixEntry at hfailures hreported hrunning ⊢
  rw [if_neg hstopped] at hfailures hreported hrunning ⊢
  dsimp only at hfailures hreported hrunning ⊢
  cases hsetup : env.setupLog index with
  | error error => simp [hsetup] at hfailures
  | ok done =>
      simp only [hsetup] at hfailures hreported hrunning ⊢
      split at hrunning
      next => contradiction
      next hquiet =>
        rw [if_neg hquiet] at hfailures hreported ⊢
        obtain ⟨hserverClean, client, clientUpdates, hclient, hclientEvaluated, hclientUpdates⟩ :=
          evaluateDirection_clean hfailures
        obtain ⟨hentryClean, server, serverUpdates, hserver, hserverEvaluated, hserverUpdates⟩ :=
          evaluateDirection_clean hserverClean
        rw [evaluateDirection_reportedFailure, evaluateDirection_reportedFailure] at hreported
        obtain ⟨hresult, hprogress, hunreported⟩ := entryResult_clean hentryClean hreported
        refine ⟨⟨hprogress, hunreported, by simpa using hstopped⟩, server, client, serverUpdates,
          clientUpdates, hsetup, hresult, ?_, ?_, hserverEvaluated, ?_, hclientEvaluated, ?_⟩
        · simp [hresult]
        · simpa [hresult, RunArtifacts.set_self] using hserver
        · simpa [hresult, RunArtifacts.set_self] using hclient
        · rw [hclientUpdates, hserverUpdates, hresult, entryResult_ok_nil]

/-- The passes of a clean run, in order. -/
inductive PassedEntries (env : RunEnv) (request : RunRequest) (baselines : BaselineView) :
    List ((String × ConformanceServerEra) × Nat) → RunProgress → RunProgress → Prop
  | nil (progress : RunProgress) : PassedEntries env request baselines [] progress progress
  | cons {clientVersion : String} {serverEra : ConformanceServerEra} {index : Nat}
      {rest : List ((String × ConformanceServerEra) × Nat)} {before next after : RunProgress}
      {server client : LaneResults} {serverUpdates clientUpdates : List BaselineUpdate}
      (entry : PassedEntry env request baselines clientVersion serverEra index before next server
        client serverUpdates clientUpdates)
      (others : PassedEntries env request baselines rest next after) :
      PassedEntries env request baselines (((clientVersion, serverEra), index) :: rest) before after

theorem matrix_clean {entries : List ((String × ConformanceServerEra) × Nat)}
    {progress : RunProgress}
    (hclean : (entries.foldl (matrixEntry env request baselines) progress).Clean) :
    progress.Clean ∧ PassedEntries env request baselines entries progress
      (entries.foldl (matrixEntry env request baselines) progress) := by
  induction entries generalizing progress with
  | nil => exact ⟨hclean, .nil progress⟩
  | cons entry rest ih =>
      obtain ⟨hnext, hrest⟩ := ih hclean
      obtain ⟨hprogress, _, _, _, _, hpassed⟩ := matrixEntry_clean hnext
      exact ⟨hprogress, .cons hpassed hrest⟩

/-- What every pass establishes about its entry's artifacts holds at the end of
the run: an entry run once more passes once more. -/
theorem PassedEntries.establishes (property : String → ConformanceServerEra → EntryArtifacts → Prop)
    (hpassed : ∀ {clientVersion serverEra index before after server client serverUpdates
        clientUpdates}, PassedEntry env request baselines clientVersion serverEra index before
          after server client serverUpdates clientUpdates →
      property clientVersion serverEra (after.artifacts clientVersion serverEra))
    {entries : List ((String × ConformanceServerEra) × Nat)} {before after : RunProgress}
    (hrun : PassedEntries env request baselines entries before after) :
    (∀ clientVersion serverEra, property clientVersion serverEra
        (before.artifacts clientVersion serverEra) →
      property clientVersion serverEra (after.artifacts clientVersion serverEra)) ∧
    ∀ entry ∈ entries,
      property entry.1.1 entry.1.2 (after.artifacts entry.1.1 entry.1.2) := by
  induction hrun with
  | nil => exact ⟨fun _ _ hbefore => hbefore, by simp⟩
  | @cons clientVersion serverEra index rest before next after _ _ _ _ hentry _ ih =>
      obtain ⟨hkept, hothers⟩ := ih
      have hestablished := hpassed hentry
      refine ⟨fun otherVersion otherEra hbefore => hkept _ _ ?_, ?_⟩
      · by_cases hsame : (otherVersion, otherEra) = (clientVersion, serverEra)
        · cases hsame
          exact hestablished
        · rw [hentry.artifacts, RunArtifacts.set_of_ne _ hsame]
          exact hbefore
      · rw [List.forall_mem_cons]
        exact ⟨hkept _ _ hestablished, hothers⟩

theorem matrixEntry_stopped {progress : RunProgress}
    (hreported : progress.stopped = true → progress.reportedFailure = true)
    (entry : (String × ConformanceServerEra) × Nat) :
    (matrixEntry env request baselines progress entry).stopped = true →
      (matrixEntry env request baselines progress entry).reportedFailure = true := by
  obtain ⟨⟨clientVersion, serverEra⟩, index⟩ := entry
  unfold matrixEntry
  split
  · exact hreported
  next hrunning =>
    dsimp only
    split
    · exact fun hstopped => absurd hstopped hrunning
    · split
      · exact fun _ => rfl
      · rw [evaluateDirection_stopped, evaluateDirection_stopped]
        intro hstopped
        unfold entryResult at hstopped
        split at hstopped
        · contradiction
        · split at hstopped <;> contradiction

/-- A run is left early only with a reported failure. -/
theorem runMatrix_stopped (artifacts : RunArtifacts) :
    (runMatrix env request baselines artifacts).stopped = true →
      (runMatrix env request baselines artifacts).reportedFailure = true := by
  unfold runMatrix
  generalize (conformanceMatrix request.clientVersions request.serverEras).zipIdx = entries
  suffices hfold : ∀ progress : RunProgress,
      (progress.stopped = true → progress.reportedFailure = true) →
      (entries.foldl (matrixEntry env request baselines) progress).stopped = true →
      (entries.foldl (matrixEntry env request baselines) progress).reportedFailure = true from
    hfold _ (fun hstopped => absurd hstopped (by simp))
  induction entries with
  | nil => exact fun _ hreported => hreported
  | cons entry rest ih =>
      exact fun progress hreported => ih _ (matrixEntry_stopped hreported entry)

end Passing

theorem finalizeConformanceExecution_artifacts (env : RunEnv) (bless : Bool)
    (root : Option (Tree Bytes)) (progress : RunProgress) :
    (finalizeConformanceExecution env bless root progress).artifacts = progress.artifacts := by
  unfold finalizeConformanceExecution
  split <;> rfl

/-- A run that returns `Ok` had no failure to report. -/
theorem runMatrix_clean_of_ok {env : RunEnv} {request : RunRequest} {root : Option (Tree Bytes)}
    {artifacts : RunArtifacts} (hok : (executeConformance env request root artifacts).result =
      .ok ()) :
    env.docker = .ok () ∧ (runMatrix env request (baselineFileAt env.behindLink root)
      artifacts).Clean := by
  unfold executeConformance at hok
  split at hok
  · contradiction
  next hdocker =>
    have hstopped :
        (runMatrix env request (baselineFileAt env.behindLink root) artifacts).stopped = true →
        (runMatrix env request (baselineFileAt env.behindLink root) artifacts).reportedFailure =
          true := runMatrix_stopped artifacts
    generalize runMatrix env request (baselineFileAt env.behindLink root) artifacts = progress at *
    unfold finalizeConformanceExecution at hok
    split at hok
    next hclean => exact ⟨hdocker, hclean.1, hclean.2.1, by simpa [hclean.2.1] using hstopped⟩
    · dsimp only at hok
      split at hok
      · contradiction
      next hunreported =>
        split at hok
        next hfailures =>
          have hreported : progress.reportedFailure = false := by
            simpa [hfailures] using hunreported
          exact ⟨hdocker, hfailures, hreported, by simpa [hreported] using hstopped⟩
        · contradiction

/-! ## Undisturbed runs -/

/-- An entry without operational failures did not see the interrupt. -/
theorem interruptionRequested_of_ok {parseChecks : ChecksParser} {env : EntryEnv}
    {request : EntryRequest} {artifacts : EntryArtifacts}
    (hok : (runConformanceWithInterrupt parseChecks env request artifacts).result = .ok []) :
    interruptionRequested (runConformanceWithInterrupt parseChecks env request artifacts).trace =
      false := by
  obtain ⟨_, herror, _⟩ | ⟨cleared, _, _, houtcome⟩ :=
    runConformanceWithInterrupt_cases parseChecks env request artifacts
  · rw [herror] at hok
    contradiction
  rw [houtcome] at hok ⊢
  dsimp only at hok ⊢
  obtain ⟨_, _, hfailures⟩ := except_map_eq_ok.mp hok
  have hsettled := runPhases_settled parseChecks env request cleared
  by_contra hrequested
  rw [Bool.not_eq_false, interruptionRequested, List.any_eq_true] at hrequested
  obtain ⟨event, hevent, hpoll⟩ := hrequested
  have hready : true ∈ (runPhases parseChecks env request cleared).trace.filterMap
      RunEvent.poll := List.mem_filterMap.mpr ⟨event, hevent, by simpa using hpoll⟩
  exact hsettled.failed (hsettled.polls.mem_true.mp hready) hfailures

section Undisturbed

variable {env : RunEnv} {request : RunRequest} {baselines : BaselineView}

theorem evaluateDirection_evaluated {index : Nat} {clientVersion : String}
    {serverEra : ConformanceServerEra} {direction : ConformanceDirection} {results : LaneResults}
    {updates : List BaselineUpdate}
    (hreport : ∀ direction lane, env.writeReport index direction lane = .ok ())
    (hevaluated : EvaluatedDirection env request baselines clientVersion serverEra direction
      results updates) (progress : RunProgress) :
    evaluateDirection env request baselines index clientVersion serverEra direction (.ok results)
        progress =
      { progress with
        updates := progress.updates ++ updates
        trace := progress.trace ++ [.evaluated direction] } := by
  unfold evaluateDirection
  dsimp only
  unfold EvaluatedDirection at hevaluated
  split
  next hkeys =>
    rw [if_pos hkeys] at hevaluated
    simp [hevaluated]
  next hkeys =>
    rw [if_neg hkeys] at hevaluated
    obtain ⟨evaluation, hevaluation, rfl, hmatches⟩ := hevaluated
    have hnone : evaluation.comparisons.flatMap
        (comparisonFailures env request index clientVersion serverEra direction) = [] := by
      rw [List.flatMap_eq_nil_iff]
      intro comparison hcomparison
      unfold comparisonFailures
      cases hbless : request.bless with
      | true => simp [hreport]
      | false => simp [hreport, hmatches hbless comparison hcomparison]
    rw [hevaluation]
    simp [hnone]

/-- The results of the lanes whose artifacts an entry reads. -/
def evidenceResults (lanes : List SemanticLane) (results : SemanticLane → ConformanceResults) :
    LaneResults :=
  fun lane => if lane ∈ conformanceEvidenceLanes lanes then some (results lane) else none

def clientResults (request : EntryRequest) (results : ConformanceResults) : LaneResults :=
  fun lane =>
    if request.runsExternalClient = true ∧ lane = .externalDataPlane then some results else none

/-- An entry of a run where nothing fails, with what its evaluation stages. -/
structure UndisturbedEntry (env : RunEnv) (request : RunRequest) (baselines : BaselineView)
    (clientVersion : String) (serverEra : ConformanceServerEra) (index : Nat)
    (updates : List BaselineUpdate) : Prop where
  setupLog : env.setupLog index = .ok ()
  report : ∀ direction lane, env.writeReport index direction lane = .ok ()
  evaluated : ∃ official, ∃ results : ConformanceDirection → SemanticLane → ConformanceResults,
    ∃ serverUpdates clientUpdates,
    env.entry index = undisturbedEntry official ∧
    (∀ lane, lane = .fixtureDirect ∨ lane ∈ request.lanes →
      ValidResults env.parseChecks .server clientVersion (official .server lane)
        (results .server lane)) ∧
    ((request.entry clientVersion serverEra).runsExternalClient = true →
      ValidResults env.parseChecks .client clientVersion (official .client .externalDataPlane)
        (results .client .externalDataPlane)) ∧
    EvaluatedDirection env request baselines clientVersion serverEra .server
      (evidenceResults request.lanes (results .server)) serverUpdates ∧
    EvaluatedDirection env request baselines clientVersion serverEra .client
      (clientResults (request.entry clientVersion serverEra)
        (results .client .externalDataPlane)) clientUpdates ∧
    updates = serverUpdates ++ clientUpdates

theorem matrixEntry_undisturbed (hlanes : request.lanes ≠ []) {clientVersion : String}
    {serverEra : ConformanceServerEra} {index : Nat} {updates : List BaselineUpdate}
    (hentry : UndisturbedEntry env request baselines clientVersion serverEra index updates)
    {progress : RunProgress} (hclean : progress.Clean) :
    let after := matrixEntry env request baselines progress ((clientVersion, serverEra), index)
    after.Clean ∧ after.updates = progress.updates ++ updates ∧
      after.trace = progress.trace ++ .entryStarted clientVersion serverEra ::
        ((runConformanceWithInterrupt env.parseChecks (env.entry index)
          (request.entry clientVersion serverEra) (progress.artifacts clientVersion
            serverEra)).trace ++ [.evaluated .server, .evaluated .client]) := by
  obtain ⟨hsetup, hreport, official, results, serverUpdates, clientUpdates, henv, hserver, hclient,
    hserverEvaluated, hclientEvaluated, rfl⟩ := hentry
  have hserverValid : ∀ lane, lane = .fixtureDirect ∨
      lane ∈ (request.entry clientVersion serverEra).lanes → ValidResults env.parseChecks .server
        (request.entry clientVersion serverEra).clientVersion (official .server lane)
        (results .server lane) := hserver
  obtain ⟨hresult, hcomplete, hclientComplete⟩ := runConformanceWithInterrupt_undisturbed
    hlanes hserverValid hclient (progress.artifacts clientVersion serverEra)
  rw [← henv] at hresult hcomplete hclientComplete
  have hrecord := runConformanceWithInterrupt_ok hresult
  have hquiet := interruptionRequested_of_ok hresult
  -- The lanes the evidence is loaded from are among the lanes that were run, and a lane
  -- that was run is complete.
  have hloaded : loadSelectedConformanceResults env.parseChecks ⟨clientVersion, serverEra⟩
      (runConformanceWithInterrupt env.parseChecks (env.entry index)
        (request.entry clientVersion serverEra)
        (progress.artifacts clientVersion serverEra)).artifacts request.lanes =
      .ok (evidenceResults request.lanes (results .server)) := by
    refine loadSelectedConformanceResults_ok_iff.mpr ⟨fun lane hlane => ?_, fun lane hlane =>
      if_neg hlane⟩
    have hrun : lane = .fixtureDirect ∨ lane ∈ request.lanes :=
      (mem_conformanceEvidenceLanes.mp hlane).elim Or.inr fun hdirect => Or.inl hdirect.1
    have htrusted := (hserverValid lane hrun).trusted lane
    rw [← hcomplete lane hrun] at htrusted
    exact ⟨_, htrusted, if_pos hlane⟩
  -- The client's evidence is absent exactly when the entry has no external client to run.
  have hclientLoaded : loadCompletedClientConformanceResults env.parseChecks
      ⟨clientVersion, serverEra⟩
      (runConformanceWithInterrupt env.parseChecks (env.entry index)
        (request.entry clientVersion serverEra)
        (progress.artifacts clientVersion serverEra)).artifacts =
      .ok (clientResults (request.entry clientVersion serverEra)
        (results .client .externalDataPlane)) := by
    refine loadCompletedClientConformanceResults_ok_iff.mpr ?_
    cases hruns : (request.entry clientVersion serverEra).runsExternalClient with
    | false =>
        refine Or.inl ⟨?_, by funext lane; simp [clientResults, hruns]⟩
        rw [loadConformanceArtifact_none_iff, hrecord.noClient hruns]
        exact ⟨rfl, rfl, rfl⟩
    | true =>
        have hvalid : ValidResults env.parseChecks .client
            (request.entry clientVersion serverEra).clientVersion
            (official .client .externalDataPlane) (results .client .externalDataPlane) :=
          hclient hruns
        have htrusted := hvalid.trusted .externalDataPlane
        rw [← hclientComplete hruns] at htrusted
        exact Or.inr ⟨_, htrusted, by funext lane; simp [clientResults, hruns]⟩
  unfold matrixEntry
  rw [if_neg (by simp [hclean.running])]
  simp only [hsetup, hresult, hloaded, hclientLoaded, entryResult_ok_nil, hquiet,
    evaluateDirection_evaluated hreport hserverEvaluated,
    evaluateDirection_evaluated hreport hclientEvaluated]
  exact ⟨⟨hclean.failures, hclean.unreported, hclean.running⟩, by simp, by simp⟩

/-- An undisturbed run collects the updates of its entries and no failure. -/
theorem runMatrix_undisturbed (hlanes : request.lanes ≠ [])
    (updates : (String × ConformanceServerEra) × Nat → List BaselineUpdate)
    (hentries : ∀ entry ∈ (conformanceMatrix request.clientVersions request.serverEras).zipIdx,
      UndisturbedEntry env request baselines entry.1.1 entry.1.2 entry.2 (updates entry))
    (artifacts : RunArtifacts) :
    (runMatrix env request baselines artifacts).Clean ∧
      (runMatrix env request baselines artifacts).updates =
        (conformanceMatrix request.clientVersions request.serverEras).zipIdx.flatMap updates := by
  unfold runMatrix
  generalize (conformanceMatrix request.clientVersions request.serverEras).zipIdx = entries
    at hentries
  -- The fold starts from nothing, so the induction is over every clean progress.
  suffices hfold : ∀ progress : RunProgress, progress.Clean →
      (entries.foldl (matrixEntry env request baselines) progress).Clean ∧
      (entries.foldl (matrixEntry env request baselines) progress).updates =
        progress.updates ++ entries.flatMap updates from hfold _ ⟨rfl, rfl, rfl⟩
  induction entries with
  | nil => exact fun _ hclean => ⟨hclean, by simp⟩
  | cons entry rest ih =>
      intro progress hclean
      rw [List.forall_mem_cons] at hentries
      obtain ⟨hnext, hupdates, _⟩ := matrixEntry_undisturbed hlanes hentries.1 hclean
      obtain ⟨hafter, hrest⟩ := ih hentries.2 _ hnext
      refine ⟨hafter, hrest.trans ?_⟩
      rw [hupdates, List.flatMap_cons, List.append_assoc]

/-- A run whose matrix is clean returns `Ok`, or what replacing the baselines returns. -/
theorem executeConformance_of_clean {root : Option (Tree Bytes)} {artifacts : RunArtifacts}
    (hdocker : env.docker = .ok ())
    (hclean : (runMatrix env request (baselineFileAt env.behindLink root) artifacts).Clean) :
    let progress := runMatrix env request (baselineFileAt env.behindLink root) artifacts
    let outcome := executeConformance env request root artifacts
    (request.bless = false → outcome.result = .ok () ∧ outcome.root = root) ∧
    ∀ result disk, blessBaselinesTransactionally env.codec env.blessFaults env.rootName root
        progress.updates = (result, disk) → request.bless = true →
      outcome.result = fromNative result ∧ outcome.root = disk.root ∧
        outcome.trace = progress.trace ++ [.baselinesReplaced] := by
  intro progress outcome
  have houtcome : outcome = finalizeConformanceExecution env request.bless root progress := by
    simp only [outcome, executeConformance, hdocker]
    rfl
  rw [houtcome]
  obtain ⟨hfailures, hreported, _⟩ := hclean
  have hfailures : progress.failures = [] := hfailures
  have hreported : progress.reportedFailure = false := hreported
  constructor
  · intro hbless
    simp [finalizeConformanceExecution, hfailures, hreported, hbless]
  · intro result disk hblessed hbless
    simp [finalizeConformanceExecution, hfailures, hreported, hbless, hblessed]

theorem evidenceResults_keys (lanes : List SemanticLane)
    (results : SemanticLane → ConformanceResults) :
    (evidenceResults lanes results).keys = conformanceEvidenceLanes lanes := by
  refine List.filter_congr fun lane hlane => ?_
  have hmem : lane ∈ conformanceEvidenceLanes lanes ↔ _ :=
    List.mem_filter.trans (and_iff_right hlane)
  rw [Bool.eq_iff_iff, ← hmem, evidenceResults]
  split
  next hevidence => simp [hevidence]
  next hevidence => simp [hevidence]

theorem conformanceEvidenceLanes_ne_nil {lanes : List SemanticLane} (hlanes : lanes ≠ []) :
    conformanceEvidenceLanes lanes ≠ [] := by
  obtain ⟨lane, hlane⟩ := List.exists_mem_of_ne_nil lanes hlanes
  exact List.ne_nil_of_mem (mem_conformanceEvidenceLanes.mpr (Or.inl hlane))

/-- The baseline updates of lanes without findings. -/
def emptyUpdates (clientVersion : String) (serverEra : ConformanceServerEra)
    (direction : ConformanceDirection) (lanes : List SemanticLane) : List BaselineUpdate :=
  lanes.map fun lane => ⟨baselineRelativePath clientVersion serverEra direction lane, ⟨[]⟩⟩

/-- Server results without findings are evaluated against readable baselines, and
without `bless` against empty ones. -/
theorem evaluatedDirection_of_no_findings {clientVersion : String}
    {serverEra : ConformanceServerEra} (hlanes : request.lanes ≠ [])
    {results : SemanticLane → ConformanceResults}
    (hnone : ∀ lane, scoredFindings (results lane) = .ok OrderedSet.empty)
    (hread : ∀ lane, ∃ loaded, readBaselineOptional env.codec baselines
        (baselineRelativePath clientVersion serverEra .server lane) = .ok loaded ∧
      (request.bless = false → loaded = some ⟨[]⟩)) :
    EvaluatedDirection env request baselines clientVersion serverEra .server
      (evidenceResults request.lanes results)
      (if request.bless then emptyUpdates clientVersion serverEra .server
        (conformanceEvidenceLanes request.lanes) else []) := by
  have hkeys := evidenceResults_keys request.lanes results
  have hfilter : allConformanceLanes.filter (· ∈ conformanceEvidenceLanes request.lanes) =
      conformanceEvidenceLanes request.lanes := by
    conv_rhs => rw [← hkeys, LaneResults.keys]
    refine List.filter_congr fun lane _ => ?_
    rw [← hkeys, Bool.eq_iff_iff, decide_eq_true_iff, LaneResults.mem_keys]
  have hpresent : ∀ lane ∈ conformanceEvidenceLanes request.lanes,
      evidenceResults request.lanes results lane = some (results lane) := fun lane hlane =>
    if_pos hlane
  choose loaded hloaded hempty using hread
  have hdirect : directFindings (evidenceResults request.lanes results) =
      .ok OrderedSet.empty := by
    unfold directFindings evidenceResults
    split
    next laneResults hlane =>
      split at hlane
      · cases hlane
        exact hnone .fixtureDirect
      · contradiction
    · rfl
  have hgated : ∀ lane, gatedFindings .server OrderedSet.empty lane OrderedSet.empty =
      OrderedSet.empty := by
    intro lane
    unfold gatedFindings
    split <;> rfl
  rw [EvaluatedDirection, hkeys, if_neg (conformanceEvidenceLanes_ne_nil hlanes)]
  refine ⟨_, evaluateBaselines_ok_iff.mpr ⟨conformanceEvidenceLanes_ne_nil hlanes,
    fun _ hrouted => ?_, fun lane hlane => ?_, OrderedSet.empty,
    (conformanceEvidenceLanes request.lanes).map fun lane =>
      (compareFindings lane OrderedSet.empty
          (OrderedSet.ofList (((loaded lane).map ConformanceBaseline.findings).getD [])),
        if request.bless then some
          ⟨baselineRelativePath clientVersion serverEra .server lane, ⟨[]⟩⟩ else none),
    hdirect, ?_, rfl⟩, ?_, fun hbless comparison hcomparison => ?_⟩
  · obtain ⟨lane, hlane, hrouted⟩ := hrouted
    have hfixture : SemanticLane.fixtureDirect ∈ conformanceEvidenceLanes request.lanes := by
      rw [mem_conformanceEvidenceLanes] at hlane ⊢
      exact Or.inr ⟨rfl, lane, hlane.resolve_right fun hdirect => by simp [hdirect.1,
        SemanticLane.isRouted] at hrouted, hrouted⟩
    rw [hpresent _ hfixture]
    rfl
  · rw [hpresent lane hlane]
    rfl
  · rw [hfilter, List.forall₂_map_right_iff, List.forall₂_same]
    intro lane hlane
    refine evaluateLane_ok_iff.mpr ⟨results lane, OrderedSet.empty, loaded lane,
      hpresent lane hlane, hnone lane, hloaded lane, ?_, by rw [hgated]; rfl⟩
    cases hbless : request.bless with
    | true => exact Or.inr rfl
    | false => exact Or.inl (by rw [hempty lane hbless]; rfl)
  · unfold emptyUpdates
    cases request.bless <;> simp [List.filterMap_map]
  · simp only [List.map_map, List.mem_map, Function.comp_apply] at hcomparison
    obtain ⟨lane, _, rfl⟩ := hcomparison
    rw [compareFindings_matches, hempty lane hbless]
    rfl

end Undisturbed

/-! ### Checks that all succeed -/

def successChecks : Bytes :=
  utf8Bytes "[\x7b\"id\":\"check\",\"status\":\"SUCCESS\"\x7d]".toList

/-- The library restricted to one list of checks. -/
def successParser : ChecksParser := fun source =>
  if source = successChecks then .ok [⟨"check", none, .success, [], none⟩]
  else .error "failed to parse official result file"

/-- The scenarios of the `all` suite for the stable client version. -/
def stableScenarios : List String :=
  serverScenarios20250618 ++ (serverActiveAdditions20251125 ++ serverPending20251125)

def successOfficial : Option OfficialDirectory :=
  some ⟨some "official",
    writtenResults "server-" "2026-01-01T00-00-00-000Z" successChecks stableScenarios⟩

def emptySource : Bytes := utf8Bytes "findings: []\n".toList

/-- The library restricted to the empty document and one with a finding. -/
def exampleCodec : YamlCodec where
  toString document :=
    if document = ⟨[]⟩ then .ok emptySource
    else if document = failingDocument then .ok failingSource
    else .error "failed to serialize conformance baseline"
  fromSlice source :=
    if source = emptySource then .ok ⟨[]⟩
    else if source = failingSource then .ok failingDocument
    else .error "failed to parse conformance baseline"

/-- An undisturbed run whose checks all succeed. -/
def successEnv : RunEnv where
  parseChecks := successParser
  codec := exampleCodec
  docker := .ok ()
  setupLog _ := .ok ()
  entry _ := undisturbedEntry fun _ _ => successOfficial
  writeReport _ _ _ := .ok ()
  rootName := some "baselines"
  behindLink _ := .missing
  blessFaults := .none

def successRequest (lane : SemanticLane) (bless : Bool) : RunRequest where
  lanes := [lane]
  standalone := false
  clientVersions := [stableMcpSpecVersion]
  serverEras := [.dual]
  bless

theorem successOfficial_valid : ∃ results,
    ValidResults successParser .server stableMcpSpecVersion successOfficial results ∧
      scoredFindings results = .ok OrderedSet.empty := by
  have hvalid : ∀ scenario ∈ stableScenarios, validateScenarioName scenario.toList = .ok () := by
    decide +kernel
  have hnodup : stableScenarios.Nodup := by decide +kernel
  have htimestamp : isNormalizedIsoTimestamp "2026-01-01T00-00-00-000Z".toList = true := by
    have hcharacters : "2026-01-01T00-00-00-000Z".toList = ['2', '0', '2', '6', '-', '0', '1', '-',
        '0', '1', 'T', '0', '0', '-', '0', '0', '-', '0', '0', '-', '0', '0', '0', 'Z'] := rfl
    rw [hcharacters]
    decide +kernel
  have hparsed : successParser successChecks = .ok [⟨"check", none, .success, [], none⟩] :=
    if_pos rfl
  have hsize : successChecks.length ≤ maxChecksFileBytes := by decide +kernel
  obtain ⟨results, hloaded, hkeys, hchecks⟩ := loadResults_written (some "official") "server-"
    hparsed hsize htimestamp hvalid hnodup
  have hscored : scoredFindings results = .ok OrderedSet.empty := by
    refine scoredFindings_of_success fun entry hentry check hcheck => ?_
    rw [hchecks entry hentry, List.mem_singleton] at hcheck
    rw [hcheck]
  have hcatalog : expectedScenarios .server (recordedSuite .server) stableMcpSpecVersion =
      .ok (OrderedSet.ofList stableScenarios) := by
    simp [expectedScenarios, expectedServerScenarios, recordedSuite, defaultConformanceSuite,
      stableMcpSpecVersion, legacyMcpSpecVersion, stableScenarios]
  refine ⟨results, ⟨hloaded, ⟨_, hcatalog, hkeys, fun entry hentry => ?_⟩, _, hscored⟩, hscored⟩
  rw [hchecks entry hentry]
  exact List.cons_ne_nil _ _

/-- The run's entry, where its baselines are readable, and empty without `bless`. -/
theorem success_undisturbed (lane : SemanticLane) {bless : Bool} {baselines : BaselineView}
    (hread : ∀ lane, ∃ loaded, readBaselineOptional exampleCodec baselines
        (baselineRelativePath stableMcpSpecVersion .dual .server lane) = .ok loaded ∧
      (bless = false → loaded = some ⟨[]⟩)) :
    UndisturbedEntry successEnv (successRequest lane bless) baselines stableMcpSpecVersion .dual 0
      (if bless then emptyUpdates stableMcpSpecVersion .dual .server
        (conformanceEvidenceLanes [lane]) else []) := by
  obtain ⟨results, hvalid, hscored⟩ := successOfficial_valid
  have hclient : ((successRequest lane bless).entry stableMcpSpecVersion
      .dual).runsExternalClient = false := rfl
  have hserver : EvaluatedDirection successEnv (successRequest lane bless) baselines
      stableMcpSpecVersion .dual .server (evidenceResults [lane] fun _ => results)
      (if bless then emptyUpdates stableMcpSpecVersion .dual .server
        (conformanceEvidenceLanes [lane]) else []) :=
    @evaluatedDirection_of_no_findings successEnv (successRequest lane bless) baselines
      stableMcpSpecVersion .dual (List.cons_ne_nil _ _) (fun _ => results) (fun _ => hscored) hread
  refine ⟨rfl, fun _ _ => rfl, fun _ _ => successOfficial, fun _ _ => results, _, [], rfl,
    fun _ _ => hvalid, by simp [hclient], hserver, ?_, (List.append_nil _).symm⟩
  have hkeys : (clientResults ((successRequest lane bless).entry stableMcpSpecVersion .dual)
      results).keys = [] := by
    simp [LaneResults.keys, clientResults, hclient]
  rw [EvaluatedDirection, if_pos hkeys]

theorem successMatrix (lane : SemanticLane) (bless : Bool) :
    (conformanceMatrix (successRequest lane bless).clientVersions
      (successRequest lane bless).serverEras).zipIdx = [((stableMcpSpecVersion, .dual), 0)] := rfl

theorem runMatrix_success (lane : SemanticLane) {bless : Bool} {baselines : BaselineView}
    (hread : ∀ lane, ∃ loaded, readBaselineOptional exampleCodec baselines
        (baselineRelativePath stableMcpSpecVersion .dual .server lane) = .ok loaded ∧
      (bless = false → loaded = some ⟨[]⟩)) (artifacts : RunArtifacts) :
    (runMatrix successEnv (successRequest lane bless) baselines artifacts).Clean ∧
    (runMatrix successEnv (successRequest lane bless) baselines artifacts).updates =
      if bless then emptyUpdates stableMcpSpecVersion .dual .server
        (conformanceEvidenceLanes [lane]) else [] := by
  have hentry := success_undisturbed lane hread
  generalize (if bless then emptyUpdates stableMcpSpecVersion .dual .server
    (conformanceEvidenceLanes [lane]) else []) = updates at hentry ⊢
  obtain ⟨hclean, hupdates⟩ := @runMatrix_undisturbed successEnv (successRequest lane bless)
    baselines (List.cons_ne_nil _ _) (fun _ => updates) (by
      rw [successMatrix, List.forall_mem_singleton]
      exact hentry) artifacts
  refine ⟨hclean, hupdates.trans ?_⟩
  rw [successMatrix]
  simp

theorem runMatrix_success_trace (lane : SemanticLane) {bless : Bool} {baselines : BaselineView}
    (hread : ∀ lane, ∃ loaded, readBaselineOptional exampleCodec baselines
        (baselineRelativePath stableMcpSpecVersion .dual .server lane) = .ok loaded ∧
      (bless = false → loaded = some ⟨[]⟩)) (artifacts : RunArtifacts) :
    (runMatrix successEnv (successRequest lane bless) baselines artifacts).trace =
      .entryStarted stableMcpSpecVersion .dual :: ((runConformanceWithInterrupt successParser
        (successEnv.entry 0) ((successRequest lane bless).entry stableMcpSpecVersion .dual)
          (artifacts stableMcpSpecVersion .dual)).trace ++
        [.evaluated .server, .evaluated .client]) := by
  have hclean : (RunProgress.mk artifacts [] false [] [] false).Clean := ⟨rfl, rfl, rfl⟩
  rw [runMatrix, successMatrix]
  exact (matrixEntry_undisturbed (List.cons_ne_nil _ _) (success_undisturbed lane hread)
    hclean).2.2

/-- Empty documents fit the size limit and are read back. -/
theorem readBaselineWithMetadata_emptySource (path : List String) :
    readBaselineWithMetadata exampleCodec path emptySource = .ok ⟨[]⟩ := by
  have hsize : emptySource.length ≤ maxBaselineBytes := by decide +kernel
  exact readBaselineWithMetadata_ok_iff.mpr ⟨hsize, by simp [exampleCodec], List.Pairwise.nil⟩

theorem stageUpdate_empty {paths : List (List String)} {staged written : Tree Bytes}
    {path : List String} (hfresh : path ∉ paths)
    (hwritten : Tree.write path emptySource (some staged) = some written) :
    stageUpdate exampleCodec BlessFaults.none (paths, staged) ⟨path, ⟨[]⟩⟩ =
      .ok (path :: paths, written) :=
  stageUpdate_ok_iff.mpr ⟨hfresh, rfl, emptySource, written, ⟨[]⟩, by simp [exampleCodec],
    hwritten, readBaselineWithMetadata_emptySource path, rfl⟩

end CfIntegration.Runtime
