import CfIntegration.Runtime.Passing

/-! # Interrupting a run

The interrupt may become ready between any two steps of a run. A run that sees
it at a select of the entry it became ready in starts no further entry, leaves
the baselines alone and fails. No select follows the last phase of an entry, so
an interrupt that becomes ready later is seen by the next entry or not at all.
-/

namespace CfIntegration.Runtime

open Conformance

/-- The steps before and after the interrupt became ready, which was before the
run decided its result. -/
structure InterruptCut (trace before after : List RunEvent) : Prop where
  split : trace = before ++ after
  pending : ∀ event ∈ before, event.poll ≠ some true
  undecided : RunEvent.baselinesReplaced ∉ before

/-- Nothing is started or replaced after the interrupt, and the run fails. -/
structure InterruptHonored (outcome : RunOutcome) (root : Option (Tree Bytes))
    (after : List RunEvent) : Prop where
  notStarted : ∀ clientVersion serverEra, RunEvent.entryStarted clientVersion serverEra ∉ after
  notReplaced : RunEvent.baselinesReplaced ∉ after
  unchanged : outcome.root = root
  failed : ∃ failure, outcome.result = .error failure

/-- The entry in which the interrupt became ready still had a select to see it. -/
def ObservedInEntry (after : List RunEvent) : Prop :=
  ∃ segment point rest, after = segment ++ .selected point true :: rest ∧
    ∀ clientVersion serverEra, RunEvent.entryStarted clientVersion serverEra ∉ segment

section Entry

variable {env : RunEnv} {request : RunRequest} {baselines : BaselineView}

theorem runConformanceWithInterrupt_events (parseChecks : ChecksParser) (env : EntryEnv)
    (request : EntryRequest) (artifacts : EntryArtifacts) :
    ∀ event ∈ (runConformanceWithInterrupt parseChecks env request artifacts).trace,
      event.duringLane = true ∨ event = .externalStackRetained := by
  obtain ⟨_, _, htrace⟩ | ⟨cleared, _, _, houtcome⟩ :=
    runConformanceWithInterrupt_cases parseChecks env request artifacts
  · rw [htrace]
    simp
  · rw [houtcome]
    exact (runPhases_settled parseChecks env request cleared).events

@[simp] theorem entryResult_trace (clientVersion : String) (serverEra : ConformanceServerEra)
    (result : AppResult (List ConformanceOperationalFailure)) (progress : RunProgress) :
    (entryResult clientVersion serverEra result progress).trace = progress.trace := by
  unfold entryResult
  split
  · rfl
  · split <;> rfl

@[simp] theorem entryResult_stopped (clientVersion : String) (serverEra : ConformanceServerEra)
    (result : AppResult (List ConformanceOperationalFailure)) (progress : RunProgress) :
    (entryResult clientVersion serverEra result progress).stopped = progress.stopped := by
  unfold entryResult
  split
  · rfl
  · split <;> rfl

/-- The events of one pass: its start, those of the entry, and its evaluations.
The loop is left exactly when the entry saw the interrupt. -/
theorem matrixEntry_trace {progress : RunProgress} (hrunning : progress.stopped = false)
    (entry : (String × ConformanceServerEra) × Nat) :
    ∃ events evaluations,
      (matrixEntry env request baselines progress entry).trace = progress.trace ++
        .entryStarted entry.1.1 entry.1.2 :: (events ++ evaluations) ∧
      (∀ event ∈ events, event.duringLane = true ∨ event = .externalStackRetained) ∧
      (∀ event ∈ evaluations, ∃ direction, event = .evaluated direction) ∧
      (matrixEntry env request baselines progress entry).stopped =
        interruptionRequested events := by
  obtain ⟨⟨clientVersion, serverEra⟩, index⟩ := entry
  unfold matrixEntry
  rw [if_neg (by simp [hrunning])]
  dsimp only
  split
  · exact ⟨[], [], by simp, by simp, by simp, hrunning⟩
  · have hevents := runConformanceWithInterrupt_events env.parseChecks (env.entry index)
      (request.entry clientVersion serverEra) (progress.artifacts clientVersion serverEra)
    generalize runConformanceWithInterrupt env.parseChecks (env.entry index)
      (request.entry clientVersion serverEra) (progress.artifacts clientVersion serverEra) =
        outcome at hevents ⊢
    refine ⟨outcome.trace, [.evaluated .server, .evaluated .client], ?_, hevents, by simp, ?_⟩
    · split <;> simp
    · split
      next hinterrupted => exact hinterrupted.symm
      next hquiet => simpa [hrunning] using hquiet

end Entry

/-- After a select that saw the interrupt the loop is left and starts nothing. -/
structure MatrixInterrupted (progress : RunProgress) : Prop where
  left : ∀ before point rest, progress.trace = before ++ .selected point true :: rest →
    progress.stopped = true ∧
      ∀ clientVersion serverEra, RunEvent.entryStarted clientVersion serverEra ∉ rest
  notReplaced : RunEvent.baselinesReplaced ∉ progress.trace

theorem interruptionRequested_eq_true {trace : List RunEvent} :
    interruptionRequested trace = true ↔ ∃ point, RunEvent.selected point true ∈ trace := by
  simp only [interruptionRequested, List.any_eq_true, beq_iff_eq]
  constructor
  · rintro ⟨event, hevent, hpoll⟩
    cases event <;> simp_all [RunEvent.poll]
    exact ⟨_, hevent⟩
  · rintro ⟨point, hpoint⟩
    exact ⟨_, hpoint, rfl⟩

section Matrix

variable {env : RunEnv} {request : RunRequest} {baselines : BaselineView}

theorem matrixEntry_interrupted {progress : RunProgress} (hprogress : MatrixInterrupted progress)
    (entry : (String × ConformanceServerEra) × Nat) :
    MatrixInterrupted (matrixEntry env request baselines progress entry) := by
  cases hrunning : progress.stopped with
  | true =>
      rw [matrixEntry, if_pos hrunning]
      exact hprogress
  | false =>
      obtain ⟨events, evaluations, htrace, hevents, hevaluations, hstopped⟩ :=
        @matrixEntry_trace env request baselines progress hrunning entry
      have hunstarted : ∀ clientVersion serverEra,
          RunEvent.entryStarted clientVersion serverEra ∉ events ++ evaluations := by
        intro clientVersion serverEra hmem
        obtain hmem | hmem := List.mem_append.mp hmem
        · obtain hlane | heq := hevents _ hmem <;> contradiction
        · obtain ⟨_, heq⟩ := hevaluations _ hmem
          contradiction
      constructor
      · intro before point rest hsplit
        rw [htrace] at hsplit
        -- A running loop has not seen the interrupt, so the select is one of this entry.
        have hunseen : RunEvent.selected point true ∉ progress.trace := by
          intro hmem
          obtain ⟨first, last, hfirst⟩ := List.append_of_mem hmem
          have hleft := (hprogress.left first point last hfirst).1
          rw [hrunning] at hleft
          contradiction
        obtain ⟨inner, hinner⟩ : ∃ inner, RunEvent.entryStarted entry.1.1 entry.1.2 ::
            (events ++ evaluations) = inner ++ .selected point true :: rest := by
          obtain ⟨inner, _, hnew⟩ | ⟨inner, hold, hnew⟩ := List.append_eq_append_iff.mp hsplit
          · exact ⟨inner, hnew⟩
          · cases inner with
            | nil => exact ⟨[], hnew.symm⟩
            | cons head tail =>
                rw [List.cons_append, List.cons.injEq] at hnew
                rw [← hnew.1] at hold
                exact absurd (hold ▸ List.mem_append_right _ List.mem_cons_self) hunseen
        obtain _ | ⟨_, inner⟩ := inner
        · simp at hinner
        rw [List.cons_append, List.cons.injEq] at hinner
        have hmem : ∀ event ∈ RunEvent.selected point true :: rest,
            event ∈ events ++ evaluations := by
          rw [hinner.2]
          exact fun event hevent => List.mem_append_right _ hevent
        constructor
        · rw [hstopped, interruptionRequested_eq_true]
          obtain hmem | hmem := List.mem_append.mp (hmem _ List.mem_cons_self)
          · exact ⟨point, hmem⟩
          · obtain ⟨_, heq⟩ := hevaluations _ hmem
            contradiction
        · intro clientVersion serverEra hstarted
          exact hunstarted clientVersion serverEra (hmem _ (List.mem_cons_of_mem _ hstarted))
      · rw [htrace]
        simp only [List.mem_append, List.mem_cons, reduceCtorEq, false_or, not_or]
        refine ⟨hprogress.notReplaced, fun hmem => ?_, fun hmem => ?_⟩
        · obtain hlane | heq := hevents _ hmem <;> contradiction
        · obtain ⟨_, heq⟩ := hevaluations _ hmem
          contradiction

theorem runMatrix_interrupted (artifacts : RunArtifacts) :
    MatrixInterrupted (runMatrix env request baselines artifacts) := by
  unfold runMatrix
  generalize (conformanceMatrix request.clientVersions request.serverEras).zipIdx = entries
  suffices hfold : ∀ progress, MatrixInterrupted progress →
      MatrixInterrupted (entries.foldl (matrixEntry env request baselines) progress) from
    hfold _ ⟨by simp, by simp⟩
  induction entries with
  | nil => exact fun _ hprogress => hprogress
  | cons entry rest ih => exact fun _ hprogress => ih _ (matrixEntry_interrupted hprogress entry)

end Matrix

/-- A run that saw the interrupt started no entry after it, kept the baselines and failed. -/
theorem executeConformance_seen {env : RunEnv} {request : RunRequest} {root : Option (Tree Bytes)}
    {artifacts : RunArtifacts} {before rest : List RunEvent} {point : SelectPoint}
    (htrace : (executeConformance env request root artifacts).trace =
      before ++ .selected point true :: rest) :
    (∀ clientVersion serverEra, RunEvent.entryStarted clientVersion serverEra ∉ rest) ∧
    RunEvent.baselinesReplaced ∉ (executeConformance env request root artifacts).trace ∧
    (executeConformance env request root artifacts).root = root ∧
    ∃ failure, (executeConformance env request root artifacts).result = .error failure := by
  unfold executeConformance at htrace ⊢
  split at htrace
  · simp at htrace
  have hstopped : (runMatrix env request (baselineFileAt env.behindLink root) artifacts).stopped =
      true → (runMatrix env request (baselineFileAt env.behindLink root)
        artifacts).reportedFailure = true := runMatrix_stopped artifacts
  have hmatrix : MatrixInterrupted (runMatrix env request (baselineFileAt env.behindLink root)
      artifacts) := runMatrix_interrupted artifacts
  generalize runMatrix env request (baselineFileAt env.behindLink root) artifacts = progress at *
  have hseen : RunEvent.selected point true ∈ progress.trace := by
    have hmem : RunEvent.selected point true ∈
        (finalizeConformanceExecution env request.bless root progress).trace := by
      rw [htrace]
      simp
    unfold finalizeConformanceExecution at hmem
    split at hmem <;> simpa using hmem
  obtain ⟨first, last, hfirst⟩ := List.append_of_mem hseen
  have hreported := hstopped (hmatrix.left first point last hfirst).1
  unfold finalizeConformanceExecution at htrace ⊢
  rw [if_neg (by simp [hreported])] at htrace ⊢
  refine ⟨(hmatrix.left before point rest htrace).2, hmatrix.notReplaced, rfl, ?_⟩
  dsimp only
  split
  · exact ⟨_, rfl⟩
  next hfailures =>
    rw [if_neg (fun hnone => hfailures ⟨hnone, hreported⟩)]
    exact ⟨_, rfl⟩

/-- An interrupt that becomes ready while its entry still has a select to see it
ends the run: nothing more is started, the baselines stay, and the run fails. A run
that does the same without that select never sees the interrupt at all. -/
theorem executeConformance_interrupted {env : RunEnv} {request : RunRequest}
    {root : Option (Tree Bytes)} {artifacts : RunArtifacts} {before after : List RunEvent}
    (hcut : InterruptCut (executeConformance env request root artifacts).trace before after) :
    (ObservedInEntry after →
      InterruptHonored (executeConformance env request root artifacts) root after) ∧
    (InterruptHonored (executeConformance env request root artifacts) root after →
      ObservedInEntry after ∨
        interruptionRequested (executeConformance env request root artifacts).trace = false) := by
  constructor
  · rintro ⟨segment, point, rest, rfl, hsegment⟩
    have htrace := hcut.split
    rw [← List.append_assoc] at htrace
    obtain ⟨hrest, hreplaced, hroot, hfailed⟩ := executeConformance_seen htrace
    refine ⟨fun clientVersion serverEra hmem => ?_, fun hmem => hreplaced ?_, hroot, hfailed⟩
    · simp only [List.mem_append, List.mem_cons, reduceCtorEq, false_or] at hmem
      exact hmem.elim (hsegment clientVersion serverEra) (hrest clientVersion serverEra)
    · rw [hcut.split]
      exact List.mem_append_right _ hmem
  · intro hhonored
    by_contra hneither
    rw [not_or, Bool.not_eq_false, interruptionRequested_eq_true] at hneither
    obtain ⟨hunobserved, point, hseen⟩ := hneither
    rw [hcut.split] at hseen
    obtain hearly | hlate := List.mem_append.mp hseen
    · exact hcut.pending _ hearly rfl
    · obtain ⟨segment, rest, rfl⟩ := List.append_of_mem hlate
      exact hunobserved ⟨segment, point, rest, rfl, fun clientVersion serverEra hmem =>
        hhonored.notStarted clientVersion serverEra (List.mem_append_left _ hmem)⟩

/-- The direct fixture's run with an interrupt that is ready at the first select. -/
def interruptedEnv : RunEnv :=
  { successEnv with
    entry := fun _ => { undisturbedEntry fun _ _ => none with fires := fun _ => true } }

theorem executeConformance_interrupted_start :
    InterruptHonored (executeConformance interruptedEnv (successRequest .fixtureDirect true) none
        fun _ _ _ _ => .empty) none
      [.acquired .directFixture, .selected .directStart true, .released .directFixture,
        .evaluated .server, .evaluated .client] := by
  have htrace : (executeConformance interruptedEnv (successRequest .fixtureDirect true) none
      fun _ _ _ _ => .empty).trace =
      [.entryStarted stableMcpSpecVersion .dual, .released .directFixture] ++
        [.acquired .directFixture, .selected .directStart true, .released .directFixture,
          .evaluated .server, .evaluated .client] := by
    decide +kernel
  exact (executeConformance_interrupted ⟨htrace, by decide, by decide⟩).1
    ⟨[.acquired .directFixture], .directStart, _, rfl, by simp⟩

/-- An entry without routed lanes does what the direct fixture's phase does. -/
theorem runPhases_trace_direct {parseChecks : ChecksParser} {env : EntryEnv}
    {request : EntryRequest} (htopologies : conformanceTopologies request.lanes = [])
    (hclient : request.runsExternalClient = false) (artifacts : EntryArtifacts) :
    (runPhases parseChecks env request artifacts).trace =
      (directPhase parseChecks env request artifacts).trace := by
  have hcomparison : ∀ progress, (comparisonPhase parseChecks env request progress).trace =
      progress.trace := by
    intro progress
    unfold comparisonPhase
    split <;> rfl
  rw [runPhases, hcomparison, htopologies, List.foldl_nil, clientPhase,
    if_pos (by simp [hclient]), routedCleanupPhase, if_pos (Or.inl htopologies)]

theorem directRun_trace {parseChecks : ChecksParser} {request : EntryRequest}
    {official : ConformanceDirection → SemanticLane → Option OfficialDirectory}
    {results : ConformanceResults} (hlanes : request.lanes = [.fixtureDirect])
    (hvalid : ValidResults parseChecks .server request.clientVersion
      (official .server .fixtureDirect) results) (artifacts : EntryArtifacts) :
    (runConformanceWithInterrupt parseChecks (undisturbedEntry official) request artifacts).trace =
      [.released .directFixture, .acquired .directFixture, .selected .directStart false,
        .selected .directRun false, .released .directFixture] := by
  have hclient : request.runsExternalClient = false := by
    simp [EntryRequest.runsExternalClient, hlanes]
  have htopologies : conformanceTopologies request.lanes = [] := by
    rw [hlanes]
    rfl
  have hserver : ∀ lane, lane = .fixtureDirect ∨ lane ∈ request.lanes →
      ValidResults parseChecks .server request.clientVersion (official .server lane) results := by
    intro lane hlane
    obtain rfl : lane = .fixtureDirect := by simpa [hlanes] using hlane
    exact hvalid
  obtain ⟨hok, _⟩ := @runConformanceWithInterrupt_undisturbed parseChecks request official
    (fun _ _ => results) (by simp [hlanes]) hserver (by simp [hclient]) artifacts
  obtain ⟨_, herror, _⟩ | ⟨cleared, _, _, houtcome⟩ := runConformanceWithInterrupt_cases
    parseChecks (undisturbedEntry official) request artifacts
  · rw [herror] at hok
    contradiction
  rw [houtcome]
  dsimp only
  rw [runPhases_trace_direct htopologies hclient, directPhase_undisturbed hvalid]

def blessedTree : Tree Bytes :=
  .directory [(stableMcpSpecVersion, .directory [("dual", .directory
    [("fixture-direct.yml", .file emptySource)])])]

theorem bless_directRun :
    ∃ disk, blessBaselinesTransactionally exampleCodec BlessFaults.none (some "baselines") none
      (emptyUpdates stableMcpSpecVersion .dual .server
        (conformanceEvidenceLanes [.fixtureDirect])) = (.ok (), disk) ∧
      disk.root = some blessedTree := by
  have hupdates : emptyUpdates stableMcpSpecVersion .dual .server
      (conformanceEvidenceLanes [.fixtureDirect]) =
      [⟨baselineRelativePath stableMcpSpecVersion .dual .server .fixtureDirect, ⟨[]⟩⟩] := rfl
  have hwritten : Tree.write (baselineRelativePath stableMcpSpecVersion .dual .server
      .fixtureDirect) emptySource (some (.directory [])) = some blessedTree := by rfl
  have hstaged : [(⟨baselineRelativePath stableMcpSpecVersion .dual .server .fixtureDirect,
      ⟨[]⟩⟩ : BaselineUpdate)].foldlM (stageUpdate exampleCodec BlessFaults.none)
      ([], .directory []) = .ok ([baselineRelativePath stableMcpSpecVersion .dual .server
        .fixtureDirect], blessedTree) := by
    rw [List.foldlM_cons, stageUpdate_empty List.not_mem_nil hwritten]
    rfl
  have hroot : stageRoot BlessFaults.none none = .ok (.directory []) := rfl
  rw [hupdates]
  exact blessBaselinesTransactionally_none (List.cons_ne_nil _ _) hroot hstaged

/-- A run that blesses the direct fixture with an interrupt that becomes ready
after the last select: the baselines are replaced and the run succeeds. -/
theorem executeConformance_interrupted_late :
    ∃ before after, InterruptCut (executeConformance successEnv
        (successRequest .fixtureDirect true) none fun _ _ _ _ => .empty).trace before after ∧
      RunEvent.selected .directStart false ∈ before ∧
      (executeConformance successEnv (successRequest .fixtureDirect true) none
        fun _ _ _ _ => .empty).result = .ok () ∧
      ¬ InterruptHonored (executeConformance successEnv (successRequest .fixtureDirect true) none
        fun _ _ _ _ => .empty) none after := by
  have hread : ∀ lane, ∃ loaded, readBaselineOptional exampleCodec
      (baselineFileAt successEnv.behindLink none)
      (baselineRelativePath stableMcpSpecVersion .dual .server lane) = .ok loaded ∧
      (true = false → loaded = some ⟨[]⟩) := fun lane => ⟨none, by cases lane <;> rfl, by simp⟩
  obtain ⟨hclean, hupdates⟩ := runMatrix_success .fixtureDirect hread fun _ _ _ _ => .empty
  obtain ⟨results, hvalid, _⟩ := successOfficial_valid
  have hentry := @directRun_trace successParser
    ((successRequest .fixtureDirect true).entry stableMcpSpecVersion .dual)
    (fun _ _ => successOfficial) results rfl hvalid fun _ _ => .empty
  have hevents := runMatrix_success_trace .fixtureDirect hread fun _ _ _ _ => .empty
  rw [show successEnv.entry 0 = undisturbedEntry fun _ _ => successOfficial from rfl, hentry]
    at hevents
  obtain ⟨disk, hblessed, _⟩ := bless_directRun
  rw [if_pos rfl] at hupdates
  rw [← hupdates] at hblessed
  obtain ⟨hresult, _, htrace⟩ :=
    (executeConformance_of_clean rfl hclean).2 (.ok ()) disk hblessed rfl
  refine ⟨_, [.baselinesReplaced], ⟨htrace, ?_, ?_⟩, ?_, hresult, fun hhonored =>
    hhonored.notReplaced List.mem_cons_self⟩
  all_goals
    rw [hevents]
    decide

end CfIntegration.Runtime
