import CfIntegration.Runtime.Entry

/-! # Cleanup of one matrix entry

Whatever the outcomes of the phases and wherever the interrupt fires, what an
entry acquired is released exactly once, a retained external stack is used and
removed by the client direction, an observed interrupt is a failure, and the
interrupt is not polled after it completed.
-/

namespace CfIntegration.Runtime

open Conformance

/-! ## One lane -/

/-- An event of a lane itself, neither a hand-over of its stack nor one of the matrix. -/
def RunEvent.duringLane : RunEvent → Bool
  | .acquired _ | .released _ | .selected _ _ | .externalStackReused => true
  | .entryStarted _ _ | .externalStackRetained | .evaluated _ | .baselinesReplaced => false

theorem externalStackRetained_notMem {trace : List RunEvent}
    (hevents : ∀ event ∈ trace, event.duringLane = true) :
    RunEvent.externalStackRetained ∉ trace :=
  fun hmem => absurd (hevents _ hmem) (by decide)

/-- The events of a lane so far, against what it holds and whether it saw the interrupt. -/
structure LaneAccounted (held : List Resource) (lane : LaneProgress) : Prop where
  resources : Transfers RunEvent.resourceUse (holding []) lane.trace (holding held)
  polls : PolledUntil lane.interrupted (lane.trace.filterMap RunEvent.poll)
  failed : lane.interrupted = true → lane.failure.isSome = true
  events : ∀ event ∈ lane.trace, event.duringLane = true

namespace LaneAccounted

variable {held : List Resource} {lane : LaneProgress}

theorem quiet (haccounted : LaneAccounted held lane) (hfailure : lane.failure.isSome = false) :
    lane.interrupted = false := by
  by_contra hinterrupted
  have := haccounted.failed (by simpa using hinterrupted)
  simp [hfailure] at this

theorem fail (haccounted : LaneAccounted held lane) (error : AppFailure) :
    LaneAccounted held { lane with failure := some error } :=
  ⟨haccounted.resources, haccounted.polls, fun _ => rfl, haccounted.events⟩

theorem acquire (haccounted : LaneAccounted held lane) {resource : Resource}
    (hfresh : resource ∉ held) :
    LaneAccounted (resource :: held)
      { lane with trace := lane.trace ++ [RunEvent.acquired resource] } where
  resources := haccounted.resources.append (Transfers.acquire rfl hfresh)
  polls := by simpa [List.filterMap_cons, RunEvent.poll] using haccounted.polls
  failed := haccounted.failed
  events := by simpa [or_imp, forall_and, RunEvent.duringLane] using haccounted.events

/-- A select, whatever the operation's outcome, when an interrupt makes it a failure. -/
theorem select (haccounted : LaneAccounted held lane) (hquiet : lane.interrupted = false)
    (fires : SelectPoint → Bool) (point : SelectPoint) (failure : Option AppFailure)
    (hfailed : fires point = true → failure.isSome = true) :
    LaneAccounted held { lane.select fires point with failure } where
  resources := haccounted.resources.append_neutral (by simp [RunEvent.resourceUse])
  polls := by
    have hpolls := haccounted.polls
    rw [hquiet] at hpolls
    simpa [LaneProgress.select, hquiet, List.filterMap_cons, RunEvent.poll] using
      hpolls.poll (fires point)
  failed := by simpa [LaneProgress.select, hquiet] using hfailed
  events := by
    simpa [LaneProgress.select, or_imp, forall_and, RunEvent.duringLane] using haccounted.events

theorem awaitRun (haccounted : LaneAccounted held lane) (hquiet : lane.interrupted = false)
    (fires : SelectPoint → Bool) (point : SelectPoint) (target : SemanticLane)
    (run : LaneArtifact → AppResult Unit × LaneArtifact) :
    LaneAccounted held (lane.awaitRun fires point target run) := by
  have hselected := haccounted.select hquiet fires point
    (if fires point then some interruptedConformanceFailure
      else err (run (lane.artifacts .server target)).1) (fun hfires => by simp [hfires])
  exact ⟨hselected.resources, hselected.polls, hselected.failed, hselected.events⟩

theorem cleanUp {resources : List Resource}
    (haccounted : LaneAccounted (resources ++ held) lane) (hnodup : (resources ++ held).Nodup)
    (cleanup : AppResult Unit) : LaneAccounted held (lane.cleanUp resources cleanup) where
  resources := by
    refine haccounted.resources.append ?_
    clear haccounted
    induction resources with
    | nil => exact Transfers.nil _
    | cons resource rest ih =>
        rw [List.cons_append, List.nodup_cons] at hnodup
        have huse : RunEvent.resourceUse (.released resource) = some (resource, .release) := rfl
        exact (Transfers.release huse hnodup.1).append (ih hnodup.2)
  polls := by
    have hnone : (resources.map RunEvent.released).filterMap RunEvent.poll = [] := by
      simp [List.filterMap_eq_nil_iff, RunEvent.poll]
    simpa [LaneProgress.cleanUp, hnone] using haccounted.polls
  failed hinterrupted := finishWithCleanup_isSome cleanup (haccounted.failed hinterrupted)
  events := by
    simpa [LaneProgress.cleanUp, or_imp, forall_and, RunEvent.duringLane] using haccounted.events

end LaneAccounted

/-! ## The direct fixture -/

theorem directLane_accounted (parseChecks : ChecksParser) (env : EntryEnv) (request : EntryRequest)
    (artifacts : EntryArtifacts) :
    LaneAccounted [] (directLane parseChecks env request artifacts) := by
  have hstart : LaneAccounted [] (LaneProgress.mk none false artifacts []) :=
    ⟨Transfers.nil _, PolledUntil.nil, by simp, by simp⟩
  have hstarted : LaneAccounted [.directFixture]
      (startDirectFixture env ⟨none, false, artifacts, []⟩) := by
    refine (hstart.acquire List.not_mem_nil).select rfl env.fires .directStart _ ?_
    intro hfires
    split <;> simp [hfires, LaneProgress.select]
  refine LaneAccounted.cleanUp ?_ (by simp) env.directStop
  unfold runDirectFixture
  split
  · exact hstarted
  next hfailure =>
    split
    · exact hstarted.fail _
    · exact hstarted.awaitRun (hstarted.quiet (by simpa using hfailure)) env.fires .directRun
        .fixtureDirect _

/-! ## A routed topology -/

namespace TopologyRun

variable (run : TopologyRun) {progress : TopologyProgress}

def tokenHeld (progress : TopologyProgress) : List Resource :=
  if (progress.managedToken.bind ManagedBearerToken.catalogId).isSome then
    [.managedToken run.topology] else []

def fixtureHeld (progress : TopologyProgress) : List Resource :=
  if progress.fixture.isSome then [.fixture run.topology] else []

def serviceHeld (progress : TopologyProgress) : List Resource :=
  if progress.serviceStarted then [.service run.topology] else []

/-- What a topology holds before its cleanup, the last acquired first. -/
def held (progress : TopologyProgress) : List Resource :=
  run.tokenHeld progress ++ (run.fixtureHeld progress ++ (run.serviceHeld progress ++
    [.stack run.topology]))

theorem held_nodup (progress : TopologyProgress) : (run.held progress).Nodup := by
  unfold held tokenHeld fixtureHeld serviceHeld
  split <;> split <;> split <;> simp

/-- A topology before its cleanup. -/
structure Accounted (progress : TopologyProgress) : Prop where
  lane : LaneAccounted (run.held progress) progress.toLaneProgress
  /-- A fixture is registered only with a started service. -/
  fixtureService : progress.fixture.isSome = true → progress.serviceStarted = true
  /-- A standalone token has nothing to revoke. -/
  standaloneToken : run.standalone = true → run.tokenHeld progress = []

theorem prepareStack_accounted (artifacts : EntryArtifacts) :
    run.Accounted (run.prepareStack artifacts) where
  lane :=
    { resources := Transfers.acquire rfl List.not_mem_nil
      polls := PolledUntil.nil
      failed := by simp [prepareStack]
      events := by simp [prepareStack, RunEvent.duringLane] }
  fixtureService := by simp [prepareStack]
  standaloneToken _ := rfl

theorem startService_accounted (haccounted : run.Accounted progress)
    (hfixture : progress.fixture = none) (htoken : progress.managedToken = none)
    (hservice : progress.serviceStarted = false) :
    run.Accounted (run.startService progress) := by
  unfold startService
  split
  · exact haccounted
  next hfailure =>
    have hlane := haccounted.lane
    have hquiet := hlane.quiet (by simpa using hfailure)
    have hheld : run.held progress = [.stack run.topology] := by
      simp [held, tokenHeld, fixtureHeld, serviceHeld, hfixture, htoken, hservice]
    rw [hheld] at hlane
    split
    next =>
      refine ⟨?_, fun _ => rfl, fun _ => by simp [tokenHeld, htoken]⟩
      have hselected := hlane.select hquiet run.fires (.serviceStart run.topology)
        (if (progress.select run.fires (.serviceStart run.topology)).interrupted then
          some interruptedConformanceFailure else none) (fun hfires => by
            simp [LaneProgress.select, hfires])
      have hfresh : Resource.service run.topology ∉ [Resource.stack run.topology] := by simp
      have hacquired := hselected.acquire hfresh
      simpa [held, tokenHeld, fixtureHeld, serviceHeld, hfixture, htoken] using hacquired
    next error _ =>
      refine ⟨?_, by simp [hfixture], fun _ => by simp [tokenHeld, htoken]⟩
      have hselected := hlane.select hquiet run.fires (.serviceStart run.topology)
        (some ((progress.select run.fires (.serviceStart run.topology)).phaseFailure error))
        (fun _ => rfl)
      simpa [held, tokenHeld, fixtureHeld, serviceHeld, hfixture, htoken, hservice] using hselected

theorem startService_fixture : (run.startService progress).fixture = progress.fixture := by
  unfold startService
  split
  · rfl
  · split <;> rfl

theorem startService_managedToken :
    (run.startService progress).managedToken = progress.managedToken := by
  unfold startService
  split
  · rfl
  · split <;> rfl

/-- A start without failure started the service. -/
theorem startService_serviceStarted (hfailure : (run.startService progress).failure = none) :
    (run.startService progress).serviceStarted = true := by
  unfold startService at hfailure ⊢
  split at hfailure
  next hsome => simp [hfailure] at hsome
  next hnone =>
    rw [if_neg hnone]
    split at hfailure
    · rfl
    · simp at hfailure

theorem provisionFixture_accounted (haccounted : run.Accounted progress)
    (hfixture : progress.fixture = none) (htoken : progress.managedToken = none)
    (hservice : progress.failure = none → progress.serviceStarted = true) :
    run.Accounted (run.provisionFixture progress) := by
  unfold provisionFixture
  split
  · exact haccounted
  next hskip =>
    have hfailure : progress.failure = none := by
      by_contra hfailure
      simp [Option.ne_none_iff_isSome.mp hfailure] at hskip
    have hlane := haccounted.lane
    have hquiet := hlane.quiet (by simp [hfailure])
    have hheld : run.held progress = [.service run.topology, .stack run.topology] := by
      simp [held, tokenHeld, fixtureHeld, serviceHeld, hfixture, htoken, hservice hfailure]
    rw [hheld] at hlane
    split
    next error _ =>
      refine ⟨?_, by simp [hfixture], fun _ => by simp [tokenHeld, htoken]⟩
      simpa [held, tokenHeld, fixtureHeld, serviceHeld, hfixture, htoken, hservice hfailure] using
        hlane.fail error
    next =>
      split
      next serverId _ =>
        refine ⟨?_, fun _ => hservice hfailure, fun _ => by simp [tokenHeld, htoken]⟩
        -- The fixture exists from here on, even if the interrupt fires.
        have hselected := hlane.select hquiet run.fires (.provision run.topology)
          (if (progress.select run.fires (.provision run.topology)).interrupted then
            some interruptedConformanceFailure
            else if run.topology = .dataplane then err run.env.publisherSnapshot else none)
          (fun hfires => by simp [LaneProgress.select, hfires])
        have hfresh : Resource.fixture run.topology ∉
            [Resource.service run.topology, .stack run.topology] := by simp
        simpa [held, tokenHeld, fixtureHeld, serviceHeld, htoken, hservice hfailure] using
          hselected.acquire hfresh
      next message _ =>
        refine ⟨?_, by simp [hfixture], fun _ => by simp [tokenHeld, htoken]⟩
        have hselected := hlane.select hquiet run.fires (.provision run.topology)
          (some ((progress.select run.fires (.provision run.topology)).phaseFailure
            (.native s!"{run.registrationContext}: {message}"))) (fun _ => rfl)
        simpa [held, tokenHeld, fixtureHeld, serviceHeld, hfixture, htoken, hservice hfailure]
          using hselected

theorem provisionFixture_managedToken :
    (run.provisionFixture progress).managedToken = progress.managedToken := by
  unfold provisionFixture
  split
  · rfl
  · split
    · rfl
    · split <;> rfl

theorem issueToken_standalone (hstandalone : run.standalone = true) {token : ManagedBearerToken}
    (htoken : run.issueToken = .ok token) : token.catalogId = none := by
  rw [issueToken, if_pos hstandalone, except_map_eq_ok] at htoken
  obtain ⟨_, _, rfl⟩ := htoken
  rfl

theorem runTests_accounted (haccounted : run.Accounted progress)
    (htoken : progress.managedToken = none) : run.Accounted (run.runTests progress) := by
  have hlane := haccounted.lane
  have hheld : run.held progress = run.fixtureHeld progress ++ (run.serviceHeld progress ++
      [.stack run.topology]) := by simp [held, tokenHeld, htoken]
  unfold runTests
  split
  · exact haccounted
  next hskip =>
    have hfailure : progress.failure.isSome = false := by
      by_contra hfailure
      simp [hfailure] at hskip
    have hquiet := hlane.quiet hfailure
    dsimp only
    split
    next =>
      split
      next error _ =>
        exact ⟨hlane.fail error, haccounted.fixtureService, haccounted.standaloneToken⟩
      next token hissued =>
        rw [hheld] at hlane
        have hfresh : Resource.managedToken run.topology ∉ run.fixtureHeld progress ++
            (run.serviceHeld progress ++ [.stack run.topology]) := by
          unfold fixtureHeld serviceHeld
          split <;> split <;> simp
        -- A token from the catalog is a resource; one of a standalone stack is not.
        have hissuedLane : LaneAccounted
            ((if token.catalogId.isSome then [.managedToken run.topology] else []) ++
              (run.fixtureHeld progress ++ (run.serviceHeld progress ++ [.stack run.topology])))
            { progress.toLaneProgress with
              trace := progress.trace ++ if token.catalogId.isSome then
                [RunEvent.acquired (.managedToken run.topology)] else [] } := by
          split
          · exact hlane.acquire hfresh
          · simpa using hlane
        refine ⟨?_, haccounted.fixtureService, fun hstandalone => by
          simp [tokenHeld, run.issueToken_standalone hstandalone hissued]⟩
        dsimp only
        split
        next error _ => exact hissuedLane.fail error
        next => exact hissuedLane.awaitRun hquiet run.fires (.routedRun run.topology) run.target _
    next =>
      exact ⟨hlane.fail _, haccounted.fixtureService, haccounted.standaloneToken⟩

theorem revokeManagedToken_accounted (haccounted : run.Accounted progress) :
    LaneAccounted (run.fixtureHeld progress ++ (run.serviceHeld progress ++
      [.stack run.topology])) (run.revokeManagedToken progress).toLaneProgress := by
  have hlane := haccounted.lane
  have hnodup := run.held_nodup progress
  unfold revokeManagedToken
  split
  next catalogId htoken =>
    have hheld : run.tokenHeld progress = [.managedToken run.topology] := by
      simp [tokenHeld, htoken]
    rw [held, hheld] at hlane hnodup
    split
    next hstandalone => simp [haccounted.standaloneToken hstandalone] at hheld
    next => exact hlane.cleanUp hnodup run.env.revokeToken
  next htoken =>
    have hheld : run.tokenHeld progress = [] := by simp [tokenHeld, htoken]
    rwa [held, hheld] at hlane
  next htoken =>
    have hheld : run.tokenHeld progress = [] := by simp [tokenHeld, htoken]
    rwa [held, hheld] at hlane

theorem revokeManagedToken_fixture :
    (run.revokeManagedToken progress).fixture = progress.fixture ∧
      (run.revokeManagedToken progress).serviceStarted = progress.serviceStarted := by
  unfold revokeManagedToken
  split
  · split <;> exact ⟨rfl, rfl⟩
  · exact ⟨rfl, rfl⟩
  · exact ⟨rfl, rfl⟩

theorem cleanUpFixture_accounted
    (hlane : LaneAccounted (run.fixtureHeld progress ++ (run.serviceHeld progress ++
      [.stack run.topology])) progress.toLaneProgress)
    (hfixtureService : progress.fixture.isSome = true → progress.serviceStarted = true) :
    LaneAccounted [.stack run.topology] (run.cleanUpFixture progress).toLaneProgress := by
  unfold cleanUpFixture
  split
  next serverId hfixture =>
    have hservice := hfixtureService (by simp [hfixture])
    simp only [fixtureHeld, serviceHeld, hfixture, hservice, Option.isSome_some, if_true] at hlane
    have hlane : LaneAccounted ([.fixture run.topology, .service run.topology] ++
      [.stack run.topology]) progress.toLaneProgress := hlane
    exact hlane.cleanUp (by simp) _
  next hfixture =>
    simp only [fixtureHeld, serviceHeld, hfixture, Option.isSome_none, Bool.false_eq_true,
      if_false, List.nil_append] at hlane
    split
    next hservice =>
      rw [if_pos hservice] at hlane
      exact hlane.cleanUp (by simp) run.env.stopService
    next hservice =>
      rw [if_neg hservice] at hlane
      exact hlane

/-- A topology before its stack is finished. -/
theorem cleanUpFixture_complete_accounted (artifacts : EntryArtifacts) :
    LaneAccounted [.stack run.topology] (run.cleanUpFixture <| run.revokeManagedToken <|
      run.runTests <| run.provisionFixture <| run.startService <|
        run.prepareStack artifacts).toLaneProgress := by
  have hservice := run.startService_accounted (run.prepareStack_accounted artifacts) rfl rfl rfl
  have hprovision := run.provisionFixture_accounted hservice
    run.startService_fixture run.startService_managedToken run.startService_serviceStarted
  have htests := run.runTests_accounted hprovision
    (run.provisionFixture_managedToken.trans run.startService_managedToken)
  have hrevoked := run.revokeManagedToken_accounted htests
  refine run.cleanUpFixture_accounted ?_ ?_
  · unfold fixtureHeld serviceHeld at hrevoked ⊢
    rwa [run.revokeManagedToken_fixture.1, run.revokeManagedToken_fixture.2]
  · rw [run.revokeManagedToken_fixture.1, run.revokeManagedToken_fixture.2]
    exact htests.fixtureService

theorem finishStack_interrupted :
    (run.finishStack progress).interrupted = progress.interrupted := by
  unfold finishStack
  split <;> rfl

theorem retainsStack_finishStack :
    run.retainsStack (run.finishStack progress) = run.retainsStack progress := by
  rw [retainsStack, finishStack_interrupted, retainsStack]

theorem retainsStack_iff : run.retainsStack progress = true ↔
    run.topology = .dataplane ∧ run.stackStarted = true ∧ progress.interrupted = false ∧
      run.request.runsExternalClient = true := by
  simp [retainsStack, canReuseExternalStack, and_assoc]

/-- A topology that retains its stack ends with the hand-over. -/
theorem complete_retained {artifacts : EntryArtifacts}
    (hretains : run.retainsStack (run.complete artifacts) = true) :
    ∃ before : LaneProgress, LaneAccounted [.stack .dataplane] before ∧
      before.interrupted = false ∧ (run.complete artifacts).interrupted = false ∧
      (run.complete artifacts).trace = before.trace ++ [.externalStackRetained] := by
  have haccounted := run.cleanUpFixture_complete_accounted artifacts
  unfold complete at hretains ⊢
  rw [retainsStack_finishStack] at hretains
  obtain ⟨htopology, _, hquiet, _⟩ := run.retainsStack_iff.mp hretains
  rw [htopology] at haccounted
  refine ⟨_, haccounted, hquiet, run.finishStack_interrupted.trans hquiet, ?_⟩
  rw [finishStack, if_pos hretains]

/-- Every other topology holds nothing at its end. -/
theorem complete_accounted {artifacts : EntryArtifacts}
    (hretains : run.retainsStack (run.complete artifacts) = false) :
    LaneAccounted [] (run.complete artifacts).toLaneProgress := by
  have haccounted := run.cleanUpFixture_complete_accounted artifacts
  unfold complete at hretains ⊢
  rw [retainsStack_finishStack] at hretains
  rw [finishStack, if_neg (by simp [hretains])]
  exact LaneAccounted.cleanUp haccounted (by simp) run.env.cleanupStack

end TopologyRun

/-! ## The external client direction -/

/-- The client's own events: its stack last, and the publisher pause inside. -/
theorem ClientEnv.complete_trace (parseChecks : ChecksParser) (env : ClientEnv)
    (request : EntryRequest) (interrupted reuseStack : Bool) (artifacts : EntryArtifacts) :
    ∃ middle, (middle = [] ∨
        middle = [.acquired .publisherPause, .released .publisherPause]) ∧
      (env.complete parseChecks request interrupted reuseStack artifacts).trace =
        (if reuseStack then .externalStackReused else .acquired (.stack .dataplane)) ::
          (middle ++ [.released (.stack .dataplane)]) := by
  have hmiddle : ∃ middle, (middle = [] ∨
      middle = [.acquired .publisherPause, .released .publisherPause]) ∧
      (env.runWithPublisherPaused parseChecks request
        (env.prepareStack interrupted reuseStack artifacts)).trace =
        (if reuseStack then .externalStackReused else .acquired (.stack .dataplane)) :: middle := by
    unfold runWithPublisherPaused
    split
    · exact ⟨[], Or.inl rfl, rfl⟩
    · split
      · exact ⟨[], Or.inl rfl, rfl⟩
      · split
        · exact ⟨[], Or.inl rfl, rfl⟩
        · exact ⟨_, Or.inr rfl, rfl⟩
  obtain ⟨middle, hcases, htrace⟩ := hmiddle
  refine ⟨middle, hcases, ?_⟩
  rw [complete, LaneProgress.cleanUp, htrace]
  rfl

theorem publisherPause_transfers {middle : List RunEvent} (hmiddle : middle = [] ∨
    middle = [.acquired .publisherPause, .released .publisherPause]) :
    Transfers RunEvent.resourceUse (holding [.stack .dataplane])
      (middle ++ [.released (.stack .dataplane)]) (holding []) := by
  have hstack : RunEvent.resourceUse (.released (.stack .dataplane)) =
      some (.stack .dataplane, .release) := rfl
  have hacquire : RunEvent.resourceUse (.acquired .publisherPause) =
      some (.publisherPause, .acquire) := rfl
  have hrelease : RunEvent.resourceUse (.released .publisherPause) =
      some (.publisherPause, .release) := rfl
  have hfresh : Resource.publisherPause ∉ [Resource.stack .dataplane] := by simp
  refine Transfers.append ?_ (Transfers.release hstack List.not_mem_nil)
  obtain rfl | rfl := hmiddle
  · exact Transfers.nil _
  · exact (Transfers.acquire hacquire hfresh).append (Transfers.release hrelease hfresh)

/-! ## The entry -/

/-- The events of an entry so far. Releases of what an earlier run left come first. -/
structure EntryAccounted (held : List Resource) (trace : List RunEvent) (interrupted : Bool)
    (failures : List ConformanceOperationalFailure) : Prop where
  resources : ∀ resource, ∃ leftovers uses,
    usesOf RunEvent.resourceUse resource trace = List.replicate leftovers .release ++ uses ∧
      Alternating false uses (holding held resource)
  polls : PolledUntil interrupted (trace.filterMap RunEvent.poll)
  failed : interrupted = true → failures ≠ []
  events : ∀ event ∈ trace, event.duringLane = true

namespace EntryAccounted

variable {held : List Resource} {progress : EntryProgress}

theorem extend {held' : List Resource} {trace segment : List RunEvent}
    (hresources : ∀ resource, ∃ leftovers uses,
      usesOf RunEvent.resourceUse resource trace = List.replicate leftovers .release ++ uses ∧
        Alternating false uses (holding held resource))
    (hsegment : Transfers RunEvent.resourceUse (holding held) segment (holding held')) :
    ∀ resource, ∃ leftovers uses,
      usesOf RunEvent.resourceUse resource (trace ++ segment) =
        List.replicate leftovers .release ++ uses ∧
        Alternating false uses (holding held' resource) := by
  intro resource
  obtain ⟨leftovers, uses, huses, halternating⟩ := hresources resource
  refine ⟨leftovers, uses ++ usesOf RunEvent.resourceUse resource segment, ?_,
    halternating.append (hsegment resource)⟩
  rw [usesOf_append, huses, List.append_assoc]

theorem absorb (haccounted : EntryAccounted [] progress.trace progress.interrupted
      progress.failures) (hquiet : progress.interrupted = false) {lane : LaneProgress}
    (hlane : LaneAccounted held lane) (report : AppFailure → ConformanceOperationalFailure) :
    EntryAccounted held (progress.absorb report lane).trace lane.interrupted
      (progress.absorb report lane).failures where
  resources := extend haccounted.resources hlane.resources
  polls := by
    have hpolls := haccounted.polls
    rw [hquiet] at hpolls
    simpa [EntryProgress.absorb] using hpolls.append hlane.polls
  failed hinterrupted := by
    obtain ⟨failure, hfailure⟩ := Option.isSome_iff_exists.mp (hlane.failed hinterrupted)
    simp [EntryProgress.absorb, hfailure]
  events := List.forall_mem_append.mpr ⟨haccounted.events, hlane.events⟩

end EntryAccounted

section Entry

variable (parseChecks : ChecksParser) (env : EntryEnv) (request : EntryRequest)

theorem directPhase_accounted (artifacts : EntryArtifacts) :
    EntryAccounted [] (directPhase parseChecks env request artifacts).trace
      (directPhase parseChecks env request artifacts).interrupted
      (directPhase parseChecks env request artifacts).failures := by
  have hcleared : EntryAccounted [] [.released .directFixture] false
      ((err env.directPreCleanup).toList.map fun error =>
        .server (some .fixtureDirect) "cleanup"
          s!"fixture-direct pre-run cleanup: {error.display}") := by
    refine ⟨fun resource => ?_, PolledUntil.nil, by simp, by simp [RunEvent.duringLane]⟩
    by_cases hresource : resource = .directFixture
    · subst hresource
      exact ⟨1, [], rfl, Alternating.nil _⟩
    · refine ⟨0, [], ?_, Alternating.nil _⟩
      simp [useOf, RunEvent.resourceUse, Ne.symm hresource]
  exact EntryAccounted.absorb hcleared rfl (directLane_accounted parseChecks env request artifacts)
    _

theorem runDirectFixture_trace (lane : LaneProgress) :
    ∃ polled, (∀ event ∈ polled, RunEvent.resourceUse event = none) ∧
      (runDirectFixture parseChecks env request lane).trace = lane.trace ++ polled := by
  unfold runDirectFixture
  split
  · exact ⟨[], by simp, (List.append_nil _).symm⟩
  · split
    · exact ⟨[], by simp, (List.append_nil _).symm⟩
    · exact ⟨_, by simp [RunEvent.resourceUse], rfl⟩

/-- The direct fixture's phase does not touch the stacks. -/
theorem directPhase_stack (artifacts : EntryArtifacts) (topology : StackMode) :
    usesOf RunEvent.resourceUse (.stack topology)
      (directPhase parseChecks env request artifacts).trace = [] := by
  obtain ⟨polled, hpolled, htrace⟩ := runDirectFixture_trace parseChecks env request
    (startDirectFixture env ⟨none, false, artifacts, []⟩)
  have hnone : usesOf RunEvent.resourceUse (.stack topology) polled = [] :=
    List.filterMap_eq_nil_iff.mpr fun event hevent => by simp [useOf, hpolled event hevent]
  simp only [directPhase, EntryProgress.absorb, directLane, LaneProgress.cleanUp, htrace,
    usesOf_append, hnone]
  simp [startDirectFixture, LaneProgress.select, useOf, RunEvent.resourceUse]

theorem routedCleanupPhase_externalStackRetained (progress : EntryProgress) :
    (routedCleanupPhase env request progress).externalStackRetained =
      progress.externalStackRetained := by
  unfold routedCleanupPhase
  split <;> rfl

theorem routedCleanupPhase_accounted {progress : EntryProgress}
    (haccounted : EntryAccounted [] progress.trace progress.interrupted progress.failures)
    (hstack : ∀ topology, usesOf RunEvent.resourceUse (.stack topology) progress.trace = []) :
    EntryAccounted [] (routedCleanupPhase env request progress).trace
      (routedCleanupPhase env request progress).interrupted
      (routedCleanupPhase env request progress).failures := by
  unfold routedCleanupPhase
  split
  · exact haccounted
  · dsimp only
    refine ⟨fun resource => ?_, ?_, ?_, ?_⟩
    · cases resource with
      | stack topology =>
          rw [usesOf_append, hstack]
          split
          · cases topology with
            | controlplane =>
                exact ⟨0, [], by simp [useOf, RunEvent.resourceUse], Alternating.nil _⟩
            | dataplane => exact ⟨1, [], by simp [useOf, RunEvent.resourceUse], Alternating.nil _⟩
          · cases topology <;>
              exact ⟨1, [], by simp [useOf, RunEvent.resourceUse], Alternating.nil _⟩
      | directFixture | service | fixture | managedToken | publisherPause =>
          obtain ⟨leftovers, uses, huses, halternating⟩ := haccounted.resources _
          refine ⟨leftovers, uses, ?_, halternating⟩
          rw [usesOf_append, huses]
          split <;> simp [useOf, RunEvent.resourceUse]
    · have hpolls := haccounted.polls
      split <;> simpa [List.filterMap_cons, RunEvent.poll] using hpolls
    · intro hinterrupted
      simp [haccounted.failed hinterrupted]
    · refine List.forall_mem_append.mpr ⟨haccounted.events, ?_⟩
      split <;> simp [RunEvent.duringLane]

/-- After the topologies: either nothing is held, or the running external stack
was just handed over to the client direction. -/
inductive AfterTopologies (progress : EntryProgress) : Prop where
  | released (haccounted : EntryAccounted [] progress.trace progress.interrupted progress.failures)
      (hretained : progress.externalStackRetained = false)
  | retained (before : List RunEvent) (failures : List ConformanceOperationalFailure)
      (haccounted : EntryAccounted [.stack .dataplane] before false failures)
      (htrace : progress.trace = before ++ [.externalStackRetained])
      (hquiet : progress.interrupted = false)
      (hretained : progress.externalStackRetained = true)
      (hclient : request.runsExternalClient = true)

theorem topologyPhase_controlplane {progress : EntryProgress}
    (haccounted : EntryAccounted [] progress.trace progress.interrupted progress.failures)
    (hretained : progress.externalStackRetained = false) :
    EntryAccounted [] (topologyPhase parseChecks env request progress .controlplane).trace
        (topologyPhase parseChecks env request progress .controlplane).interrupted
        (topologyPhase parseChecks env request progress .controlplane).failures ∧
      (topologyPhase parseChecks env request progress .controlplane).externalStackRetained =
        false := by
  unfold topologyPhase
  split
  · exact ⟨haccounted, hretained⟩
  next hquiet =>
    have hretains : ∀ done,
        (topologyRun parseChecks env request .controlplane).retainsStack done = false :=
      fun done => rfl
    refine ⟨EntryAccounted.absorb haccounted (by simpa using hquiet)
      (TopologyRun.complete_accounted _ (hretains _)) _, ?_⟩
    simp [hretained, hretains]

theorem topologyPhase_dataplane {progress : EntryProgress}
    (haccounted : EntryAccounted [] progress.trace progress.interrupted progress.failures)
    (hretained : progress.externalStackRetained = false) :
    AfterTopologies request (topologyPhase parseChecks env request progress .dataplane) := by
  unfold topologyPhase
  split
  · exact .released haccounted hretained
  next hquiet =>
    have hquiet : progress.interrupted = false := by simpa using hquiet
    dsimp only
    generalize hrun : topologyRun parseChecks env request .dataplane = run
    cases hretains : run.retainsStack (run.complete progress.artifacts) with
    | false =>
        refine .released ?_ (by simp [hretained])
        exact EntryAccounted.absorb haccounted hquiet (run.complete_accounted hretains) _
    | true =>
        obtain ⟨before, hbefore, hbeforeQuiet, hdoneQuiet, htrace⟩ :=
          run.complete_retained hretains
        have hclient := (run.retainsStack_iff.mp hretains).2.2.2
        subst hrun
        have hextended := haccounted.absorb hquiet hbefore fun _ => .server none "run" ""
        rw [hbeforeQuiet] at hextended
        refine .retained (progress.trace ++ before.trace) _ hextended ?_ hdoneQuiet (by simp)
          hclient
        simp [EntryProgress.absorb, htrace]

/-- A finished entry: nothing is held, and a retained stack went to the client. -/
structure EntrySettled (trace : List RunEvent) (interrupted : Bool)
    (failures : List ConformanceOperationalFailure) : Prop where
  resources : ∀ resource, ∃ leftovers uses,
    usesOf RunEvent.resourceUse resource trace = List.replicate leftovers .release ++ uses ∧
      Alternating false uses false
  polls : PolledUntil interrupted (trace.filterMap RunEvent.poll)
  failed : interrupted = true → failures ≠ []
  handedOver : ∀ before after, trace = before ++ .externalStackRetained :: after →
    ∃ interruptFirst rest,
      after = .selected .clientRun interruptFirst :: .externalStackReused :: rest ∧
        .released (.stack .dataplane) ∈ rest
  events : ∀ event ∈ trace, event.duringLane = true ∨ event = .externalStackRetained

theorem EntryAccounted.settled {trace : List RunEvent} {interrupted : Bool}
    {failures : List ConformanceOperationalFailure}
    (haccounted : EntryAccounted [] trace interrupted failures) :
    EntrySettled trace interrupted failures where
  resources := haccounted.resources
  polls := haccounted.polls
  failed := haccounted.failed
  handedOver before after htrace := by
    refine absurd ?_ (externalStackRetained_notMem haccounted.events)
    rw [htrace]
    exact List.mem_append_right _ List.mem_cons_self
  events event hevent := Or.inl (haccounted.events event hevent)

theorem middle_neutral {middle : List RunEvent} (hmiddle : middle = [] ∨
    middle = [.acquired .publisherPause, .released .publisherPause]) :
    middle.filterMap RunEvent.poll = [] ∧ ∀ event ∈ middle, event.duringLane = true := by
  obtain rfl | rfl := hmiddle <;> simp [List.filterMap_cons, RunEvent.poll, RunEvent.duringLane]

/-- The client's failure list is never empty after an interrupt. -/
theorem clientPhase_failed {progress : EntryProgress} (hquiet : progress.interrupted = false) :
    (clientPhase parseChecks env request progress).interrupted = true →
      (clientPhase parseChecks env request progress).failures ≠ [] := by
  unfold clientPhase
  split
  · simp [hquiet]
  · intro hinterrupted
    have hfires : env.fires .clientRun = true := hinterrupted
    simp [hfires]

theorem clientPhase_settled {progress : EntryProgress}
    (hafter : AfterTopologies request progress) :
    EntrySettled (clientPhase parseChecks env request progress).trace
      (clientPhase parseChecks env request progress).interrupted
      (clientPhase parseChecks env request progress).failures := by
  by_cases hskip : (progress.interrupted || !request.runsExternalClient) = true
  · have hphase : clientPhase parseChecks env request progress = progress := if_pos hskip
    rw [hphase]
    cases hafter with
    | released haccounted => exact haccounted.settled
    | retained _ _ _ _ hquiet _ hclient => simp [hquiet, hclient] at hskip
  have hquiet : progress.interrupted = false := by
    simp only [Bool.or_eq_true, not_or, Bool.not_eq_true] at hskip
    exact hskip.1
  have hfailed := clientPhase_failed parseChecks env request hquiet
  obtain ⟨middle, hmiddle, htrace⟩ := env.client.complete_trace parseChecks request
    (env.fires .clientRun) progress.externalStackRetained progress.artifacts
  obtain ⟨hmiddlePolls, hmiddleEvents⟩ := middle_neutral hmiddle
  -- The phase takes the stack over or starts one, pauses the publisher, and releases the stack.
  have hphaseTrace : (clientPhase parseChecks env request progress).trace = progress.trace ++
      .selected .clientRun (env.fires .clientRun) ::
        (if progress.externalStackRetained then .externalStackReused
          else .acquired (.stack .dataplane)) :: (middle ++ [.released (.stack .dataplane)]) := by
    rw [← htrace, clientPhase, if_neg hskip]
  have hphaseInterrupted : (clientPhase parseChecks env request progress).interrupted =
      env.fires .clientRun := by rw [clientPhase, if_neg hskip]
  have hpause := publisherPause_transfers hmiddle
  have hselected : RunEvent.resourceUse (.selected .clientRun (env.fires .clientRun)) = none := rfl
  rw [hphaseInterrupted] at hfailed ⊢
  rw [hphaseTrace]
  cases hafter with
  | released haccounted hretained =>
      -- The dataplane phase has released its stack, so the client phase starts its own.
      rw [hretained, if_neg Bool.false_ne_true]
      refine EntryAccounted.settled ⟨EntryAccounted.extend haccounted.resources ?_, ?_, hfailed, ?_⟩
      · have hstack : RunEvent.resourceUse (.acquired (.stack .dataplane)) =
            some (.stack .dataplane, .acquire) := rfl
        exact (Transfers.neutral hselected).append
          ((Transfers.acquire hstack List.not_mem_nil).append hpause)
      · have hpolls := haccounted.polls
        rw [hquiet] at hpolls
        simpa [List.filterMap_cons, RunEvent.poll, hmiddlePolls] using
          hpolls.poll (env.fires .clientRun)
      · refine List.forall_mem_append.mpr ⟨haccounted.events, ?_⟩
        simpa [or_imp, forall_and, RunEvent.duringLane] using hmiddleEvents
  | retained before failures haccounted hbefore _ hretained _ =>
      rw [hretained, if_pos rfl, hbefore, List.append_assoc]
      have hkept : RunEvent.resourceUse .externalStackRetained = none := rfl
      have hreused : RunEvent.resourceUse .externalStackReused = none := rfl
      -- The retained stack is held until the client phase releases it.
      have hsegment := (Transfers.neutral hkept).append ((Transfers.neutral hselected).append
        ((Transfers.neutral hreused).append hpause))
      have hclientEvents : ∀ event ∈ RunEvent.selected .clientRun (env.fires .clientRun) ::
          .externalStackReused :: (middle ++ [.released (.stack .dataplane)]),
          event.duringLane = true := by
        simpa [or_imp, forall_and, RunEvent.duringLane] using hmiddleEvents
      refine ⟨EntryAccounted.extend haccounted.resources hsegment, ?_, hfailed, ?_, ?_⟩
      · simpa [List.filterMap_cons, RunEvent.poll, hmiddlePolls] using
          haccounted.polls.poll (env.fires .clientRun)
      · intro first rest hsplit
        rw [List.singleton_append] at hsplit
        obtain ⟨_, _, rfl⟩ :=
          (List.append_cons_inj_of_notMem (externalStackRetained_notMem haccounted.events)
            (externalStackRetained_notMem hclientEvents)).mp hsplit
        exact ⟨_, _, rfl, by simp⟩
      · rw [List.forall_mem_append, List.forall_mem_append]
        exact ⟨fun event hevent => Or.inl (haccounted.events event hevent), by simp,
          fun event hevent => Or.inl (hclientEvents event hevent)⟩

theorem conformanceTopologies_cases (lanes : List SemanticLane) :
    conformanceTopologies lanes = [] ∨ conformanceTopologies lanes = [.controlplane] ∨
      conformanceTopologies lanes = [.dataplane] ∨
      conformanceTopologies lanes = [.controlplane, .dataplane] := by
  unfold conformanceTopologies
  split <;> split <;> simp

theorem topologies_after {progress : EntryProgress}
    (haccounted : EntryAccounted [] progress.trace progress.interrupted progress.failures)
    (hretained : progress.externalStackRetained = false) :
    AfterTopologies request ((conformanceTopologies request.lanes).foldl
      (topologyPhase parseChecks env request) progress) := by
  obtain ⟨hcontrolplane, hcontrolplaneRetained⟩ :=
    topologyPhase_controlplane parseChecks env request haccounted hretained
  obtain hnone | hbuiltIn | hexternal | hboth := conformanceTopologies_cases request.lanes
  · rw [hnone]
    exact .released haccounted hretained
  · rw [hbuiltIn]
    exact .released hcontrolplane hcontrolplaneRetained
  · rw [hexternal]
    exact topologyPhase_dataplane parseChecks env request haccounted hretained
  · rw [hboth]
    exact topologyPhase_dataplane parseChecks env request hcontrolplane hcontrolplaneRetained

theorem comparisonPhase_settled {progress : EntryProgress}
    (hsettled : EntrySettled progress.trace progress.interrupted progress.failures) :
    EntrySettled (comparisonPhase parseChecks env request progress).trace
      (comparisonPhase parseChecks env request progress).interrupted
      (comparisonPhase parseChecks env request progress).failures := by
  unfold comparisonPhase
  split
  next hquiet =>
    refine ⟨hsettled.resources, hsettled.polls, ?_, hsettled.handedOver, hsettled.events⟩
    simp [hquiet.2.1]
  · exact hsettled

theorem runPhases_settled (artifacts : EntryArtifacts) :
    EntrySettled (runPhases parseChecks env request artifacts).trace
      (runPhases parseChecks env request artifacts).interrupted
      (runPhases parseChecks env request artifacts).failures := by
  have hdirect := directPhase_accounted parseChecks env request artifacts
  have hcleared := routedCleanupPhase_accounted env request hdirect
    (directPhase_stack parseChecks env request artifacts)
  have hretained : (routedCleanupPhase env request
      (directPhase parseChecks env request artifacts)).externalStackRetained = false :=
    routedCleanupPhase_externalStackRetained env request _
  exact comparisonPhase_settled parseChecks env request
    (clientPhase_settled parseChecks env request
      (topologies_after parseChecks env request hcleared hretained))

/-- An entry that never reached its phases did nothing; otherwise its trace is the phases'. -/
theorem runConformanceWithInterrupt_cases (artifacts : EntryArtifacts) :
    (∃ failure, (runConformanceWithInterrupt parseChecks env request artifacts).result =
        .error failure ∧
      (runConformanceWithInterrupt parseChecks env request artifacts).trace = []) ∨
    ∃ cleared, clearConformance env artifacts [(.server, .fixtureDirect),
        (.server, .builtInDataPlane), (.server, .externalDataPlane),
        (.client, .externalDataPlane)] = (.ok (), cleared) ∧
      validateEntry request = .ok () ∧
      runConformanceWithInterrupt parseChecks env request artifacts =
        ⟨(if (runPhases parseChecks env request cleared).failures = [] then .ok ()
            else env.appendLog).map fun _ => (runPhases parseChecks env request cleared).failures,
          (runPhases parseChecks env request cleared).artifacts,
          (runPhases parseChecks env request cleared).trace⟩ := by
  unfold runConformanceWithInterrupt
  split
  next failure _ => exact Or.inl ⟨failure, rfl, rfl⟩
  next hvalid =>
    split
    next failure _ _ => exact Or.inl ⟨failure, rfl, rfl⟩
    next cleared hcleared =>
      split
      next failure _ => exact Or.inl ⟨failure, rfl, rfl⟩
      next => exact Or.inr ⟨cleared, hcleared, hvalid, rfl⟩

/-- One entry releases what it acquired exactly once, gives a retained stack to
the client direction, which removes it, reports an observed interrupt as a
failure, and never polls the interrupt again after it completed. -/
theorem runConformanceWithInterrupt_releases (artifacts : EntryArtifacts) :
    ReleasedOnce RunEvent.resourceUse
      (runConformanceWithInterrupt parseChecks env request artifacts).trace ∧
    (∀ before after, (runConformanceWithInterrupt parseChecks env request artifacts).trace =
        before ++ .externalStackRetained :: after →
      ∃ interruptFirst rest,
        after = .selected .clientRun interruptFirst :: .externalStackReused :: rest ∧
          .released (.stack .dataplane) ∈ rest) ∧
    (∀ point, .selected point true ∈
        (runConformanceWithInterrupt parseChecks env request artifacts).trace →
      ∀ failures, (runConformanceWithInterrupt parseChecks env request artifacts).result =
        .ok failures → failures ≠ []) ∧
    ∀ before point after, (runConformanceWithInterrupt parseChecks env request artifacts).trace =
        before ++ .selected point true :: after → ∀ event ∈ after, event.poll = none := by
  obtain ⟨failure, hresult, htrace⟩ | ⟨cleared, _, _, houtcome⟩ :=
    runConformanceWithInterrupt_cases parseChecks env request artifacts
  · rw [hresult, htrace]
    refine ⟨?_, ?_, by simp, ?_⟩
    · intro resource before event after hsplit
      simp at hsplit
    · intro before after hsplit
      simp at hsplit
    · intro before point after hsplit
      simp at hsplit
  · have hsettled := runPhases_settled parseChecks env request cleared
    rw [houtcome]
    refine ⟨ReleasedOnce.of_transfers hsettled.resources, hsettled.handedOver, ?_, ?_⟩
    · intro point hpoint failures hresult
      -- A select that fired is a poll that was ready, and only the last poll can be.
      have hready : true ∈ (runPhases parseChecks env request cleared).trace.filterMap
          RunEvent.poll := List.mem_filterMap.mpr ⟨_, hpoint, rfl⟩
      have hfailures := hsettled.failed (hsettled.polls.mem_true.mp hready)
      obtain ⟨_, _, rfl⟩ := except_map_eq_ok.mp hresult
      exact hfailures
    · intro before point after hsplit event hevent
      have hpolls := hsettled.polls
      have hsplit : (runPhases parseChecks env request cleared).trace =
          before ++ .selected point true :: after := hsplit
      rw [hsplit, List.filterMap_append, List.filterMap_cons_some (show RunEvent.poll
        (.selected point true) = some true from rfl)] at hpolls
      exact List.filterMap_eq_nil_iff.mp hpolls.eq_nil_of_ready event hevent

end Entry

end CfIntegration.Runtime
