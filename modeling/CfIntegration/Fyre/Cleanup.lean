import CfIntegration.Fyre.Lifecycle
import CfIntegration.Fyre.MatrixRecords

/-! # No machine is left without a record

While machines may exist, `run.json` asks for a cleanup. A run stays in that
condition from its first write of the state to its destroy, whatever fails in
between.
-/

namespace CfIntegration.Fyre

open CfIntegration.Runtime

/-- An apply was started and no destroy has succeeded since. -/
def ApplyPending (events : List FyreEvent) : Prop :=
  ∃ before set after, events = before ++ .applyStarted set :: after ∧
    FyreEvent.destroySucceeded ∉ after

/-- The state asks for a cleanup. -/
structure Covered (state : RunState) : Prop where
  cleanupRequired : state.cleanupRequired = true
  complete : state.phase ≠ .complete
  destroyed : state.phase ≠ .destroyed

/-- The record in `run.json` is true to what may still exist. -/
structure NoSilentLeak (world : FyreWorld) : Prop where
  pending : ApplyPending world.events → ∃ state, world.saved = some state ∧ Covered state
  complete : ∀ state, world.saved = some state → state.phase = .complete →
    [.matrixCompleted, .reportSucceeded, .destroySucceeded].Sublist world.events

/-- What holds between two calls. -/
structure Accountable (world : FyreWorld) : Prop where
  leak : NoSilentLeak world
  written : (∃ set, FyreEvent.applyStarted set ∈ world.events) → world.variablesWritten = true
  absent : world.rootExists = false → world.events = [] ∧ world.saved = none

/-- A run between its first write of the state and its destroy. -/
structure Live (world : FyreWorld) : Prop where
  memory : Covered world.state
  saved : ∃ state, world.saved = some state ∧ Covered state
  written : (∃ set, FyreEvent.applyStarted set ∈ world.events) → world.variablesWritten = true
  root : world.rootExists = true

theorem not_applyPending_nil : ¬ ApplyPending [] := by
  rintro ⟨before, set, after, heq, -⟩
  simp at heq

/-- A destroy that succeeds leaves no apply to clean up. -/
theorem not_applyPending_destroy (events : List FyreEvent) :
    ¬ ApplyPending (events ++ [.destroySucceeded]) := by
  rintro ⟨before, set, after, heq, hafter⟩
  rcases List.eq_nil_or_concat after with rfl | ⟨init, last, rfl⟩
  · obtain ⟨-, hlast⟩ := List.append_inj' heq rfl
    simp at hlast
  · rw [List.concat_eq_append, ← List.cons_append, ← List.append_assoc] at heq
    obtain ⟨-, hlast⟩ := List.append_inj' heq rfl
    exact hafter (by simpa using .inr (List.singleton_inj.mp hlast))

/-- A pending apply was started. -/
theorem ApplyPending.started {events : List FyreEvent} (hpending : ApplyPending events) :
    ∃ set, FyreEvent.applyStarted set ∈ events := by
  obtain ⟨before, set, after, rfl, -⟩ := hpending
  exact ⟨set, by simp⟩

/-- A live run accounts for its hardware in its state. -/
theorem Live.accountable {world : FyreWorld} (hlive : Live world) : Accountable world where
  leak := by
    obtain ⟨state, hsaved, hcovered⟩ := hlive.saved
    refine ⟨fun _ => ⟨state, hsaved, hcovered⟩, fun other hother hphase => ?_⟩
    obtain rfl : state = other := Option.some.inj (hsaved.symm.trans hother)
    exact absurd hphase hcovered.complete
  written := hlive.written
  absent hroot := by
    rw [hlive.root] at hroot
    cases hroot

/-- Once a destroy succeeded, only a complete run needs a reason. -/
theorem accountable_of_not_pending {world : FyreWorld} (hpending : ¬ ApplyPending world.events)
    (hvariables : (∃ set, FyreEvent.applyStarted set ∈ world.events) →
      world.variablesWritten = true)
    (hroot : world.rootExists = true)
    (hcomplete : ∀ state, world.saved = some state → state.phase = .complete →
      [.matrixCompleted, .reportSucceeded, .destroySucceeded].Sublist world.events) :
    Accountable world where
  leak := ⟨fun hevents => absurd hevents hpending, hcomplete⟩
  written := hvariables
  absent hfalse := by
    rw [hroot] at hfalse
    cases hfalse

/-! ## Steps of a live run -/

/-- A live run in which some events happened in this order. -/
structure Reached (milestones : List FyreEvent) (world : FyreWorld) : Prop where
  live : Live world
  events : milestones.Sublist world.events

section Steps

variable {milestones : List FyreEvent} {α β : Type}

/-- A change of the state that keeps it covering keeps the milestones. -/
theorem updateState_keeps {change : RunState → RunState}
    (hchange : ∀ state, Covered state → Covered (change state)) :
    Action.Keeps (Reached milestones) (updateState change) := fun _ hworld =>
  ⟨⟨hchange _ hworld.live.memory, hworld.live.saved, hworld.live.written, hworld.live.root⟩,
    hworld.events⟩

/-- A change outside the state, the events and what was written about them. -/
theorem records_keeps {change : FyreWorld → FyreWorld}
    (hsame : ∀ world, (change world).state = world.state ∧ (change world).saved = world.saved ∧
      (change world).variablesWritten = world.variablesWritten ∧
      (change world).rootExists = world.rootExists ∧ (change world).events = world.events) :
    Action.Keeps (Reached milestones) (update change) := by
  intro world hworld
  obtain ⟨hstate, hsaved, hvariables, hroot, hevents⟩ := hsame world
  refine ⟨⟨?_, ?_, ?_, ?_⟩, ?_⟩
  · exact hstate ▸ hworld.live.memory
  · exact hsaved ▸ hworld.live.saved
  · exact hvariables ▸ hevents ▸ hworld.live.written
  · exact hroot ▸ hworld.live.root
  · exact hevents ▸ hworld.events

/-- Further events keep the order of those before. -/
theorem Reached.emit {world : FyreWorld} (hworld : Reached milestones world) {event : FyreEvent}
    (hvariables : (∃ set, event = .applyStarted set) → world.variablesWritten = true) :
    Reached (milestones ++ [event]) { world with events := world.events ++ [event] } where
  live := by
    refine ⟨hworld.live.memory, hworld.live.saved, ?_, hworld.live.root⟩
    rintro ⟨set, hmem⟩
    rcases List.mem_append.mp hmem with hold | hnew
    · exact hworld.live.written ⟨set, hold⟩
    · exact hvariables ⟨set, (List.mem_singleton.mp hnew).symm⟩
  events := hworld.events.append (List.Sublist.refl _)

/-- Fewer milestones are reached by every world that reached more. -/
theorem Reached.weaken {world : FyreWorld} {event : FyreEvent}
    (hworld : Reached (milestones ++ [event]) world) : Reached milestones world :=
  ⟨hworld.live, (List.sublist_append_left _ _).trans hworld.events⟩

theorem nextStep_keeps : Action.Keeps (Reached milestones) nextStep := fun _ hworld =>
  ⟨⟨hworld.live.memory, hworld.live.saved, hworld.live.written, hworld.live.root⟩, hworld.events⟩

theorem readWorld_keeps : Action.Keeps (Reached milestones) readWorld := fun _ hworld => hworld

theorem failWith_keeps (message : String) :
    Action.Keeps (Reached milestones) (failWith message : FyreAction α) := Action.keeps_fail _

theorem settle_keeps {action : FyreAction α} (haction : Action.Keeps (Reached milestones) action) :
    Action.Keeps (Reached milestones) (settle action) := fun world hworld =>
  ensures_settle.mpr (haction world hworld)

theorem ofNative_keeps (result : Except String α) :
    Action.Keeps (Reached milestones) (ofNative result) :=
  (Action.keeps_ofExcept _).mapError _

variable (env : FyreEnv)

theorem fileStep_keeps : Action.Keeps (Reached milestones) (fileStep env) := by
  refine nextStep_keeps.bind fun step => ?_
  split
  · exact Action.keeps_pure _
  · exact failWith_keeps _

/-- A write that fails leaves the earlier state in place. -/
theorem writeState_keeps : Action.Keeps (Reached milestones) (writeState env) := by
  refine nextStep_keeps.bind fun step => ?_
  split
  · exact fun _ hworld => ⟨⟨hworld.live.memory, ⟨_, rfl, hworld.live.memory⟩,
      hworld.live.written, hworld.live.root⟩, hworld.events⟩
  · exact failWith_keeps _

theorem runCancellable_keeps : Action.Keeps (Reached milestones) (runCancellable env) := by
  refine nextStep_keeps.bind fun step => ?_
  split
  · exact Action.keeps_pure _
  · exact Action.keeps_fail _

theorem awaitCancellable_keeps : Action.Keeps (Reached milestones) (awaitCancellable env) := by
  refine nextStep_keeps.bind fun step => ?_
  split
  · exact Action.keeps_fail _
  · split
    · exact Action.keeps_pure _
    · exact Action.keeps_fail _

theorem writeVariables_ensures {world : FyreWorld} (hworld : Reached milestones world) :
    (writeVariables env).Ensures world fun result state => Reached milestones state ∧
      (result = .ok () → state.variablesWritten = true) := by
  refine (fileStep_keeps env world hworld).bind (fun _ state hstate => ⟨?_, fun _ => rfl⟩)
    fun _ _ hstate => ⟨hstate, nofun⟩
  exact ⟨⟨hstate.live.memory, hstate.live.saved, fun _ => rfl, hstate.live.root⟩, hstate.events⟩

/-- The helpers are written to the state before hardware is asked for. -/
theorem activateHelpers_keeps (config : FyreConfig) :
    Action.Keeps (Reached milestones) (activateHelpers env config) := by
  have hhelper : ∀ index, Action.Keeps (Reached milestones) (helperAt config index) := by
    intro index
    unfold helperAt
    split
    · exact Action.keeps_pure _
    · exact Action.keeps_fail _
  refine readWorld_keeps.bind fun world => (hhelper _).bind fun locust => (hhelper _).bind
    fun fastTime => Action.Keeps.bind (records_keeps ?_) fun _ => (fileStep_keeps env).bind
      fun _ => Action.keeps_pure _
  exact fun _ => ⟨rfl, rfl, rfl, rfl, rfl⟩

/-- An apply starts only after its variables were written. -/
theorem applyVariables_ensures {set : Option VmSet} {next : FyreAction α}
    (hnext : Action.Keeps (Reached (milestones ++ [.applyStarted set])) next) {world : FyreWorld}
    (hworld : Reached milestones world) :
    Action.Ensures (do
      writeVariables env
      emitEvent (.applyStarted set)
      next) world fun result state => Reached milestones state ∧
        ∀ value, result = .ok value → Reached (milestones ++ [.applyStarted set]) state := by
  refine (writeVariables_ensures env hworld).bind ?_ fun _ _ hfailed => ⟨hfailed.1, nofun⟩
  rintro _ written ⟨hwritten, hvariables⟩
  refine update_then ((hnext _ (hwritten.emit fun _ => hvariables rfl)).mono
    fun _ state hstate => ?_)
  exact ⟨hstate.weaken, fun _ _ => hstate⟩

theorem provisionScenario_keeps (scenario : Scenario) (helpers : ActiveHelper) :
    Action.Keeps (Reached milestones) (provisionScenario env scenario helpers) := by
  refine Action.Keeps.bind (updateState_keeps ?_) fun _ => (writeState_keeps env).bind fun _ => ?_
  · exact fun _ hcovered => ⟨hcovered.cleanupRequired, nofun, nofun⟩
  · exact fun world hworld => (applyVariables_ensures env (awaitCancellable_keeps env) hworld).mono
      fun _ _ hafter => hafter.1

theorem prepareResults_keeps (scenario : Scenario) :
    Action.Keeps (Reached milestones) (prepareResults env scenario) := by
  have hrest : Action.Keeps (Reached milestones) (do
      fileStep env
      fileStep env
      updateState fun state => { state with phase := .benchmarking }
      writeState env) := by
    refine (fileStep_keeps env).bind fun _ => (fileStep_keeps env).bind fun _ =>
      Action.Keeps.bind (updateState_keeps ?_) fun _ => writeState_keeps env
    exact fun _ hcovered => ⟨hcovered.cleanupRequired, nofun, nofun⟩
  refine (fileStep_keeps env).bind fun _ => readWorld_keeps.bind fun world => ?_
  split
  · refine (fileStep_keeps env).bind fun _ => Action.Keeps.bind (records_keeps ?_) fun _ => hrest
    exact fun _ => ⟨rfl, rfl, rfl, rfl, rfl⟩
  · exact hrest

theorem beginMeasurement_keeps (scenario : Scenario) (helpers : ActiveHelper) :
    Action.Keeps (Reached milestones) (beginMeasurement scenario helpers) := by
  intro world hworld
  have hemit : ∀ measurement, Reached (milestones ++ [.measured measurement])
      { world with events := world.events ++ [.measured measurement] } :=
    fun _ => hworld.emit (by simp)
  exact ⟨⟨hworld.live.memory, hworld.live.saved, (hemit _).live.written, hworld.live.root⟩,
    (hemit _).weaken.events⟩

theorem emitEvent_keeps {event : FyreEvent} (hevent : ∀ set, event ≠ .applyStarted set) :
    Action.Keeps (Reached milestones) (emitEvent event) := fun _ hworld =>
  (hworld.emit fun hset => absurd hset.choose_spec (hevent _)).weaken

theorem archiveResults_keeps (archive : String) (scenarios : List Scenario) :
    Action.Keeps (Reached milestones) (archiveResults env archive scenarios) := by
  induction scenarios with
  | nil => exact Action.keeps_pure _
  | cons scenario rest ih =>
      refine readWorld_keeps.bind fun world => ?_
      split
      · refine (fileStep_keeps env).bind fun _ => Action.Keeps.bind (records_keeps ?_) fun _ => ih
        exact fun _ => ⟨rfl, rfl, rfl, rfl, rfl⟩
      · exact ih

theorem requestedRole_keeps : Action.Keeps (Reached milestones) (requestedRole env) := by
  refine nextStep_keeps.bind fun step => ?_
  split
  · exact failWith_keeps _
  · exact failWith_keeps _
  · exact failWith_keeps _
  · split
    · exact failWith_keeps _
    · exact Action.keeps_pure _

theorem growHelper_keeps (config : FyreConfig) (scenario : Scenario) :
    Action.Keeps (Reached milestones) (growHelper env config scenario) := by
  refine (requestedRole_keeps env).bind fun role => Action.Keeps.bind (updateState_keeps ?_)
    fun _ => readWorld_keeps.bind fun world => ?_
  · intro state hcovered
    cases role <;> exact ⟨hcovered.cleanupRequired, hcovered.complete, hcovered.destroyed⟩
  · simp only
    split
    · exact failWith_keeps _
    · refine (fileStep_keeps env).bind fun _ => (archiveResults_keeps env _ _).bind fun _ =>
        Action.Keeps.bind (updateState_keeps ?_) fun _ => emitEvent_keeps nofun
      exact fun _ hcovered => ⟨hcovered.cleanupRequired, hcovered.complete, hcovered.destroyed⟩

theorem runScenario_keeps (config : FyreConfig) (scenario : Scenario) :
    Action.Keeps (Reached milestones) (runScenario env config scenario) := by
  refine (activateHelpers_keeps env config).bind fun helpers =>
    (provisionScenario_keeps env scenario helpers).bind fun _ =>
    (prepareResults_keeps env scenario).bind fun _ =>
    (beginMeasurement_keeps scenario helpers).bind fun _ =>
    (settle_keeps (awaitCancellable_keeps env)).bind fun campaign => ?_
  cases campaign with
  | ok =>
      refine Action.Keeps.bind (updateState_keeps ?_) fun _ => (writeState_keeps env).bind
        fun _ => Action.keeps_pure _
      exact fun _ hcovered => ⟨hcovered.cleanupRequired, hcovered.complete, hcovered.destroyed⟩
  | error failure =>
      refine (settle_keeps (awaitCancellable_keeps env)).bind fun _ => ?_
      split
      · exact (growHelper_keeps env config scenario).bind fun _ => Action.keeps_pure _
      · exact Action.keeps_fail _

/-- No step of the matrix loses a milestone. -/
theorem matrixLoop_keeps (config : FyreConfig) (fuel index : Nat) :
    Action.Keeps (Reached milestones) (matrixLoop env config fuel index) := by
  induction fuel generalizing index with
  | zero => exact Action.keeps_fail _
  | succ fuel ih =>
      unfold matrixLoop
      split
      · refine updateState_keeps ?_
        exact fun _ hcovered => ⟨hcovered.cleanupRequired, hcovered.complete, hcovered.destroyed⟩
      · refine (runScenario_keeps env config _).bind fun outcome => ?_
        cases outcome with
        | confirmed => exact ih _
        | saturated => exact ih _

/-! ## Run -/

/-- The preflight refreshes Terraform's view by an apply. -/
theorem preflightFyreQuota_ensures (config : FyreConfig) (quota : FyreQuota) {world : FyreWorld}
    (hworld : Reached milestones world) :
    (preflightFyreQuota env config quota).Ensures world fun result state =>
      Reached milestones state ∧
        (result = .ok () → Reached (milestones ++ [.applyStarted none]) state) := by
  refine (activateHelpers_keeps env config world hworld).bind ?_ fun _ _ hfailed =>
    ⟨hfailed, nofun⟩
  intro _ _ hactivated
  have hchecking :=
    @updateState_keeps milestones (fun state => { state with phase := .checkingQuota })
    (fun _ hcovered => ⟨hcovered.cleanupRequired, nofun, nofun⟩) _ hactivated
  refine hchecking.bind ?_ fun _ _ hfailed => ⟨hfailed, nofun⟩
  intro _ _ hchecked
  refine (writeState_keeps env _ hchecked).bind ?_ fun _ _ hfailed => ⟨hfailed, nofun⟩
  intro _ _ hsaved
  refine (fileStep_keeps env _ hsaved).bind ?_ fun _ _ hfailed => ⟨hfailed, nofun⟩
  intro _ _ hread
  split
  · exact ⟨hread, nofun⟩
  · refine (applyVariables_ensures env ?_ hread).mono fun _ _ hafter =>
      ⟨hafter.1, hafter.2 ()⟩
    exact (runCancellable_keeps env).bind fun _ => (fileStep_keeps env).bind fun _ =>
      (fileStep_keeps env).bind fun _ => (ofNative_keeps _).bind fun _ => Action.keeps_pure _

/-- A matrix that succeeds has recorded its completion. -/
theorem boundedMatrix_ensures (config : FyreConfig) {world : FyreWorld}
    (hworld : Reached milestones world) :
    (boundedMatrix env config).Ensures world fun result state => Reached milestones state ∧
      (result = .ok () → Reached (milestones ++ [.matrixCompleted]) state) := by
  have hmatrix : Action.Keeps (Reached milestones) (timeout (runFyreMatrix env config)) := by
    have hkeeps : Action.Keeps (Reached milestones) (runFyreMatrix env config) :=
      (fileStep_keeps env).bind fun _ => matrixLoop_keeps env config _ _
    intro start hstart
    have hafter := hkeeps start hstart
    unfold Action.Ensures Action.run at hafter ⊢
    unfold timeout
    rcases hrun : runFyreMatrix env config start with ⟨stop | value, after⟩ <;> rw [hrun] at hafter
    · cases stop <;> exact hafter
    · exact hafter
  refine (hmatrix world hworld).bind ?_ fun _ _ hfailed => ⟨hfailed, nofun⟩
  intro matrix after hafter
  rcases matrix with _ | ⟨⟨⟩⟩
  · refine readWorld_then ?_
    split
    · exact (settle_keeps (runCancellable_keeps env) after hafter).bind
        (fun _ _ hcollected => ⟨hcollected, nofun⟩) fun _ _ hfailed => ⟨hfailed, nofun⟩
    · exact ⟨hafter, nofun⟩
  · have hemit := @Reached.emit _ _ hafter .matrixCompleted (by simp)
    exact ⟨hemit.weaken, fun _ => hemit⟩

/-- A successful run up to the manifest applied and completed its matrix. -/
theorem primaryRun_ensures (config : FyreConfig) (quota : FyreQuota) {world : FyreWorld}
    (hworld : Reached [] world) :
    (primaryRun env config quota).Ensures world fun result state => Live state ∧
      (result = .ok () → Reached [.applyStarted none, .matrixCompleted] state) := by
  refine (runCancellable_keeps env world hworld).bind ?_ fun _ _ hfailed => ⟨hfailed.live, nofun⟩
  intro _ _ hinit
  refine (runCancellable_keeps env _ hinit).bind ?_ fun _ _ hfailed => ⟨hfailed.live, nofun⟩
  intro _ _ hvalidated
  refine (preflightFyreQuota_ensures env config quota hvalidated).bind ?_ fun _ _ hfailed =>
    ⟨hfailed.1.live, nofun⟩
  rintro _ _ ⟨-, hpreflight⟩
  refine (boundedMatrix_ensures env config (hpreflight rfl)).bind ?_ fun _ _ hfailed =>
    ⟨hfailed.1.live, nofun⟩
  rintro _ _ ⟨-, hmatrix⟩
  exact (fileStep_keeps env _ (hmatrix rfl)).mono fun _ _ hafter => ⟨hafter.live, fun _ => hafter⟩

/-- A report that succeeds is recorded after what the matrix reached. -/
theorem reportRun_ensures (primary : AppResult Unit) {world : FyreWorld} (hlive : Live world)
    (hprimary : primary = .ok () → Reached milestones world) :
    (reportRun env primary).Ensures world fun result state => Live state ∧
      (result = .ok (.ok ()) → Reached (milestones ++ [.reportSucceeded]) state) := by
  rcases primary with failure | ⟨⟨⟩⟩
  · exact ⟨hlive, nofun⟩
  have hreport : (generateFyreReport env).Ensures world fun result state => Live state ∧
      (result = .ok () → Reached (milestones ++ [.reportSucceeded]) state) := by
    refine (runCancellable_keeps env world (hprimary rfl)).bind ?_ fun _ _ hfailed =>
      ⟨hfailed.live, nofun⟩
    intro _ _ hafter
    have hemit := @Reached.emit _ _ hafter .reportSucceeded (by simp)
    exact ⟨hemit.live, fun _ => hemit⟩
  exact ensures_settle.mpr (hreport.mono fun _ _ hafter =>
    ⟨hafter.1, fun hok => hafter.2 (settled_eq_ok_ok.mp hok)⟩)

/-! ## Destroy -/

/-- A destroy changes nothing but the events, and records its own success. -/
structure Destroying (start : FyreWorld) (succeeded : Prop) (state : FyreWorld) : Prop where
  same : state.state = start.state ∧ state.saved = start.saved ∧
    state.variablesWritten = start.variablesWritten ∧ state.rootExists = start.rootExists
  success : succeeded → start.variablesWritten = true →
    state.events = start.events ++ [.destroySucceeded]
  failure : ¬ succeeded ∨ start.variablesWritten = false → state.events = start.events

theorem settle_runCancellable_ensures (world : FyreWorld) :
    (settle (runCancellable env)).Ensures world fun result state =>
      state = { world with steps := world.steps + 1 } ∧ ∃ value, result = .ok value := by
  have hstep : nextStep.Ensures world fun result state =>
      result = .ok world.steps ∧ state = { world with steps := world.steps + 1 } := ⟨rfl, rfl⟩
  refine ensures_settle.mpr (hstep.bind ?_ fun _ _ hfailed => by cases hfailed.1)
  rintro step state ⟨-, rfl⟩
  split
  · exact ⟨rfl, _, rfl⟩
  · exact ⟨rfl, _, rfl⟩

/-- The attempts record one destroy when they succeed and none when they fail. -/
theorem destroyAttempts_ensures (attempts : Nat) (last : AppFailure) {world : FyreWorld}
    (hwritten : world.variablesWritten = true) :
    (destroyAttempts env attempts last).Ensures world fun result state =>
      Destroying world (result = .ok ()) state := by
  induction attempts generalizing last world with
  | zero => exact ⟨⟨rfl, rfl, rfl, rfl⟩, nofun, fun _ => rfl⟩
  | succ attempts ih =>
      refine (settle_runCancellable_ensures env world).bind ?_ ?_
      · rintro (failure | ⟨⟨⟩⟩) state ⟨rfl, -⟩
        · refine (@ih failure { world with steps := world.steps + 1 } hwritten).mono
            fun _ _ hafter => ?_
          exact ⟨hafter.same, hafter.success, hafter.failure⟩
        · refine ⟨⟨rfl, rfl, rfl, rfl⟩, fun _ _ => rfl, fun hfailed => ?_⟩
          rcases hfailed with hfailed | hmissing
          · exact absurd rfl hfailed
          · cases hwritten.symm.trans hmissing
      · rintro stop state ⟨-, value, hvalue⟩
        cases hvalue

/-- A destroy leaves the state alone and is recorded when it succeeds. -/
theorem terraformDestroy_ensures (world : FyreWorld) :
    (terraformDestroy env).Ensures world fun result state =>
      Destroying world (result = .ok ()) state := by
  refine readWorld_then ?_
  split
  next hwritten => exact destroyAttempts_ensures env 3 _ hwritten
  next hmissing =>
    exact ⟨⟨rfl, rfl, rfl, rfl⟩, fun _ hwritten => absurd hwritten hmissing, fun _ => rfl⟩

/-- No machine remains where a destroy succeeded or had nothing to destroy. -/
theorem Destroying.not_pending {start state : FyreWorld} {succeeded : Prop}
    (hdestroy : Destroying start succeeded state) (hsucceeded : succeeded)
    (hwritten : (∃ set, FyreEvent.applyStarted set ∈ start.events) →
      start.variablesWritten = true) : ¬ ApplyPending state.events := by
  by_cases hvariables : start.variablesWritten = true
  · rw [hdestroy.success hsucceeded hvariables]
    exact not_applyPending_destroy _
  · rw [hdestroy.failure (.inr (Bool.eq_false_of_not_eq_true hvariables))]
    exact fun hpending => hvariables (hwritten hpending.started)

/-- After a destroy the variables of every apply are still on disk. -/
theorem Destroying.written {start state : FyreWorld} {succeeded : Prop}
    (hdestroy : Destroying start succeeded state)
    (hwritten : (∃ set, FyreEvent.applyStarted set ∈ start.events) →
      start.variablesWritten = true) :
    (∃ set, FyreEvent.applyStarted set ∈ state.events) → state.variablesWritten = true := by
  rintro ⟨set, hmem⟩
  rw [hdestroy.same.2.2.1]
  by_cases hsuccess : succeeded ∧ start.variablesWritten = true
  · exact hsuccess.2
  · refine hwritten ⟨set, ?_⟩
    rwa [← hdestroy.failure (by simpa [imp_iff_not_or] using hsuccess)]

/-- Until the state is written again the run stays live. -/
theorem Destroying.live {start state : FyreWorld} {succeeded : Prop}
    (hdestroy : Destroying start succeeded state) (hlive : Live start) : Live state := by
  obtain ⟨hstate, hsaved, hvariables, hroot⟩ := hdestroy.same
  refine ⟨hstate ▸ hlive.memory, hsaved ▸ hlive.saved, ?_, hroot ▸ hlive.root⟩
  exact hdestroy.written hlive.written

theorem tryWriteState_keeps : Action.Keeps (Reached milestones) (tryWriteState env) :=
  (settle_keeps (writeState_keeps env)).bind fun _ => Action.keeps_pure _

/-- A write of the state replaces the record or leaves the earlier one. -/
theorem writeState_ensures (world : FyreWorld) :
    (writeState env).Ensures world fun result state =>
      (state = { world with steps := state.steps } ∨
        state = { world with steps := state.steps, saved := some world.state }) ∧
      (result = .ok () → state.saved = some world.state) := by
  have hstep : nextStep.Ensures world fun result state =>
      result = .ok world.steps ∧ state = { world with steps := world.steps + 1 } := ⟨rfl, rfl⟩
  refine hstep.bind ?_ fun _ _ hfailed => by cases hfailed.1
  rintro step state ⟨-, rfl⟩
  split
  · exact ⟨.inr rfl, fun _ => rfl⟩
  · exact ⟨.inl rfl, nofun⟩

/-- A property of the record, kept by a write that may fail. -/
theorem Accountable.write {world state : FyreWorld} (hworld : Accountable world)
    (hrecorded : Accountable { world with saved := some world.state })
    (hwrite : state = { world with steps := state.steps } ∨
      state = { world with steps := state.steps, saved := some world.state }) :
    Accountable state := by
  rcases hwrite with hstate | hstate <;> rw [hstate]
  · exact ⟨⟨hworld.leak.pending, hworld.leak.complete⟩, hworld.written, hworld.absent⟩
  · exact ⟨⟨hrecorded.leak.pending, hrecorded.leak.complete⟩, hrecorded.written,
      hrecorded.absent⟩

theorem Accountable.withState {world : FyreWorld} (hworld : Accountable world) (state : RunState) :
    Accountable { world with state } :=
  ⟨⟨hworld.leak.pending, hworld.leak.complete⟩, hworld.written, hworld.absent⟩

/-- The last write of a run, and its answer. -/
theorem recordRun_ensures {world : FyreWorld} {result : AppResult Unit}
    (hworld : Accountable world)
    (hrecorded : Accountable { world with saved := some world.state }) :
    Action.Ensures (do
      tryWriteState env
      Action.mapError FyreStop.failed (Action.ofExcept result)) world
      fun _ state => Accountable state := by
  have hwrite : (tryWriteState env).Ensures world fun _ state => Accountable state := by
    have hsettle : (settle (writeState env)).Ensures world fun _ state => Accountable state :=
      ensures_settle.mpr ((writeState_ensures env world).mono fun _ _ hafter =>
        hworld.write hrecorded hafter.1)
    exact hsettle.bind (fun _ _ hstate => hstate) fun _ _ hstate => hstate
  refine hwrite.bind ?_ fun _ _ hstate => hstate
  exact fun _ _ hstate => Action.ensures_mapError.mpr hstate

/-- A live run, with its milestones where the run succeeded so far. -/
def Progress (succeeded : Prop) (milestones : List FyreEvent) (world : FyreWorld) : Prop :=
  Live world ∧ (succeeded → Reached milestones world)

/-- A step that keeps every milestone keeps the progress of the run. -/
theorem keeps_progress {action : FyreAction α} {succeeded : Prop}
    (haction : ∀ milestones, Action.Keeps (Reached milestones) action) :
    Action.Keeps (Progress succeeded milestones) action := fun world hworld =>
  ⟨(haction [] world ⟨hworld.1, List.nil_sublist _⟩).live,
    fun hsucceeded => haction milestones world (hworld.2 hsucceeded)⟩

/-- The record after a destroy that succeeded. -/
theorem Destroying.accountable {start state : FyreWorld} {succeeded : Prop}
    (hdestroy : Destroying start succeeded state) (hsucceeded : succeeded) (hlive : Live start)
    {final : RunState}
    (hfinal : final.phase = .complete →
      Reached [.applyStarted none, .matrixCompleted, .reportSucceeded] start) :
    Accountable { state with saved := some final } := by
  refine accountable_of_not_pending (hdestroy.not_pending hsucceeded hlive.written)
    (hdestroy.written hlive.written) (hdestroy.live hlive).root fun other hother hphase => ?_
  obtain rfl : final = other := Option.some.inj hother
  have hreached := hfinal hphase
  have happlied : FyreEvent.applyStarted none ∈ start.events :=
    hreached.events.subset List.mem_cons_self
  have hevents := hdestroy.success hsucceeded (hlive.written ⟨none, happlied⟩)
  change List.Sublist _ state.events
  rw [hevents]
  exact ((List.sublist_cons_self _ _).trans hreached.events).append (List.Sublist.refl [_])

/-- The end of a run leaves the hardware accounted for. -/
theorem finishRun_ensures (primary : AppResult Unit) {world : FyreWorld}
    (hworld : Progress (primary = .ok ()) [.applyStarted none, .matrixCompleted] world) :
    (finishRun env primary).Ensures world fun _ state => Accountable state := by
  have hcollecting : ∀ milestones, Action.Keeps (Reached milestones)
      (updateState fun state => { state with phase := .collecting }) := fun _ =>
    updateState_keeps fun _ hcovered => ⟨hcovered.cleanupRequired, nofun, nofun⟩
  have hdestroying : ∀ milestones, Action.Keeps (Reached milestones)
      (updateState fun state => { state with phase := .destroying }) := fun _ =>
    updateState_keeps fun _ hcovered => ⟨hcovered.cleanupRequired, nofun, nofun⟩
  have hwrite : ∀ milestones, Action.Keeps (Reached milestones) (tryWriteState env) := fun _ =>
    tryWriteState_keeps env
  refine (keeps_progress hcollecting world hworld).bind ?_ fun _ _ hstop => hstop.1.accountable
  intro _ _ hcollected
  refine (keeps_progress hwrite _ hcollected).bind ?_ fun _ _ hstop => hstop.1.accountable
  intro _ _ hsaved
  refine (reportRun_ensures env primary hsaved.1 hsaved.2).bind ?_ fun _ _ hstop =>
    hstop.1.accountable
  rintro report reported ⟨hreported, hreport⟩
  have hprogress : Progress (report = .ok ())
      [.applyStarted none, .matrixCompleted, .reportSucceeded] reported :=
    ⟨hreported, fun hok => hreport (congrArg Except.ok hok)⟩
  refine (keeps_progress hdestroying _ hprogress).bind ?_ fun _ _ hstop => hstop.1.accountable
  intro _ _ hmarked
  refine (keeps_progress hwrite _ hmarked).bind ?_ fun _ _ hstop => hstop.1.accountable
  intro _ before hbefore
  -- The destruction is settled: whatever it returns, the run is recorded after it.
  have hcleanup : (settle (terraformDestroy env)).Ensures before fun result state =>
      Live state ∧ (result = .ok (.ok ()) → Destroying before True state) := by
    refine ensures_settle.mpr ((terraformDestroy_ensures env before).mono
      fun result state hdestroy => ⟨hdestroy.live hbefore.1, fun hok => ?_⟩)
    have hresult := settled_eq_ok_ok.mp hok
    exact ⟨hdestroy.same, fun _ => hdestroy.success hresult, fun hfailed =>
      hdestroy.failure (hfailed.imp_left (absurd trivial))⟩
  refine hcleanup.bind ?_ fun _ _ hstop => hstop.1.accountable
  -- A failed destruction leaves a record that still asks for cleanup.
  rintro (failure | ⟨⟨⟩⟩) cleaned ⟨hlive, hdestroyed⟩
  · refine update_then (recordRun_ensures env ?_ ?_)
    · exact Live.accountable ⟨⟨hlive.memory.cleanupRequired, nofun, nofun⟩, hlive.saved,
        hlive.written, hlive.root⟩
    · exact Live.accountable ⟨⟨hlive.memory.cleanupRequired, nofun, nofun⟩,
        ⟨_, rfl, hlive.memory.cleanupRequired, nofun, nofun⟩, hlive.written, hlive.root⟩
  · refine update_then (recordRun_ensures env ?_ ?_)
    · have hkept := hlive.accountable
      exact ⟨⟨hkept.leak.pending, hkept.leak.complete⟩, hkept.written, hkept.absent⟩
    · refine ((hdestroyed rfl).accountable trivial hbefore.1 fun hphase => hbefore.2 ?_).withState _
      by_contra hreport
      simp [hreport] at hphase

/-- No call left anything in the run's directory. -/
structure Untouched (world : FyreWorld) : Prop where
  events : world.events = []
  saved : world.saved = none

theorem Untouched.accountable {world : FyreWorld} (hworld : Untouched world) :
    Accountable world where
  leak := by
    refine ⟨fun hpending => ?_, fun state hsaved => ?_⟩
    · rw [hworld.events] at hpending
      exact absurd hpending not_applyPending_nil
    · rw [hworld.saved] at hsaved
      cases hsaved
  written := by
    rw [hworld.events]
    rintro ⟨_, hmem⟩
    cases hmem
  absent _ := ⟨hworld.events, hworld.saved⟩

/-- Steps that only count keep whatever holds of the directory. -/
def Counting {α : Type} (action : FyreAction α) : Prop :=
  ∀ world, action.Ensures world fun _ state => state = { world with steps := state.steps }

theorem Counting.bind {action : FyreAction α} {next : α → FyreAction β} (haction : Counting action)
    (hnext : ∀ value, Counting (next value)) : Counting (action >>= next) := fun world =>
  (haction world).bind
    (fun value state hstate => (hnext value state).mono fun _ after hafter => by
      rw [hafter, hstate])
    fun _ _ hstate => hstate

theorem fileStep_counting : Counting (fileStep env) := by
  refine Counting.bind (fun _ => rfl) fun step => ?_
  split <;> exact fun _ => rfl

theorem ofNative_counting (result : Except String α) : Counting (ofNative result) := fun _ =>
  Action.ensures_mapError.mpr rfl

/-- What holds of the directory holds after steps that only count. -/
theorem Counting.andThen {property : FyreWorld → Prop} {action : FyreAction α}
    (haction : Counting action) (hproperty : ∀ world steps, property world →
      property { world with steps }) {next : α → FyreAction β} {world : FyreWorld}
    {post : Except FyreStop β → FyreWorld → Prop} (hworld : property world)
    (hnext : ∀ value state, property state → (next value).Ensures state post)
    (hstop : ∀ stop state, property state → post (.error stop) state) :
    (action >>= next).Ensures world post :=
  (haction world).bind
    (fun value state hstate => hnext value state (hstate ▸ hproperty world _ hworld))
    fun stop state hstate => hstop stop state (hstate ▸ hproperty world _ hworld)

theorem Accountable.withSteps (world : FyreWorld) (steps : Nat) (hworld : Accountable world) :
    Accountable { world with steps } :=
  ⟨⟨hworld.leak.pending, hworld.leak.complete⟩, hworld.written, hworld.absent⟩

/-- A run that may start has an untouched directory. -/
theorem checkRun_ensures (config : FyreConfig) (runId : String) {world : FyreWorld}
    (hworld : Accountable world) :
    (checkRun env config runId).Ensures world fun result state => Accountable state ∧
      (result = .ok () → Untouched state) := by
  have hsteps := Accountable.withSteps
  refine (fileStep_counting env).andThen hsteps hworld ?_ fun _ _ hstop => ⟨hstop, nofun⟩
  intro _ _ hread
  refine (ofNative_counting _).andThen hsteps hread ?_ fun _ _ hstop => ⟨hstop, nofun⟩
  intro _ _ hvalid
  refine (fileStep_counting env).andThen hsteps hvalid ?_ fun _ _ hstop => ⟨hstop, nofun⟩
  intro _ _ hkeys
  refine (ofNative_counting _).andThen hsteps hkeys ?_ fun _ _ hstop => ⟨hstop, nofun⟩
  intro _ state hstate
  refine readWorld_then ?_
  split
  · exact ⟨hstate, nofun⟩
  next habsent =>
    obtain ⟨hevents, hsaved⟩ := hstate.absent (Bool.eq_false_of_not_eq_true habsent)
    exact ⟨hstate, fun _ => ⟨hevents, hsaved⟩⟩

/-- Creating the directory asks for no hardware and saves no state. -/
theorem createRunDirectory_ensures {world : FyreWorld} (hworld : Untouched world) :
    (createRunDirectory env).Ensures world fun result state => Untouched state ∧
      (result = .ok () → state.rootExists = true) := by
  have hstep : nextStep.Ensures world fun _ state => Untouched state :=
    ⟨hworld.events, hworld.saved⟩
  refine hstep.bind ?_ fun _ _ hstop => ⟨hstop, nofun⟩
  intro step state hstate
  split
  · exact ⟨⟨hstate.events, hstate.saved⟩, fun _ => rfl⟩
  · split
    · exact ⟨⟨hstate.events, hstate.saved⟩, nofun⟩
    · exact ⟨hstate, nofun⟩

/-- The first write of the state makes the run live. -/
theorem createRun_ensures (config : FyreConfig) (runId : String) {world : FyreWorld}
    (hworld : Untouched world) :
    (createRun env config runId).Ensures world fun result state => Accountable state ∧
      (result = .ok () → Live state) := by
  have hsteps : ∀ (world : FyreWorld) steps, Untouched world ∧ world.rootExists = true →
      Untouched { world with steps } ∧ world.rootExists = true :=
    fun _ _ hcreated => ⟨⟨hcreated.1.events, hcreated.1.saved⟩, hcreated.2⟩
  refine (createRunDirectory_ensures env hworld).bind ?_ fun _ _ hstop =>
    ⟨hstop.1.accountable, nofun⟩
  rintro _ _ ⟨huntouched, hroot⟩
  refine (fileStep_counting env).andThen hsteps ⟨huntouched, hroot rfl⟩ ?_ fun _ _ hstop =>
    ⟨hstop.1.accountable, nofun⟩
  intro _ _ hcopied
  refine (fileStep_counting env).andThen hsteps hcopied ?_ fun _ _ hstop =>
    ⟨hstop.1.accountable, nofun⟩
  intro _ _ hwritten
  refine (ofNative_counting _).andThen hsteps hwritten ?_ fun _ _ hstop =>
    ⟨hstop.1.accountable, nofun⟩
  rintro ⟨locust, fastTime⟩ state ⟨hstate, hexists⟩
  refine update_then
    ((writeState_ensures env _).mono fun result after hafter => ⟨?_, fun hok => ?_⟩)
  · rcases hafter.1 with hsame | hsame <;> rw [hsame]
    · exact Untouched.accountable ⟨hstate.events, hstate.saved⟩
    · refine Live.accountable ⟨⟨rfl, nofun, nofun⟩, ⟨_, rfl, rfl, nofun, nofun⟩, ?_, hexists⟩
      exact hstate.accountable.written
  · have hsaved := hafter.2 hok
    rcases hafter.1 with hsame | hsame <;> rw [hsame] at hsaved ⊢
    all_goals exact ⟨⟨rfl, nofun, nofun⟩, ⟨_, hsaved, rfl, nofun, nofun⟩,
      hstate.accountable.written, hexists⟩

/-- However it ends, a run can account for the hardware it asked for. -/
theorem runFyre_ensures (config : FyreConfig) (quota : FyreQuota) (runId : String)
    {world : FyreWorld} (hworld : Accountable world) :
    (runFyre env config quota runId).Ensures world fun _ state => Accountable state := by
  refine (checkRun_ensures env config runId hworld).bind ?_ fun _ _ hstop => hstop.1
  rintro _ _ ⟨-, huntouched⟩
  refine (createRun_ensures env config runId (huntouched rfl)).bind ?_ fun _ _ hstop => hstop.1
  rintro _ _ ⟨-, hcreated⟩
  have hlive : Reached [] _ := ⟨hcreated rfl, List.nil_sublist _⟩
  refine (fileStep_keeps env _ hlive).bind ?_ fun _ _ hstop => hstop.live.accountable
  intro _ _ hterraform
  have hprimary : (settle (primaryRun env config quota)).Ensures _ fun result state =>
      Live state ∧ (result = .ok (.ok ()) → Reached [.applyStarted none, .matrixCompleted] state) :=
    ensures_settle.mpr ((primaryRun_ensures env config quota hterraform).mono
      fun _ _ hafter => ⟨hafter.1, fun hok => hafter.2 (settled_eq_ok_ok.mp hok)⟩)
  refine hprimary.bind ?_ fun _ _ hstop => hstop.1.accountable
  rintro primary state ⟨hstate, hok⟩
  exact finishRun_ensures env primary ⟨hstate, fun hprimary => hok (congrArg Except.ok hprimary)⟩

/-! ## Destroy -/

/-- An owned state is the saved one. -/
theorem readOwnedState_ensures (runId : String) {world : FyreWorld} (hworld : Accountable world) :
    (readOwnedState env runId).Ensures world fun result state => Accountable state ∧
      ∀ owned, result = .ok owned → state.saved = some owned := by
  refine (fileStep_counting env).andThen Accountable.withSteps hworld ?_ fun _ _ hstop =>
    ⟨hstop, nofun⟩
  intro _ state hstate
  refine readWorld_then ?_
  split
  · exact ⟨hstate, nofun⟩
  next owned howned =>
    split
    · exact ⟨hstate, nofun⟩
    · have hsteps : ∀ (world : FyreWorld) steps, Accountable world ∧ world.saved = some owned →
          Accountable { world with steps } ∧ world.saved = some owned :=
        fun _ _ hboth => ⟨hboth.1.withSteps _ _, hboth.2⟩
      refine (fileStep_counting env).andThen hsteps ⟨hstate, howned⟩ ?_ fun _ _ hstop =>
        ⟨hstop.1, nofun⟩
      intro _ _ hboth
      refine ⟨hboth.1, fun other hother => ?_⟩
      cases hother
      exact hboth.2

/-- A saved state lies in a run directory that exists. -/
theorem Accountable.root {world : FyreWorld} (hworld : Accountable world) {owned : RunState}
    (howned : world.saved = some owned) : world.rootExists = true := by
  by_contra habsent
  obtain ⟨-, hnone⟩ := hworld.absent (Bool.eq_false_of_not_eq_true habsent)
  cases howned.symm.trans hnone

/-- Marking a run for its destroy keeps the flag. -/
theorem Accountable.mark {world : FyreWorld} (hworld : Accountable world) {owned : RunState}
    (howned : world.saved = some owned) :
    Accountable { world with saved := some { owned with phase := .destroying } } := by
  refine ⟨⟨fun hpending => ?_, fun other hother hphase => ?_⟩, hworld.written, fun hroot => ?_⟩
  · obtain ⟨state, hstate, hcovered⟩ := hworld.leak.pending hpending
    obtain rfl : owned = state := Option.some.inj (howned.symm.trans hstate)
    exact ⟨_, rfl, hcovered.cleanupRequired, nofun, nofun⟩
  · cases hother
    cases hphase
  · cases hroot.symm.trans (hworld.root howned)

/-- A destroy that failed changes no record. -/
theorem Destroying.unfinished {start state : FyreWorld} {succeeded : Prop}
    (hdestroy : Destroying start succeeded state) (hfailed : ¬ succeeded)
    (hstart : Accountable start) : Accountable state := by
  obtain ⟨-, hsaved, -, hroot⟩ := hdestroy.same
  have hevents := hdestroy.failure (.inl hfailed)
  refine ⟨⟨?_, ?_⟩, hdestroy.written hstart.written, ?_⟩
  · rw [hevents, hsaved]
    exact hstart.leak.pending
  · rw [hevents, hsaved]
    exact hstart.leak.complete
  · rw [hevents, hsaved, hroot]
    exact hstart.absent

/-- A destroy, too, leaves the hardware accounted for. -/
theorem destroyFyre_ensures (runId : String) {world : FyreWorld} (hworld : Accountable world) :
    (destroyFyre env runId).Ensures world fun _ state => Accountable state := by
  refine (ofNative_counting _).andThen Accountable.withSteps hworld ?_ fun _ _ hstop => hstop
  intro _ _ hvalid
  refine (readOwnedState_ensures env runId hvalid).bind ?_ fun _ _ hstop => hstop.1
  rintro owned _ ⟨hread, howned⟩
  have hsteps : ∀ (world : FyreWorld) steps, Accountable world ∧ world.saved = some owned →
      Accountable { world with steps } ∧ world.saved = some owned :=
    fun _ _ hboth => ⟨hboth.1.withSteps _ _, hboth.2⟩
  refine (fileStep_counting env).andThen hsteps ⟨hread, howned owned rfl⟩ ?_ fun _ _ hstop =>
    hstop.1
  rintro _ state ⟨hstate, hsaved⟩
  refine update_then ?_
  -- The record says that machines are being destroyed before the first of them is.
  have hmark : (writeState env).Ensures
      { state with state := { owned with phase := .destroying } } fun result after =>
        Accountable after ∧
          (result = .ok () → after.saved = some { owned with phase := .destroying }) :=
    (writeState_ensures env _).mono fun _ _ hafter =>
      ⟨(hstate.withState _).write ((hstate.mark hsaved).withState _) hafter.1, hafter.2⟩
  refine hmark.bind ?_ fun _ _ hstop => hstop.1
  rintro _ marked ⟨hmarked, hdestroying⟩
  have hroot := hmarked.root (hdestroying rfl)
  have hnotComplete : ∀ record, marked.saved = some record → record.phase ≠ .complete := by
    intro record hrecord
    cases (hdestroying rfl).symm.trans hrecord
    exact nofun
  refine (terraformDestroy_ensures env marked).bind ?_ fun stop after hdestroy => ?_
  case refine_2 => exact hdestroy.unfinished nofun hmarked
  intro _ destroyed hdestroy
  -- No machine is pending any more, so the record may stop asking for cleanup.
  have hpending := hdestroy.not_pending rfl hmarked.written
  have hwritten := hdestroy.written hmarked.written
  have hrecord : ∀ record : RunState, record.phase ≠ .complete →
      Accountable { destroyed with saved := some record } := by
    intro record hphase
    refine accountable_of_not_pending hpending hwritten (hdestroy.same.2.2.2.trans hroot) ?_
    rintro other hother hcomplete
    cases hother
    exact absurd hcomplete hphase
  refine update_then ((writeState_ensures env _).mono fun _ _ hafter => Accountable.write ?_ ?_
    hafter.1)
  · have hsaved : destroyed.saved = marked.saved := hdestroy.same.2.1
    refine accountable_of_not_pending hpending hwritten (hdestroy.same.2.2.2.trans hroot) ?_
    exact fun record hold hcomplete => absurd hcomplete (hnotComplete record (hsaved ▸ hold))
  · exact (hrecord { destroyed.state with phase := .destroyed, cleanupRequired := false }
      nofun).withState _

end Steps

/-! ## Sequences of calls -/

theorem accountable_absent : Accountable FyreWorld.absent :=
  Untouched.accountable ⟨rfl, rfl⟩

/-- Runs and destroys, in any order, keep the hardware accounted for. -/
theorem runCalls_accountable (runId : String) (calls : List FyreCall) {world : FyreWorld}
    (hworld : Accountable world) : Accountable (runCalls runId calls world) := by
  induction calls generalizing world with
  | nil => exact hworld
  | cons call rest ih =>
      refine ih ?_
      have hstart := hworld.withSteps world 0
      cases call with
      | run env config quota => exact runFyre_ensures env config quota runId hstart
      | destroy env => exact destroyFyre_ensures env runId hstart

/-- After any sequence of runs and destroys the record says what may still exist. -/
theorem runCalls_noSilentLeak (runId : String) (calls : List FyreCall) :
    NoSilentLeak (runCalls runId calls .absent) :=
  (runCalls_accountable runId calls accountable_absent).leak

end CfIntegration.Fyre
