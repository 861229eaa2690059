import CfIntegration.Fyre.Cleanup

/-! # The machines that runs ask for

The matrix takes the size at a helper's index, which only grows from its initial
position on. The helpers are documented to stay within 16 vCPU / 32 GB, and the
validator checks the last configured size.
-/

namespace CfIntegration.Fyre

/-- The documented limit of a helper. -/
structure MachineSize.WithinLimit (size : MachineSize) : Prop where
  cpu : size.cpu ≤ 16
  memoryGb : size.memoryGb ≤ 32

instance (size : MachineSize) : Decidable size.WithinLimit :=
  decidable_of_iff (size.cpu ≤ 16 ∧ size.memoryGb ≤ 32)
    ⟨fun hwithin => ⟨hwithin.1, hwithin.2⟩, fun hwithin => ⟨hwithin.1, hwithin.2⟩⟩

/-- Every size from the earlier of the two initial positions on is within the limit. -/
def HelpersWithinLimit (config : FyreConfig) : Prop :=
  ∀ locust fastTime, initialHelperIndices config = .ok (locust, fastTime) →
    ∀ size ∈ config.infrastructure.helperSizes.drop (min locust fastTime), size.WithinLimit

/-- The machines each apply of the matrix asked for. -/
def requestsOf (events : List FyreEvent) : List VmSet :=
  events.filterMap fun
    | .applyStarted set => set
    | _ => none

/-- What a run keeps about helper sizes: what it asked for and where each helper is. -/
structure HelperUse where
  requests : List VmSet
  locust : Nat
  fastTime : Nat

def FyreWorld.helperUse (world : FyreWorld) : HelperUse where
  requests := requestsOf world.events
  locust := world.state.locustHelperSize
  fastTime := world.state.fastTimeHelperSize

/-- What was asked for is allowed, and no helper is before its initial position. -/
structure FromInitial (config : FyreConfig) (allowed : VmSet → Prop) (use : HelperUse) : Prop where
  requests : ∀ set ∈ use.requests, allowed set
  indices : ∃ locust fastTime, initialHelperIndices config = .ok (locust, fastTime) ∧
    locust ≤ use.locust ∧ fastTime ≤ use.fastTime

/-- An entry is among those from its index on. -/
theorem getElem?_mem_drop {sizes : List MachineSize} {index : Nat} {size : MachineSize}
    (hsize : sizes[index]? = some size) : size ∈ sizes.drop index := by
  obtain ⟨hindex, rfl⟩ := List.getElem?_eq_some_iff.mp hsize
  rw [List.drop_eq_getElem_cons hindex]
  exact List.mem_cons_self

/-- The action keeps whatever holds of the use of helpers. -/
def KeepsUse {α : Type} (action : FyreAction α) : Prop :=
  ∀ property : HelperUse → Prop, Action.Keeps (fun world => property world.helperUse) action

namespace KeepsUse

variable {α β : Type}

theorem pure (value : α) : KeepsUse (Pure.pure value) := fun _ => Action.keeps_pure value

theorem fail (stop : FyreStop) : KeepsUse (Action.fail stop : FyreAction α) := fun _ =>
  Action.keeps_fail stop

theorem bind {action : FyreAction α} (haction : KeepsUse action) {next : α → FyreAction β}
    (hnext : ∀ value, KeepsUse (next value)) : KeepsUse (action >>= next) := fun property =>
  (haction property).bind fun value => hnext value property

theorem settle {action : FyreAction α} (haction : KeepsUse action) :
    KeepsUse (Fyre.settle action) := fun property world hworld =>
  ensures_settle.mpr (haction property world hworld)

theorem update {change : FyreWorld → FyreWorld}
    (hchange : ∀ world, (change world).helperUse = world.helperUse) :
    KeepsUse (Fyre.update change) := fun property world hworld => by
  change property (change world).helperUse
  rwa [hchange]

theorem updateState {change : RunState → RunState}
    (hchange : ∀ state, (change state).locustHelperSize = state.locustHelperSize ∧
      (change state).fastTimeHelperSize = state.fastTimeHelperSize) :
    KeepsUse (Fyre.updateState change) := by
  apply KeepsUse.update
  intro world
  obtain ⟨hlocust, hfastTime⟩ := hchange world.state
  simp only [FyreWorld.helperUse, hlocust, hfastTime]

theorem emitEvent {event : FyreEvent} (hevent : requestsOf [event] = []) :
    KeepsUse (Fyre.emitEvent event) := by
  apply KeepsUse.update
  intro world
  have hrequests : requestsOf (world.events ++ [event]) = requestsOf world.events := by
    rw [requestsOf, List.filterMap_append]
    exact (congrArg (requestsOf world.events ++ ·) hevent).trans (List.append_nil _)
  simp only [FyreWorld.helperUse, hrequests]

theorem ofNative (result : Except String α) : KeepsUse (Fyre.ofNative result) := fun _ =>
  (Action.keeps_ofExcept _).mapError _

end KeepsUse

section Steps

variable {α : Type}

theorem nextStep_keepsUse : KeepsUse nextStep := fun _ _ hworld => hworld

theorem readWorld_keepsUse : KeepsUse readWorld := fun _ _ hworld => hworld

theorem failWith_keepsUse (message : String) : KeepsUse (failWith message : FyreAction α) :=
  KeepsUse.fail _

variable (env : FyreEnv)

theorem fileStep_keepsUse : KeepsUse (fileStep env) := by
  apply nextStep_keepsUse.bind
  intro step
  split
  · exact KeepsUse.pure _
  · exact failWith_keepsUse _

theorem writeState_keepsUse : KeepsUse (writeState env) := by
  apply nextStep_keepsUse.bind
  intro step
  split
  · exact KeepsUse.update fun _ => rfl
  · exact failWith_keepsUse _

theorem runCancellable_keepsUse : KeepsUse (runCancellable env) := by
  apply nextStep_keepsUse.bind
  intro step
  split
  · exact KeepsUse.pure _
  · exact KeepsUse.fail _

theorem awaitCancellable_keepsUse : KeepsUse (awaitCancellable env) := by
  apply nextStep_keepsUse.bind
  intro step
  split
  · exact KeepsUse.fail _
  · split
    · exact KeepsUse.pure _
    · exact KeepsUse.fail _

theorem writeVariables_keepsUse : KeepsUse (writeVariables env) :=
  (fileStep_keepsUse env).bind fun _ => KeepsUse.update fun _ => rfl

theorem activateHelpers_keepsUse (config : FyreConfig) : KeepsUse (activateHelpers env config) := by
  have hhelper : ∀ index, KeepsUse (helperAt config index) := by
    intro index
    unfold helperAt
    split
    · exact KeepsUse.pure _
    · exact KeepsUse.fail _
  apply readWorld_keepsUse.bind
  intro world
  apply (hhelper _).bind
  intro locust
  apply (hhelper _).bind
  intro fastTime
  refine KeepsUse.bind (KeepsUse.update fun _ => by rfl) fun _ => ?_
  exact (fileStep_keepsUse env).bind fun _ => KeepsUse.pure _

theorem prepareResults_keepsUse (scenario : Scenario) : KeepsUse (prepareResults env scenario) := by
  have hrest : KeepsUse (do
      fileStep env
      fileStep env
      updateState fun state => { state with phase := .benchmarking }
      writeState env) := by
    apply (fileStep_keepsUse env).bind
    intro _
    apply (fileStep_keepsUse env).bind
    intro _
    refine KeepsUse.bind (KeepsUse.updateState (by simp)) ?_
    exact fun _ => writeState_keepsUse env
  apply (fileStep_keepsUse env).bind
  intro _
  apply readWorld_keepsUse.bind
  intro world
  split
  · apply (fileStep_keepsUse env).bind
    intro _
    exact KeepsUse.bind (KeepsUse.update fun _ => by rfl) fun _ => hrest
  · exact hrest

theorem beginMeasurement_keepsUse (scenario : Scenario) (helpers : ActiveHelper) :
    KeepsUse (beginMeasurement scenario helpers) := by
  apply KeepsUse.update
  intro world
  simp [FyreWorld.helperUse, requestsOf]

theorem archiveResults_keepsUse (archive : String) (scenarios : List Scenario) :
    KeepsUse (archiveResults env archive scenarios) := by
  induction scenarios with
  | nil => exact KeepsUse.pure _
  | cons scenario rest ih =>
      apply readWorld_keepsUse.bind
      intro world
      split
      · apply (fileStep_keepsUse env).bind
        intro _
        exact KeepsUse.bind (KeepsUse.update fun _ => by rfl) fun _ => ih
      · exact ih

theorem requestedRole_keepsUse : KeepsUse (requestedRole env) := by
  apply nextStep_keepsUse.bind
  intro step
  split
  · exact failWith_keepsUse _
  · exact failWith_keepsUse _
  · exact failWith_keepsUse _
  · split
    · exact failWith_keepsUse _
    · exact KeepsUse.pure _

theorem destroyAttempts_keepsUse (attempts : Nat) (last : Runtime.AppFailure) :
    KeepsUse (destroyAttempts env attempts last) := by
  induction attempts generalizing last with
  | zero => exact KeepsUse.fail _
  | succ attempts ih =>
      apply (runCancellable_keepsUse env).settle.bind
      intro result
      cases result with
      | ok => exact KeepsUse.emitEvent rfl
      | error failure => exact ih failure

theorem terraformDestroy_keepsUse : KeepsUse (terraformDestroy env) := by
  apply readWorld_keepsUse.bind
  intro world
  split
  · exact destroyAttempts_keepsUse env 3 _
  · exact KeepsUse.pure _

variable (config : FyreConfig) {allowed : VmSet → Prop}

/-- The property of the world that the matrix keeps. -/
def Sized (allowed : VmSet → Prop) (world : FyreWorld) : Prop :=
  FromInitial config allowed world.helperUse

/-- The selected helpers are the sizes at the indices. -/
theorem activateHelpers_sized {start : FyreWorld} (hstart : Sized config allowed start) :
    (activateHelpers env config).Ensures start fun result state => Sized config allowed state ∧
      ∀ helpers, result = .ok helpers →
        ReachableHelpers config helpers.locust helpers.fastTime := by
  refine (activateHelpers_keepsUse env config _ start hstart).and ?_
  refine readWorld_then ?_
  unfold helperAt
  split
  next locust hlocust =>
    refine pure_then ?_
    split
    next fastTime hfastTime =>
      have hreachable : ReachableHelpers config locust fastTime := by
        obtain ⟨locustIndex, fastTimeIndex, hinitial, hfirst, hsecond⟩ := hstart.indices
        exact ⟨locustIndex, fastTimeIndex, hinitial,
          List.drop_subset_drop_left _ hfirst (getElem?_mem_drop hlocust),
          List.drop_subset_drop_left _ hsecond (getElem?_mem_drop hfastTime)⟩
      refine pure_then (update_then ?_)
      have hfile : (fileStep env).Ensures
          { start with activeHelper := some ⟨locust, fastTime⟩ } fun _ _ => True := trivial
      refine hfile.bind (fun _ _ _ => ?_) fun _ _ _ => nofun
      intro helpers hhelpers
      cases hhelpers
      exact hreachable
    next => exact nofun
  next => exact nofun

/-- An apply asks for the helpers it is given. -/
theorem provisionScenario_sized {scenario : Scenario} {helpers : ActiveHelper}
    (hallowed : allowed ⟨scenario, helpers.locust, helpers.fastTime⟩) :
    Action.Keeps (Sized config allowed) (provisionScenario env scenario helpers) := by
  refine Action.Keeps.bind (KeepsUse.updateState (by simp) _) ?_
  intro _
  apply (writeState_keepsUse env _).bind
  intro _
  apply (writeVariables_keepsUse env _).bind
  intro _
  refine Action.Keeps.bind (fun world hworld => ?_) fun _ => awaitCancellable_keepsUse env _
  refine ⟨fun set hset => ?_, hworld.indices⟩
  have hmem : set ∈ requestsOf world.events ∨
      set = ⟨scenario, helpers.locust, helpers.fastTime⟩ := by
    simpa [Action.run, emitEvent, update, FyreWorld.helperUse, requestsOf] using hset
  rcases hmem with hold | rfl
  · exact hworld.requests set hold
  · exact hallowed

/-- A restart grows one index by one. -/
theorem growHelper_sized (scenario : Scenario) :
    Action.Keeps (Sized config allowed) (growHelper env config scenario) := by
  apply (requestedRole_keepsUse env _).bind
  intro role
  refine Action.Keeps.bind (fun world hworld => ?_) fun _ => ?_
  · obtain ⟨locustIndex, fastTimeIndex, hinitial, hlocust, hfastTime⟩ := hworld.indices
    cases role with
    | locust =>
        exact ⟨hworld.requests, locustIndex, fastTimeIndex, hinitial, Nat.le_succ_of_le hlocust,
          hfastTime⟩
    | fastTime =>
        exact ⟨hworld.requests, locustIndex, fastTimeIndex, hinitial, hlocust,
          Nat.le_succ_of_le hfastTime⟩
  · apply (readWorld_keepsUse _).bind
    intro world
    dsimp only
    split
    · exact failWith_keepsUse _ _
    · apply (fileStep_keepsUse env _).bind
      intro _
      apply (archiveResults_keepsUse env _ _ _).bind
      intro _
      refine Action.Keeps.bind (KeepsUse.updateState (by simp) _) ?_
      exact fun _ => KeepsUse.emitEvent rfl _

/-- A scenario asks only for sets that its configuration provides. -/
theorem runScenario_sized (hallowed : ∀ set, Provisionable config set → allowed set)
    {scenario : Scenario} (hscenario : scenario ∈ config.scenarios) :
    Action.Keeps (Sized config allowed) (runScenario env config scenario) := by
  intro start hstart
  refine (activateHelpers_sized env config hstart).bind ?_ fun _ _ hfailed => hfailed.1
  rintro helpers state ⟨hstate, hhelpers⟩
  have hset := hallowed ⟨scenario, helpers.locust, helpers.fastTime⟩
    ⟨hscenario, hhelpers helpers rfl⟩
  refine (provisionScenario_sized env config hset state hstate).bind ?_ fun _ _ hfailed => hfailed
  intro _ state hstate
  refine (prepareResults_keepsUse env scenario _ state hstate).bind ?_ fun _ _ hfailed => hfailed
  intro _ state hstate
  refine (beginMeasurement_keepsUse scenario helpers _ state hstate).bind ?_
    fun _ _ hfailed => hfailed
  intro _ state hstate
  refine ((awaitCancellable_keepsUse env).settle _ state hstate).bind ?_ fun _ _ hfailed => hfailed
  intro campaign state hstate
  cases campaign with
  | ok =>
      refine (KeepsUse.updateState (by simp) _ state hstate).bind ?_ fun _ _ hfailed => hfailed
      intro _ state hstate
      refine (writeState_keepsUse env _ state hstate).bind ?_ fun _ _ hfailed => hfailed
      exact fun _ state hstate => KeepsUse.pure _ _ state hstate
  | error failure =>
      refine ((awaitCancellable_keepsUse env).settle _ state hstate).bind ?_
        fun _ _ hfailed => hfailed
      intro _ state hstate
      split
      · refine (growHelper_sized env config scenario state hstate).bind ?_
          fun _ _ hfailed => hfailed
        exact fun _ state hstate => KeepsUse.pure _ _ state hstate
      · exact KeepsUse.fail _ _ state hstate

/-- So does every entry of the matrix. -/
theorem matrixLoop_sized (hallowed : ∀ set, Provisionable config set → allowed set)
    (fuel index : Nat) :
    Action.Keeps (Sized config allowed) (matrixLoop env config fuel index) := by
  induction fuel generalizing index with
  | zero => exact KeepsUse.fail _ _
  | succ fuel ih =>
      unfold matrixLoop
      split
      · exact KeepsUse.updateState (by simp) _
      next scenario hscenario =>
        apply (runScenario_sized env config hallowed (List.mem_of_getElem? hscenario)).bind
        intro outcome
        cases outcome with
        | confirmed => exact ih _
        | saturated => exact ih _

/-- Every set of machines that the matrix asks for is provisionable. -/
theorem runFyreMatrix_sized (hallowed : ∀ set, Provisionable config set → allowed set) :
    Action.Keeps (Sized config allowed) (runFyreMatrix env config) :=
  (fileStep_keepsUse env _).bind fun _ => matrixLoop_sized env config hallowed _ _

theorem boundedMatrix_sized (hallowed : ∀ set, Provisionable config set → allowed set) :
    Action.Keeps (Sized config allowed) (boundedMatrix env config) := by
  have hmatrix : Action.Keeps (Sized config allowed) (timeout (runFyreMatrix env config)) := by
    intro start hstart
    have hafter := runFyreMatrix_sized env config hallowed start hstart
    unfold Action.Ensures Action.run at hafter ⊢
    unfold timeout
    rcases hrun : runFyreMatrix env config start with ⟨stop | value, after⟩ <;> rw [hrun] at hafter
    · cases stop <;> exact hafter
    · exact hafter
  apply hmatrix.bind
  intro matrix
  rcases matrix with _ | ⟨⟨⟩⟩
  · apply (readWorld_keepsUse _).bind
    intro world
    split
    · exact ((runCancellable_keepsUse env).settle _).bind fun _ => failWith_keepsUse _ _
    · exact failWith_keepsUse _ _
  · exact KeepsUse.emitEvent rfl _

/-- The preflight applies nothing but a refresh. -/
theorem preflightFyreQuota_keepsUse (quota : FyreQuota) :
    KeepsUse (preflightFyreQuota env config quota) := by
  apply (activateHelpers_keepsUse env config).bind
  intro _
  refine KeepsUse.bind (KeepsUse.updateState (by simp)) ?_
  intro _
  apply (writeState_keepsUse env).bind
  intro _
  apply (fileStep_keepsUse env).bind
  intro _
  split
  · exact KeepsUse.fail _
  · apply (writeVariables_keepsUse env).bind
    intro _
    refine KeepsUse.bind (KeepsUse.emitEvent rfl) ?_
    intro _
    apply (runCancellable_keepsUse env).bind
    intro _
    apply (fileStep_keepsUse env).bind
    intro _
    apply (fileStep_keepsUse env).bind
    intro _
    exact (KeepsUse.ofNative _).bind fun _ => KeepsUse.pure _

/-- The run before its report asks for nothing else. -/
theorem primaryRun_sized (hallowed : ∀ set, Provisionable config set → allowed set)
    (quota : FyreQuota) : Action.Keeps (Sized config allowed) (primaryRun env config quota) := by
  apply (runCancellable_keepsUse env _).bind
  intro _
  apply (runCancellable_keepsUse env _).bind
  intro _
  apply (preflightFyreQuota_keepsUse env config quota _).bind
  intro _
  exact (boundedMatrix_sized env config hallowed).bind fun _ => fileStep_keepsUse env _

theorem reportRun_keepsUse (primary : Runtime.AppResult Unit) :
    KeepsUse (reportRun env primary) := by
  cases primary with
  | ok =>
      have hreport : KeepsUse (generateFyreReport env) :=
        (runCancellable_keepsUse env).bind fun _ => KeepsUse.emitEvent rfl
      exact hreport.settle
  | error => exact KeepsUse.pure _

theorem finishRun_keepsUse (primary : Runtime.AppResult Unit) :
    KeepsUse (finishRun env primary) := by
  have hwrite : KeepsUse (tryWriteState env) :=
    (writeState_keepsUse env).settle.bind fun _ => KeepsUse.pure _
  refine KeepsUse.bind (KeepsUse.updateState (by simp)) ?_
  intro _
  apply hwrite.bind
  intro _
  apply (reportRun_keepsUse env primary).bind
  intro primary
  refine KeepsUse.bind (KeepsUse.updateState (by simp)) ?_
  intro _
  apply hwrite.bind
  intro _
  apply (terraformDestroy_keepsUse env).settle.bind
  intro cleanup
  cases cleanup with
  | ok =>
      refine KeepsUse.bind (KeepsUse.updateState (by simp)) ?_
      intro _
      exact hwrite.bind fun _ _ => (Action.keeps_ofExcept _).mapError _
  | error =>
      refine KeepsUse.bind (KeepsUse.updateState (by simp)) ?_
      intro _
      exact hwrite.bind fun _ _ => (Action.keeps_ofExcept _).mapError _

/-- What stays after a run is over: everything that was asked for is allowed. -/
def Requested (allowed : VmSet → Prop) (world : FyreWorld) : Prop :=
  ∀ set ∈ world.helperUse.requests, allowed set

theorem checkRun_keepsUse (runId : String) : KeepsUse (checkRun env config runId) := by
  apply (fileStep_keepsUse env).bind
  intro _
  apply (KeepsUse.ofNative _).bind
  intro _
  apply (fileStep_keepsUse env).bind
  intro _
  apply (KeepsUse.ofNative _).bind
  intro _
  apply readWorld_keepsUse.bind
  intro world
  split
  · exact failWith_keepsUse _
  · exact KeepsUse.pure _

theorem createRunDirectory_keepsUse : KeepsUse (createRunDirectory env) := by
  apply nextStep_keepsUse.bind
  intro step
  split
  · exact KeepsUse.update fun _ => by rfl
  · split
    · exact KeepsUse.bind (KeepsUse.update fun _ => by rfl) fun _ => failWith_keepsUse _
    · exact failWith_keepsUse _

/-- The helpers start at their initial positions. -/
theorem createRun_ensures_sized (runId : String) {start : FyreWorld}
    (hstart : Requested allowed start) :
    (createRun env config runId).Ensures start fun result state => Requested allowed state ∧
      (result = .ok () → Sized config allowed state) := by
  let requested : HelperUse → Prop := fun use => ∀ set ∈ use.requests, allowed set
  refine (createRunDirectory_keepsUse env requested start hstart).bind ?_ fun _ _ hfailed =>
    ⟨hfailed, nofun⟩
  intro _ state hstate
  refine (fileStep_keepsUse env requested state hstate).bind ?_ fun _ _ hfailed => ⟨hfailed, nofun⟩
  intro _ state hstate
  refine (fileStep_keepsUse env requested state hstate).bind ?_ fun _ _ hfailed => ⟨hfailed, nofun⟩
  intro _ state hstate
  -- The positions are those of the configuration.
  have hindices : (ofNative (initialHelperIndices config)).Ensures state fun result after =>
      after = state ∧
        ∀ indices, result = .ok indices → initialHelperIndices config = .ok indices := by
    unfold ofNative
    refine Action.ensures_mapError.mpr (Action.ensures_ofExcept.mpr ⟨rfl, fun indices hok => ?_⟩)
    cases hinitial : initialHelperIndices config with
    | error message =>
        rw [hinitial] at hok
        cases hok
    | ok initial =>
        rw [hinitial] at hok
        cases hok
        rfl
  refine hindices.bind ?_ fun _ _ hfailed => ⟨hfailed.1 ▸ hstate, nofun⟩
  rintro ⟨locust, fastTime⟩ after ⟨rfl, hinitial⟩
  have hcreated : Sized config allowed { after with state := initialState runId locust fastTime } :=
    ⟨hstate, locust, fastTime, hinitial _ rfl, Nat.le_refl _, Nat.le_refl _⟩
  exact update_then ((writeState_keepsUse env _ _ hcreated).mono fun _ _ hafter =>
    ⟨hafter.requests, fun _ => hafter⟩)

/-- Every set of machines that a run asks for is provisionable. -/
theorem runFyre_requested (hallowed : ∀ set, Provisionable config set → allowed set)
    (quota : FyreQuota) (runId : String) :
    Action.Keeps (Requested allowed) (runFyre env config quota runId) := by
  apply Action.Keeps.bind (checkRun_keepsUse env config runId fun use =>
    ∀ set ∈ use.requests, allowed set)
  intro _ start hstart
  refine (createRun_ensures_sized env config runId hstart).bind ?_ fun _ _ hfailed => hfailed.1
  rintro _ state ⟨-, hcreated⟩
  have hrest : Action.Keeps (Sized config allowed) (do
      fileStep env
      let primary ← settle (primaryRun env config quota)
      finishRun env primary) := by
    apply (fileStep_keepsUse env _).bind
    intro _
    refine Action.Keeps.bind (fun world hworld => ?_)
      fun primary => finishRun_keepsUse env primary _
    exact ensures_settle.mpr (primaryRun_sized env config hallowed quota world hworld)
  exact (hrest state (hcreated rfl)).mono fun _ _ hafter => hafter.requests

/-- A destroy starts no apply. -/
theorem destroyFyre_requested (runId : String) :
    Action.Keeps (Requested allowed) (destroyFyre env runId) := by
  let requested : HelperUse → Prop := fun use => ∀ set ∈ use.requests, allowed set
  have hupdate : ∀ change : RunState → RunState,
      Action.Keeps (Requested allowed) (updateState change) := fun _ _ hworld => hworld
  have howned : Action.Keeps (Requested allowed) (readOwnedState env runId) := by
    apply (fileStep_keepsUse env requested).bind
    intro _
    apply (readWorld_keepsUse requested).bind
    intro world
    split
    · exact failWith_keepsUse _ requested
    · split
      · exact failWith_keepsUse _ requested
      · exact (fileStep_keepsUse env requested).bind fun _ => KeepsUse.pure _ requested
  apply (KeepsUse.ofNative _ requested).bind
  intro _
  apply howned.bind
  intro owned
  apply (fileStep_keepsUse env requested).bind
  intro _
  refine Action.Keeps.bind (hupdate _) fun _ => ?_
  apply (writeState_keepsUse env requested).bind
  intro _
  apply (terraformDestroy_keepsUse env requested).bind
  intro _
  exact Action.Keeps.bind (hupdate _) fun _ => writeState_keepsUse env requested

end Steps

/-- Runs and destroys ask only for sets that are allowed to all of the configurations. -/
theorem runCalls_requested {allowed : VmSet → Prop} (runId : String) (calls : List FyreCall)
    (hallowed : ∀ env config quota, FyreCall.run env config quota ∈ calls →
      ∀ set, Provisionable config set → allowed set)
    {world : FyreWorld} (hworld : Requested allowed world) :
    Requested allowed (runCalls runId calls world) := by
  induction calls generalizing world with
  | nil => exact hworld
  | cons call rest ih =>
      have hrest := fun env config quota hmem =>
        hallowed env config quota (List.mem_cons_of_mem _ hmem)
      have hstart : Requested allowed { world with steps := 0 } := hworld
      apply ih hrest
      cases call with
      | run env config quota =>
          have hconfig := hallowed env config quota List.mem_cons_self
          exact runFyre_requested env config hconfig quota runId _ hstart
      | destroy env => exact destroyFyre_requested env runId _ hstart

/-- In every sequence of runs and destroys, each set of machines that is asked for is one that
the configuration of a run may provision. -/
theorem runCalls_provisionable (runId : String) (calls : List FyreCall) :
    ∀ set ∈ requestsOf (runCalls runId calls .absent).events,
      ∃ env config quota, FyreCall.run env config quota ∈ calls ∧ Provisionable config set :=
  runCalls_requested runId calls
    (fun env config quota hmem _ hset => ⟨env, config, quota, hmem, hset⟩) nofun

/-- With every configured size within the limit, so are the helpers of every set. -/
theorem HelpersWithinLimit.of_provisionable {config : FyreConfig} {set : VmSet}
    (hlimit : HelpersWithinLimit config) (hset : Provisionable config set) :
    set.locust.WithinLimit ∧ set.fastTime.WithinLimit := by
  obtain ⟨-, locust, fastTime, hinitial, hlocust, hfastTime⟩ := hset
  have hwithin := hlimit locust fastTime hinitial
  exact ⟨hwithin _ (List.drop_subset_drop_left _ (Nat.min_le_left _ _) hlocust),
    hwithin _ (List.drop_subset_drop_left _ (Nat.min_le_right _ _) hfastTime)⟩

/-- In every sequence of runs and destroys, whatever saturates, no apply asks for a helper
over the limit, if no configured size from the earlier initial position on is over it. -/
theorem helpers_within_limit (runId : String) (calls : List FyreCall)
    (hlimit : ∀ env config quota, FyreCall.run env config quota ∈ calls →
      HelpersWithinLimit config) :
    ∀ set ∈ requestsOf (runCalls runId calls .absent).events,
      set.locust.WithinLimit ∧ set.fastTime.WithinLimit := by
  intro set hset
  obtain ⟨env, config, quota, hmem, hprovisionable⟩ := runCalls_provisionable runId calls set hset
  exact (hlimit env config quota hmem).of_provisionable hprovisionable

/-- A quota that fits every campaign below. -/
def ampleQuota : FyreQuota := ⟨808, "benchmark", 1000, 0, 1000, 0, 10000, 0, 100, 0⟩

/-- A run whose first campaign saturates the Locust helper. -/
def saturatedRun (config : FyreConfig) : FyreCall :=
  .run { saturatingEnv with
    command := fun step =>
      if step = 25 then some (.infrastructure (.childExit (some helperSaturationExit) ""))
      else none } config ampleQuota

/-- The packaged profile grows its Locust helper and stays within the limit. -/
theorem helpers_within_limit_packaged :
    HelpersWithinLimit packagedProfile ∧
      (requestsOf (runCalls "scale" [saturatedRun packagedProfile] .absent).events).map
        VmSet.locust = [⟨4, 16⟩, ⟨8, 32⟩, ⟨8, 32⟩] ∧
      ∀ set ∈ requestsOf (runCalls "scale" [saturatedRun packagedProfile] .absent).events,
        set.locust.WithinLimit ∧ set.fastTime.WithinLimit := by
  have hpackaged : HelpersWithinLimit packagedProfile := by
    intro locust fastTime hinitial
    obtain ⟨rfl, rfl⟩ : 1 = locust ∧ 2 = fastTime := by
      have hindices : initialHelperIndices packagedProfile = .ok (1, 2) := by rfl
      rw [hindices] at hinitial
      simpa using hinitial
    decide
  refine ⟨hpackaged, by decide +kernel, helpers_within_limit _ _ ?_⟩
  intro env config quota hmem
  cases List.mem_singleton.mp hmem
  exact hpackaged

/-- Only the last size is within the limit in each resource. -/
def oversizedProfile : FyreConfig := lowMemoryProfile [⟨2, 8⟩, ⟨32, 64⟩, ⟨16, 32⟩] none

/-- The accepted sizes take a saturated helper over the limit. -/
theorem helpers_within_limit_fails :
    ¬ ∀ (runId : String) (calls : List FyreCall),
      (∀ env config quota, FyreCall.run env config quota ∈ calls →
        validateConfig config = .ok ⟨⟩) →
      ∀ set ∈ requestsOf (runCalls runId calls .absent).events,
        set.locust.WithinLimit ∧ set.fastTime.WithinLimit := by
  intro hbound
  have hwithin := hbound "scale" [saturatedRun oversizedProfile] ?_
  · revert hwithin
    decide +kernel
  · intro env config quota hmem
    cases List.mem_singleton.mp hmem
    rfl

end CfIntegration.Fyre
