import Std.Data.String.ToNat
import CfIntegration.Fyre.Matrix

/-! # What the matrix keeps and what it archives

The records of a run are its helper indices, the completed scenarios and the
result directories. Steps that only provision or report leave them alone; the
invariant says how a measurement is either among the current results or archived.
-/

namespace CfIntegration.Fyre

/-- The part of a run that the matrix has to keep consistent. -/
structure Ledger where
  locustHelperSize : Nat
  fastTimeHelperSize : Nat
  completedScenarios : List String
  results : String → Option Measurement
  invalidated : String → String → Option Measurement
  measurements : List Measurement
  restarts : Nat

def isRestart : FyreEvent → Bool
  | .restarted _ => true
  | _ => false

def restartCount (events : List FyreEvent) : Nat := events.countP isRestart

def FyreWorld.ledger (world : FyreWorld) : Ledger where
  locustHelperSize := world.state.locustHelperSize
  fastTimeHelperSize := world.state.fastTimeHelperSize
  completedScenarios := world.state.completedScenarios
  results := world.results
  invalidated := world.invalidated
  measurements := measurementsOf world.events
  restarts := restartCount world.events

def Ledger.helperSize (ledger : Ledger) : HelperRole → Nat
  | .locust => ledger.locustHelperSize
  | .fastTime => ledger.fastTimeHelperSize

/-- Neither a helper index was out of range nor did the loop run out of fuel. -/
def Benign {α : Type} (result : Except FyreStop α) : Prop :=
  result ≠ .error .panicked ∧ result ≠ .error .exhausted

@[simp] theorem benign_ok {α : Type} (value : α) : Benign (.ok value : Except FyreStop α) := by
  simp [Benign]

@[simp] theorem benign_failed {α : Type} (failure : Runtime.AppFailure) :
    Benign (.error (.failed failure) : Except FyreStop α) := by simp [Benign]

@[simp] theorem benign_cutOff {α : Type} : Benign (.error .cutOff : Except FyreStop α) := by
  simp [Benign]

theorem Benign.cast {α β : Type} {stop : FyreStop}
    (hbenign : Benign (.error stop : Except FyreStop α)) :
    Benign (.error stop : Except FyreStop β) := by
  simpa [Benign] using hbenign

/-! ## Settled outcomes -/

section Settle

variable {α : Type}

/-- A failure as a value; the other stops remain. -/
def settled : Except FyreStop α → Except FyreStop (Except Runtime.AppFailure α)
  | .ok value => .ok (.ok value)
  | .error (.failed failure) => .ok (.error failure)
  | .error .cutOff => .error .cutOff
  | .error .panicked => .error .panicked
  | .error .exhausted => .error .exhausted

theorem settled_eq_ok_ok {result : Except FyreStop α} {value : α} :
    settled result = .ok (.ok value) ↔ result = .ok value := by
  rcases result with (_ | _ | _ | _) | _ <;> simp [settled]

/-- Settling a result keeps it benign. -/
theorem Benign.settled {result : Except FyreStop α} (hbenign : Benign result) :
    Benign (Fyre.settled result) := by
  rcases result with (_ | _ | _ | _) | _ <;> simp_all [Fyre.settled, Benign]

theorem ensures_settle {action : FyreAction α} {start : FyreWorld}
    {post : Except FyreStop (Except Runtime.AppFailure α) → FyreWorld → Prop} :
    (settle action).Ensures start post ↔
      action.Ensures start fun result state => post (settled result) state := by
  unfold Action.Ensures Action.run settle
  rcases action start with ⟨(_ | _ | _ | _) | _, _⟩ <;> rfl

end Settle

/-! ## Steps that leave the records alone -/

/-- An action that leaves the records alone. -/
def Quiet {α : Type} (action : FyreAction α) : Prop :=
  ∀ start, action.Ensures start fun result state => state.ledger = start.ledger ∧ Benign result

namespace Quiet

variable {α β : Type}

theorem pure (value : α) : Quiet (Pure.pure value) := fun _ => ⟨rfl, benign_ok _⟩

theorem failWith (message : String) : Quiet (failWith message : FyreAction α) :=
  fun _ => ⟨rfl, benign_failed _⟩

theorem update {change : FyreWorld → FyreWorld}
    (hchange : ∀ world, (change world).ledger = world.ledger) : Quiet (Fyre.update change) :=
  fun world => ⟨hchange world, benign_ok _⟩

/-- A change of the state that neither resizes a helper nor completes a scenario. -/
theorem updateState {change : RunState → RunState}
    (hchange : ∀ state, (change state).locustHelperSize = state.locustHelperSize ∧
      (change state).fastTimeHelperSize = state.fastTimeHelperSize ∧
      (change state).completedScenarios = state.completedScenarios) :
    Quiet (Fyre.updateState change) := by
  refine Quiet.update fun world => ?_
  obtain ⟨hlocust, hfastTime, hcompleted⟩ := hchange world.state
  simp only [FyreWorld.ledger, hlocust, hfastTime, hcompleted]

theorem emitEvent {event : FyreEvent} (hmeasured : measurementsOf [event] = [])
    (hrestart : isRestart event = false) : Quiet (Fyre.emitEvent event) := by
  refine Quiet.update fun world => ?_
  have hmeasurements : measurementsOf (world.events ++ [event]) = measurementsOf world.events := by
    rw [measurementsOf, List.filterMap_append]
    exact (congrArg (measurementsOf world.events ++ ·) hmeasured).trans (List.append_nil _)
  simp only [FyreWorld.ledger, hmeasurements, restartCount, List.countP_append]
  simp [hrestart]

/-- The rest of a sequence starts from the same records. -/
theorem andThen {action : FyreAction α} (hquiet : Quiet action) {next : α → FyreAction β}
    {start : FyreWorld} {post : Except FyreStop β → FyreWorld → Prop}
    (hnext : ∀ value state, state.ledger = start.ledger → (next value).Ensures state post)
    (hfailed : ∀ stop state, state.ledger = start.ledger → Benign (.error stop : Except _ β) →
      post (.error stop) state) :
    (action >>= next).Ensures start post :=
  Action.Ensures.bind (hquiet start) (fun value state hstate => hnext value state hstate.1)
    fun stop state hstate => hfailed stop state hstate.1 hstate.2.cast

theorem bind {action : FyreAction α} (hquiet : Quiet action) {next : α → FyreAction β}
    (hnext : ∀ value, Quiet (next value)) : Quiet (action >>= next) := fun _ =>
  hquiet.andThen
    (fun value state hstate => (hnext value state).mono fun _ _ hafter =>
      ⟨hafter.1.trans hstate, hafter.2⟩)
    fun _ _ hstate hbenign => ⟨hstate, hbenign⟩

theorem settle {action : FyreAction α} (hquiet : Quiet action) : Quiet (Fyre.settle action) :=
  fun start => ensures_settle.mpr ((hquiet start).mono fun _ _ hafter =>
    ⟨hafter.1, hafter.2.settled⟩)

end Quiet

theorem nextStep_quiet : Quiet nextStep := fun _ => ⟨rfl, benign_ok _⟩

theorem readWorld_then {α : Type} {next : FyreWorld → FyreAction α} {start : FyreWorld}
    {post : Except FyreStop α → FyreWorld → Prop} (hnext : (next start).Ensures start post) :
    (readWorld >>= next).Ensures start post := hnext

theorem pure_then {α β : Type} {value : α} {next : α → FyreAction β} {start : FyreWorld}
    {post : Except FyreStop β → FyreWorld → Prop} (hnext : (next value).Ensures start post) :
    ((pure value : FyreAction α) >>= next).Ensures start post := hnext

theorem update_then {α : Type} {change : FyreWorld → FyreWorld} {next : Unit → FyreAction α}
    {start : FyreWorld} {post : Except FyreStop α → FyreWorld → Prop}
    (hnext : (next ()).Ensures (change start) post) :
    (update change >>= next).Ensures start post := hnext

section Steps

variable (env : FyreEnv)

theorem fileStep_quiet : Quiet (fileStep env) := by
  refine nextStep_quiet.bind fun step => ?_
  split
  · exact Quiet.pure _
  · exact Quiet.failWith _

theorem writeState_quiet : Quiet (writeState env) := by
  refine nextStep_quiet.bind fun step => ?_
  split
  · exact Quiet.update fun _ => rfl
  · exact Quiet.failWith _

theorem awaitCancellable_quiet : Quiet (awaitCancellable env) := by
  refine nextStep_quiet.bind fun step => ?_
  split
  · exact fun _ => ⟨rfl, benign_cutOff⟩
  · split
    · exact Quiet.pure _
    · exact fun _ => ⟨rfl, benign_failed _⟩

theorem writeVariables_quiet : Quiet (writeVariables env) :=
  (fileStep_quiet env).bind fun _ => Quiet.update fun _ => rfl

end Steps

/-! ## Archives -/

/-- The letters of an archive's name. -/
theorem archiveName_toList (role : HelperRole) (size : Nat) (scenario : String) :
    (archiveName role size scenario).toList = role.name.toList ++ ("-size-".toList ++
      (Nat.toDigits 10 size ++ ("-at-".toList ++ scenario.toList))) := by
  simp only [archiveName, String.toList_append, List.append_assoc]
  rw [show (toString size).toList = Nat.toDigits 10 size from Nat.toList_repr]

/-- The digits of a number end where the first character follows that is no digit. -/
theorem toDigits_append_cancel {first second : Nat} {firstRest secondRest : List Char}
    (heq : Nat.toDigits 10 first ++ '-' :: firstRest =
      Nat.toDigits 10 second ++ '-' :: secondRest) : first = second := by
  have htake : ∀ (number : Nat) (rest : List Char),
      (Nat.toDigits 10 number ++ '-' :: rest).takeWhile Char.isDigit = Nat.toDigits 10 number := by
    intro number rest
    rw [List.takeWhile_append_of_pos fun digit hdigit =>
      Nat.isDigit_of_mem_toDigits (by decide) (by decide) hdigit]
    simp
  have hdigits : Nat.toDigits 10 first = Nat.toDigits 10 second := by
    rw [← htake first firstRest, heq, htake second secondRest]
  rw [← @Nat.ofDigitChars_ten_toDigits first, hdigits, Nat.ofDigitChars_ten_toDigits]

/-- An archive's name tells which helper grew, and to which size. -/
theorem archiveName_inj {firstRole secondRole : HelperRole} {firstSize secondSize : Nat}
    {firstScenario secondScenario : String}
    (heq : archiveName firstRole firstSize firstScenario =
      archiveName secondRole secondSize secondScenario) :
    firstRole = secondRole ∧ firstSize = secondSize := by
  have hlist := congrArg String.toList heq
  rw [archiveName_toList, archiveName_toList] at hlist
  have hrole : firstRole = secondRole := by
    cases firstRole <;> cases secondRole <;> simp_all [HelperRole.name]
  subst hrole
  have hsize := List.append_cancel_left (List.append_cancel_left hlist)
  exact ⟨rfl, toDigits_append_cancel hsize⟩

/-- The records after the results of some scenarios moved under an archive. -/
def Ledger.archive (ledger : Ledger) (archive : String) (scenarios : List String) : Ledger :=
  { ledger with
    results := fun id => if id ∈ scenarios then none else ledger.results id
    invalidated := fun name id =>
      if name = archive ∧ id ∈ scenarios ∧ (ledger.results id).isSome then ledger.results id
      else ledger.invalidated name id }

theorem Ledger.archive_nil (ledger : Ledger) (archive : String) :
    ledger.archive archive [] = ledger := by
  simp [Ledger.archive]

theorem Ledger.archive_cons (ledger : Ledger) (archive id : String) (rest : List String) :
    (ledger.archive archive [id]).archive archive rest = ledger.archive archive (id :: rest) := by
  simp only [Ledger.archive]
  congr 1
  · funext other
    grind
  · funext name other
    grind

theorem Ledger.archive_present {ledger : Ledger} {archive id : String}
    (hpresent : (ledger.results id).isSome = true) :
    { ledger with
      results := Function.update ledger.results id none
      invalidated := Function.update ledger.invalidated archive
        (Function.update (ledger.invalidated archive) id (ledger.results id)) } =
      ledger.archive archive [id] := by
  simp only [Ledger.archive, List.mem_singleton]
  congr 1
  · funext other
    simp only [Function.update_apply]
  · funext name other
    simp only [Function.update_apply]
    grind

theorem Ledger.archive_absent {ledger : Ledger} {archive id : String}
    (habsent : ¬ (ledger.results id).isSome = true) : ledger = ledger.archive archive [id] := by
  rcases ledger with ⟨locust, fastTime, completed, results, invalidated, measurements, restarts⟩
  have hnone : results id = none := by simpa using habsent
  simp only [Ledger.archive, List.mem_singleton]
  congr 1
  · funext other
    grind
  · funext name other
    grind

/-- The results of the scenarios are moved into the archive in order. -/
theorem archiveResults_ensures (env : FyreEnv) (archive : String) (scenarios : List Scenario)
    (start : FyreWorld) :
    (archiveResults env archive scenarios).Ensures start fun result state => Benign result ∧
      state.ledger.restarts = start.ledger.restarts ∧ (result = .ok () →
        state.ledger = start.ledger.archive archive (scenarios.map Scenario.id)) := by
  induction scenarios generalizing start with
  | nil => exact ⟨benign_ok _, rfl, fun _ => (Ledger.archive_nil _ _).symm⟩
  | cons scenario rest ih =>
      refine readWorld_then ?_
      rw [List.map_cons, ← Ledger.archive_cons]
      split
      next hpresent =>
        refine (fileStep_quiet env).andThen ?_ fun _ _ hstate hbenign =>
          ⟨hbenign, congrArg Ledger.restarts hstate, nofun⟩
        intro _ state hstate
        have hrestarts : state.ledger.restarts = start.ledger.restarts := by rw [hstate]
        refine update_then ((ih _).mono fun result after hafter => ⟨hafter.1, ?_, fun hok => ?_⟩)
        · exact hafter.2.1.trans hrestarts
        · refine (hafter.2.2 hok).trans ?_
          rw [← hstate, ← Ledger.archive_present (hstate ▸ hpresent)]
          rfl
      next habsent =>
        refine (ih start).mono fun result after hafter =>
          ⟨hafter.1, hafter.2.1, fun hok => (hafter.2.2 hok).trans ?_⟩
        rw [← Ledger.archive_absent habsent]

/-! ## The invariant of the loop -/

/-- A measurement was made with the current helper sizes. -/
structure Current (config : FyreConfig) (ledger : Ledger) (measurement : Measurement) : Prop where
  locust : measurement.locustHelperSize = ledger.locustHelperSize
  fastTime : measurement.fastTimeHelperSize = ledger.fastTimeHelperSize
  helpers : config.infrastructure.helperSizes[measurement.locustHelperSize]? =
      some measurement.helpers.locust ∧
    config.infrastructure.helperSizes[measurement.fastTimeHelperSize]? =
      some measurement.helpers.fastTime

/-- Every measurement so far is a current result or archived, and each is numbered. -/
structure Accounted (ledger : Ledger) : Prop where
  found : ∀ measurement ∈ ledger.measurements,
    ledger.results measurement.scenario = some measurement ∨
      ∃ archive, ledger.invalidated archive measurement.scenario = some measurement
  serials : ledger.measurements.map Measurement.serial = List.range ledger.measurements.length

/-- The records while the scenarios of `measured` have a result directory. -/
structure Recorded (config : FyreConfig) (initial : Nat × Nat) (measured : List String)
    (ledger : Ledger) : Prop where
  locust : initial.1 ≤ ledger.locustHelperSize ∧
    ledger.locustHelperSize < config.infrastructure.helperSizes.length
  fastTime : initial.2 ≤ ledger.fastTimeHelperSize ∧
    ledger.fastTimeHelperSize < config.infrastructure.helperSizes.length
  restarts : ledger.restarts + initial.1 + initial.2 =
    ledger.locustHelperSize + ledger.fastTimeHelperSize
  results : ∀ id measurement, ledger.results id = some measurement →
    id ∈ measured ∧ measurement.scenario = id ∧ Current config ledger measurement
  present : ∀ id ∈ measured, (ledger.results id).isSome = true
  archives : ∀ archive id, (ledger.invalidated archive id).isSome = true →
    ∃ role size scenario, archive = archiveName role size scenario ∧ size ≤ ledger.helperSize role
  accounted : Accounted ledger

/-- The records at the head of the loop, before the scenario at the index. -/
structure MatrixInvariant (config : FyreConfig) (initial : Nat × Nat) (index : Nat)
    (ledger : Ledger) : Prop where
  recorded : Recorded config initial ((config.scenarios.take index).map Scenario.id) ledger
  completed : ledger.completedScenarios = (config.scenarios.take index).map Scenario.id

/-- How many sizes the helpers can still grow. -/
def remainingSteps (config : FyreConfig) (locust fastTime : Nat) : Nat :=
  (config.infrastructure.helperSizes.length - 1 - locust) +
    (config.infrastructure.helperSizes.length - 1 - fastTime)

/-- The restarts so far and the sizes that remain add up to those of the start. -/
theorem Recorded.restarts_add {config : FyreConfig} {initial : Nat × Nat} {measured : List String}
    {ledger : Ledger} (hrecorded : Recorded config initial measured ledger) :
    ledger.restarts + remainingSteps config ledger.locustHelperSize ledger.fastTimeHelperSize =
      remainingSteps config initial.1 initial.2 := by
  obtain ⟨hlocust, hlocustBound⟩ := hrecorded.locust
  obtain ⟨hfastTime, hfastTimeBound⟩ := hrecorded.fastTime
  have hrestarts := hrecorded.restarts
  unfold remainingSteps
  omega

/-- The archive of a helper that just grew is new. -/
theorem Recorded.archive_fresh {config : FyreConfig} {initial : Nat × Nat} {measured : List String}
    {ledger : Ledger} (hrecorded : Recorded config initial measured ledger) (role : HelperRole)
    (scenario id : String) :
    ledger.invalidated (archiveName role (ledger.helperSize role + 1) scenario) id = none := by
  by_contra hpresent
  obtain ⟨other, size, at', heq, hsize⟩ :=
    hrecorded.archives _ id (Option.isSome_iff_ne_none.mpr hpresent)
  obtain ⟨rfl, rfl⟩ := archiveName_inj heq
  exact Nat.not_succ_le_self _ hsize

/-- The completed scenarios are no part of these records. -/
theorem Recorded.withCompleted {config : FyreConfig} {initial : Nat × Nat}
    {measured : List String} {ledger : Ledger} (hrecorded : Recorded config initial measured ledger)
    (completed : List String) :
    Recorded config initial measured { ledger with completedScenarios := completed } where
  locust := hrecorded.locust
  fastTime := hrecorded.fastTime
  restarts := hrecorded.restarts
  present := hrecorded.present
  archives := hrecorded.archives
  accounted := ⟨hrecorded.accounted.found, hrecorded.accounted.serials⟩
  results id measurement hresult := by
    obtain ⟨hmem, hscenario, hcurrent⟩ := hrecorded.results id measurement hresult
    exact ⟨hmem, hscenario, hcurrent.locust, hcurrent.fastTime, hcurrent.helpers⟩

/-- A new measurement of a scenario without a result directory. -/
def Ledger.measure (ledger : Ledger) (scenario : String) (helpers : ActiveHelper) : Ledger :=
  let measurement : Measurement := {
    serial := ledger.measurements.length
    scenario
    locustHelperSize := ledger.locustHelperSize
    fastTimeHelperSize := ledger.fastTimeHelperSize
    helpers }
  { ledger with
    results := Function.update ledger.results scenario (some measurement)
    measurements := ledger.measurements ++ [measurement] }

/-- A measurement of a new scenario is added to the record. -/
theorem Recorded.measure {config : FyreConfig} {initial : Nat × Nat} {measured : List String}
    {ledger : Ledger} (hrecorded : Recorded config initial measured ledger) {scenario : String}
    (hfresh : scenario ∉ measured) {helpers : ActiveHelper}
    (hhelpers : config.infrastructure.helperSizes[ledger.locustHelperSize]? = some helpers.locust ∧
      config.infrastructure.helperSizes[ledger.fastTimeHelperSize]? = some helpers.fastTime) :
    Recorded config initial (measured ++ [scenario]) (ledger.measure scenario helpers) where
  locust := hrecorded.locust
  fastTime := hrecorded.fastTime
  restarts := hrecorded.restarts
  archives := hrecorded.archives
  results id measurement hresult := by
    rcases eq_or_ne id scenario with rfl | hne
    · obtain rfl : _ = measurement := by simpa [Ledger.measure] using hresult
      exact ⟨List.mem_append_right _ (List.mem_singleton_self _), rfl, rfl, rfl, hhelpers⟩
    · have hold : ledger.results id = some measurement := by
        simpa [Ledger.measure, hne] using hresult
      obtain ⟨hmem, hscenario, hcurrent⟩ := hrecorded.results id measurement hold
      exact ⟨List.mem_append_left _ hmem, hscenario, hcurrent.locust, hcurrent.fastTime,
        hcurrent.helpers⟩
  present id hid := by
    rcases eq_or_ne id scenario with rfl | hne
    · simp [Ledger.measure]
    · have hmem : id ∈ measured := by simpa [hne] using hid
      simpa [Ledger.measure, hne] using hrecorded.present id hmem
  accounted := by
    refine ⟨fun measurement hmeasurement => ?_, ?_⟩
    · rcases List.mem_append.mp hmeasurement with hold | hnew
      · refine (hrecorded.accounted.found measurement hold).imp_left fun hresult => ?_
        have hne : measurement.scenario ≠ scenario := by
          rintro rfl
          exact hfresh (hrecorded.results _ _ hresult).1
        simpa [Ledger.measure, hne] using hresult
      · rw [List.mem_singleton.mp hnew]
        exact .inl (by simp [Ledger.measure])
    · simp [Ledger.measure, List.range_succ, hrecorded.accounted.serials]

def Ledger.grow (ledger : Ledger) : HelperRole → Ledger
  | .locust => { ledger with locustHelperSize := ledger.locustHelperSize + 1 }
  | .fastTime => { ledger with fastTimeHelperSize := ledger.fastTimeHelperSize + 1 }

/-- The records after a restart: one helper grown, every result archived. -/
def Ledger.restart (ledger : Ledger) (role : HelperRole) (scenario : String)
    (ids : List String) : Ledger :=
  { (ledger.grow role).archive (archiveName role (ledger.helperSize role + 1) scenario) ids with
    completedScenarios := []
    restarts := ledger.restarts + 1 }

theorem ledger_growHelper (world : FyreWorld) (role : HelperRole) :
    { world with state := world.state.growHelper role }.ledger = world.ledger.grow role := by
  cases role <;> rfl

/-- A role that grows takes the next configured size. -/
theorem helperSize_growHelper (world : FyreWorld) (role : HelperRole) :
    (world.state.growHelper role).helperSize role = world.ledger.helperSize role + 1 := by
  cases role <;> rfl

/-- The run after the last two steps of a restart. -/
def restarted (world : FyreWorld) (role : HelperRole) : FyreWorld :=
  { world with
    state := { world.state with completedScenarios := [] }
    events := world.events ++ [.restarted role] }

/-- A restart empties the list of completed scenarios. -/
theorem ledger_restarted (world : FyreWorld) (role : HelperRole) :
    (restarted world role).ledger = { world.ledger with
      completedScenarios := []
      restarts := world.ledger.restarts + 1 } := by
  simp [restarted, FyreWorld.ledger, measurementsOf, restartCount, isRestart]

/-- A restart archives the results there are and leaves the other archives alone. -/
theorem invalidated_restart (ledger : Ledger) (role : HelperRole) (scenario : String)
    (ids : List String) (archive id : String) :
    (ledger.restart role scenario ids).invalidated archive id =
      if archive = archiveName role (ledger.helperSize role + 1) scenario ∧ id ∈ ids ∧
        (ledger.results id).isSome = true then ledger.results id
      else ledger.invalidated archive id := by
  cases role <;> rfl

theorem results_restart (ledger : Ledger) (role : HelperRole) (scenario : String)
    (ids : List String) (id : String) : (ledger.restart role scenario ids).results id =
      if id ∈ ids then none else ledger.results id := by
  cases role <;> rfl

theorem helperSize_restart (ledger : Ledger) (role other : HelperRole) (scenario : String)
    (ids : List String) : (ledger.restart role scenario ids).helperSize other =
      if other = role then ledger.helperSize other + 1 else ledger.helperSize other := by
  cases role <;> cases other <;> rfl

/-- Each role has a configured size that is no smaller than the one it started with. -/
theorem Recorded.helperSize {config : FyreConfig} {initial : Nat × Nat} {measured : List String}
    {ledger : Ledger} (hrecorded : Recorded config initial measured ledger) :
    initial.1 ≤ ledger.helperSize .locust ∧
      ledger.helperSize .locust < config.infrastructure.helperSizes.length ∧
      initial.2 ≤ ledger.helperSize .fastTime ∧
      ledger.helperSize .fastTime < config.infrastructure.helperSizes.length :=
  ⟨hrecorded.locust.1, hrecorded.locust.2, hrecorded.fastTime.1, hrecorded.fastTime.2⟩

/-- A restart keeps the record of what was measured and archived. -/
theorem Recorded.restart {config : FyreConfig} {initial : Nat × Nat} {measured ids : List String}
    {ledger : Ledger} (hrecorded : Recorded config initial measured ledger) {role : HelperRole}
    (hsize : ledger.helperSize role + 1 < config.infrastructure.helperSizes.length)
    (scenario : String) (hids : measured ⊆ ids) :
    Recorded config initial [] (ledger.restart role scenario ids) := by
  obtain ⟨hlocust, hlocustBound, hfastTime, hfastTimeBound⟩ := hrecorded.helperSize
  have hrestarts : ledger.restarts + initial.1 + initial.2 =
      ledger.helperSize .locust + ledger.helperSize .fastTime := hrecorded.restarts
  have hlocustSize := helperSize_restart ledger role .locust scenario ids
  have hfastTimeSize := helperSize_restart ledger role .fastTime scenario ids
  constructor
  case locust =>
    change initial.1 ≤ (ledger.restart role scenario ids).helperSize .locust ∧
      (ledger.restart role scenario ids).helperSize .locust < _
    rw [hlocustSize]
    split
    next hrole => exact ⟨by omega, hrole ▸ hsize⟩
    · exact ⟨hlocust, hlocustBound⟩
  case fastTime =>
    change initial.2 ≤ (ledger.restart role scenario ids).helperSize .fastTime ∧
      (ledger.restart role scenario ids).helperSize .fastTime < _
    rw [hfastTimeSize]
    split
    next hrole => exact ⟨by omega, hrole ▸ hsize⟩
    · exact ⟨hfastTime, hfastTimeBound⟩
  case restarts =>
    change ledger.restarts + 1 + initial.1 + initial.2 =
      (ledger.restart role scenario ids).helperSize .locust +
        (ledger.restart role scenario ids).helperSize .fastTime
    rw [hlocustSize, hfastTimeSize]
    cases role <;> simp only [reduceCtorEq, if_true, if_false] <;> omega
  case results =>
    intro id measurement hresult
    rw [results_restart] at hresult
    split at hresult
    · cases hresult
    next hother => exact absurd (hids (hrecorded.results id measurement hresult).1) hother
  case present => exact fun id hid => by cases hid
  case archives =>
    intro archive id hpresent
    rw [invalidated_restart] at hpresent
    split at hpresent
    next hmoved =>
      exact ⟨role, _, scenario, hmoved.1, by rw [helperSize_restart, if_pos rfl]⟩
    next =>
      obtain ⟨other, size, at', heq, hold⟩ := hrecorded.archives archive id hpresent
      refine ⟨other, size, at', heq, hold.trans ?_⟩
      rw [helperSize_restart]
      split <;> omega
  case accounted =>
    refine ⟨fun measurement hmeasurement => .inr ?_, ?_⟩
    · have hold : measurement ∈ ledger.measurements := by cases role <;> exact hmeasurement
      rcases hrecorded.accounted.found measurement hold with hresult | ⟨archive, harchived⟩
      · refine ⟨archiveName role (ledger.helperSize role + 1) scenario, ?_⟩
        have hmem := hids (hrecorded.results _ _ hresult).1
        rw [invalidated_restart, if_pos ⟨rfl, hmem, by rw [hresult]; rfl⟩, hresult]
      · refine ⟨archive, ?_⟩
        rw [invalidated_restart, if_neg, harchived]
        rintro ⟨rfl, -⟩
        rw [hrecorded.archive_fresh] at harchived
        cases harchived
    · have hserials := hrecorded.accounted.serials
      cases role <;> exact hserials

/-! ## One scenario -/

section Scenario

variable {env : FyreEnv} {config : FyreConfig} {initial : Nat × Nat}

/-- The sizes of the state are within the list, and the helpers are those sizes. -/
def Selected (config : FyreConfig) (ledger : Ledger) (helpers : ActiveHelper) : Prop :=
  config.infrastructure.helperSizes[ledger.locustHelperSize]? = some helpers.locust ∧
    config.infrastructure.helperSizes[ledger.fastTimeHelperSize]? = some helpers.fastTime

theorem helperAt_eq (index : Nat) (hindex : index < config.infrastructure.helperSizes.length) :
    helperAt config index = pure config.infrastructure.helperSizes[index] := by
  unfold helperAt
  rw [List.getElem?_eq_getElem hindex]

/-- The active helpers have the sizes that the state names. -/
theorem activateHelpers_ensures {start : FyreWorld}
    (hlocust : start.ledger.locustHelperSize < config.infrastructure.helperSizes.length)
    (hfastTime : start.ledger.fastTimeHelperSize < config.infrastructure.helperSizes.length) :
    (activateHelpers env config).Ensures start fun result state =>
      state.ledger = start.ledger ∧ Benign result ∧
        ∀ helpers, result = .ok helpers → Selected config start.ledger helpers := by
  refine readWorld_then ?_
  rw [helperAt_eq start.state.locustHelperSize hlocust,
    helperAt_eq start.state.fastTimeHelperSize hfastTime]
  refine pure_then (pure_then (update_then ?_))
  refine (fileStep_quiet env).andThen (fun _ state hstate => ?_) fun _ _ hstate hbenign =>
    ⟨hstate, hbenign, fun _ hok => by cases hok⟩
  refine ⟨hstate, benign_ok _, fun helpers hok => ?_⟩
  cases hok
  exact ⟨List.getElem?_eq_getElem hlocust, List.getElem?_eq_getElem hfastTime⟩

theorem provisionScenario_quiet (scenario : Scenario) (helpers : ActiveHelper) :
    Quiet (provisionScenario env scenario helpers) := by
  refine Quiet.bind (Quiet.updateState ?_) fun _ => (writeState_quiet env).bind fun _ =>
    (writeVariables_quiet env).bind fun _ => Quiet.bind (Quiet.emitEvent ?_ ?_) fun _ =>
      awaitCancellable_quiet env
  · exact fun _ => ⟨rfl, rfl, rfl⟩
  · rfl
  · rfl

/-- A scenario without a result directory loses nothing when room is made for it. -/
theorem prepareResults_ensures {scenario : Scenario} {start : FyreWorld}
    (hfresh : start.ledger.results scenario.id = none) :
    (prepareResults env scenario).Ensures start fun result state =>
      state.ledger = start.ledger ∧ Benign result := by
  refine (fileStep_quiet env).andThen ?_ fun _ _ hstate hbenign => ⟨hstate, hbenign⟩
  intro _ state hstate
  have habsent : state.results scenario.id = none :=
    (congrFun (congrArg Ledger.results hstate) _).trans hfresh
  refine readWorld_then ?_
  rw [habsent]
  have hrest : Quiet (do
      fileStep env
      fileStep env
      Fyre.updateState fun state => { state with phase := .benchmarking }
      writeState env) := by
    refine (fileStep_quiet env).bind fun _ => (fileStep_quiet env).bind fun _ =>
      Quiet.bind (Quiet.updateState ?_) fun _ => writeState_quiet env
    exact fun _ => ⟨rfl, rfl, rfl⟩
  exact (hrest state).mono fun _ _ hafter => ⟨hafter.1.trans hstate, hafter.2⟩

theorem beginMeasurement_ledger (scenario : Scenario) (helpers : ActiveHelper)
    (start : FyreWorld) :
    (beginMeasurement scenario helpers).Ensures start fun result state =>
      result = .ok () ∧ state.ledger = start.ledger.measure scenario.id helpers := by
  refine ⟨rfl, ?_⟩
  simp [beginMeasurement, update, Action.run, FyreWorld.ledger, Ledger.measure, measurementsOf,
    restartCount, isRestart]

/-- A restart moves every result of the configured scenarios. -/
theorem growHelper_ensures {measured : List String} {scenario : Scenario} {start : FyreWorld}
    (hstart : Recorded config initial measured start.ledger)
    (hmeasured : measured ⊆ config.scenarios.map Scenario.id) :
    (growHelper env config scenario).Ensures start fun result state => Benign result ∧
      (∀ stop, result = .error stop → state.ledger.restarts = start.ledger.restarts) ∧
      (result = .ok () → Recorded config initial [] state.ledger ∧
        state.ledger.completedScenarios = [] ∧
        state.ledger.restarts = start.ledger.restarts + 1) := by
  have hrole : Quiet (requestedRole env) := by
    refine nextStep_quiet.bind fun step => ?_
    split
    · exact Quiet.failWith _
    · exact Quiet.failWith _
    · exact Quiet.failWith _
    · split
      · exact Quiet.failWith _
      · exact Quiet.pure _
  refine hrole.andThen ?_ fun _ _ hstate hbenign =>
    ⟨hbenign, fun _ _ => congrArg Ledger.restarts hstate, nofun⟩
  intro role state hstate
  refine update_then (readWorld_then ?_)
  simp only
  have hrestarts : (start.ledger.grow role).restarts = start.ledger.restarts := by
    cases role <;> rfl
  split
  · have hsame : state.ledger.restarts = start.ledger.restarts := by rw [hstate]
    exact ⟨benign_failed _, fun _ _ => hsame, nofun⟩
  next hsize =>
    -- Saving the state keeps the ledger that the growth has made.
    have hgrow : ∀ grown : FyreWorld, grown.ledger =
        { state with state := state.state.growHelper role }.ledger →
        grown.ledger = start.ledger.grow role := by
      intro grown hgrown
      rw [hgrown, ledger_growHelper, hstate]
    refine (fileStep_quiet env).andThen ?_ fun _ _ hgrown hbenign =>
      ⟨hbenign, fun _ _ => (congrArg Ledger.restarts (hgrow _ hgrown)).trans hrestarts, nofun⟩
    intro _ grown hgrown
    replace hgrow := hgrow grown hgrown
    refine (archiveResults_ensures env _ _ grown).bind ?_ fun _ _ hfailed =>
      ⟨hfailed.1.cast, fun _ _ => ?_, nofun⟩
    case refine_2 => exact hfailed.2.1.trans ((congrArg Ledger.restarts hgrow).trans hrestarts)
    rintro _ archived ⟨-, -, harchived⟩
    refine ⟨benign_ok _, nofun, fun _ => ?_⟩
    have hrole : (state.state.growHelper role).helperSize role =
        start.ledger.helperSize role + 1 := by
      rw [helperSize_growHelper, ← hstate]
    rw [hrole] at hsize
    rw [hgrow, hrole] at harchived
    -- The growth and the archived results together are one restart of the ledger.
    have hfinal : (restarted archived role).ledger =
        start.ledger.restart role scenario.id (config.scenarios.map Scenario.id) := by
      rw [ledger_restarted, harchived rfl]
      cases role <;> rfl
    change Recorded config initial [] (restarted archived role).ledger ∧
      (restarted archived role).ledger.completedScenarios = [] ∧
      (restarted archived role).ledger.restarts = start.ledger.restarts + 1
    rw [hfinal]
    exact ⟨hstart.restart (Nat.lt_of_not_le hsize) _ hmeasured, rfl, rfl⟩

/-- What a scenario leaves behind: the next one may start, or the matrix starts over
with one helper a size larger. -/
def ScenarioDone (config : FyreConfig) (initial : Nat × Nat) (index : Nat) (before : Ledger)
    (result : Except FyreStop ScenarioOutcome) (after : Ledger) : Prop :=
  Benign result ∧
    (∀ stop, result = .error stop → after.restarts = before.restarts) ∧
    (result = .ok .confirmed →
      MatrixInvariant config initial (index + 1) after ∧ after.restarts = before.restarts) ∧
    (result = .ok .saturated →
      MatrixInvariant config initial 0 after ∧ after.restarts = before.restarts + 1)

/-- A scenario that stops without a fault of its own needs no more than the count of restarts. -/
theorem ScenarioDone.stopped {index : Nat} {before after : Ledger} {stop : FyreStop}
    (hbenign : Benign (.error stop : Except FyreStop ScenarioOutcome))
    (hrestarts : after.restarts = before.restarts) :
    ScenarioDone config initial index before (.error stop) after :=
  ⟨hbenign, fun _ _ => hrestarts, nofun, nofun⟩

theorem take_succ_map {index : Nat} {scenario : Scenario}
    (hscenario : config.scenarios[index]? = some scenario) :
    (config.scenarios.take (index + 1)).map Scenario.id =
      (config.scenarios.take index).map Scenario.id ++ [scenario.id] := by
  rw [List.take_add_one, hscenario]
  simp

/-- A scenario is not among those before it. -/
theorem id_notMem_take {index : Nat} {scenario : Scenario}
    (hscenario : config.scenarios[index]? = some scenario)
    (hnodup : (config.scenarios.map Scenario.id).Nodup) :
    scenario.id ∉ (config.scenarios.take index).map Scenario.id := by
  have htake : ((config.scenarios.take (index + 1)).map Scenario.id).Nodup := by
    rw [List.map_take]
    exact hnodup.sublist (List.take_sublist _ _)
  rw [take_succ_map hscenario] at htake
  exact fun hmem => (List.nodup_append.mp htake).2.2 _ hmem _ (List.mem_singleton_self _) rfl

/-- A scenario is measured, stops, or restarts the matrix with a larger helper. -/
theorem runScenario_ensures {index : Nat} {scenario : Scenario} {start : FyreWorld}
    (hscenario : config.scenarios[index]? = some scenario)
    (hnodup : (config.scenarios.map Scenario.id).Nodup)
    (hstart : MatrixInvariant config initial index start.ledger) :
    (runScenario env config scenario).Ensures start fun result state =>
      ScenarioDone config initial index start.ledger result state.ledger := by
  have hfresh := id_notMem_take hscenario hnodup
  have hrecorded := hstart.recorded
  refine (activateHelpers_ensures hrecorded.locust.2 hrecorded.fastTime.2).bind ?_
    fun _ _ hfailed => .stopped hfailed.2.1.cast (congrArg Ledger.restarts hfailed.1)
  rintro helpers selected ⟨hselected, -, hhelpers⟩
  refine (provisionScenario_quiet scenario helpers).andThen ?_ fun _ _ hsame hbenign =>
    .stopped hbenign (congrArg Ledger.restarts (hsame.trans hselected))
  intro _ provisioned hprovisioned
  rw [hselected] at hprovisioned
  -- No result of the scenario is left from before the last restart.
  have habsent : provisioned.ledger.results scenario.id = none := by
    rw [hprovisioned]
    by_contra hpresent
    obtain ⟨measurement, hresult⟩ := Option.ne_none_iff_exists'.mp hpresent
    exact hfresh (hrecorded.results _ _ hresult).1
  refine (prepareResults_ensures habsent).bind ?_ fun _ _ hfailed =>
    .stopped hfailed.2.cast (congrArg Ledger.restarts (hfailed.1.trans hprovisioned))
  rintro _ prepared ⟨hprepared, -⟩
  refine (beginMeasurement_ledger scenario helpers prepared).bind ?_ fun _ _ hfailed => by
    cases hfailed.1
  rintro _ begun ⟨-, hbegun⟩
  rw [hprepared, hprovisioned] at hbegun
  have hmeasured := hrecorded.measure hfresh (hhelpers helpers rfl)
  rw [← hbegun, ← take_succ_map hscenario] at hmeasured
  have hcompleted : begun.ledger.completedScenarios = start.ledger.completedScenarios := by
    rw [hbegun]
    rfl
  have hrestarts : begun.ledger.restarts = start.ledger.restarts := by
    rw [hbegun]
    rfl
  refine (awaitCancellable_quiet env).settle.andThen ?_ fun _ _ hsame hbenign =>
    .stopped hbenign ((congrArg Ledger.restarts hsame).trans hrestarts)
  intro campaign after hafter
  rw [← hafter] at hmeasured hcompleted hrestarts
  -- The campaign ends, or a saturated helper has it start again.
  cases campaign with
  | ok =>
      refine update_then ((writeState_quiet env).andThen ?_ fun _ _ hsame hbenign =>
        .stopped hbenign ((congrArg Ledger.restarts hsame).trans hrestarts))
      intro _ final hfinal
      refine ⟨benign_ok _, nofun, fun _ => ⟨⟨?_, ?_⟩, ?_⟩, nofun⟩
      · change Recorded _ _ _ final.ledger
        rw [hfinal]
        exact hmeasured.withCompleted _
      · change final.ledger.completedScenarios = _
        rw [hfinal, take_succ_map hscenario, ← hstart.completed, ← hcompleted]
        rfl
      · change final.ledger.restarts = _
        rw [hfinal, ← hrestarts]
        rfl
  | error failure =>
      refine (awaitCancellable_quiet env).settle.andThen ?_ fun _ _ hsame hbenign =>
        .stopped hbenign ((congrArg Ledger.restarts hsame).trans hrestarts)
      intro _ collected hcollected
      rw [← hcollected] at hmeasured hrestarts
      split
      · have hsubset : (config.scenarios.take (index + 1)).map Scenario.id ⊆
            config.scenarios.map Scenario.id :=
          ((List.take_sublist _ _).map Scenario.id).subset
        refine (growHelper_ensures hmeasured hsubset).bind ?_ fun _ _ hfailed =>
          .stopped hfailed.1.cast ((hfailed.2.1 _ rfl).trans hrestarts)
        rintro _ grown ⟨-, -, hgrown⟩
        obtain ⟨hagain, hnone, hcount⟩ := hgrown rfl
        refine ⟨benign_ok _, nofun, nofun, fun _ => ⟨⟨?_, ?_⟩, ?_⟩⟩
        · exact hagain
        · exact hnone
        · exact hcount.trans (congrArg (· + 1) hrestarts)
      · exact .stopped (benign_failed _) hrestarts

end Scenario

/-! ## The whole matrix -/

section Loop

variable {env : FyreEnv} {config : FyreConfig} {initial : Nat × Nat}

/-- The loop restarts once for each size left and otherwise moves on to the next scenario,
so this many turns are enough. -/
theorem matrixLoop_ensures (hnodup : (config.scenarios.map Scenario.id).Nodup) (fuel index : Nat)
    (start : FyreWorld) (hindex : index ≤ config.scenarios.length)
    (hstart : MatrixInvariant config initial index start.ledger)
    (hfuel : (remainingSteps config start.ledger.locustHelperSize
      start.ledger.fastTimeHelperSize) * config.scenarios.length +
        (config.scenarios.length - index) < fuel) :
    (matrixLoop env config fuel index).Ensures start fun result state => Benign result ∧
      state.ledger.restarts ≤ remainingSteps config initial.1 initial.2 ∧
      (result = .ok () → MatrixInvariant config initial config.scenarios.length state.ledger) := by
  induction fuel generalizing index start with
  | zero => exact absurd hfuel (Nat.not_lt_zero _)
  | succ fuel ih =>
      have hbefore := hstart.recorded.restarts_add
      have hbound : start.ledger.restarts ≤ remainingSteps config initial.1 initial.2 := by omega
      unfold matrixLoop
      split
      next hend =>
        refine ⟨benign_ok _, hbound, fun _ => ?_⟩
        have hlength : index = config.scenarios.length :=
          Nat.le_antisymm hindex (List.getElem?_eq_none_iff.mp hend)
        exact hlength ▸ hstart
      next scenario hscenario =>
        have hlt : index < config.scenarios.length := (List.getElem?_eq_some_iff.mp hscenario).1
        refine (runScenario_ensures hscenario hnodup hstart).bind ?_ fun _ _ hfailed =>
          ⟨hfailed.1.cast, (hfailed.2.1 _ rfl).trans_le hbound, nofun⟩
        rintro outcome state ⟨-, -, hconfirmed, hsaturated⟩
        cases outcome with
        | confirmed =>
            obtain ⟨hnext, hrestarts⟩ := hconfirmed rfl
            have hafter := hnext.recorded.restarts_add
            -- One scenario fewer is left.
            refine ih (index + 1) state hlt hnext ?_
            rw [show remainingSteps config state.ledger.locustHelperSize
              state.ledger.fastTimeHelperSize = remainingSteps config start.ledger.locustHelperSize
              start.ledger.fastTimeHelperSize by omega]
            omega
        | saturated =>
            obtain ⟨hagain, hrestarts⟩ := hsaturated rfl
            have hafter := hagain.recorded.restarts_add
            -- All scenarios are left again, but one growth step fewer.
            refine ih 0 state (Nat.zero_le _) hagain ?_
            rw [show remainingSteps config start.ledger.locustHelperSize
              start.ledger.fastTimeHelperSize = remainingSteps config state.ledger.locustHelperSize
              state.ledger.fastTimeHelperSize + 1 by omega, Nat.succ_mul] at hfuel
            omega

/-- A run whose directory holds nothing yet, with the initial helper sizes. -/
structure Fresh (config : FyreConfig) (world : FyreWorld) : Prop where
  sizes : initialHelperIndices config =
    .ok (world.state.locustHelperSize, world.state.fastTimeHelperSize)
  completed : world.state.completedScenarios = []
  results : ∀ id, world.results id = none
  invalidated : ∀ archive id, world.invalidated archive id = none
  measurements : measurementsOf world.events = []
  restarts : restartCount world.events = 0

/-- What a successful matrix leaves behind. -/
structure OneAllocation (config : FyreConfig) (world : FyreWorld) : Prop where
  completed : world.state.completedScenarios = config.scenarios.map Scenario.id
  nodup : world.state.completedScenarios.Nodup
  /-- Exactly the configured scenarios have results. -/
  present : ∀ id, (world.results id).isSome = true ↔ id ∈ config.scenarios.map Scenario.id
  /-- A result was measured with the final sizes. -/
  final : ∀ id measurement, world.results id = some measurement → measurement.scenario = id ∧
    measurement.locustHelperSize = world.state.locustHelperSize ∧
    measurement.fastTimeHelperSize = world.state.fastTimeHelperSize ∧
    config.infrastructure.helperSizes[world.state.locustHelperSize]? =
      some measurement.helpers.locust ∧
    config.infrastructure.helperSizes[world.state.fastTimeHelperSize]? =
      some measurement.helpers.fastTime
  /-- No measurement was overwritten: each is a result or archived. -/
  kept : ∀ measurement ∈ measurementsOf world.events,
    world.results measurement.scenario = some measurement ∨
      ∃ archive, world.invalidated archive measurement.scenario = some measurement
  /-- A measurement with other sizes was archived. -/
  archived : ∀ measurement ∈ measurementsOf world.events,
    measurement.locustHelperSize ≠ world.state.locustHelperSize ∨
      measurement.fastTimeHelperSize ≠ world.state.fastTimeHelperSize →
    ∃ archive, world.invalidated archive measurement.scenario = some measurement
  serials : (measurementsOf world.events).map Measurement.serial =
    List.range (measurementsOf world.events).length

/-- A fresh run starts with nothing measured. -/
theorem Fresh.invariant {start : FyreWorld} (hvalid : ValidConfig config)
    (hfresh : Fresh config start) :
    MatrixInvariant config (start.state.locustHelperSize, start.state.fastTimeHelperSize) 0
      start.ledger := by
  obtain ⟨hlocust, hfastTime⟩ := initialHelperIndices_lt hvalid.helperSizes hfresh.sizes
  refine ⟨{
    locust := ⟨le_refl _, hlocust⟩
    fastTime := ⟨le_refl _, hfastTime⟩
    restarts := ?_
    results := fun id measurement hresult => ?_
    present := fun id hid => by cases hid
    archives := fun archive id hpresent => ?_
    accounted := ⟨fun measurement hmeasurement => ?_, ?_⟩ }, hfresh.completed⟩
  · change restartCount start.events + _ + _ = _
    rw [hfresh.restarts, Nat.zero_add]
    rfl
  · exact absurd (hresult.symm.trans (hfresh.results id)) (by simp)
  · change (start.invalidated archive id).isSome = true at hpresent
    rw [hfresh.invalidated] at hpresent
    cases hpresent
  · change measurement ∈ measurementsOf start.events at hmeasurement
    rw [hfresh.measurements] at hmeasurement
    cases hmeasurement
  · change (measurementsOf start.events).map Measurement.serial =
      List.range (measurementsOf start.events).length
    rw [hfresh.measurements]
    rfl

/-- After its last scenario the matrix has measured all of them on one allocation. -/
theorem MatrixInvariant.oneAllocation {world : FyreWorld} (hvalid : ValidConfig config)
    (hend : MatrixInvariant config initial config.scenarios.length world.ledger) :
    OneAllocation config world := by
  obtain ⟨hrecorded, hcompleted⟩ := hend
  rw [List.take_length] at hrecorded hcompleted
  have hkept := hrecorded.accounted.found
  refine {
    completed := hcompleted
    nodup := by
      rw [show world.state.completedScenarios = _ from hcompleted]
      exact hvalid.ids
    present := fun id => ⟨fun hpresent => ?_, hrecorded.present id⟩
    final := fun id measurement hresult => ?_
    kept := hkept
    archived := fun measurement hmeasurement hother => ?_
    serials := hrecorded.accounted.serials }
  · obtain ⟨measurement, hresult⟩ := Option.isSome_iff_exists.mp hpresent
    exact (hrecorded.results id measurement hresult).1
  · obtain ⟨-, hscenario, hlocust, hfastTime, hhelpers⟩ := hrecorded.results id measurement hresult
    rw [hlocust, hfastTime] at hhelpers
    exact ⟨hscenario, hlocust, hfastTime, hhelpers⟩
  · refine (hkept measurement hmeasurement).resolve_left fun hresult => ?_
    obtain ⟨-, -, hlocust, hfastTime, -⟩ := hrecorded.results _ measurement hresult
    exact hother.elim (absurd hlocust) (absurd hfastTime)

/-- Every run of the matrix looks up sizes within the list and restarts at most once for
each size left; a successful one keeps the results of a single allocation. -/
theorem runFyreMatrix_oneAllocation (env : FyreEnv) {start : FyreWorld}
    (hvalid : validateConfig config = .ok ⟨⟩) (hfresh : Fresh config start) :
    (runFyreMatrix env config).Ensures start fun result state => Benign result ∧
      restartCount state.events ≤
        remainingSteps config start.state.locustHelperSize start.state.fastTimeHelperSize ∧
      (result = .ok () → OneAllocation config state) := by
  have hconfig := validateConfig_ok hvalid
  have hinvariant := hfresh.invariant hconfig
  refine (fileStep_quiet env).andThen ?_ fun _ stopped hsame hbenign => ⟨hbenign, ?_, nofun⟩
  · intro _ state hstate
    rw [← hstate] at hinvariant
    have hfuel : remainingSteps config state.ledger.locustHelperSize
        state.ledger.fastTimeHelperSize * config.scenarios.length +
          (config.scenarios.length - 0) < matrixFuel config := by
      have hsteps : remainingSteps config state.ledger.locustHelperSize
          state.ledger.fastTimeHelperSize ≤ 2 * config.infrastructure.helperSizes.length := by
        unfold remainingSteps
        omega
      have hproduct := Nat.mul_le_mul_right config.scenarios.length hsteps
      rw [matrixFuel, Nat.add_mul]
      omega
    refine (matrixLoop_ensures hconfig.ids _ 0 state (Nat.zero_le _) hinvariant hfuel).mono
      fun result after hafter => ⟨hafter.1, hafter.2.1, fun hok => ?_⟩
    exact (hafter.2.2 hok).oneAllocation hconfig
  · have hnone : restartCount stopped.events = 0 :=
      (congrArg Ledger.restarts hsame).trans hfresh.restarts
    exact hnone ▸ Nat.zero_le _

end Loop

/-- The first campaign saturates the Locust helper; nothing else fails. -/
def saturatingEnv : FyreEnv where
  file _ := none
  leavesRoot _ := false
  saveState _ := none
  command step :=
    if step = 9 then some (.infrastructure (.childExit (some helperSaturationExit) "")) else none
  cutOff _ := false
  helperRequest _ := .role (some "locust")

/-- The directory of a run of the packaged profile before its matrix. -/
def packagedStart : FyreWorld where
  rootExists := true
  state := ⟨"scale", .initializing, none, 1, 2, [], true⟩
  saved := none
  variablesWritten := false
  activeHelper := none
  results _ := none
  invalidated _ _ := none
  events := []
  steps := 0

theorem runFyreMatrix_oneAllocation_saturated :
    ((runFyreMatrix saturatingEnv packagedProfile).run packagedStart).1 = .ok () ∧
      (runFyreMatrix saturatingEnv packagedProfile).Ensures packagedStart fun result state =>
        Benign result ∧ restartCount state.events ≤ remainingSteps packagedProfile 1 2 ∧
          (result = .ok () → OneAllocation packagedProfile state) :=
  ⟨by decide +kernel, runFyreMatrix_oneAllocation saturatingEnv validateConfig_packagedProfile
    ⟨by rfl, rfl, fun _ => rfl, fun _ _ => rfl, rfl, rfl⟩⟩

end CfIntegration.Fyre
