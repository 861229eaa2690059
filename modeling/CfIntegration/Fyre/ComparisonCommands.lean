import CfIntegration.Fyre.FixedComparison

/-! # What a comparison leaves behind

A lane is measured with its own project up, under the credentials that were issued for it,
and after the other project was told to go down. The runs follow the schedule, the saved
result agrees with how the comparison ends, and the target is reset last.
-/

namespace CfIntegration.Fyre.FixedComparison

open CfIntegration.Action History

def loadOf (entry : Entry) : Option LoadArguments :=
  match entry.command with
  | .load arguments => some arguments
  | _ => none

def loads (log : List Entry) : List LoadArguments := log.filterMap loadOf

/-- A `down` of the project failed. One that was only refused was passed over. -/
def Refused (log : List Entry) (host : String) (lane : Lane) : Prop :=
  ∃ entry ∈ log, entry.host = host ∧ entry.command = .composeDown lane ∧
    entry.fate.succeeded = false

section
variable (env : Environment) (config : CampaignConfig) (inventory : Inventory) (target : Machine)

/-- The token and the tools that a lane was given when it was prepared. -/
def Granted (log : List Entry) (token : String) (tools : List String) : Lane → Prop
  | .rust => tools = config.workload.tools ∧ ∃ entry ∈ log, entry.host = target.publicIp ∧
      entry.command = .mintToken ∧ entry.fate.succeeded = true ∧ strip entry.fate.stdout = token
  | .builtin => ∃ entry ∈ log, entry.host = target.publicIp ∧
      entry.command = .registerBackend (backendUrl inventory) ∧ entry.fate.succeeded = true ∧
      readRegistration env entry.fate.stdout = .ok ⟨token, tools⟩

def TargetEnvironment (contents : String) : Lane → Prop
  | .rust => contents = rustEnvironment config target
  | .builtin => ∃ tokenHex, contents = builtinEnvironment config target tokenHex

/-- The environment of the load host. -/
def loadEnvironment (token : String) (tools : List String) : Lane → String
  | .rust => laneEnvironment token config.workload.protocolVersion "dataplane"
      s!"http://{target.privateIp}:4445" tools
  | .builtin => laneEnvironment token config.workload.protocolVersion "controlplane"
      s!"http://{target.privateIp}:4444" tools

/-- The project of a lane is not up on the target, unless a `down` of it failed. -/
def Down (log : List Entry) (hosts : Hosts) (lane : Lane) : Prop :=
  hosts.projects (target.publicIp, lane) = none ∨ Refused log target.publicIp lane

/-- The hosts are as the measurement of a lane needs them. -/
structure Ready (log : List Entry) (hosts : Hosts) (lane : Lane) : Prop where
  up : ∃ contents, TargetEnvironment config target contents lane ∧
    hosts.projects (target.publicIp, lane) = some ⟨some contents, some (backendUrl inventory)⟩
  alone : Down target log hosts lane.other
  credentials : ∃ token tools, Granted env config inventory target log token tools lane ∧
    hosts.files (inventory.locust.publicIp, "cf-fyre/state/token") = some token ∧
    hosts.files (inventory.locust.publicIp, "cf-fyre/" ++ lane.environmentFile) =
      some (loadEnvironment config target token tools lane)

/-- Where an entry puts load on a lane, the hosts were ready for that lane. -/
def Measured (before : List Entry) (entry : Entry) : Prop :=
  ∀ arguments, loadOf entry = some arguments → ∃ lane users,
    arguments = loadArguments config lane users ∧ entry.host = inventory.locust.publicIp ∧
      Ready env config inventory target before entry.hosts lane

/-- The start or the end of a monitor went wrong. -/
def Unattended (log : List Entry) : Prop :=
  ∃ entry ∈ log, (∃ role name, entry.command = .startMonitor role name ∧
      (entry.fate.succeeded = false ∨ ∀ pid, env.int entry.fate.stdout ≠ .ok pid)) ∨
    ∃ pid, entry.command = .stopMonitor pid ∧ entry.fate.succeeded = false

/-- No monitor is left that was not there before, unless one could not be handled. -/
def Watched (before : List (String × Option Int)) (world : World) : Prop :=
  world.hosts.monitors ⊆ before ∨ Unattended env world.log

/-- The levels of the lanes, in the order in which they are measured. -/
def schedule : List (Lane × Nat) :=
  [Lane.rust, .builtin].flatMap fun lane => (userLevels config).map (lane, ·)

def scheduled (item : Lane × Nat) : LoadArguments := loadArguments config item.1 item.2

/-- A run of a level, judged by what its phase left. -/
structure Judged (item : Lane × Nat) (run : Run) : Prop where
  lane : run.lane = item.1
  report : ∃ number code,
    Fyre.onePhase item.2 { env.evidence number with returncode := code } = .ok run.report

/-- A run that lets the comparison go on. -/
structure Good (item : Lane × Nat) (run : Run) : Prop extends Judged env item run where
  passed : run.report.passed = true
  unsaturated : helperSaturation config run.report = none

/-- A write of a local file was interrupted. -/
def WriteFailed (world : World) : Prop :=
  ∃ number < world.writes, env.write number ≠ .written

/-- Every run is filed under its lane. -/
def Filed (result : Result) : Prop := ∀ lane, ∀ run ∈ result.runs lane, run.lane = lane

/-- What was done when the comparison stopped: the levels that were measured in full and the
one that was not. -/
structure Trace (monitors : List (String × Option Int)) (done : List (Lane × Nat))
    (current : Option (Lane × Nat)) (world : World) : Prop where
  measured : Fits (Measured env config inventory target) world.log
  watched : Watched env monitors world
  order : done ++ current.toList <+: schedule config
  loads : loads world.log = done.map (scheduled config) ∨
    loads world.log = (done ++ current.toList).map (scheduled config)
  runs : ∃ good last, world.result.all = good ++ last ∧ List.Forall₂ (Good env config) done good ∧
    (last = [] ∨ List.Forall₂ (Judged env) current.toList last)
  filed : Filed world.result
  saved : world.saved = .result world.result ∨ WriteFailed env world

/-- The comparison stopped at a run, for the given reason. -/
structure StoppedAt (item : Lane × Nat) (run : Run) (status : Status) (reason : String)
    (world : World) : Prop where
  last : world.result.all.getLast? = some run
  judged : Judged env item run
  status : world.result.status = status
  reason : world.result.reason = some reason

/-- How the comparison ended before the last reset. -/
inductive Verdict (done : List (Lane × Nat)) (current : Option (Lane × Nat)) (world : World) :
    Except Stop Result → Prop where
  | confirmed (hstatus : world.result.status = .confirmed) (hdone : done = schedule config)
      (hruns : List.Forall₂ (Good env config) done world.result.all) :
      Verdict done current world (.ok world.result)
  | failed {item : Lane × Nat} {run : Run} (hcurrent : current = some item)
      (hstopped : StoppedAt env item run .failed
        (run.report.reason.getD s!"{item.1.name} failed at {item.2} users") world)
      (hpassed : run.report.passed = false)
      (hunsaturated : helperSaturation config run.report = none) :
      Verdict done current world (.ok world.result)
  | saturated {item : Lane × Nat} {run : Run} {role : HelperRole} (hcurrent : current = some item)
      (hstopped : StoppedAt env item run .inconclusive
        s!"{role.name} helper saturated at {item.2} users" world)
      (hsaturated : helperSaturation config run.report = some role)
      (hrequest : world.helperRequest = some role) :
      Verdict done current world (.error .saturated)
  | raised {message noted : String} (hstatus : world.result.status = .failed)
      (hreason : world.result.reason = some noted)
      (hmessage : message = noted ∨ WriteFailed env world) :
      Verdict done current world (.error (.raised message))

def resetCommands : List Command := [.composeDown .rust, .composeDown .builtin, .forgetState]

/-- The message with which a command stops the reset. Only the last one is checked. -/
def Entry.stops (entry : Entry) : Option String :=
  match entry.fate with
  | .raised message _ => some message
  | .exited code _ _ =>
      if entry.command = .forgetState ∧ code ≠ 0 then
        some (env.refusal entry.host entry.command code)
      else none

/-- What a reset answers: the first message that stopped it. -/
def resetAnswer (reset : List Entry) : Except String Unit :=
  match reset.findSome? (Entry.stops env) with
  | none => .ok ()
  | some message => .error message

/-- The last reset. Its own error takes the place of the outcome. -/
structure Reset (inner outcome : Except Stop Result) (world : World) (reset : List Entry) :
    Prop where
  last : reset <:+ world.log
  commands : reset.map Entry.command <+: resetCommands
  complete : resetAnswer env reset = .ok () → reset.map Entry.command = resetCommands
  stopped : ∀ entry ∈ reset.dropLast, entry.stops env = none
  onTarget : ∀ entry ∈ reset, entry.host = target.publicIp
  cleared : (∀ entry ∈ reset, entry.fate.succeeded = true) →
    (∀ lane, world.hosts.projects (target.publicIp, lane) = none) ∧
      world.hosts.files (target.publicIp, "cf-fyre/state/token") = none
  outcome : outcome = match resetAnswer env reset with
    | .ok () => inner
    | .error message => .error (.raised message)

/-- Why a comparison stopped before its first command: there is no scenario, the first save
was interrupted, or there is no target. -/
inductive Unstarted : Except Stop Result → Prop where
  | noScenario (hscenarios : config.scenarios = []) :
      Unstarted (.error (.raised "list index out of range"))
  | notSaved {message : String} {left : Left} (hscenarios : config.scenarios ≠ [])
      (hwrite : env.write 0 = .raised message left) : Unstarted (.error (.raised message))
  | noTarget (hscenarios : config.scenarios ≠ []) (hwrite : env.write 0 = .written)
      (hdataplanes : inventory.dataplanes = []) :
      Unstarted (.error (.raised "list index out of range"))

/-- What is said of a comparison. It may stop before it has a target, and then nothing is
issued or recorded; otherwise it was measured as scheduled, ended as its result tells, and the
target was reset last. -/
def Conducted (hosts : Hosts) (outcome : Except Stop Result) (after : World) : Prop :=
  (Unstarted env config inventory outcome ∧ after.log = [] ∧
      after.result = initialResult config inventory) ∨
    ∃ target others, config.scenarios ≠ [] ∧ env.write 0 = .written ∧
      inventory.dataplanes = target :: others ∧ ∃ done current inner reset,
        Trace env config inventory target hosts.monitors done current after ∧
          Verdict env config done current after inner ∧
          Reset env target inner outcome after reset

end

def Command.watches : Command → Bool
  | .startMonitor _ _ | .stopMonitor _ => true
  | _ => false

def Command.isLoad : Command → Bool
  | .load _ => true
  | _ => false

/-- The commands of a phase change neither the projects nor the files of a host. -/
def Command.measures : Command → Bool
  | .smoke .. | .startMonitor .. | .load _ | .stopMonitor _ | .copyReports _ | .copyTelemetry _ =>
      true
  | _ => false

section
variable {env : Environment} {check : Bool} {host : String} {command : Command}
  {property : World → Prop}

/-- Only the commands that watch change the monitors. -/
theorem apply_monitors (hosts : Hosts) (stdout : String) (hwatches : command.watches = false) :
    (hosts.apply env host stdout command).monitors = hosts.monitors := by
  cases command <;> first | rfl | cases hwatches

/-- The commands of a measurement leave the projects and the files as they were. -/
theorem apply_measures (hosts : Hosts) (stdout : String) (hmeasures : command.measures = true) :
    (hosts.apply env host stdout command).projects = hosts.projects ∧
      (hosts.apply env host stdout command).files = hosts.files := by
  cases command <;> first | exact ⟨rfl, rfl⟩ | cases hmeasures

theorem Fate.carried_of_succeeded {fate : Fate} (hsucceeded : fate.succeeded = true) :
    fate.carried = true := by
  cases fate with
  | exited code stdout carriedOut => simp [Fate.carried, of_decide_eq_true hsucceeded]
  | raised message carriedOut => cases hsucceeded

/-- The next entry of the log. -/
def nextEntry (env : Environment) (world : World) (host : String) (command : Command) : Entry :=
  ⟨host, command, world.hosts, env.fate world.log.length⟩

/-- The hosts after a command. -/
def nextHosts (env : Environment) (world : World) (host : String) (command : Command) : Hosts :=
  if (env.fate world.log.length).carried then
    world.hosts.apply env host (env.fate world.log.length).stdout command
  else world.hosts

def issued (env : Environment) (world : World) (host : String) (command : Command) : World :=
  { world with
    hosts := nextHosts env world host command
    log := world.log ++ [nextEntry env world host command] }

/-- How a command may return. -/
inductive Returned (check : Bool) (fate : Fate) : Except String (Int × String) → Prop where
  | answered {code : Int} (hcode : fate.succeeded = decide (code = 0))
      (hcheck : check = true → code = 0) : Returned check fate (.ok (code, fate.stdout))
  | failed (hfailed : fate.succeeded = false) (message : String) :
      Returned check fate (.error message)

theorem issued_hosts (world : World)
    (hsucceeded : (env.fate world.log.length).succeeded = true) :
    (issued env world host command).hosts =
      world.hosts.apply env host (env.fate world.log.length).stdout command := by
  unfold issued nextHosts
  rw [if_pos (Fate.carried_of_succeeded hsucceeded)]

/-- A remote command is logged, applied as far as its fate lets it, and answered. -/
theorem remote_ensures (world : World) :
    (remote env check host command).Ensures world fun result after =>
      after = issued env world host command ∧
        Returned check (env.fate world.log.length) result := by
  unfold Ensures Action.run remote issued nextHosts nextEntry
  cases hfate : env.fate world.log.length with
  | raised message carriedOut => exact ⟨rfl, .failed rfl message⟩
  | exited code stdout carriedOut =>
      dsimp only
      split
      next hrefused =>
        refine ⟨rfl, .failed ?_ _⟩
        exact decide_eq_false hrefused.2
      next haccepted =>
        exact ⟨rfl, .answered rfl fun hcheck => by_contra fun hcode => haccepted ⟨hcheck, hcode⟩⟩

/-- A command of the reset answers with the message that stops the reset. -/
theorem remote_answers (world : World) (hcheck : check = decide (command = .forgetState)) :
    (remote env check host command).Ensures world fun result after =>
      after = issued env world host command ∧
        (match result with
          | .ok _ => (nextEntry env world host command).stops env = none
          | .error message => (nextEntry env world host command).stops env = some message) := by
  subst hcheck
  unfold Ensures Action.run remote issued nextHosts Entry.stops nextEntry
  cases hfate : env.fate world.log.length with
  | raised message carriedOut => exact ⟨rfl, rfl⟩
  | exited code stdout carriedOut =>
      simp only [decide_eq_true_eq]
      split
      · exact ⟨rfl, rfl⟩
      · exact ⟨rfl, rfl⟩

/-- What stops the reset did not succeed. -/
theorem Entry.failed_of_stops {entry : Entry} {message : String}
    (hstops : entry.stops env = some message) : entry.fate.succeeded = false := by
  unfold Entry.stops at hstops
  unfold Fate.succeeded
  split at hstops
  next hraised => rw [hraised]
  next hexited =>
    rw [hexited]
    split at hstops
    next hrefused => exact decide_eq_false hrefused.2
    next => cases hstops

/-- A property that every command of a kind keeps is kept by issuing one. -/
theorem keeps_remote
    (hissued : ∀ world, property world → property (issued env world host command)) :
    Keeps property (remote env check host command) := fun world hworld =>
  (remote_ensures world).mono fun _ _ hafter => hafter.1 ▸ hissued world hworld

/-- A checked command that returns was carried out. -/
theorem remote_returns (world : World) :
    (remote env true host command).Returns world fun answer after => ∃ entry : Entry,
      entry.host = host ∧ entry.command = command ∧ entry.fate.succeeded = true ∧
        entry.fate.stdout = answer.2 ∧
        after.hosts = world.hosts.apply env host answer.2 command ∧
        after.log = world.log ++ [entry] := by
  refine (remote_ensures world).mono ?_
  rintro result after ⟨rfl, hreturned⟩ answer rfl
  cases hreturned with
  | @answered code hcode hcheck =>
      have hsucceeded : (env.fate world.log.length).succeeded = true := by
        rw [hcode, hcheck rfl]
        rfl
      exact ⟨nextEntry env world host command, rfl, rfl, hsucceeded, rfl,
        issued_hosts world hsucceeded, rfl⟩

end

/-- The commands that prepare a lane or reset the target keep a property. -/
def KeptByPreparing (env : Environment) (property : World → Prop) : Prop :=
  ∀ check host command, command.watches = false → command.isLoad = false →
    Keeps property (remote env check host command)

section
variable {env : Environment} {config : CampaignConfig} {inventory : Inventory} {target : Machine}
  {property : World → Prop}

theorem keeps_ignore {α : Type} {action : RemoteAction α} (haction : Keeps property action) :
    Keeps property (do let _ ← action) := haction.bind fun _ => keeps_pure _

theorem keeps_commandNumber : Keeps property commandNumber := fun _ hworld => hworld

theorem keeps_pullImages {host : String} {lane : Lane} (delays : List Nat)
    (hremote : Keeps property (remote env false host (.composePull lane))) :
    Keeps property (pullImages env host lane delays) := by
  induction delays with
  | nil =>
      refine hremote.bind fun answer => ?_
      dsimp only
      split
      · exact keeps_pure _
      · exact keeps_fail _
  | cons delay delays ih =>
      refine hremote.bind fun answer => ?_
      dsimp only
      split
      · exact keeps_pure _
      · exact ih

section
variable (hkept : KeptByPreparing env property)
include hkept

theorem keeps_writeRemoteFile {host contents path : String} :
    Keeps property (writeRemoteFile env host contents path) :=
  (hkept _ _ _ rfl rfl).bind fun _ => keeps_ignore (hkept _ _ _ rfl rfl)

theorem keeps_composeUp {host : String} {lane : Lane} :
    Keeps property (composeUp env host lane) :=
  (keeps_pullImages _ (hkept _ _ _ rfl rfl)).bind fun _ => keeps_ignore (hkept _ _ _ rfl rfl)

theorem keeps_resetComparisonTarget : Keeps property (resetComparisonTarget env target) :=
  (keeps_forEach fun _ _ => keeps_ignore (hkept _ _ _ rfl rfl)).bind fun _ =>
    keeps_ignore (hkept _ _ _ rfl rfl)

theorem keeps_writeLaneEnvironment {token protocolVersion stackMode baseUrl : String}
    {toolNames : List String} {destination : String} :
    Keeps property (writeLaneEnvironment env inventory token protocolVersion stackMode baseUrl
      toolNames destination) :=
  (keeps_writeRemoteFile hkept).bind fun _ => keeps_writeRemoteFile hkept

theorem keeps_prepareRustComparison :
    Keeps property (prepareRustComparison env config inventory target) := by
  refine (keeps_resetComparisonTarget hkept).bind fun _ => ?_
  refine (keeps_writeRemoteFile hkept).bind fun _ => ?_
  refine (keeps_composeUp hkept).bind fun _ => ?_
  refine (hkept _ _ _ rfl rfl).bind fun answer => ?_
  dsimp only
  split
  · exact keeps_fail _
  · refine (keeps_writeRemoteFile hkept).bind fun _ => ?_
    refine (hkept _ _ _ rfl rfl).bind fun _ => ?_
    exact (keeps_writeLaneEnvironment hkept).bind fun _ => keeps_pure _

theorem keeps_prepareBuiltinComparison :
    Keeps property (prepareBuiltinComparison env config inventory target) := by
  refine (keeps_resetComparisonTarget hkept).bind fun _ => ?_
  refine keeps_commandNumber.bind fun number => ?_
  refine (keeps_writeRemoteFile hkept).bind fun _ => ?_
  refine (keeps_composeUp hkept).bind fun _ => ?_
  refine (hkept _ _ _ rfl rfl).bind fun answer => ?_
  refine (keeps_ofExcept _).bind fun registration => ?_
  exact (keeps_writeLaneEnvironment hkept).bind fun _ => keeps_pure _

/-- Preparing either lane keeps what its commands keep. -/
theorem keeps_prepare (lane : Lane) :
    Keeps property (prepare env config inventory target lane) := by
  cases lane with
  | rust => exact keeps_prepareRustComparison hkept
  | builtin => exact keeps_prepareBuiltinComparison hkept

end

section
variable {lane : Lane} {users : Nat}

theorem keeps_collectPhase (name : String) (code : Int)
    (hremote : ∀ host command, command.measures = true → command.watches = false →
      command.isLoad = false → Keeps property (remote env false host command)) :
    Keeps property (collectPhase env inventory name users code) := by
  refine (hremote _ _ rfl rfl rfl).bind fun _ => ?_
  refine keeps_commandNumber.bind fun number => ?_
  dsimp only
  split
  · exact keeps_fail _
  · refine (keeps_forEach fun monitor _ => ?_).bind fun _ => keeps_ofExcept _
    exact keeps_ignore (hremote _ _ rfl rfl rfl)

/-- Starting the monitors keeps what their start commands keep. -/
theorem keeps_startMonitors (name : String) (hosts : List (String × String))
    (hremote : ∀ host role, Keeps property (remote env true host (.startMonitor role name))) :
    Keeps property (startMonitors env name hosts) := by
  induction hosts with
  | nil => exact keeps_pure _
  | cons item rest ih =>
      refine Keeps.bind ?_ fun monitor => ih.bind fun monitors => keeps_pure _
      refine (hremote _ _).bind fun answer => ?_
      exact (keeps_ofExcept _).bind fun pid => keeps_pure _

/-- A phase keeps what its own commands keep. -/
theorem keeps_onePhase
    (hremote : ∀ check host command, command.measures = true → (∀ arguments,
        command = .load arguments →
          arguments = loadArguments config lane users ∧ host = inventory.locust.publicIp) →
      Keeps property (remote env check host command)) :
    Keeps property (onePhase env config inventory lane users) := by
  unfold onePhase
  split
  · exact keeps_fail _
  · refine Keeps.bind (keeps_startMonitors _ _ fun host role => hremote _ _ _ rfl nofun)
      fun monitors => ?_
    refine Keeps.bind (Keeps.tryFinally ?_ (keeps_forEach fun monitor _ => ?_)) fun answer => ?_
    · refine hremote _ _ _ rfl ?_
      rintro arguments ⟨⟩
      exact ⟨rfl, rfl⟩
    · exact keeps_ignore (hremote _ _ _ rfl nofun)
    · refine keeps_collectPhase _ _ fun host command hmeasures _ hload => hremote _ _ _ hmeasures ?_
      rintro arguments rfl
      cases hload

end

end

end CfIntegration.Fyre.FixedComparison
