import CfIntegration.Foundation.History
import CfIntegration.Fyre.LoadPhase
import CfIntegration.Fyre.Matrix
import CfIntegration.Mcp.EventStream

/-! # A fixed comparison

Two lanes are measured one after the other on one target, at the same levels of users. Any
remote command may be refused, time out or be interrupted, whether or not it was carried
out, and so may any write of a local file. What a lane measures must not depend on the other
one, and the result that is saved must tell what was measured.
-/

namespace CfIntegration.Fyre.FixedComparison

open CfIntegration.Action History

inductive Lane where
  | rust
  | builtin
  deriving DecidableEq, Repr

def Lane.name : Lane → String
  | .rust => "rust"
  | .builtin => "builtin"

def Lane.other : Lane → Lane
  | .rust => .builtin
  | .builtin => .rust

def Lane.environmentFile : Lane → String
  | .rust => "rust.secret.env"
  | .builtin => "builtin.secret.env"

/-- The pressure on a host while it was measured. -/
structure Pressure where
  meanCpuPercent : ℚ
  maxMemoryPercent : ℚ
  maxMeanCorePercent : ℚ
  meanStealPercent : ℚ
  workerOrNetworkPressure : Bool
  deriving DecidableEq, Repr

structure Machine where
  publicIp : String
  privateIp : String
  deriving DecidableEq, Repr

structure Inventory where
  locust : Machine
  fastTime : Machine
  dataplanes : List Machine
  deriving DecidableEq, Repr

/-- The fields of the configuration that the load phases add to those that are validated. -/
structure CampaignConfig extends FyreConfig where
  rampSeconds : Nat
  warmupSeconds : Nat
  configCacheSeconds : Nat
  helperCpuPercent : ℚ
  helperMemoryPercent : ℚ
  workerCorePercent : ℚ
  /-- The size of the load host that is in use. -/
  locustCpu : Nat
  deriving DecidableEq

abbrev Report := PhaseReport Pressure

def Report.pressures : Report → List (String × Pressure)
  | .unfinished _ pressures => pressures
  | .measured _ _ pressures _ => pressures

def Report.reason : Report → Option String
  | .unfinished reason _ => some reason
  | .measured .. => none

def overloaded (config : CampaignConfig) (values : Pressure) : Bool :=
  values.meanCpuPercent > config.helperCpuPercent ||
    values.maxMemoryPercent > config.helperMemoryPercent ||
    values.maxMeanCorePercent > config.workerCorePercent || values.workerOrNetworkPressure

/-- The first helper that was overloaded; one that left no samples was not. -/
def helperSaturation (config : CampaignConfig) (report : Report) : Option HelperRole :=
  [HelperRole.locust, .fastTime].find? fun role =>
    (report.pressures.lookup role.name).any (overloaded config)

structure Run where
  lane : Lane
  report : Report

inductive Status where
  | running
  | inconclusive
  | failed
  | confirmed
  deriving DecidableEq, Repr

structure Result where
  status : Status
  reason : Option String
  scenario : Option Scenario
  inventory : Inventory
  protocolVersion : String
  userLevels : List UInt32
  runs : Lane → List Run

def Result.record (result : Result) (run : Run) : Result :=
  { result with
    runs := Function.update result.runs run.lane (result.runs run.lane ++ [run]) }

/-- All runs, those of the rust lane first. -/
def Result.all (result : Result) : List Run := result.runs .rust ++ result.runs .builtin

structure LoadArguments where
  image : String
  users : Nat
  spawnRate : ℚ
  seconds : Nat
  workers : Nat
  output : String
  environmentFile : String
  measurementSeconds : Nat
  warmupSeconds : Nat
  deriving DecidableEq, Repr

/-- What is run on a host. Paths are relative to the home directory. -/
inductive Command where
  | composeDown (lane : Lane)
  | forgetState
  | copyTo (contents path : String)
  | chmod (path : String)
  | composePull (lane : Lane)
  | composeUp (lane : Lane)
  | mintToken
  | publishFixture (backend protocolVersion : String)
  | registerBackend (backend : String)
  | smoke (image : String) (urls tools : List String)
  | startMonitor (role name : String)
  | load (arguments : LoadArguments)
  | stopMonitor (pid : Int)
  | copyReports (label : String)
  | copyTelemetry (label : String)
  deriving DecidableEq, Repr

/-- How a command ends. One that did not succeed may have been carried out all the same. -/
inductive Fate where
  | exited (code : Int) (stdout : String) (carriedOut : Bool)
  /-- It timed out or was interrupted. -/
  | raised (message : String) (carriedOut : Bool)
  deriving DecidableEq, Repr

def Fate.carried : Fate → Bool
  | .exited code _ carriedOut => code = 0 || carriedOut
  | .raised _ carriedOut => carriedOut

def Fate.stdout : Fate → String
  | .exited _ stdout _ => stdout
  | .raised _ _ => ""

def Fate.succeeded : Fate → Bool
  | .exited code _ _ => code = 0
  | .raised _ _ => false

/-- A project of containers, with the environment it was brought up in and the backend that
was registered with it. -/
structure Project where
  environment : Option String
  backend : Option String
  deriving DecidableEq, Repr

structure Hosts where
  /-- The projects that are up, by the address of the host. -/
  projects : String × Lane → Option Project
  files : String × String → Option String
  /-- The monitors that run. A process id may have been lost. -/
  monitors : List (String × Option Int)

/-- A command as it was issued, with the hosts before it. -/
structure Entry where
  host : String
  command : Command
  hosts : Hosts
  fate : Fate

inductive Left where
  | untouched
  | torn
  | written
  deriving DecidableEq, Repr

inductive WriteFate where
  | written
  | raised (message : String) (left : Left)
  deriving DecidableEq, Repr

inductive Saved where
  | absent
  | torn
  | result (result : Result)

structure World where
  hosts : Hosts
  log : List Entry
  /-- How many writes of local files were tried. -/
  writes : Nat
  result : Result
  saved : Saved
  helperRequest : Option HelperRole

inductive Stop where
  /-- The exit status that asks for a larger helper. -/
  | saturated
  | raised (message : String)
  deriving DecidableEq, Repr

structure Registration where
  token : String
  toolNames : List String
  deriving DecidableEq, Repr

/-- The commands and writes are numbered in the order in which they are tried. -/
structure Environment where
  fate : Nat → Fate
  write : Nat → WriteFate
  /-- The message of a command that a checked call refuses. -/
  refusal : String → Command → Int → String
  /-- The files that a phase left, after that many commands. -/
  evidence : Nat → PhaseEvidence Pressure
  /-- The message of a file or a text that cannot be read. -/
  unreadable : Nat → String
  registration : String → Except String Registration
  int : String → Except String Int
  tokenHex : Nat → Nat → String

/-- What can only raise, with the message of the exception. -/
abbrev RemoteAction := Action World String

abbrev CampaignAction := Action World Stop

def raising {α : Type} (action : RemoteAction α) : CampaignAction α := mapError .raised action

section
variable (env : Environment)

def Hosts.withProject (hosts : Hosts) (host : String) (lane : Lane) (project : Option Project) :
    Hosts :=
  { hosts with projects := Function.update hosts.projects (host, lane) project }

def Hosts.withFile (hosts : Hosts) (host path : String) (contents : Option String) : Hosts :=
  { hosts with files := Function.update hosts.files (host, path) contents }

def backendOf (project : Option Project) : Option String := project.bind Project.backend

/-- The effect of a command that is carried out. A project that is brought up again keeps its
volumes. -/
def Hosts.apply (hosts : Hosts) (host : String) (stdout : String) : Command → Hosts
  | .composeDown lane => hosts.withProject host lane none
  | .forgetState => hosts.withFile host "cf-fyre/state/token" none
  | .copyTo contents path => hosts.withFile host path (some contents)
  | .composeUp lane => hosts.withProject host lane
      (some ⟨hosts.files (host, "cf-fyre/benchmark.env"), backendOf (hosts.projects (host, lane))⟩)
  | .publishFixture backend _ => hosts.withProject host .rust
      ((hosts.projects (host, .rust)).map ({ · with backend := some backend }))
  | .registerBackend backend => hosts.withProject host .builtin
      ((hosts.projects (host, .builtin)).map ({ · with backend := some backend }))
  | .startMonitor _ _ => { hosts with
      monitors := (host, (env.int stdout).toOption) :: hosts.monitors }
  | .stopMonitor pid => { hosts with
      monitors := hosts.monitors.filter (· ≠ (host, some pid)) }
  | _ => hosts

/-- `Remote.ssh` and the copies; the exit status of an unchecked command is returned. -/
def remote (check : Bool) (host : String) (command : Command) :
    RemoteAction (Int × String) := fun world =>
  let fate := env.fate world.log.length
  let hosts :=
    if fate.carried then world.hosts.apply env host fate.stdout command else world.hosts
  let next := { world with hosts, log := world.log ++ [⟨host, command, world.hosts, fate⟩] }
  match fate with
  | .raised message _ => (.error message, next)
  | .exited code stdout _ =>
      if check ∧ code ≠ 0 then (.error (env.refusal host command code), next)
      else (.ok (code, stdout), next)

def Left.applied (left : Left) (before : Saved) (result : Result) : Saved :=
  match left with
  | .untouched => before
  | .torn => .torn
  | .written => .result result

def save : RemoteAction Unit := fun world =>
  let next := { world with writes := world.writes + 1 }
  match env.write world.writes with
  | .written => (.ok (), { next with saved := .result world.result })
  | .raised message left =>
      (.error message, { next with saved := left.applied world.saved world.result })

/-- `helper-request.json` is written after the result. A torn request names no role. -/
def writeHelperRequest (role : HelperRole) : RemoteAction Unit := fun world =>
  let next := { world with writes := world.writes + 1 }
  match env.write world.writes with
  | .written => (.ok (), { next with helperRequest := some role })
  | .raised message left => (.error message, { next with
      helperRequest := match left with
        | .untouched => world.helperRequest
        | .torn => none
        | .written => some role })

def update (change : Result → Result) : CampaignAction Unit := fun world =>
  (.ok (), { world with result := change world.result })

def conclude (status : Status) (reason : String) : CampaignAction Unit :=
  update ({ · with status, reason := some reason })

def commandNumber : RemoteAction Nat := fun world => (.ok world.log.length, world)

def writeRemoteFile (host contents path : String) : RemoteAction Unit := do
  let _ ← remote env true host (.copyTo contents path)
  let _ ← remote env true host (.chmod path)

/-- A pull, and another one after each of the delays while it is refused. -/
def pullImages (host : String) (lane : Lane) : List Nat → RemoteAction Unit
  | [] => do
      let (code, _) ← remote env false host (.composePull lane)
      if code = 0 then pure () else fail (env.refusal host (.composePull lane) code)
  | _ :: delays => do
      let (code, _) ← remote env false host (.composePull lane)
      if code = 0 then pure () else pullImages host lane delays

def composeUp (host : String) (lane : Lane) : RemoteAction Unit := do
  pullImages env host lane [5, 15, 30]
  let _ ← remote env true host (.composeUp lane)

/-- A project that cannot be taken down is passed over. -/
def composeDown (host : String) (lane : Lane) : RemoteAction Unit := do
  let _ ← remote env false host (.composeDown lane)

def resetComparisonTarget (target : Machine) : RemoteAction Unit := do
  forEach (composeDown env target.publicIp) [.rust, .builtin]
  let _ ← remote env true target.publicIp .forgetState

variable (config : CampaignConfig) (inventory : Inventory)

def backendUrl : String := s!"http://{inventory.fastTime.privateIp}:9080/mcp"

def laneEnvironment (token protocolVersion stackMode baseUrl : String) (toolNames : List String) :
    String :=
  "\n".intercalate [
    s!"MCPGATEWAY_BEARER_TOKEN={token}",
    s!"MCP_PROTOCOL_VERSION={protocolVersion}",
    s!"MCP_STACK_MODE={stackMode}",
    "MCP_SERVER_ID=fyre-fast-time",
    if stackMode = "dataplane" then "MCP_DIRECT_DATAPLANE=true" else "MCP_DIRECT_DATAPLANE=false",
    "MCP_SKIP_TOOL_LIST=true",
    "MCP_EXPLICIT_ZERO_DELAY=true",
    "MCP_FYRE_WORKLOAD=true",
    "MCP_TOOL_NAMES=" ++ ",".intercalate toolNames,
    "LOCUST_REQUEST_TIMEOUT_SECONDS=30",
    s!"MCP_BASE_URLS={baseUrl}",
    ""]

def writeLaneEnvironment (token protocolVersion stackMode baseUrl : String)
    (toolNames : List String) (destination : String) : RemoteAction Unit := do
  writeRemoteFile env inventory.locust.publicIp
    (laneEnvironment token protocolVersion stackMode baseUrl toolNames) ("cf-fyre/" ++ destination)
  writeRemoteFile env inventory.locust.publicIp token "cf-fyre/state/token"

/-- The environment of the rust lane on its target. -/
def rustEnvironment (target : Machine) : String :=
  let allowed := ",".intercalate [s!"{target.privateIp}:4445", s!"{target.publicIp}:4445",
    "127.0.0.1:4445", "localhost:4445"]
  "\n".intercalate [
    s!"DATAPLANE_IMAGE={config.images.dataplane}",
    s!"HELPERS_IMAGE={config.images.helpers}",
    s!"REDIS_IMAGE={config.images.redis}",
    s!"TARGET_BIND_IP={target.privateIp}",
    s!"DATAPLANE_ALLOWED_HOSTS={allowed}",
    s!"CONFIG_CACHE_SECONDS={config.configCacheSeconds}",
    ""]

/-- The environment of the built-in lane, with its secrets. -/
def builtinEnvironment (target : Machine) (tokenHex : Nat → String) : String :=
  let controlplane := config.images.controlplane.getD "None"
  let postgres := config.images.postgres.getD "None"
  "\n".intercalate [
    s!"CONTROLPLANE_IMAGE={controlplane}",
    s!"HELPERS_IMAGE={config.images.helpers}",
    s!"POSTGRES_IMAGE={postgres}",
    s!"REDIS_IMAGE={config.images.redis}",
    s!"TARGET_BIND_IP={target.privateIp}",
    s!"POSTGRES_PASSWORD={tokenHex 1}",
    s!"JWT_SECRET_KEY={tokenHex 2}",
    s!"AUTH_ENCRYPTION_SECRET={tokenHex 3}",
    s!"DEFAULT_USER_PASSWORD={tokenHex 0}",
    s!"PLATFORM_ADMIN_PASSWORD={tokenHex 0}",
    ""]

/-- The white space that `str.strip` removes. -/
def isSpace (char : Char) : Bool :=
  Mcp.Protocol.isWhitespace char || ('\x1c' ≤ char && char ≤ '\x1f')

def strip (text : String) : String := String.ofList (Text.trim isSpace text.toList)

structure Prepared where
  urls : List String
  tools : List String
  environmentFile : String

def prepareRustComparison (target : Machine) : RemoteAction Prepared := do
  resetComparisonTarget env target
  writeRemoteFile env target.publicIp (rustEnvironment config target) "cf-fyre/benchmark.env"
  composeUp env target.publicIp .rust
  let (_, stdout) ← remote env true target.publicIp .mintToken
  let token := strip stdout
  if token = "" ∨ '\n' ∈ token.toList then
    fail "config helper did not return one bearer token"
  else do
    writeRemoteFile env target.publicIp token "cf-fyre/state/token"
    let _ ← remote env true target.publicIp
      (.publishFixture (backendUrl inventory) config.workload.protocolVersion)
    writeLaneEnvironment env inventory token config.workload.protocolVersion "dataplane"
      s!"http://{target.privateIp}:4445" config.workload.tools "rust.secret.env"
    return ⟨[s!"http://{target.privateIp}:4445/contextforge-rs/servers/fyre-fast-time/mcp"],
      config.workload.tools, "rust.secret.env"⟩

/-- What the registration of the built-in lane printed last. -/
def readRegistration (stdout : String) : Except String Registration :=
  match (Text.splitlines stdout.toList).getLast? with
  | none => .error "built-in registration returned no result"
  | some line => do
      let registration ← env.registration (String.ofList line)
      if registration.toolNames.length ≠ 6 then
        .error "built-in registration did not select six benchmark tools"
      else return registration

def prepareBuiltinComparison (target : Machine) : RemoteAction Prepared := do
  resetComparisonTarget env target
  let number ← commandNumber
  writeRemoteFile env target.publicIp (builtinEnvironment config target (env.tokenHex number))
    "cf-fyre/benchmark.env"
  composeUp env target.publicIp .builtin
  let (_, stdout) ← remote env true target.publicIp (.registerBackend (backendUrl inventory))
  let registration ← ofExcept (readRegistration env stdout)
  writeLaneEnvironment env inventory registration.token config.workload.protocolVersion
    "controlplane" s!"http://{target.privateIp}:4444" registration.toolNames "builtin.secret.env"
  return ⟨[s!"http://{target.privateIp}:4444/mcp"], registration.toolNames, "builtin.secret.env"⟩

def prepare (target : Machine) : Lane → RemoteAction Prepared
  | .rust => prepareRustComparison env config inventory target
  | .builtin => prepareBuiltinComparison env config inventory target

def label (lane : Lane) (users : Nat) : String := s!"{lane.name}-{users}"

/-- The hosts that are watched during a phase, with their roles. -/
def monitorHosts : List (String × String) :=
  (inventory.locust.publicIp, "locust") :: (inventory.fastTime.publicIp, "fast-time") ::
    inventory.dataplanes.mapIdx fun index target =>
      (target.publicIp, "target-" ++ toString (index + 1))

def startMonitor (name : String) (host role : String) : RemoteAction (String × Int) := do
  let (_, stdout) ← remote env true host (.startMonitor role name)
  let pid ← ofExcept (env.int stdout)
  return (host, pid)

def startMonitors (name : String) : List (String × String) → RemoteAction (List (String × Int))
  | [] => return []
  | (host, role) :: rest => do
      let monitor ← startMonitor env name host role
      let monitors ← startMonitors name rest
      return monitor :: monitors

def stopMonitor (monitor : String × Int) : RemoteAction Unit := do
  let _ ← remote env false monitor.1 (.stopMonitor monitor.2)

def loadArguments (lane : Lane) (users : Nat) : LoadArguments where
  image := config.images.locust
  users := users
  spawnRate := max 1 (users / config.rampSeconds)
  seconds := config.workload.measureSeconds.toNat + config.rampSeconds + config.warmupSeconds
  workers := max 2 (config.locustCpu - 1)
  output := "reports/" ++ label lane users
  environmentFile := lane.environmentFile
  measurementSeconds := config.workload.measureSeconds.toNat
  warmupSeconds := config.warmupSeconds

def phaseMessage (number : Nat) : PhaseError → String
  | .value => env.unreadable number
  | .runtime message => message

/-- The files of the phase are fetched and read. -/
def collectPhase (name : String) (users : Nat) (code : Int) : RemoteAction Report := do
  let _ ← remote env false inventory.locust.publicIp (.copyReports name)
  let number ← commandNumber
  let evidence := { env.evidence number with returncode := code }
  if evidence.marker = .unreadable then fail (env.unreadable number)
  else do
    forEach (fun monitor => do
      let _ ← remote env false monitor.1 (.copyTelemetry name)) (monitorHosts inventory)
    ofExcept ((Fyre.onePhase users evidence).mapError (phaseMessage env number))

def onePhase (lane : Lane) (users : Nat) : RemoteAction Report :=
  if config.rampSeconds = 0 then fail "division by zero"
  else do
    let monitors ← startMonitors env (label lane users) (monitorHosts inventory)
    let (code, _) ← tryFinally
      (remote env false inventory.locust.publicIp (.load (loadArguments config lane users)))
      (forEach (stopMonitor env) monitors)
    collectPhase env inventory (label lane users) users code

def smoke (urls tools : List String) : RemoteAction Unit := do
  let _ ← remote env true inventory.locust.publicIp
    (.smoke config.images.locust urls (if tools = [] then expectedTools else tools))

/-- What a recorded run means for the comparison; tells whether to go on. -/
def judge (lane : Lane) (users : Nat) (report : Report) : CampaignAction Bool :=
  match helperSaturation config report with
  | some role => do
      conclude .inconclusive s!"{role.name} helper saturated at {users} users"
      raising (save env)
      raising (writeHelperRequest env role)
      fail .saturated
  | none =>
      if report.passed then return true
      else do
        conclude .failed (report.reason.getD s!"{lane.name} failed at {users} users")
        raising (save env)
        return false

def level (lane : Lane) (prepared : Prepared) (users : Nat) : CampaignAction Bool := do
  raising (smoke env config inventory prepared.urls prepared.tools)
  let report ← raising (onePhase env config inventory lane users)
  update (·.record ⟨lane, report⟩)
  raising (save env)
  judge env config lane users report

def levels (lane : Lane) (prepared : Prepared) : List Nat → CampaignAction Bool
  | [] => return true
  | users :: rest => do
      let passed ← level env config inventory lane prepared users
      if passed then levels lane prepared rest else return false

def userLevels : List Nat := config.workload.userLevels.map UInt32.toNat

def lanes (target : Machine) : List Lane → CampaignAction Bool
  | [] => return true
  | lane :: rest => do
      let prepared ← raising (prepare env config inventory target lane)
      let passed ← levels env config inventory lane prepared (userLevels config)
      if passed then do
        raising (resetComparisonTarget env target)
        lanes target rest
      else return false

/-- The result as it is when the run ends. -/
def currentResult : CampaignAction Result := fun world => (.ok world.result, world)

def compareLanes (target : Machine) : CampaignAction Result := do
  let passed ← lanes env config inventory target [.rust, .builtin]
  if passed then do
    update ({ · with status := .confirmed })
    raising (save env)
    currentResult
  else currentResult

/-- Whatever was raised is saved, except for the exit that asks for a larger helper. -/
def noteFailure {α : Type} (body : CampaignAction α) : CampaignAction α := do
  let outcome ← attempt body
  match outcome with
  | .ok value => return value
  | .error .saturated => fail .saturated
  | .error (.raised message) => do
      conclude .failed message
      raising (save env)
      fail (.raised message)

def fixedComparison : CampaignAction Result :=
  match config.scenarios with
  | [] => fail (.raised "list index out of range")
  | _ :: _ => do
      raising (save env)
      match inventory.dataplanes with
      | [] => fail (.raised "list index out of range")
      | target :: _ =>
          tryFinally (noteFailure env (compareLanes env config inventory target))
            (raising (resetComparisonTarget env target))

def initialResult : Result where
  status := .running
  reason := none
  scenario := config.scenarios.head?
  inventory := inventory
  protocolVersion := config.workload.protocolVersion
  userLevels := config.workload.userLevels
  runs := fun _ => []

def initial (hosts : Hosts) : World :=
  ⟨hosts, [], 0, initialResult config inventory, .absent, none⟩

end

end CfIntegration.Fyre.FixedComparison
