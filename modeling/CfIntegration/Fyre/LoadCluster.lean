import CfIntegration.Foundation.Interleaving
import Mathlib.Logic.Function.Basic

/-! # A distributed load phase

A master and its workers run in containers. A driver starts them, watches them and takes the
status of the phase from how they end. A process stops at its first request error, and a
worker reports it to the master. Requests, reports, exits and the inspections of the driver
interleave in every order.
-/

namespace CfIntegration.Fyre.LoadCluster

open Interleaving

inductive Party where
  | master
  | worker (index : Nat)
  deriving DecidableEq

def Party.isWorker : Party → Bool
  | .master => false
  | .worker _ => true

/-! ## The listeners of a process -/

inductive Phase where
  | absent
  | created
  | running
  | ended (code : Int)
  deriving DecidableEq

/-- What `spawn_later` leaves to be done. -/
inductive Deferred where
  | quit
  | sendMessage (error : String)
  | beginMeasurement
  deriving DecidableEq

/-- A process and the part of its load environment that the listeners see. -/
structure Process where
  phase : Phase
  stopping : Bool
  processExitCode : Option Int
  deferred : List Deferred
  numRequests : Nat
  deriving DecidableEq

namespace Process

variable (party : Party) (process : Process)

def stopOnError : Option String → Process
  | some error =>
      if process.stopping then process
      else { process with
        stopping := true
        processExitCode := some 1
        deferred := (if party.isWorker then .sendMessage error else .quit) :: process.deferred }
  | none => process

def stopRunner : Process :=
  if process.stopping then process
  else { process with
    stopping := true
    processExitCode := some 1
    deferred := .quit :: process.deferred }

/-- The statistics start anew, and a master quits when the measurement is over. -/
def beginMeasurement : Process :=
  { process with
    numRequests := 0
    deferred := if party.isWorker then process.deferred else .quit :: process.deferred }

def fired (deferred : Deferred) : Process :=
  let process := { process with deferred := process.deferred.erase deferred }
  match deferred with
  | .beginMeasurement => process.beginMeasurement party
  | _ => process

/-- The listener of the quitting event. -/
def failEmptyRun : Process :=
  if !party.isWorker && process.numRequests = 0 then { process with processExitCode := some 1 }
  else process

/-- The process ends with the exit code that was set, or else one of the load generator. -/
def exit (fallback : Int) : Process :=
  let quitting := process.failEmptyRun party
  { quitting with phase := .ended (quitting.processExitCode.getD fallback) }

end Process

/-! ## The driver -/

/-- What `docker inspect` gives. -/
inductive Inspection where
  | failed
  /-- Not two fields, or the second one is no number. -/
  | unreadable
  | fields (status : String) (exitCode : Int)
  deriving DecidableEq

def containerState : Inspection → String × Int
  | .failed => ("missing", 1)
  | .unreadable => ("invalid", 1)
  | .fields status exitCode => (status, exitCode)

def hasEnded (state : String) : Bool := state ∈ ["exited", "dead"]

/-- The answers that Docker can give on a container. -/
def Phase.shows : Phase → Inspection → Bool
  | _, .failed | _, .unreadable => true
  | .absent, .fields _ _ => false
  | .created, .fields status exitCode => status = "created" && exitCode = 0
  | .running, .fields status exitCode =>
      status ∈ ["running", "paused", "restarting"] && exitCode = 0
  | .ended code, .fields status exitCode => hasEnded status && exitCode = code

inductive Driver where
  | starting (rest : List Party)
  | watchingMaster (startupAttempts : Nat)
  | watchingWorkers (startupAttempts : Nat) (pending : Bool) (rest : List Nat)
  /-- The containers are looked at once more before the exit. -/
  | reviewing (status : Int) (rest : List Party)
  | finished (status : Int)
  deriving DecidableEq

section
variable (workers : Nat)

def containers : List Party := .master :: (List.range workers).map .worker

def nextWorker (startupAttempts : Nat) (pending : Bool) : List Nat → Driver
  | [] => .watchingMaster (if pending then startupAttempts - 1 else startupAttempts)
  | rest => .watchingWorkers startupAttempts pending rest

def watchMaster (startupAttempts : Nat) (seen : String × Int) : Driver :=
  if seen.1 ∈ ["exited", "dead", "missing", "invalid"] then .reviewing seen.2 (containers workers)
  else if seen.1 = "created" ∧ startupAttempts ≠ 0 then .watchingMaster (startupAttempts - 1)
  else nextWorker startupAttempts false (List.range workers)

def watchWorker (startupAttempts : Nat) (pending : Bool) (rest : List Nat) (seen : String × Int) :
    Driver :=
  if hasEnded seen.1 ∧ seen.2 = 0 then nextWorker startupAttempts pending rest
  else if seen.1 = "created" ∧ startupAttempts ≠ 0 then nextWorker startupAttempts true rest
  -- The master is told to stop.
  else if seen.1 ≠ "running" then .reviewing 1 (containers workers)
  else nextWorker startupAttempts pending rest

def review (status : Int) (rest : List Party) (seen : String × Int) : Driver :=
  let status := if hasEnded seen.1 ∧ seen.2 ≠ 0 then 1 else status
  match rest with
  | [] => .finished status
  | rest => .reviewing status rest

/-! ## Runs -/

structure Report where
  worker : Nat
  error : String
  deriving DecidableEq

structure State where
  processes : Party → Process
  /-- The reports that are on their way to the master. -/
  mail : List Report
  driver : Driver
  /-- What the review has found. -/
  reviewed : Party → Option Inspection

inductive Event where
  /-- The driver starts the next container. -/
  | launch (started : Bool)
  | boot (party : Party)
  | request (party : Party) (exception : Option String)
  /-- A process counts requests, its own or those that workers tell it of. -/
  | count (party : Party) (requests : Nat)
  | spawningComplete (party : Party)
  | fire (party : Party) (deferred : Deferred)
  | deliver (report : Report)
  | lose (report : Report)
  /-- After its `quit`, a signal or the end of the run time. -/
  | exit (party : Party) (fallback : Int)
  | kill (party : Party) (code : Int)
  | inspect (answer : Inspection)
  | interrupt
  deriving DecidableEq

def State.updated (state : State) (party : Party) (process : Process) : State :=
  { state with processes := Function.update state.processes party process }

/-- A step of a process that runs. -/
def State.whileRunning (state : State) (party : Party) (change : Process → Process) :
    Option State :=
  if (state.processes party).phase = .running then
    some (state.updated party (change (state.processes party)))
  else none

def fire (state : State) (party : Party) (deferred : Deferred) : Option State :=
  if deferred ∈ (state.processes party).deferred then
    (state.whileRunning party (·.fired party deferred)).map fun next =>
      match deferred, party with
      | .sendMessage error, .worker index => { next with mail := ⟨index, error⟩ :: next.mail }
      | _, _ => next
  else none

def inspect (state : State) (answer : Inspection) : Option State :=
  let seen := containerState answer
  match state.driver with
  | .watchingMaster startupAttempts =>
      if (state.processes .master).phase.shows answer then
        some { state with driver := watchMaster workers startupAttempts seen }
      else none
  | .watchingWorkers startupAttempts pending (index :: rest) =>
      if (state.processes (.worker index)).phase.shows answer then
        some { state with driver := watchWorker workers startupAttempts pending rest seen }
      else none
  | .reviewing status (party :: rest) =>
      if (state.processes party).phase.shows answer then
        some { state with
          driver := review status rest seen
          reviewed := Function.update state.reviewed party (some answer) }
      else none
  | _ => none

/-- The next step of the run, if it is possible; `measures` tells whether the phase is
measured after a warmup. -/
def step (measures : Bool) (state : State) : Event → Option State
  | .launch started => match state.driver with
      | .starting (party :: rest) =>
          if started then
            some { state.updated party { state.processes party with phase := .created } with
              driver := if rest = [] then .watchingMaster 60 else .starting rest }
          else some { state with driver := .finished 1 }
      | _ => none
  | .boot party =>
      if (state.processes party).phase = .created then
        some (state.updated party { state.processes party with phase := .running })
      else none
  | .request party exception => state.whileRunning party (·.stopOnError party exception)
  | .count party requests => state.whileRunning party fun process =>
      { process with numRequests := process.numRequests + requests }
  | .spawningComplete party => state.whileRunning party fun process =>
      if measures then { process with deferred := .beginMeasurement :: process.deferred }
      else process
  | .fire party deferred => fire state party deferred
  | .deliver report =>
      if report ∈ state.mail then
        (state.whileRunning .master Process.stopRunner).map fun next =>
          { next with mail := next.mail.erase report }
      else none
  | .lose report =>
      if report ∈ state.mail then some { state with mail := state.mail.erase report } else none
  | .exit party fallback => state.whileRunning party (·.exit party fallback)
  | .kill party code =>
      if code ≠ 0 then state.whileRunning party ({ · with phase := .ended code }) else none
  | .inspect answer => inspect workers state answer
  | .interrupt => match state.driver with
      | .finished _ => none
      | _ => some { state with driver := .finished 130 }

def initialProcess : Process := ⟨.absent, false, none, [], 0⟩

def initial : State := ⟨fun _ => initialProcess, [], .starting (containers workers), fun _ => none⟩

end

/-! ## What a step does to a process -/

/-- A stopped process ends with a failure, and a master that counted nothing does too. -/
structure Process.Sound (party : Party) (process : Process) : Prop where
  stopped : process.stopping = true → process.processExitCode = some 1
  failed : ∀ code, process.phase = .ended code → process.stopping = true → code ≠ 0
  counted : process.phase = .ended 0 → party = .master → process.numRequests ≠ 0

structure Change (party : Party) (before after : Process) : Prop where
  sound : before.Sound party → after.Sound party
  stopping : before.stopping = true → after.stopping = true

namespace Change

variable {party : Party} {process : Process}

theorem stopOnError (hphase : process.phase = .running) (exception : Option String) :
    Change party process (process.stopOnError party exception) := by
  cases exception with
  | none => exact ⟨id, id⟩
  | some error =>
      rw [Process.stopOnError]
      split
      · exact ⟨id, id⟩
      · refine ⟨fun _ => ⟨fun _ => rfl, fun code hended => ?_, fun hended => ?_⟩, fun _ => rfl⟩
        · simp [hphase] at hended
        · simp [hphase] at hended

theorem stopRunner (hphase : process.phase = .running) :
    Change party process process.stopRunner := by
  rw [Process.stopRunner]
  split
  · exact ⟨id, id⟩
  · refine ⟨fun _ => ⟨fun _ => rfl, fun code hended => ?_, fun hended => ?_⟩, fun _ => rfl⟩
    · simp [hphase] at hended
    · simp [hphase] at hended

/-- What a process that goes on does to its counts and to what it has deferred. -/
theorem ofRunning {after : Process} (hphase : after.phase = .running)
    (hstopping : after.stopping = process.stopping)
    (hexit : after.processExitCode = process.processExitCode) : Change party process after := by
  refine ⟨fun hsound => ⟨?_, fun code hended => ?_, fun hended => ?_⟩, fun hstop => ?_⟩
  · rw [hstopping, hexit]
    exact hsound.stopped
  · simp [hphase] at hended
  · simp [hphase] at hended
  · rw [hstopping, hstop]

theorem failEmptyRun_cases :
    process.failEmptyRun party = { process with processExitCode := some 1 } ∨
      process.failEmptyRun party = process ∧ (party = .master → process.numRequests ≠ 0) := by
  rw [Process.failEmptyRun]
  split
  · exact .inl rfl
  · next hcount =>
    refine .inr ⟨rfl, fun hparty hzero => hcount ?_⟩
    simp [hparty, hzero, Party.isWorker]

/-- A process that is still running may exit. -/
theorem exit (fallback : Int) : Change party process (process.exit party fallback) := by
  rw [Process.exit]
  obtain hempty | ⟨hkept, hcount⟩ := @failEmptyRun_cases party process
  · rw [hempty]
    refine ⟨fun _ => ⟨fun _ => rfl, fun code hended _ => ?_, fun hended => ?_⟩, id⟩
    · cases hended
      exact Int.one_ne_zero
    · cases hended
  · rw [hkept]
    refine ⟨fun hsound => ⟨hsound.stopped, fun code hended hstop => ?_, fun _ => hcount⟩, id⟩
    simp only [hsound.stopped hstop, Option.getD_some, Phase.ended.injEq] at hended
    exact hended ▸ Int.one_ne_zero

/-- A killed process ends with a status other than zero. -/
theorem kill {code : Int} (hcode : code ≠ 0) :
    Change party process { process with phase := .ended code } := by
  refine ⟨fun hsound => ⟨hsound.stopped, fun other hended _ => ?_, fun hended => ?_⟩, id⟩
  · rw [Phase.ended.injEq] at hended
    exact hended ▸ hcode
  · rw [Phase.ended.injEq] at hended
    exact absurd hended hcode

theorem start {phase : Phase} (hphase : ∀ code, phase ≠ .ended code) :
    Change party process { process with phase := phase } :=
  ⟨fun hsound => ⟨hsound.stopped, fun code hended => absurd hended (hphase code),
    fun hended => absurd hended (hphase 0)⟩, id⟩

end Change

section
variable {workers : Nat} {measures : Bool} {state next : State} {event : Event}

/-- A process is left alone, or it was not over and changes soundly. -/
def Undergoes (state next : State) (party : Party) : Prop :=
  next.processes party = state.processes party ∨
    Change party (state.processes party) (next.processes party) ∧
      ∀ code, (state.processes party).phase = .ended code →
        ∃ rest, state.driver = .starting rest

theorem undergoes_updated {party : Party} {process : Process}
    (hprocesses : next.processes = Function.update state.processes party process)
    (hchange : Change party (state.processes party) process)
    (hended : ∀ code, (state.processes party).phase = .ended code →
      ∃ rest, state.driver = .starting rest) (other : Party) : Undergoes state next other := by
  rw [Undergoes, hprocesses]
  by_cases heq : other = party
  · subst heq
    rw [Function.update_self]
    exact .inr ⟨hchange, hended⟩
  · exact .inl (Function.update_of_ne heq ..)

theorem whileRunning_undergoes {party : Party} {change : Process → Process}
    (hstep : state.whileRunning party change = some next)
    (hchange : (state.processes party).phase = .running →
      Change party (state.processes party) (change (state.processes party)))
    (other : Party) : Undergoes state next other := by
  rw [State.whileRunning] at hstep
  split at hstep
  · next hphase =>
    cases hstep
    refine undergoes_updated rfl (hchange hphase) (fun code hended => ?_) other
    simp [hphase] at hended
  · cases hstep

/-- A step of a process leaves the driver alone. -/
theorem whileRunning_driver {party : Party} {change : Process → Process}
    (hstep : state.whileRunning party change = some next) :
    next.driver = state.driver ∧ next.reviewed = state.reviewed := by
  rw [State.whileRunning] at hstep
  split at hstep
  · cases hstep
    exact ⟨rfl, rfl⟩
  · cases hstep

/-- What a deferred step does to the process it belongs to. -/
theorem fire_cases {party : Party} {deferred : Deferred}
    (hstep : fire state party deferred = some next) :
    ∃ fired, state.whileRunning party (·.fired party deferred) = some fired ∧
      next.processes = fired.processes ∧ next.driver = fired.driver ∧
        next.reviewed = fired.reviewed := by
  rw [fire] at hstep
  split at hstep
  · obtain ⟨fired, hfired, hnext⟩ := Option.map_eq_some_iff.mp hstep
    refine ⟨fired, hfired, ?_⟩
    split at hnext <;> subst hnext <;> exact ⟨rfl, rfl, rfl⟩
  · cases hstep

/-- A deferred step changes its process in one of the allowed ways. -/
theorem fired_change {party : Party} {deferred : Deferred} {process : Process}
    (hphase : process.phase = .running) : Change party process (process.fired party deferred) := by
  cases deferred with
  | quit => exact .ofRunning hphase rfl rfl
  | sendMessage error => exact .ofRunning hphase rfl rfl
  | beginMeasurement => exact .ofRunning hphase rfl rfl

/-- The driver looks at the processes and changes none. -/
theorem inspect_processes {answer : Inspection} (hstep : inspect workers state answer = some next) :
    next.processes = state.processes := by
  rw [inspect] at hstep
  split at hstep
  all_goals first | (split at hstep <;> cases hstep; rfl) | cases hstep

/-- Every step changes a process in one of the allowed ways or not at all. -/
theorem step_undergoes (hstep : step workers measures state event = some next) (party : Party) :
    Undergoes state next party := by
  cases event with
  | launch started =>
      simp only [step] at hstep
      split at hstep
      · next launched rest hdriver =>
        split at hstep
        · cases hstep
          exact undergoes_updated rfl (.start fun _ => Phase.noConfusion)
            (fun _ _ => ⟨launched :: rest, hdriver⟩) party
        · cases hstep
          exact .inl rfl
      · cases hstep
  | boot booted =>
      simp only [step] at hstep
      split at hstep
      · next hphase =>
        cases hstep
        refine undergoes_updated rfl (.start fun _ => Phase.noConfusion)
          (fun code hended => ?_) party
        simp [hphase] at hended
      · cases hstep
  | request requested exception =>
      rw [step] at hstep
      exact whileRunning_undergoes hstep (fun hphase => .stopOnError hphase exception) party
  | count counted requests =>
      rw [step] at hstep
      exact whileRunning_undergoes hstep (fun hphase => .ofRunning hphase rfl rfl) party
  | spawningComplete spawned =>
      rw [step] at hstep
      refine whileRunning_undergoes hstep (fun hphase => ?_) party
      split
      · exact .ofRunning hphase rfl rfl
      · exact ⟨id, id⟩
  | fire firing deferred =>
      rw [step] at hstep
      obtain ⟨fired, hfired, hprocesses, -⟩ := fire_cases hstep
      have hfiring := whileRunning_undergoes hfired fired_change party
      rwa [Undergoes, ← hprocesses] at hfiring
  | deliver report =>
      simp only [step] at hstep
      split at hstep
      · obtain ⟨stopped, hstopped, rfl⟩ := Option.map_eq_some_iff.mp hstep
        exact whileRunning_undergoes hstopped .stopRunner party
      · cases hstep
  | lose report =>
      simp only [step] at hstep
      split at hstep <;> cases hstep
      exact .inl rfl
  | exit exiting fallback =>
      rw [step] at hstep
      exact whileRunning_undergoes hstep (fun _ => .exit fallback) party
  | kill killed code =>
      simp only [step] at hstep
      split at hstep
      · next hcode => exact whileRunning_undergoes hstep (fun _ => .kill hcode) party
      · cases hstep
  | inspect answer => exact .inl (congrFun (inspect_processes hstep) party)
  | interrupt =>
      simp only [step] at hstep
      split at hstep <;> cases hstep
      exact .inl rfl

/-! ## What the status of the phase says -/

def State.Sound (state : State) : Prop := ∀ party, (state.processes party).Sound party

theorem State.Sound.step (hsound : state.Sound)
    (hstep : step workers measures state event = some next) : next.Sound := by
  intro party
  obtain hkept | ⟨hchange, -⟩ := step_undergoes hstep party
  · rw [hkept]
    exact hsound party
  · exact hchange.sound (hsound party)

/-- A process that is stopping goes on stopping. -/
theorem stopping_of_step (hstep : step workers measures state event = some next) {party : Party}
    (hstopping : (state.processes party).stopping = true) :
    (next.processes party).stopping = true := by
  obtain hkept | ⟨hchange, -⟩ := step_undergoes hstep party
  · rw [hkept, hstopping]
  · exact hchange.stopping hstopping

def Driver.status : Driver → Option Int
  | .reviewing status _ | .finished status => some status
  | _ => none

def Driver.unreviewed : Driver → List Party
  | .reviewing _ rest => rest
  | _ => []

/-- While the status is a success, what ended before the eyes of the driver ended well. -/
structure Judged (workers : Nat) (state : State) : Prop where
  unread : state.driver.status = none → ∀ party, state.reviewed party = none
  master : state.driver.status = some 0 → (state.processes .master).phase = .ended 0
  seen : state.driver.status = some 0 → ∀ party answer, state.reviewed party = some answer →
    hasEnded (containerState answer).1 = true → (state.processes party).phase = .ended 0
  covered : state.driver.status = some 0 → ∀ party ∈ containers workers,
    party ∈ state.driver.unreviewed ∨ ∃ answer, state.reviewed party = some answer

/-- A process that ended before the driver reported success stays ended. -/
theorem ended_of_step (hstep : step workers measures state event = some next)
    (hstatus : state.driver.status = some 0) {party : Party} {code : Int}
    (hended : (state.processes party).phase = .ended code) :
    (next.processes party).phase = .ended code := by
  obtain hkept | ⟨-, hstarting⟩ := step_undergoes hstep party
  · rw [hkept, hended]
  · obtain ⟨rest, hdriver⟩ := hstarting code hended
    rw [hdriver] at hstatus
    cases hstatus

/-- A step that leaves the driver alone keeps its judgement. -/
theorem Judged.of_kept (hjudged : Judged workers state)
    (hstep : step workers measures state event = some next)
    (hkept : next.driver = state.driver ∧ next.reviewed = state.reviewed) :
    Judged workers next := by
  obtain ⟨hdriver, hreviewed⟩ := hkept
  refine ⟨fun hstatus => ?_, fun hstatus => ?_, fun hstatus party answer hanswer hover => ?_, ?_⟩
  · rw [hdriver] at hstatus
    rw [hreviewed]
    exact hjudged.unread hstatus
  · rw [hdriver] at hstatus
    exact ended_of_step hstep hstatus (hjudged.master hstatus)
  · rw [hdriver] at hstatus
    rw [hreviewed] at hanswer
    exact ended_of_step hstep hstatus (hjudged.seen hstatus party answer hanswer hover)
  · rw [hdriver, hreviewed]
    exact hjudged.covered

/-- A driver that failed has claimed nothing. -/
theorem Judged.of_failed {status : Int} (hdriver : next.driver.status = some status)
    (hstatus : status ≠ 0) : Judged workers next := by
  refine ⟨fun hnone => ?_, fun hzero => ?_, fun hzero => ?_, fun hzero => ?_⟩
  · rw [hdriver] at hnone
    cases hnone
  all_goals
    rw [hdriver, Option.some.injEq] at hzero
    exact absurd hzero hstatus

/-- A driver that goes on watching has claimed nothing. -/
theorem Judged.of_watching (hjudged : Judged workers state) (hbefore : state.driver.status = none)
    (hreviewed : next.reviewed = state.reviewed) (hafter : next.driver.status = none) :
    Judged workers next := by
  refine ⟨fun _ => hreviewed ▸ hjudged.unread hbefore, fun hzero => ?_, fun hzero => ?_,
    fun hzero => ?_⟩
  all_goals
    rw [hafter] at hzero
    cases hzero

/-- A container that is seen to be over with status zero has ended so. -/
theorem ended_of_shows {phase : Phase} {answer : Inspection} (hshows : phase.shows answer = true)
    (hover : (containerState answer).1 ∈ ["exited", "dead", "missing", "invalid"])
    (hzero : (containerState answer).2 = 0) : phase = .ended 0 := by
  cases answer with
  | failed => cases hzero
  | unreadable => cases hzero
  | fields status exitCode =>
      cases phase with
      | absent => cases hshows
      | created =>
          simp only [Phase.shows, Bool.and_eq_true, decide_eq_true_eq] at hshows
          simp [containerState, hshows.1] at hover
      | running =>
          simp only [Phase.shows, Bool.and_eq_true, decide_eq_true_eq] at hshows
          simp only [containerState, List.mem_cons, List.not_mem_nil, or_false] at hover
          obtain ⟨rfl | rfl | rfl, -⟩ := by simpa using hshows
          all_goals simp at hover
      | ended code =>
          simp only [Phase.shows, Bool.and_eq_true, decide_eq_true_eq] at hshows
          rw [← hshows.2]
          exact congrArg Phase.ended hzero

/-- Turning to the next worker decides nothing. -/
theorem nextWorker_status (startupAttempts : Nat) (pending : Bool) (rest : List Nat) :
    (nextWorker startupAttempts pending rest).status = none := by
  cases rest <;> rfl

/-- Watching the master goes on, or takes over its status. -/
theorem watchMaster_cases (startupAttempts : Nat) (seen : String × Int) :
    (watchMaster workers startupAttempts seen).status = none ∨
      (watchMaster workers startupAttempts seen).status = some seen.2 ∧
        seen.1 ∈ ["exited", "dead", "missing", "invalid"] := by
  rw [watchMaster]
  split
  · next hover => exact .inr ⟨rfl, hover⟩
  · split
    · exact .inl rfl
    · exact .inl (nextWorker_status ..)

/-- Watching a worker goes on, or takes over its status. -/
theorem watchWorker_cases (startupAttempts : Nat) (pending : Bool) (rest : List Nat)
    (seen : String × Int) :
    (watchWorker workers startupAttempts pending rest seen).status = none ∨
      (watchWorker workers startupAttempts pending rest seen).status = some 1 := by
  rw [watchWorker]
  split
  · exact .inl (nextWorker_status ..)
  · split
    · exact .inl (nextWorker_status ..)
    · split
      · exact .inr rfl
      · exact .inl (nextWorker_status ..)

/-- A container that failed turns the status into a failure. -/
theorem review_status (status : Int) (rest : List Party) (seen : String × Int) :
    (review status rest seen).status =
      some (if hasEnded seen.1 ∧ seen.2 ≠ 0 then 1 else status) := by
  cases rest <;> rfl

/-- The review starts with every container unreviewed. -/
theorem watchMaster_unreviewed {startupAttempts : Nat} {seen : String × Int} {status : Int}
    (hstatus : (watchMaster workers startupAttempts seen).status = some status) :
    (watchMaster workers startupAttempts seen).unreviewed = containers workers := by
  rw [watchMaster] at hstatus ⊢
  split
  · rfl
  · next hover =>
    rw [if_neg hover] at hstatus
    split at hstatus
    · cases hstatus
    · rw [nextWorker_status] at hstatus
      cases hstatus

theorem Judged.of_watchMaster {startupAttempts : Nat} {answer : Inspection}
    (hjudged : Judged workers state) (hbefore : state.driver.status = none)
    (hshows : (state.processes .master).phase.shows answer = true) :
    Judged workers
      { state with driver := watchMaster workers startupAttempts (containerState answer) } := by
  obtain hnone | ⟨hsome, hover⟩ := @watchMaster_cases workers startupAttempts
    (containerState answer)
  · exact hjudged.of_watching hbefore rfl hnone
  · by_cases hzero : (containerState answer).2 = 0
    · refine ⟨fun hnone => ?_, fun _ => ended_of_shows hshows hover hzero, ?_, ?_⟩
      · rw [hsome] at hnone
        cases hnone
      · intro _ party seen hseen
        rw [hjudged.unread hbefore party] at hseen
        cases hseen
      · intro _ party hparty
        exact .inl (watchMaster_unreviewed hsome ▸ hparty)
    · exact .of_failed hsome hzero

/-- The review goes through the workers one by one. -/
theorem review_unreviewed (status : Int) (rest : List Party) (seen : String × Int) :
    (review status rest seen).unreviewed = rest := by
  cases rest <;> rfl

theorem Judged.of_review {status : Int} {party : Party} {rest : List Party} {answer : Inspection}
    (hjudged : Judged workers state) (hdriver : state.driver = .reviewing status (party :: rest))
    (hshows : (state.processes party).phase.shows answer = true) :
    Judged workers { state with
      driver := review status rest (containerState answer)
      reviewed := Function.update state.reviewed party (some answer) } := by
  have hreview := review_status status rest (containerState answer)
  split at hreview
  · exact .of_failed hreview Int.one_ne_zero
  next hclean =>
  have hbefore : state.driver.status = some status := by rw [hdriver]; rfl
  refine ⟨fun hnone => ?_, fun hzero => ?_, fun hzero other seen hseen hover => ?_,
    fun hzero other hother => ?_⟩
  · rw [hreview] at hnone
    cases hnone
  · exact hjudged.master (hbefore.trans (hreview.symm.trans hzero))
  · dsimp only at hseen
    by_cases heq : other = party
    · subst heq
      rw [Function.update_self, Option.some.injEq] at hseen
      subst hseen
      have hcode : (containerState answer).2 = 0 := by
        by_contra hcode
        exact hclean ⟨hover, hcode⟩
      refine ended_of_shows hshows ?_ hcode
      simp only [hasEnded, List.mem_cons, List.not_mem_nil, or_false,
        decide_eq_true_eq] at hover ⊢
      exact hover.imp_right .inl
    · rw [Function.update_of_ne heq] at hseen
      exact hjudged.seen (hbefore.trans (hreview.symm.trans hzero)) other seen hseen hover
  · dsimp only
    rw [review_unreviewed]
    by_cases heq : other = party
    · subst heq
      exact .inr ⟨answer, Function.update_self ..⟩
    · rw [Function.update_of_ne heq]
      have hcovered := hjudged.covered (hbefore.trans (hreview.symm.trans hzero)) other hother
      rw [hdriver] at hcovered
      exact hcovered.imp_left fun hrest => (List.mem_cons.mp hrest).resolve_left heq

theorem Judged.inspect {answer : Inspection} (hjudged : Judged workers state)
    (hstep : inspect workers state answer = some next) : Judged workers next := by
  rw [LoadCluster.inspect] at hstep
  split at hstep
  · next startupAttempts hdriver =>
    split at hstep <;> cases hstep
    next hshows => exact hjudged.of_watchMaster (by rw [hdriver]; rfl) hshows
  · next startupAttempts pending index rest hdriver =>
    have hbefore : state.driver.status = none := by rw [hdriver]; rfl
    split at hstep <;> cases hstep
    obtain hnone | hsome := @watchWorker_cases workers startupAttempts pending rest
      (containerState answer)
    · exact hjudged.of_watching hbefore rfl hnone
    · exact .of_failed hsome Int.one_ne_zero
  · next status party rest hdriver =>
    split at hstep <;> cases hstep
    next hshows => exact hjudged.of_review hdriver hshows
  · cases hstep

/-- Every step keeps the judgement of the driver. -/
theorem Judged.step (hjudged : Judged workers state)
    (hstep : step workers measures state event = some next) : Judged workers next := by
  cases event with
  | launch started =>
      simp only [LoadCluster.step] at hstep
      split at hstep
      · next party rest hdriver =>
        have hbefore : state.driver.status = none := by rw [hdriver]; rfl
        split at hstep <;> cases hstep
        · refine hjudged.of_watching hbefore rfl ?_
          dsimp only
          split <;> rfl
        · exact .of_failed rfl Int.one_ne_zero
      · cases hstep
  | inspect answer => exact hjudged.inspect hstep
  | interrupt =>
      simp only [LoadCluster.step] at hstep
      split at hstep <;> cases hstep
      exact .of_failed rfl (by decide)
  | boot party =>
      refine hjudged.of_kept hstep ?_
      simp only [LoadCluster.step] at hstep
      split at hstep <;> cases hstep
      exact ⟨rfl, rfl⟩
  | fire party deferred =>
      obtain ⟨fired, hfired, -, hdriver, hreviewed⟩ := fire_cases hstep
      obtain ⟨hfiredDriver, hfiredReviewed⟩ := whileRunning_driver hfired
      exact hjudged.of_kept hstep ⟨hdriver.trans hfiredDriver, hreviewed.trans hfiredReviewed⟩
  | deliver report =>
      refine hjudged.of_kept hstep ?_
      simp only [LoadCluster.step] at hstep
      split at hstep
      · obtain ⟨stopped, hstopped, rfl⟩ := Option.map_eq_some_iff.mp hstep
        obtain ⟨hdriver, hreviewed⟩ := whileRunning_driver hstopped
        exact ⟨hdriver, hreviewed⟩
      · cases hstep
  | lose report =>
      refine hjudged.of_kept hstep ?_
      simp only [LoadCluster.step] at hstep
      split at hstep <;> cases hstep
      exact ⟨rfl, rfl⟩
  | kill party code =>
      refine hjudged.of_kept hstep ?_
      simp only [LoadCluster.step] at hstep
      split at hstep
      · exact whileRunning_driver hstep
      · cases hstep
  | request | count | spawningComplete | exit =>
      refine hjudged.of_kept hstep ?_
      rw [LoadCluster.step] at hstep
      exact whileRunning_driver hstep

theorem initial_judged : Judged workers (initial workers) := by
  refine ⟨fun _ _ => rfl, fun hzero => ?_, fun hzero => ?_, fun hzero => ?_⟩ <;> cases hzero

theorem initial_sound : (initial workers).Sound := fun _ => ⟨nofun, nofun, nofun⟩

/-- A request that fails stops its process, whatever happens later. -/
theorem stopping_of_failed {party : Party} {error : String} {start final : State}
    {events : List Event} (hfailed : .request party (some error) ∈ events)
    (hrun : run (step workers measures) start events = some final) :
    (final.processes party).stopping = true := by
  refine run_established (fun state next hstep => ?_)
    (fun state other next hstopping hstep => stopping_of_step hstep hstopping) hfailed hrun
  rw [step, State.whileRunning] at hstep
  split at hstep <;> cases hstep
  simp only [State.updated, Function.update_self, Process.stopOnError]
  split
  · next hstopping => exact hstopping
  · rfl

/-- A delivered report of a failure stops the master. -/
theorem stopping_of_delivered {report : Report} {start final : State} {events : List Event}
    (hdelivered : .deliver report ∈ events)
    (hrun : run (step workers measures) start events = some final) :
    (final.processes .master).stopping = true := by
  refine run_established (fun state next hstep => ?_)
    (fun state other next hstopping hstep => stopping_of_step hstep hstopping) hdelivered hrun
  simp only [step] at hstep
  split at hstep
  · obtain ⟨stopped, hstopped, rfl⟩ := Option.map_eq_some_iff.mp hstep
    rw [State.whileRunning] at hstopped
    split at hstopped <;> cases hstopped
    simp only [State.updated, Function.update_self, Process.stopRunner]
    split
    · next hstopping => exact hstopping
    · rfl
  · cases hstep

/-- A phase succeeds only if its master counted requests, no failure reached it, and no
worker that the review found ended had a request that failed. -/
theorem success_without_failures {events : List Event} {final : State}
    (hrun : run (step workers measures) (initial workers) events = some final)
    (hdone : final.driver = .finished 0) :
    (final.processes .master).numRequests ≠ 0 ∧
      (∀ report, .deliver report ∉ events) ∧
      (∀ error, .request .master (some error) ∉ events) ∧
      ∀ index < workers, ∃ answer, final.reviewed (.worker index) = some answer ∧
        (hasEnded (containerState answer).1 = true →
          ∀ error, .request (.worker index) (some error) ∉ events) := by
  have hsound : final.Sound :=
    run_invariant (fun state event next hsound hstep => hsound.step hstep) initial_sound hrun
  have hjudged : Judged workers final :=
    run_invariant (fun state event next hjudged hstep => hjudged.step hstep) initial_judged hrun
  have hstatus : final.driver.status = some 0 := by rw [hdone]; rfl
  have hmaster := hjudged.master hstatus
  refine ⟨(hsound .master).counted hmaster rfl, fun report hdelivered => ?_,
    fun error hfailed => ?_, fun index hindex => ?_⟩
  · exact (hsound .master).failed 0 hmaster (stopping_of_delivered hdelivered hrun) rfl
  · exact (hsound .master).failed 0 hmaster (stopping_of_failed hfailed hrun) rfl
  · have hlisted : Party.worker index ∈ containers workers :=
      List.mem_cons_of_mem _ (List.mem_map_of_mem (List.mem_range.mpr hindex))
    obtain hleft | ⟨answer, hanswer⟩ := hjudged.covered hstatus _ hlisted
    · rw [hdone] at hleft
      cases hleft
    · refine ⟨answer, hanswer, fun hover error hfailed => ?_⟩
      have hended := hjudged.seen hstatus _ answer hanswer hover
      exact (hsound (.worker index)).failed 0 hended (stopping_of_failed hfailed hrun) rfl

def cleanEvents : List Event :=
  [.launch true, .launch true, .boot .master, .boot (.worker 0), .inspect (.fields "running" 0),
    .inspect (.fields "running" 0), .request (.worker 0) none, .count (.worker 0) 1,
    .count .master 1, .exit .master 0, .exit (.worker 0) 0, .inspect (.fields "exited" 0),
    .inspect (.fields "exited" 0), .inspect (.fields "exited" 0)]

theorem success_without_failures_clean :
    ∃ final, run (step 1 false) (initial 1) cleanEvents = some final ∧
      final.driver = .finished 0 ∧ (final.processes .master).numRequests ≠ 0 := by
  have hdriver : (run (step 1 false) (initial 1) cleanEvents).map State.driver =
      some (.finished 0) := by decide
  obtain ⟨final, hrun, hdone⟩ := Option.map_eq_some_iff.mp hdriver
  exact ⟨final, hrun, hdone, (success_without_failures hrun hdone).1⟩

end

end CfIntegration.Fyre.LoadCluster
