import Mathlib.Data.List.Infix
import CfIntegration.Foundation.Action

/-! # The aggregate log of child processes

A runner sends the output of its children to one log. Its operations reach the file in
different ways: opened for appending, created anew, or written once a child whose
standard error was piped has exited. Every byte of a log remembers where it comes from,
which the programs do not see.
-/

namespace CfIntegration.Infrastructure.Process

structure CommandSpec where
  program : String
  cwd : Option String
  deriving DecidableEq, Repr

inductive Stream where
  | stdout
  | stderr
  deriving DecidableEq, Repr

/-- What a child does once it runs. -/
structure Child where
  /-- The writes to both streams, in the order in which they arrive. -/
  writes : List (Stream × UInt8)
  /-- The exit status is a success. -/
  succeeds : Bool
  /-- Cancellation is observed before the child exits. -/
  cancelled : Bool
  deriving DecidableEq, Repr

/-- What the operating system makes of one operation. -/
structure Host where
  opens : Bool
  clones : Bool
  spawns : Bool
  waits : Bool
  /-- A write to the log that fails has written this many bytes. -/
  writeFails : Option Nat
  deriving DecidableEq, Repr

/-- One byte of a log. -/
structure Written where
  /-- The operation and the stream of its child, or nothing for bytes that were there. -/
  origin : Option (Nat × Stream)
  byte : UInt8
  deriving DecidableEq, Repr

abbrev Log := List Written

/-- The log at the path of the runner, and the operations whose child ran. -/
structure Machine where
  log : Log
  started : List Nat
  deriving DecidableEq, Repr

/-- One operation and its surroundings. -/
structure Attempt where
  index : Nat
  spec : CommandSpec
  child : Child
  host : Host
  deriving DecidableEq, Repr

inductive ProcessError where
  /-- Context of a step of the child. -/
  | operation (operation : String) (spec : CommandSpec)
  /-- Context of a step of a log file. -/
  | log (operation logPath : String) (spec : CommandSpec)
  | childExit (program : String)
  | cancelledFailure (program : String)
  deriving DecidableEq, Repr

structure CapturedOutput where
  stdout : Log
  stderr : Log
  deriving DecidableEq, Repr

abbrev Exec := Action Machine ProcessError

/-- What a child writes to one stream. -/
def Child.written (child : Child) (stream : Stream) : List UInt8 :=
  (child.writes.filter (·.1 = stream)).map (·.2)

namespace Attempt

variable (attempt : Attempt)

/-- Everything that the child writes. -/
def output : Log :=
  attempt.child.writes.map fun write => ⟨some (attempt.index, write.1), write.2⟩

def stream (stream : Stream) : Log :=
  (attempt.child.written stream).map fun byte => ⟨some (attempt.index, stream), byte⟩

end Attempt

section Steps

variable (attempt : Attempt)

def failUnless (condition : Bool) (error : ProcessError) : Exec Unit :=
  if condition then pure () else Action.fail error

def changeLog (change : Log → Log) : Exec Unit := fun machine =>
  (.ok (), { machine with log := change machine.log })

/-- `OpenOptions` with `create` and `append`. -/
def openAppend (path : String) : Exec Unit :=
  failUnless attempt.host.opens (.log "open" path attempt.spec)

def cloneHandle (path : String) : Exec Unit :=
  failUnless attempt.host.clones (.log "clone handle for" path attempt.spec)

/-- `File::create`, which truncates. -/
def createLog (path : String) : Exec Unit := do
  failUnless attempt.host.opens (.log "create" path attempt.spec)
  changeLog fun _ => []

def spawnChild (context : String) : Exec Unit := do
  failUnless attempt.host.spawns (.operation context attempt.spec)
  fun machine => (.ok (), { machine with started := attempt.index :: machine.started })

def waitChild (context : String) : Exec Unit :=
  failUnless attempt.host.waits (.operation context attempt.spec)

def requireSuccess : Exec Unit :=
  failUnless attempt.child.succeeds (.childExit attempt.spec.program)

def logHandles (path : String) : Exec Unit := do
  openAppend attempt path
  cloneHandle attempt path

/-- What is written to handles of the log goes to its end. -/
def writeLog (output : Log) : Exec Unit := changeLog (· ++ output)

/-- Both streams of the child go to handles of the log. -/
def runAsyncProcess (cancellable : Bool) : Exec Unit := do
  spawnChild attempt "spawn"
  writeLog attempt.output
  if cancellable && attempt.child.cancelled then
    waitChild attempt "reap cancelled"
    Action.fail (.cancelledFailure attempt.spec.program)
  else
    waitChild attempt "wait for"
    requireSuccess attempt

def appendCapturedStderr (path : String) (output : CapturedOutput) : Exec Unit := do
  openAppend attempt path
  match attempt.host.writeFails with
  | none => writeLog output.stderr
  | some written =>
    writeLog (output.stderr.take written)
    Action.fail (.log "append output to" path attempt.spec)

end Steps

namespace SystemProcessRunner

variable (attempt : Attempt) (logPath : String)

def runAsyncToLog : Exec Unit := do
  logHandles attempt logPath
  runAsyncProcess attempt false

def runAsyncCancellableToLog : Exec Unit := do
  createLog attempt logPath
  cloneHandle attempt logPath
  runAsyncProcess attempt true

def captureOutput : Exec CapturedOutput := do
  spawnChild attempt "spawn"
  waitChild attempt "wait for"
  requireSuccess attempt
  pure ⟨attempt.stream .stdout, attempt.stream .stderr⟩

def captureStdoutToLog : Exec Log := do
  openAppend attempt logPath
  spawnChild attempt "capture"
  writeLog (attempt.stream .stderr)
  waitChild attempt "capture"
  requireSuccess attempt
  pure (attempt.stream .stdout)

def runToLog : Exec Unit := do
  logHandles attempt logPath
  spawnChild attempt "spawn"
  writeLog attempt.output
  waitChild attempt "wait for"
  requireSuccess attempt

end SystemProcessRunner

namespace LoggingProcessRunner

variable (attempt : Attempt) (logPath : String)

def run : Exec Unit := SystemProcessRunner.runToLog attempt logPath

def runAsync : Exec Unit := SystemProcessRunner.runAsyncToLog attempt logPath

def runAsyncCancellable : Exec Unit :=
  SystemProcessRunner.runAsyncCancellableToLog attempt logPath

def captureStdout : Exec Log := SystemProcessRunner.captureStdoutToLog attempt logPath

def captureOutput : Exec CapturedOutput := do
  let output ← SystemProcessRunner.captureOutput attempt
  appendCapturedStderr attempt logPath output
  pure output

end LoggingProcessRunner

inductive Operation where
  | run
  | runAsync
  | runAsyncCancellable
  | captureStdout
  | captureOutput
  deriving DecidableEq, Repr

def Operation.captures : Operation → Bool
  | .captureStdout | .captureOutput => true
  | _ => false

/-- One call of the logging runner. -/
structure Call where
  operation : Operation
  spec : CommandSpec
  child : Child
  host : Host
  deriving DecidableEq, Repr

def Call.attempt (call : Call) (index : Nat) : Attempt :=
  ⟨index, call.spec, call.child, call.host⟩

/-- What a call leaves behind. -/
def Call.perform (call : Call) (index : Nat) (logPath : String) (machine : Machine) : Machine :=
  let attempt := call.attempt index
  match call.operation with
  | .run => (LoggingProcessRunner.run attempt logPath machine).2
  | .runAsync => (LoggingProcessRunner.runAsync attempt logPath machine).2
  | .runAsyncCancellable => (LoggingProcessRunner.runAsyncCancellable attempt logPath machine).2
  | .captureStdout => (LoggingProcessRunner.captureStdout attempt logPath machine).2
  | .captureOutput => (LoggingProcessRunner.captureOutput attempt logPath machine).2

/-- The machine before the first call, with the bytes that the file holds. -/
def Machine.start (content : List UInt8) : Machine :=
  ⟨content.map fun byte => ⟨none, byte⟩, []⟩

/-- The calls one behind another, each with its position. -/
def performAll (logPath : String) (calls : List Call) (start : Machine) : Machine :=
  calls.zipIdx.foldl (fun machine entry => entry.1.perform entry.2 logPath machine) start

/-- What reaches the log of a standard error that was captured. -/
def Attempt.appended (attempt : Attempt) : Log :=
  match attempt.host.writeFails with
  | none => attempt.stream .stderr
  | some written => (attempt.stream .stderr).take written

/-- The child of the call runs. -/
def Call.ran (call : Call) : Bool :=
  match call.operation with
  | .run | .runAsync | .runAsyncCancellable =>
    call.host.opens && call.host.clones && call.host.spawns
  | .captureStdout => call.host.opens && call.host.spawns
  | .captureOutput => call.host.spawns

/-- The call loses what the log held before. -/
def Call.truncates (call : Call) : Bool :=
  call.operation = .runAsyncCancellable && call.host.opens

/-- What the call adds to the log. -/
def Call.added (call : Call) (index : Nat) : Log :=
  match call.operation with
  | .run | .runAsync | .runAsyncCancellable =>
    if call.ran then (call.attempt index).output else []
  | .captureStdout => if call.ran then (call.attempt index).stream .stderr else []
  | .captureOutput =>
    if call.ran && call.host.waits && call.child.succeeds && call.host.opens then
      (call.attempt index).appended
    else []

/-- One call changes the log and the children that ran, nothing else. -/
theorem Call.perform_eq (call : Call) (index : Nat) (logPath : String) (machine : Machine) :
    call.perform index logPath machine =
      { log := (if call.truncates then [] else machine.log) ++ call.added index
        started := if call.ran then index :: machine.started else machine.started } := by
  rcases call with ⟨operation, spec, ⟨writes, succeeds, cancelled⟩,
    ⟨opens, clones, spawns, waits, writeFails⟩⟩
  cases operation with
  | run =>
      cases opens <;> cases clones <;> cases spawns <;> cases waits <;> cases succeeds
      all_goals simp [Call.truncates, Call.added, Call.ran]; rfl
  | runAsync =>
      cases opens <;> cases clones <;> cases spawns <;> cases waits <;> cases succeeds
      all_goals simp [Call.truncates, Call.added, Call.ran]; rfl
  | runAsyncCancellable =>
      cases opens <;> cases clones <;> cases spawns <;> cases waits <;> cases succeeds <;>
        cases cancelled
      all_goals simp [Call.truncates, Call.added, Call.ran]; rfl
  | captureStdout =>
      cases opens <;> cases spawns <;> cases waits <;> cases succeeds
      all_goals simp [Call.truncates, Call.added, Call.ran]; rfl
  | captureOutput =>
      cases opens <;> cases spawns <;> cases waits <;> cases succeeds <;> cases writeFails
      all_goals simp [Call.truncates, Call.added, Call.ran]; rfl

/-- What an attempt puts out comes from one of its streams. -/
theorem Attempt.origin_of_mem_output {attempt : Attempt} {entry : Written}
    (hentry : entry ∈ attempt.output) : ∃ stream, entry.origin = some (attempt.index, stream) := by
  obtain ⟨write, -, rfl⟩ := List.mem_map.mp hentry
  exact ⟨write.1, rfl⟩

theorem Attempt.origin_of_mem_stream {attempt : Attempt} {stream : Stream} {entry : Written}
    (hentry : entry ∈ attempt.stream stream) : entry.origin = some (attempt.index, stream) := by
  obtain ⟨byte, -, rfl⟩ := List.mem_map.mp hentry
  rfl

theorem Attempt.mem_stderr_of_mem_appended {attempt : Attempt} {entry : Written}
    (hentry : entry ∈ attempt.appended) : entry ∈ attempt.stream .stderr := by
  unfold Attempt.appended at hentry
  split at hentry
  · exact hentry
  · exact List.mem_of_mem_take hentry

/-- What a call adds to the log comes from its own child, and from standard output only
if that is not captured. -/
theorem Call.origin_of_mem_added {call : Call} {index : Nat} {entry : Written}
    (hentry : entry ∈ call.added index) : ∃ stream, entry.origin = some (index, stream) ∧
      (stream = .stdout → call.operation.captures = false) := by
  have hstderr : entry ∈ (call.attempt index).stream .stderr →
      ∃ stream, entry.origin = some (index, stream) ∧
        (stream = .stdout → call.operation.captures = false) := fun hin =>
    ⟨.stderr, Attempt.origin_of_mem_stream hin, fun heq => by cases heq⟩
  have houtput : call.operation.captures = false →
      entry ∈ (if call.ran then (call.attempt index).output else []) →
      ∃ stream, entry.origin = some (index, stream) ∧
        (stream = .stdout → call.operation.captures = false) := by
    intro hcaptures hin
    split_ifs at hin with hran
    · obtain ⟨stream, horigin⟩ := Attempt.origin_of_mem_output hin
      exact ⟨stream, horigin, fun _ => hcaptures⟩
    · cases hin
  unfold Call.added at hentry
  split at hentry
  next hrun => exact houtput (by rw [hrun]; rfl) hentry
  next hrun => exact houtput (by rw [hrun]; rfl) hentry
  next hrun => exact houtput (by rw [hrun]; rfl) hentry
  next =>
    split_ifs at hentry with hran
    · exact hstderr hentry
    · cases hentry
  next =>
    split_ifs at hentry with hran
    · exact hstderr (Attempt.mem_stderr_of_mem_appended hentry)
    · cases hentry

/-- What the log holds of the standard error of one operation. -/
def diagnostics (log : Log) (index : Nat) : Log :=
  log.filter (·.origin = some (index, .stderr))

/-- The diagnostics of a call are read log by log. -/
@[simp] theorem diagnostics_append (front back : Log) (index : Nat) :
    diagnostics (front ++ back) index = diagnostics front index ++ diagnostics back index :=
  List.filter_append ..

theorem diagnostics_eq_nil {log : Log} {index : Nat}
    (hlog : ∀ entry ∈ log, entry.origin ≠ some (index, .stderr)) : diagnostics log index = [] := by
  rw [diagnostics, List.filter_eq_nil_iff]
  intro entry hentry
  simpa using hlog entry hentry

/-- All of an attempt's standard error is its diagnostics. -/
theorem diagnostics_stream (attempt : Attempt) :
    diagnostics (attempt.stream .stderr) attempt.index = attempt.stream .stderr := by
  rw [diagnostics, List.filter_eq_self]
  intro entry hentry
  simpa using Attempt.origin_of_mem_stream hentry

theorem diagnostics_output (attempt : Attempt) :
    diagnostics attempt.output attempt.index = attempt.stream .stderr := by
  unfold diagnostics Attempt.output Attempt.stream Child.written
  induction attempt.child.writes with
  | nil => rfl
  | cons write rest ih =>
      rcases write with ⟨stream, byte⟩
      cases stream <;> simpa using ih

theorem diagnostics_appended (attempt : Attempt) :
    diagnostics attempt.appended attempt.index = attempt.appended := by
  rw [diagnostics, List.filter_eq_self]
  intro entry hentry
  simpa using Attempt.origin_of_mem_stream (Attempt.mem_stderr_of_mem_appended hentry)

/-- The call does not lose what the log holds, and a captured child that reports
something exits successfully and finds the log writable. -/
structure KeepsLog (call : Call) (log : Log) : Prop where
  append : call.truncates = true → log = []
  report : call.operation = .captureOutput → call.ran = true → call.child.written .stderr ≠ [] →
    call.host.waits = true ∧ call.child.succeeds = true ∧ call.host.opens = true ∧
      ∀ written ∈ call.host.writeFails, (call.child.written .stderr).length ≤ written

/-- All of the standard error is appended unless a write fails within it. -/
theorem appended_eq_iff {attempt : Attempt} : attempt.appended = attempt.stream .stderr ↔
    ∀ written ∈ attempt.host.writeFails, (attempt.child.written .stderr).length ≤ written := by
  unfold Attempt.appended
  cases attempt.host.writeFails with
  | none => simp
  | some written => simp [Attempt.stream, List.take_eq_self_iff]

/-- When all of the standard error of a child reaches the log. -/
theorem diagnostics_added_iff {call : Call} {index : Nat} (hran : call.ran = true) :
    diagnostics (call.added index) index = (call.attempt index).stream .stderr ↔
      (call.operation = .captureOutput → call.child.written .stderr ≠ [] →
        call.host.waits = true ∧ call.child.succeeds = true ∧ call.host.opens = true ∧
          ∀ written ∈ call.host.writeFails,
            (call.child.written .stderr).length ≤ written) := by
  have houtput : diagnostics (call.attempt index).output index = _ :=
    diagnostics_output (call.attempt index)
  have hstream : diagnostics ((call.attempt index).stream .stderr) index = _ :=
    diagnostics_stream (call.attempt index)
  cases hoperation : call.operation with
  | run => simpa [Call.added, hoperation, hran] using houtput
  | runAsync => simpa [Call.added, hoperation, hran] using houtput
  | runAsyncCancellable => simpa [Call.added, hoperation, hran] using houtput
  | captureStdout => simpa [Call.added, hoperation, hran] using hstream
  | captureOutput =>
      -- Captured output is appended only after the child has succeeded.
      have happended : diagnostics (call.attempt index).appended index = _ :=
        diagnostics_appended (call.attempt index)
      by_cases hwritten : call.host.waits = true ∧ call.child.succeeds = true ∧
          call.host.opens = true
      · obtain ⟨hwaits, hsucceeds, hopens⟩ := hwritten
        have hvalue : call.added index = (call.attempt index).appended := by
          simp [Call.added, hoperation, hran, hwaits, hsucceeds, hopens]
        rw [hvalue, happended, appended_eq_iff]
        simp only [hwaits, hsucceeds, hopens, true_and, forall_const, Call.attempt]
        constructor
        · exact fun hlimit _ => hlimit
        · intro hlimit written hfails
          by_cases hempty : call.child.written .stderr = []
          · simp [hempty]
          · exact hlimit hempty written hfails
      -- Nothing is appended: the diagnostics are kept only if there are none.
      · have hvalue : call.added index = [] := by
          simp only [Call.added, hoperation, hran, Bool.true_and]
          rw [if_neg (by simpa [Bool.and_eq_true, and_assoc] using hwritten)]
        rw [hvalue]
        constructor
        · intro hnone _ hreport
          have hempty := List.map_eq_nil_iff.mp (hnone.symm : (call.attempt index).stream _ = [])
          exact absurd hempty hreport
        · intro hreport
          by_cases hempty : call.child.written .stderr = []
          · simp [Attempt.stream, Call.attempt, hempty, diagnostics]
          · obtain ⟨hwaits, hsucceeds, hopens, -⟩ := hreport rfl hempty
            exact absurd ⟨hwaits, hsucceeds, hopens⟩ hwritten

/-- The machine behind the calls, given what the file held before. -/
def machineAfter (logPath : String) (content : List UInt8) (calls : List Call) : Machine :=
  performAll logPath calls (.start content)

section Run

variable {logPath : String} {content : List UInt8}

@[simp] theorem machineAfter_nil :
    machineAfter logPath content [] = .start content := rfl

theorem machineAfter_concat (calls : List Call) (call : Call) :
    machineAfter logPath content (calls ++ [call]) =
      call.perform calls.length logPath (machineAfter logPath content calls) := by
  simp [machineAfter, performAll, List.zipIdx_append]

/-- A call appends to the log, or truncates it first. -/
theorem log_concat (calls : List Call) (call : Call) :
    (machineAfter logPath content (calls ++ [call])).log =
      (if call.truncates then [] else (machineAfter logPath content calls).log) ++
        call.added calls.length := by
  rw [machineAfter_concat, Call.perform_eq]

/-- A call that ran adds its own index to those started. -/
theorem mem_started_concat {calls : List Call} {call : Call} {index : Nat} :
    index ∈ (machineAfter logPath content (calls ++ [call])).started ↔
      (call.ran = true ∧ index = calls.length) ∨
        index ∈ (machineAfter logPath content calls).started := by
  rw [machineAfter_concat, Call.perform_eq]
  cases call.ran <;> simp

/-- Every byte was there before the run or comes from a child of it, and from standard
output only if that was not captured. -/
theorem origin_of_mem_log {calls : List Call} {entry : Written}
    (hentry : entry ∈ (machineAfter logPath content calls).log) {index : Nat} {stream : Stream}
    (horigin : entry.origin = some (index, stream)) :
    ∃ call, calls[index]? = some call ∧ (stream = .stdout → call.operation.captures = false) := by
  induction calls using List.reverseRecOn with
  | nil =>
      obtain ⟨byte, -, rfl⟩ := List.mem_map.mp hentry
      cases horigin
  | append_singleton calls call ih =>
      rw [log_concat] at hentry
      obtain hold | hadded := List.mem_append.mp hentry
      · have hold : entry ∈ (machineAfter logPath content calls).log := by
          split_ifs at hold
          · cases hold
          · exact hold
        obtain ⟨other, hother, hcaptures⟩ := ih hold
        have hbound := (List.getElem?_eq_some_iff.mp hother).1
        exact ⟨other, by rw [List.getElem?_append_left hbound, hother], hcaptures⟩
      · obtain ⟨added, hsource, hcaptures⟩ := Call.origin_of_mem_added hadded
        rw [horigin] at hsource
        cases hsource
        exact ⟨call, by simp, hcaptures⟩

/-- Only calls that were made have started. -/
theorem started_lt {calls : List Call} {index : Nat}
    (hindex : index ∈ (machineAfter logPath content calls).started) : index < calls.length := by
  induction calls using List.reverseRecOn with
  | nil => cases hindex
  | append_singleton calls call ih =>
      rw [List.length_append, List.length_singleton]
      obtain ⟨-, rfl⟩ | hold := mem_started_concat.mp hindex
      · omega
      · have hbound := ih hold
        omega

/-- The log has the standard error of every child that ran. -/
def Reported (logPath : String) (content : List UInt8) (calls : List Call) : Prop :=
  ∀ index ∈ (machineAfter logPath content calls).started, ∀ call, calls[index]? = some call →
    diagnostics (machineAfter logPath content calls).log index =
      (call.attempt index).stream .stderr

/-- What a call may not do to the log. -/
structure LogKept (logPath : String) (content : List UInt8) (calls : List Call) (call : Call) :
    Prop where
  append : (machineAfter logPath content calls).log <+:
    (machineAfter logPath content (calls ++ [call])).log
  reported : Reported logPath content (calls ++ [call])

/-- A call adds no diagnostics of another one. -/
theorem diagnostics_added_of_ne {call : Call} {index other : Nat} (hne : other ≠ index) :
    diagnostics (call.added index) other = [] := by
  apply diagnostics_eq_nil
  intro entry hentry horigin
  obtain ⟨stream, hsource, -⟩ := Call.origin_of_mem_added hentry
  rw [horigin] at hsource
  cases hsource
  exact hne rfl

/-- One call, from a log that has everything so far. -/
theorem logKept_iff {calls : List Call} {call : Call} (hreported : Reported logPath content calls) :
    LogKept logPath content calls call ↔
      KeepsLog call (machineAfter logPath content calls).log := by
  -- No entry of the log so far comes from the new call.
  have hnew : ∀ stream : Stream, ∀ entry ∈ (machineAfter logPath content calls).log,
      entry.origin ≠ some (calls.length, stream) := by
    intro stream entry hentry horigin
    obtain ⟨other, hother, -⟩ := origin_of_mem_log hentry horigin
    simp at hother
  constructor
  · intro hkept
    constructor
    -- A log that is truncated is kept only if it was empty.
    · intro htruncates
      have happend := hkept.append
      rw [log_concat, htruncates, if_pos rfl, List.nil_append] at happend
      rw [List.eq_nil_iff_forall_not_mem]
      intro entry hentry
      obtain ⟨stream, horigin, -⟩ := Call.origin_of_mem_added (happend.subset hentry)
      exact hnew stream entry hentry horigin
    · intro hoperation hran
      have hstarted : calls.length ∈ (machineAfter logPath content (calls ++ [call])).started :=
        mem_started_concat.mpr (.inl ⟨hran, rfl⟩)
      have hreport := hkept.reported calls.length hstarted call (by simp)
      have hold : diagnostics (if call.truncates then []
          else (machineAfter logPath content calls).log) calls.length = [] := by
        split_ifs
        · rfl
        · exact diagnostics_eq_nil (hnew .stderr)
      rw [log_concat, diagnostics_append, hold, List.nil_append] at hreport
      exact (diagnostics_added_iff hran).mp hreport hoperation
  · intro hkeeps
    have hlog : (if call.truncates then [] else (machineAfter logPath content calls).log) =
        (machineAfter logPath content calls).log := by
      split_ifs with htruncates
      · exact (hkeeps.append htruncates).symm
      · rfl
    constructor
    · rw [log_concat, hlog]
      exact List.prefix_append _ _
    · intro index hindex other hother
      rw [log_concat, hlog, diagnostics_append]
      obtain ⟨hran, rfl⟩ | hold := mem_started_concat.mp hindex
      · obtain rfl : call = other := by simpa using hother
        rw [diagnostics_eq_nil (hnew .stderr), List.nil_append]
        exact (diagnostics_added_iff hran).mpr fun hoperation =>
          hkeeps.report hoperation hran
      · have hbound := started_lt hold
        rw [List.getElem?_append_left hbound] at hother
        rw [hreported index hold other hother, diagnostics_added_of_ne (Nat.ne_of_lt hbound),
          List.append_nil]

/-- The log of every run whose calls keep it is append-only and has the standard error of
every child that ran, and no run whose log is like that has another call. What a child
writes to a standard output that is captured never enters the log. -/
theorem performAll_log (logPath : String) (content : List UInt8) (calls : List Call) :
    ((∀ done call rest, calls = done ++ call :: rest →
        LogKept logPath content done call) ↔
      ∀ done call rest, calls = done ++ call :: rest →
        KeepsLog call (machineAfter logPath content done).log) ∧
      ∀ entry ∈ (machineAfter logPath content calls).log, ∀ index call,
        entry.origin = some (index, .stdout) → calls[index]? = some call →
          call.operation.captures = false := by
  have hstart : Reported logPath content [] := by
    intro index hindex
    cases hindex
  constructor
  · constructor
    · intro hkept done call rest hcalls
      apply (logKept_iff _).mp (hkept done call rest hcalls)
      obtain rfl | ⟨before, last, rfl⟩ := List.eq_nil_or_concat done
      · exact hstart
      · rw [List.concat_eq_append] at hcalls ⊢
        exact (hkept before last (call :: rest) (by simpa using hcalls)).reported
    · intro hkeeps
      have hall : ∀ done rest, calls = done ++ rest → Reported logPath content done := by
        intro done
        induction done using List.reverseRecOn with
        | nil => exact fun _ _ => hstart
        | append_singleton done call ih =>
            intro rest hcalls
            rw [List.append_assoc, List.singleton_append] at hcalls
            have hreported := ih (call :: rest) hcalls
            exact ((logKept_iff hreported).mpr (hkeeps done call rest hcalls)).reported
      intro done call rest hcalls
      exact (logKept_iff (hall done (call :: rest) hcalls)).mpr (hkeeps done call rest hcalls)
  · intro entry hentry index call horigin hcall
    obtain ⟨other, hother, hcaptures⟩ := origin_of_mem_log hentry horigin
    rw [hcall] at hother
    cases hother
    exact hcaptures rfl

/-- A child that reports one byte, and one that is run with a cancellation behind it. -/
def truncatingCalls : List Call :=
  [⟨.run, ⟨"first", none⟩, ⟨[(.stderr, 1)], true, false⟩, ⟨true, true, true, true, none⟩⟩,
    ⟨.runAsyncCancellable, ⟨"second", none⟩, ⟨[], true, false⟩, ⟨true, true, true, true, none⟩⟩]

theorem performAll_log_truncated :
    ¬∀ done call rest, truncatingCalls = done ++ call :: rest →
      LogKept "setup.log" [] done call := by
  intro hkept
  have happend := (hkept [truncatingCalls[0]] truncatingCalls[1] [] rfl).append
  revert happend
  decide

/-- A captured child that fails takes its report with it. -/
example : (machineAfter "setup.log" [] [⟨.captureOutput, ⟨"helper", none⟩,
    ⟨[(.stderr, 1)], false, false⟩, ⟨true, true, true, true, none⟩⟩]) = ⟨[], [0]⟩ := by
  decide

end Run

end CfIntegration.Infrastructure.Process
