import CfIntegration.Foundation.Interleaving
import CfIntegration.Runtime.Failure

/-! # A tool in its own container

A tool runs through three Docker clients: one prepares the image, one runs the named
container, and one removes it by its name. A cancellation can come at any moment and kills
the client that is waited for, but not the container: Docker goes on with what it was asked
for. Clients, Docker, the cancellation and the harness interleave in every order.
-/

namespace CfIntegration.Runtime.ToolContainer

open Interleaving

inductive Command where
  | prepare
  | run
  | remove
  deriving DecidableEq

/-- How the harness saw an attempt at a command end. -/
inductive Ending where
  | notStarted
  | exited (code : Option Int)
  | cancelled
  deriving DecidableEq

/-- A Docker client; it has no exit code when a signal ended it. -/
inductive Client where
  | running
  | ended (code : Option Int)
  deriving DecidableEq

/-- What Docker has made of the request for the named container. -/
inductive Container where
  | absent
  | requested
  | present (exit : Option Int)
  deriving DecidableEq

inductive Stage where
  /-- The outcome of the earlier command is kept until the end. -/
  | spawning (command : Command) (primary : AppResult Unit)
  | waiting (command : Command) (primary : AppResult Unit)
  /-- The client was killed and is waited for. -/
  | reaping (command : Command) (primary : AppResult Unit)
  | finished (result : AppResult Unit)
  deriving DecidableEq

structure State where
  stage : Stage
  client : Option Client
  cancelled : Bool
  container : Container
  /-- The container that Docker found when it was asked to remove it. -/
  removed : Option Container
  /-- The commands tried so far, and how each attempt ended. -/
  attempts : List (Command × Ending)
  deriving DecidableEq

inductive Event where
  | cancel
  | spawn (started : Bool)
  | clientEnds (code : Option Int)
  /-- The harness takes note that its client ended. -/
  | observeExit
  | observeCancellation
  | request
  | create
  /-- Docker does not take up the request of a client. -/
  | reject
  | containerEnds (code : Int)
  | processRemoval
  deriving DecidableEq

def spawnFailure : AppFailure := .infrastructure (.native "failed to spawn program \"docker\"")

def cancelledFailure : AppFailure :=
  .infrastructure (.native "program \"docker\" cancelled and reaped")

/-- How a status is shown; the name of a signal is left out. -/
def displayStatus : Option Int → String
  | some code => s!"exit status: {code}"
  | none => "signal"

def requireSuccess (code : Option Int) : AppResult Unit :=
  if code = some 0 then .ok ()
  else .error (.infrastructure
    (.childExit code ("program \"docker\" exited with " ++ displayStatus code)))

/-- What the harness makes of an attempt. -/
def outcome : Ending → AppResult Unit
  | .notStarted => .error spawnFailure
  | .exited code => requireSuccess code
  | .cancelled => .error cancelledFailure

/-- The harness goes on after a command. -/
def settle (cancelled : Bool) (primary outcome : AppResult Unit) : Command → Stage
  | .prepare => match outcome with
      | .error failure => .finished (.error failure)
      | .ok () =>
          if cancelled then
            .finished (.error (.native "tool cancelled before container startup"))
          else .spawning .run (.ok ())
  | .run => .spawning .remove outcome
  | .remove => .finished (finishWithCleanup (err primary) outcome)

/-- Whether a client may end as it does, given what Docker has answered. -/
def mayEnd (state : State) (code : Option Int) : Command → Bool
  | .prepare => true
  | .run => code ≠ some 0 || state.container = .present (some 0)
  | .remove => code ≠ some 0 || state.removed.isSome

def clientCommand : Stage → Option Command
  | .waiting command _ | .reaping command _ => some command
  | .spawning _ _ | .finished _ => none

/-- A client of the command that is running. -/
def State.clientRuns (state : State) (command : Command) : Bool :=
  clientCommand state.stage = some command && state.client = some .running

def State.settle (state : State) (primary : AppResult Unit) (command : Command) (ending : Ending) :
    State :=
  { state with
    stage := ToolContainer.settle state.cancelled primary (outcome ending) command
    client := none
    attempts := state.attempts ++ [(command, ending)] }

def step (state : State) : Event → Option State
  | .cancel => some { state with cancelled := true }
  | .spawn started => match state.stage with
      | .spawning command primary =>
          if started then
            some { state with stage := .waiting command primary, client := some .running }
          else some (state.settle primary command .notStarted)
      | _ => none
  | .clientEnds code => match clientCommand state.stage with
      | some command =>
          if state.client = some .running ∧ mayEnd state code command then
            some { state with client := some (.ended code) }
          else none
      | none => none
  | .observeExit => match state.stage, state.client with
      | .waiting command primary, some (.ended code) =>
          some (state.settle primary command (.exited code))
      | .reaping command primary, some (.ended _) => some (state.settle primary command .cancelled)
      | _, _ => none
  | .observeCancellation => match state.stage with
      -- The removal is not cancellable.
      | .waiting .remove _ => none
      | .waiting command primary =>
          if state.cancelled then some { state with stage := .reaping command primary } else none
      | _ => none
  | .request =>
      if state.clientRuns .run ∧ state.container = .absent then
        some { state with container := .requested }
      else none
  | .create =>
      if state.container = .requested then some { state with container := .present none } else none
  | .reject =>
      if state.container = .requested then some { state with container := .absent } else none
  | .containerEnds code =>
      if state.container = .present none then some { state with container := .present (some code) }
      else none
  | .processRemoval =>
      if state.clientRuns .remove ∧ state.removed = none then
        some { state with
          removed := some state.container
          container := match state.container with
            | .present _ => .absent
            | container => container }
      else none

def initial : State := ⟨.spawning .prepare (.ok ()), none, false, .absent, none, []⟩

/-- The attempts before a command, and what their outcome is to the rest. -/
def Before (state : State) (primary : AppResult Unit) : Command → Prop
  | .prepare => state.attempts = []
  | .run => ∃ prepared, state.attempts = [(.prepare, prepared)]
  | .remove => ∃ prepared tool, state.attempts = [(.prepare, prepared), (.run, tool)] ∧
      primary = outcome tool

/-- What holds before a command is tried. -/
def Ready (state : State) (primary : AppResult Unit) : Command → Prop
  | .prepare | .run => state.container = .absent
  | .remove => primary = .ok () → state.container = .present (some 0)

/-- What holds while the client of a command is waited for. -/
def Working (state : State) (primary : AppResult Unit) : Command → Prop
  | .prepare => state.container = .absent ∧ state.removed = none
  | .run => state.removed = none ∧
      (state.client = some (.ended (some 0)) → state.container = .present (some 0))
  | .remove => (state.client = some (.ended (some 0)) → state.removed.isSome = true) ∧
      (primary = .ok () → state.removed = none → state.container = .present (some 0)) ∧
      (primary = .ok () → ∀ found, state.removed = some found → found = .present (some 0))

/-- The container was never asked for: its image could not be prepared, or the cancellation
came before. -/
structure Unasked (state : State) (result : AppResult Unit) (prepared : Ending) : Prop where
  attempts : state.attempts = [(.prepare, prepared)]
  container : state.container = .absent
  failed : ∀ failure, outcome prepared = .error failure → result = .error failure
  cancelled : outcome prepared = .ok () →
    state.cancelled = true ∧
      result = .error (.native "tool cancelled before container startup")

/-- The tool ran and its container was removed, and the result joins the two outcomes. -/
structure Joined (state : State) (result : AppResult Unit) (prepared tool removal : Ending) :
    Prop where
  attempts : state.attempts = [(.prepare, prepared), (.run, tool), (.remove, removal)]
  result : result = finishWithCleanup (err (outcome tool)) (outcome removal)
  answered : outcome removal = .ok () → state.removed.isSome = true
  ended : outcome tool = .ok () → ∀ found, state.removed = some found → found = .present (some 0)

def Settled (state : State) (result : AppResult Unit) : Prop :=
  (∃ prepared, Unasked state result prepared) ∨
    ∃ prepared tool removal, Joined state result prepared tool removal

def Located (state : State) : Prop :=
  match state.stage with
  | .spawning command primary => state.client = none ∧ state.removed = none ∧
      Before state primary command ∧ Ready state primary command
  | .waiting command primary =>
      state.client ≠ none ∧ Before state primary command ∧ Working state primary command
  | .reaping command primary => state.client ≠ none ∧ command ≠ .remove ∧
      Before state primary command ∧ Working state primary command
  | .finished result => state.client = none ∧ Settled state result

structure Sound (state : State) : Prop where
  located : Located state
  /-- A container that Docker had taken up is gone once it was removed. -/
  cleaned : ∀ found, state.removed = some found → found ≠ .requested → state.container = .absent

section
variable {state next : State} {primary : AppResult Unit} {command : Command}

theorem Before.congr {other : State} (hbefore : Before state primary command)
    (hattempts : other.attempts = state.attempts) : Before other primary command := by
  cases command <;> simpa only [Before, hattempts] using hbefore

theorem Settled.congr {other : State} {result : AppResult Unit}
    (hsettled : Settled state result) (hattempts : other.attempts = state.attempts)
    (hcancelled : state.cancelled = true → other.cancelled = true)
    (hremoved : other.removed = state.removed)
    (hcontainer : state.container = .absent → other.container = .absent) :
    Settled other result := by
  refine hsettled.imp (fun ⟨prepared, hunasked⟩ => ⟨prepared, ?_⟩)
    fun ⟨prepared, tool, removal, hjoined⟩ => ⟨prepared, tool, removal, ?_⟩
  · exact ⟨hattempts.trans hunasked.attempts, hcontainer hunasked.container, hunasked.failed,
      fun hok => (hunasked.cancelled hok).imp_left hcancelled⟩
  · exact ⟨hattempts.trans hjoined.attempts, hjoined.result, hremoved ▸ hjoined.answered,
      hremoved ▸ hjoined.ended⟩

/-- What Docker does with a container that has not come to its end is open. -/
theorem Sound.of_pending (hsound : Sound state) (habsent : state.container ≠ .absent)
    (hended : state.container ≠ .present (some 0)) (container : Container) :
    Sound { state with container } := by
  rcases state with ⟨stage, client, cancelled, before, removed, attempts⟩
  obtain ⟨hlocated, hcleaned⟩ := hsound
  refine ⟨?_, fun found hfound hne => absurd (hcleaned found hfound hne) habsent⟩
  cases stage with
  | spawning command primary =>
      obtain ⟨hclient, hremoved, hbefore, hready⟩ := hlocated
      refine ⟨hclient, hremoved, hbefore.congr rfl, ?_⟩
      cases command with
      | prepare | run => exact absurd hready habsent
      | remove => exact fun hprimary => absurd (hready hprimary) hended
  | waiting command primary =>
      obtain ⟨hclient, hbefore, hworking⟩ := hlocated
      refine ⟨hclient, hbefore.congr rfl, ?_⟩
      cases command with
      | prepare => exact absurd hworking.1 habsent
      | run => exact ⟨hworking.1, fun hzero => absurd (hworking.2 hzero) hended⟩
      | remove =>
          obtain ⟨hanswered, hready, hfound⟩ := hworking
          exact ⟨hanswered, fun hprimary hnone => absurd (hready hprimary hnone) hended, hfound⟩
  | reaping command primary =>
      obtain ⟨hclient, hcommand, hbefore, hworking⟩ := hlocated
      refine ⟨hclient, hcommand, hbefore.congr rfl, ?_⟩
      cases command with
      | prepare => exact absurd hworking.1 habsent
      | run => exact ⟨hworking.1, fun hzero => absurd (hworking.2 hzero) hended⟩
      | remove => exact absurd rfl hcommand
  | finished result =>
      exact ⟨hlocated.1, hlocated.2.congr rfl id rfl fun hcontainer => absurd hcontainer habsent⟩

theorem Ready.working (hready : Ready state primary command) (hremoved : state.removed = none)
    (client : Option Client) (hclient : ∀ code, client ≠ some (.ended code)) (stage : Stage) :
    Working { state with stage, client } primary command := by
  cases command with
  | prepare => exact ⟨hready, hremoved⟩
  | run => exact ⟨hremoved, fun hzero => absurd hzero (hclient _)⟩
  | remove =>
      refine ⟨fun hzero => absurd hzero (hclient _), fun hprimary _ => hready hprimary,
        fun _ found hfound => ?_⟩
      rw [hremoved] at hfound
      cases hfound

/-- The harness goes on from a client that it has waited for. -/
theorem Working.settle (hworking : Working state primary command)
    (hbefore : Before state primary command) (ending : Ending)
    (hended : outcome ending = .ok () → state.client = some (.ended (some 0))) :
    Located (state.settle primary command ending) := by
  unfold State.settle
  cases command with
  | prepare =>
      obtain ⟨hcontainer, hremoved⟩ := hworking
      have hattempts : state.attempts ++ [(.prepare, ending)] = [(.prepare, ending)] :=
        congrArg (· ++ [_]) hbefore
      cases houtcome : outcome ending with
      | error failure =>
          refine ⟨rfl, .inl ⟨ending, hattempts, hcontainer, fun other hother => ?_, fun hok => ?_⟩⟩
          · rw [houtcome] at hother
            exact congrArg _ (Except.error.inj hother)
          · cases houtcome.symm.trans hok
      | ok value =>
          cases state.cancelled with
          | true =>
              refine ⟨rfl, .inl ⟨ending, hattempts, hcontainer, fun other hother => ?_,
                fun _ => ⟨rfl, rfl⟩⟩⟩
              cases houtcome.symm.trans hother
          | false => exact ⟨rfl, hremoved, ⟨ending, hattempts⟩, hcontainer⟩
  | run =>
      obtain ⟨hremoved, hzero⟩ := hworking
      obtain ⟨prepared, hattempts⟩ := hbefore
      exact ⟨rfl, hremoved, ⟨prepared, ending, congrArg (· ++ [_]) hattempts, rfl⟩,
        fun hok => hzero (hended hok)⟩
  | remove =>
      obtain ⟨hanswered, -, hfound⟩ := hworking
      obtain ⟨prepared, tool, hattempts, rfl⟩ := hbefore
      exact ⟨rfl, .inr ⟨prepared, tool, ending, congrArg (· ++ [_]) hattempts, rfl,
        fun hok => hanswered (hended hok), hfound⟩⟩

theorem requireSuccess_ok {code : Option Int} (hok : requireSuccess code = .ok ()) :
    code = some 0 := by
  rw [requireSuccess] at hok
  split at hok
  · assumption
  · cases hok

theorem Working.clientEnds {code : Option Int} (hworking : Working state primary command)
    (hends : mayEnd state code command = true) :
    Working { state with client := some (.ended code) } primary command := by
  have hzero : some (Client.ended code) = some (.ended (some 0)) → code = some 0 := by
    intro heq
    cases heq
    rfl
  cases command with
  | prepare => exact hworking
  | run =>
      refine ⟨hworking.1, fun hended => ?_⟩
      simpa [mayEnd, hzero hended] using hends
  | remove =>
      refine ⟨fun hended => ?_, hworking.2⟩
      simpa [mayEnd, hzero hended] using hends

theorem Located.clientEnds {code : Option Int} (hlocated : Located state)
    (hcommand : clientCommand state.stage = some command)
    (hends : mayEnd state code command = true) :
    Located { state with client := some (.ended code) } := by
  rcases state with ⟨stage, client, cancelled, container, removed, attempts⟩
  cases stage with
  | spawning | finished => cases hcommand
  | waiting =>
      cases hcommand
      exact ⟨nofun, hlocated.2.1.congr rfl, hlocated.2.2.clientEnds hends⟩
  | reaping =>
      cases hcommand
      exact ⟨nofun, hlocated.2.1, hlocated.2.2.1.congr rfl, hlocated.2.2.2.clientEnds hends⟩

theorem clientRuns_iff : state.clientRuns command = true ↔
    clientCommand state.stage = some command ∧ state.client = some .running := by
  rw [State.clientRuns, Bool.and_eq_true, decide_eq_true_iff, decide_eq_true_iff]

theorem Sound.cancel (hsound : Sound state) : Sound { state with cancelled := true } := by
  rcases state with ⟨stage, client, cancelled, container, removed, attempts⟩
  refine ⟨?_, hsound.cleaned⟩
  have hlocated := hsound.located
  cases stage with
  | spawning command primary =>
      obtain ⟨hclient, hremoved, hbefore, hready⟩ := hlocated
      exact ⟨hclient, hremoved, hbefore.congr rfl, by cases command <;> exact hready⟩
  | waiting command primary =>
      obtain ⟨hclient, hbefore, hworking⟩ := hlocated
      exact ⟨hclient, hbefore.congr rfl, by cases command <;> exact hworking⟩
  | reaping command primary =>
      obtain ⟨hclient, hcommand, hbefore, hworking⟩ := hlocated
      exact ⟨hclient, hcommand, hbefore.congr rfl, by cases command <;> exact hworking⟩
  | finished result => exact ⟨hlocated.1, hlocated.2.congr rfl (fun _ => rfl) rfl id⟩

theorem Sound.spawn (hsound : Sound state) {started : Bool}
    (hstep : step state (.spawn started) = some next) : Sound next := by
  simp only [step] at hstep
  split at hstep
  · next command primary hstage =>
    have hlocated := hsound.located
    rw [Located, hstage] at hlocated
    obtain ⟨hclient, hremoved, hbefore, hready⟩ := hlocated
    cases started with
    | true =>
        cases hstep
        exact ⟨⟨nofun, hbefore.congr rfl, hready.working hremoved (some .running) nofun _⟩,
          hsound.cleaned⟩
    | false =>
        cases hstep
        have hworking := hready.working hremoved none nofun state.stage
        rw [← hclient] at hworking
        exact ⟨hworking.settle hbefore .notStarted nofun, hsound.cleaned⟩
  · cases hstep

theorem Sound.clientEnds (hsound : Sound state) {code : Option Int}
    (hstep : step state (.clientEnds code) = some next) : Sound next := by
  simp only [step] at hstep
  split at hstep
  · next command hcommand =>
    split at hstep
    · next hends =>
      cases hstep
      exact ⟨hsound.located.clientEnds hcommand hends.2, hsound.cleaned⟩
    · cases hstep
  · cases hstep

theorem Sound.observeExit (hsound : Sound state) (hstep : step state .observeExit = some next) :
    Sound next := by
  have hlocated := hsound.located
  simp only [step] at hstep
  split at hstep
  · next command primary code hstage hclient =>
    cases hstep
    rw [Located, hstage] at hlocated
    refine ⟨hlocated.2.2.settle hlocated.2.1 (.exited code) fun hok => ?_, hsound.cleaned⟩
    rw [hclient, requireSuccess_ok hok]
  · next command primary code hstage hclient =>
    cases hstep
    rw [Located, hstage] at hlocated
    exact ⟨hlocated.2.2.2.settle hlocated.2.2.1 .cancelled nofun, hsound.cleaned⟩
  · cases hstep

theorem Sound.observeCancellation (hsound : Sound state)
    (hstep : step state .observeCancellation = some next) : Sound next := by
  have hlocated := hsound.located
  simp only [step] at hstep
  split at hstep
  · cases hstep
  · next command primary hremove hstage =>
    split at hstep
    · cases hstep
      rw [Located, hstage] at hlocated
      refine ⟨⟨hlocated.1, hremove, hlocated.2.1.congr rfl, ?_⟩, hsound.cleaned⟩
      cases command <;> exact hlocated.2.2
    · cases hstep
  · cases hstep

theorem Sound.request (hsound : Sound state) (hrun : state.clientRuns .run = true) :
    Sound { state with container := .requested } := by
  obtain ⟨hcommand, hclient⟩ := clientRuns_iff.mp hrun
  rcases state with ⟨stage, client, cancelled, container, removed, attempts⟩
  dsimp only at hclient
  subst hclient
  obtain ⟨hlocated, -⟩ := hsound
  cases stage with
  | spawning | finished => cases hcommand
  | waiting =>
      cases hcommand
      obtain ⟨-, hbefore, hremoved, -⟩ := hlocated
      refine ⟨⟨nofun, hbefore.congr rfl, hremoved, nofun⟩, fun found hfound => ?_⟩
      cases hremoved.symm.trans hfound
  | reaping =>
      cases hcommand
      obtain ⟨-, -, hbefore, hremoved, -⟩ := hlocated
      refine ⟨⟨nofun, nofun, hbefore.congr rfl, hremoved, nofun⟩, fun found hfound => ?_⟩
      cases hremoved.symm.trans hfound

theorem Sound.processRemoval (hsound : Sound state) (hremove : state.clientRuns .remove = true)
    (hremoved : state.removed = none) :
    Sound { state with
      removed := some state.container
      container := match state.container with
        | .present _ => .absent
        | container => container } := by
  obtain ⟨hcommand, hclient⟩ := clientRuns_iff.mp hremove
  rcases state with ⟨stage, client, cancelled, container, removed, attempts⟩
  dsimp only at hclient hremoved
  subst hclient hremoved
  obtain ⟨hlocated, -⟩ := hsound
  refine ⟨?_, fun found hfound hne => ?_⟩
  · cases stage with
    | spawning | finished => cases hcommand
    | waiting =>
        cases hcommand
        obtain ⟨-, hbefore, -, hready, -⟩ := hlocated
        refine ⟨nofun, hbefore.congr rfl, nofun, nofun, fun hprimary found hfound => ?_⟩
        cases hfound
        exact hready hprimary rfl
    | reaping =>
        cases hcommand
        exact absurd rfl hlocated.2.1
  · cases hfound
    cases container with
    | absent => rfl
    | requested => exact absurd rfl hne
    | present exit => rfl

theorem Sound.step {event : Event} (hsound : Sound state)
    (hstep : step state event = some next) : Sound next := by
  cases event with
  | cancel =>
      cases hstep
      exact hsound.cancel
  | spawn started => exact hsound.spawn hstep
  | clientEnds code => exact hsound.clientEnds hstep
  | observeExit => exact hsound.observeExit hstep
  | observeCancellation => exact hsound.observeCancellation hstep
  | request =>
      obtain ⟨hrequest, hsame⟩ := Option.ite_none_right_eq_some.mp hstep
      cases hsame
      exact hsound.request hrequest.1
  | create | reject =>
      obtain ⟨hcontainer, hsame⟩ := Option.ite_none_right_eq_some.mp hstep
      cases hsame
      exact hsound.of_pending (by rw [hcontainer]; nofun) (by rw [hcontainer]; nofun) _
  | containerEnds code =>
      obtain ⟨hcontainer, hsame⟩ := Option.ite_none_right_eq_some.mp hstep
      cases hsame
      refine hsound.of_pending (by rw [hcontainer]; nofun) ?_ _
      rw [hcontainer]
      nofun
  | processRemoval =>
      obtain ⟨hremoval, hsame⟩ := Option.ite_none_right_eq_some.mp hstep
      cases hsame
      exact hsound.processRemoval hremoval.1 hremoval.2

theorem initial_sound : Sound initial :=
  ⟨⟨rfl, rfl, rfl, rfl⟩, nofun⟩

theorem ok_of_finishWithCleanup {primary cleanup : AppResult Unit}
    (hok : finishWithCleanup (err primary) cleanup = .ok ()) :
    primary = .ok () ∧ cleanup = .ok () := by
  have hnone : err (finishWithCleanup (err primary) cleanup) = none := by rw [hok]; rfl
  obtain ⟨hprimary, hcleanup⟩ := err_finishWithCleanup_eq_none.mp hnone
  rcases primary with failure | ⟨⟨⟩⟩
  · cases hprimary
  · exact ⟨rfl, hcleanup⟩

/-- When the harness is done with a tool no client is left. Either the container was never
asked for, or it was run and then removed by its name: then the result joins what came of the
tool with what came of the removal, and where the removal succeeded the container is gone
unless Docker had not yet taken up the request. After a success it is gone. -/
theorem tool_settles {events : List Event} {final : State} {result : AppResult Unit}
    (hrun : run step initial events = some final) (hdone : final.stage = .finished result) :
    final.client = none ∧
      ((∃ prepared, Unasked final result prepared) ∨
        ∃ prepared tool removal,
          final.attempts = [(.prepare, prepared), (.run, tool), (.remove, removal)] ∧
          result = finishWithCleanup (err (outcome tool)) (outcome removal) ∧
          (outcome removal = .ok () →
            final.container = .absent ∨ final.removed = some .requested)) ∧
      (result = .ok () → final.container = .absent) := by
  have hsound : Sound final :=
    run_invariant (fun state event next hsound hstep => hsound.step hstep) initial_sound hrun
  obtain ⟨hlocated, hcleaned⟩ := hsound
  rw [Located, hdone] at hlocated
  obtain ⟨hclient, ⟨prepared, hunasked⟩ | ⟨prepared, tool, removal, hjoined⟩⟩ := hlocated
  · exact ⟨hclient, .inl ⟨prepared, hunasked⟩, fun _ => hunasked.container⟩
  · refine ⟨hclient, .inr ⟨prepared, tool, removal, hjoined.attempts, hjoined.result,
      fun hok => ?_⟩, fun hok => ?_⟩
    · obtain ⟨found, hremoved⟩ := Option.isSome_iff_exists.mp (hjoined.answered hok)
      by_cases hpending : found = .requested
      · exact .inr (hpending ▸ hremoved)
      · exact .inl (hcleaned found hremoved hpending)
    · rw [hjoined.result] at hok
      obtain ⟨htool, hremoval⟩ := ok_of_finishWithCleanup hok
      obtain ⟨found, hremoved⟩ := Option.isSome_iff_exists.mp (hjoined.answered hremoval)
      refine hcleaned found hremoved ?_
      rw [hjoined.ended htool found hremoved]
      nofun

/-- A cancellation while the container runs. -/
def cancelledEvents : List Event :=
  [.spawn true, .clientEnds (some 0), .observeExit, .spawn true, .request, .create, .cancel,
    .observeCancellation, .clientEnds none, .observeExit, .spawn true, .processRemoval,
    .clientEnds (some 0), .observeExit]

theorem tool_settles_cancelled :
    ∃ final, run step initial cancelledEvents = some final ∧
      final.stage = .finished (.error cancelledFailure) ∧ final.client = none := by
  have hstage : (run step initial cancelledEvents).map State.stage =
      some (.finished (.error cancelledFailure)) := by decide
  obtain ⟨final, hrun, hdone⟩ := Option.map_eq_some_iff.mp hstage
  exact ⟨final, hrun, hdone, (tool_settles hrun hdone).1⟩

end

end CfIntegration.Runtime.ToolContainer
