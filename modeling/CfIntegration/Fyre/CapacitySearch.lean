import Mathlib.Algebra.Order.Field.Basic
import Mathlib.Algebra.Order.Ring.Rat
import CfIntegration.Foundation.Action
import CfIntegration.Fyre.Config

/-! # The capacity search of one scenario

The search doubles the users until a level fails or the throughput flattens,
bisects the bracket this leaves, and confirms the candidate by repetitions. A
failed confirmation sends it back to a bisection below the candidate.
-/

namespace CfIntegration.Fyre.Capacity

/-- Floating-point arithmetic: the exact result, rounded. Standard deviations are
left to the library. -/
structure Floating where
  round : ℚ → ℚ
  monotone : Monotone round
  pstdev : List ℚ → ℚ

namespace Floating

/-- Arithmetic without rounding. -/
def exact (pstdev : List ℚ → ℚ) : Floating := ⟨id, monotone_id, pstdev⟩

variable (floating : Floating)

def div (first second : ℚ) : ℚ := floating.round (first / second)

/-- The sum is rounded once, and so is the quotient. -/
def fmean (values : List ℚ) : ℚ := floating.div (floating.round values.sum) values.length

end Floating

/-- What a measured phase reports. -/
structure Phase where
  rps : ℚ
  perReplicaRps : List ℚ
  p50Ms : ℚ
  p95Ms : ℚ
  p99Ms : ℚ
  rps_nonneg : 0 ≤ rps
  deriving DecidableEq, Repr

inductive StepOutcome where
  | passed (phase : Phase)
  | failed
  /-- The step raised, be it for a saturated helper. -/
  | raised
  deriving DecidableEq, Repr

/-- What the search meets: the outcome of a measurement at a level after the earlier
measurements, the time since the start at each reading of the clock, and the
direct calibration at the end. -/
structure SearchEnv where
  oracle : List (Nat × Bool) → Nat → StepOutcome
  elapsed : Nat → ℚ
  elapsed_nonneg : ∀ reading, 0 ≤ elapsed reading
  elapsed_monotone : Monotone elapsed
  calibration : List (Nat × Bool) → Nat → StepOutcome

/-- A level that passed, with what was measured there. -/
structure Passing where
  users : Nat
  phase : Phase
  deriving DecidableEq, Repr

structure SearchState where
  measurements : List (Nat × Bool)
  readings : Nat
  passing : List Passing
  failing : Option Nat

inductive SearchStop where
  | raised
  | zeroDivision
  /-- A loop of the model ran out of fuel. -/
  | exhausted
  deriving DecidableEq, Repr

abbrev SearchAction (α : Type) := Action SearchState SearchStop α

def update (change : SearchState → SearchState) : SearchAction Unit := fun state =>
  (.ok (), change state)

def readState : SearchAction SearchState := fun state => (.ok state, state)

def raise {α : Type} : SearchAction α := Action.fail .raised

section Search

variable (floating : Floating) (env : SearchEnv) (workload : WorkloadConfig)

def maximumUsers : Nat := workload.maximumUsers.toNat

def firstUsers : Nat := workload.firstUsers.toNat

def measuredStep (users : Nat) : SearchAction (Option Phase) := fun state =>
  match env.oracle state.measurements users with
  | .raised => (.error .raised, state)
  | .passed phase =>
      (.ok (some phase), { state with measurements := state.measurements ++ [(users, true)] })
  | .failed => (.ok none, { state with measurements := state.measurements ++ [(users, false)] })

def appendPassing (item : Passing) : SearchAction Unit :=
  update fun state => { state with passing := state.passing ++ [item] }

def setFailing (users : Nat) : SearchAction Unit :=
  update fun state => { state with failing := some users }

/-- Division raises on zero. -/
def divide (first second : ℚ) : SearchAction ℚ :=
  if second = 0 then Action.fail .zeroDivision else pure (floating.div first second)

def improvementOver (rps previous : ℚ) : SearchAction ℚ := do
  let ratio ← divide floating rps previous
  return floating.round (100 * floating.round (ratio - 1))

/-- The bracket is wider than the configured boundary. -/
def wide (low high : Nat) : Prop :=
  floating.div workload.boundaryPercent 100 < floating.div ((high : ℚ) - low) high

instance (low high : Nat) : Decidable (wide floating workload low high) :=
  inferInstanceAs (Decidable (_ < _))

/-- The clock is read after the users were compared. -/
def withinTime : SearchAction Bool := do
  let state ← readState
  update fun state => { state with readings := state.readings + 1 }
  return env.elapsed state.readings < workload.maximumCampaignSeconds.toNat

/-- The first level improves on none. -/
def nextImprovements (phase : Phase) (previous : Option Passing) (improvements : List ℚ) :
    SearchAction (List ℚ) :=
  match previous with
  | none => pure improvements
  | some previous => do
      let improvement ← improvementOver floating phase.rps previous.phase.rps
      return improvements ++ [improvement]

def flattened (improvements : List ℚ) : Prop :=
  2 ≤ improvements.length ∧ ∀ value ∈ improvements.drop (improvements.length - 2),
    value < workload.plateauImprovementPercent

instance (improvements : List ℚ) : Decidable (flattened workload improvements) :=
  inferInstanceAs (Decidable (_ ∧ _))

/-- The third and the second level from the end. -/
def plateauOf (passing : List Passing) : SearchAction (Passing × Passing) :=
  match passing.reverse with
  | _ :: second :: third :: _ => pure (third, second)
  | _ => raise

def growthLoop : Nat → Nat → List ℚ → SearchAction (Option (Passing × Passing))
  | 0, _, _ => Action.fail .exhausted
  | fuel + 1, users, improvements => do
      if maximumUsers workload < users then return none
      else if ¬ (← withinTime env workload) then return none
      else
        match ← measuredStep env users with
        | none => do
            setFailing users
            return none
        | some phase => do
            let state ← readState
            let improvements ← nextImprovements floating phase state.passing.getLast? improvements
            appendPassing ⟨users, phase⟩
            if flattened workload improvements then do
              let state ← readState
              let plateau ← plateauOf state.passing
              return some plateau
            else if users = maximumUsers workload then return none
            else growthLoop fuel (min (maximumUsers workload) (users * 2)) improvements

/-- The first of the items with the most users. -/
def mostUsers : List Passing → Option Passing
  | [] => none
  | item :: rest => some (rest.foldl
      (fun best item => if best.users < item.users then item else best) item)

def refineBelowLoop : Nat → Passing → Nat → SearchAction Passing
  | 0, _, _ => Action.fail .exhausted
  | fuel + 1, low, high =>
      if wide floating workload low.users high then do
        let users := (low.users + high) / 2
        match ← measuredStep env users with
        | some phase => do
            appendPassing ⟨users, phase⟩
            refineBelowLoop fuel ⟨users, phase⟩ high
        | none => do
            setFailing users
            refineBelowLoop fuel low users
      else return low

def refineBelow (fuel high : Nat) : SearchAction (Option Passing) := do
  let state ← readState
  match mostUsers (state.passing.filter fun item => item.users < high) with
  | none => return none
  | some low => do
      let refined ← refineBelowLoop floating env workload fuel low high
      return some refined

structure PlateauBoundary where
  below : Passing
  atOrAbove : Nat
  widthPercent : Option ℚ
  deriving DecidableEq, Repr

def refinePlateauLoop (total : Nat) : Nat → Passing → Passing →
    SearchAction (Passing × PlateauBoundary)
  | 0, _, _ => Action.fail .exhausted
  | fuel + 1, low, high =>
      if wide floating workload low.users high.users then do
        let users := (low.users + high.users) / 2
        match ← measuredStep env users with
        | none => do
            setFailing users
            let refined ← refineBelow floating env workload total users
            let state ← readState
            let atOrAbove := state.failing.getD users
            match refined with
            | none => return (low, ⟨low, atOrAbove, none⟩)
            | some refined => return (refined, ⟨refined, atOrAbove, none⟩)
        | some phase => do
            appendPassing ⟨users, phase⟩
            let improvement ← improvementOver floating phase.rps low.phase.rps
            if workload.plateauImprovementPercent ≤ improvement then
              refinePlateauLoop total fuel ⟨users, phase⟩ high
            else refinePlateauLoop total fuel low ⟨users, phase⟩
      else
        return (high, ⟨low, high.users,
          some (floating.div (floating.round (100 * ((high.users : ℚ) - low.users))) high.users)⟩)

/-- The repetitions at a level, up to the first that fails. -/
def confirmRound (users : Nat) : Nat → List Phase → SearchAction (List Phase × Bool)
  | 0, confirmations => pure (confirmations, true)
  | repetitions + 1, confirmations => do
      match ← measuredStep env users with
      | none => return (confirmations, false)
      | some phase => confirmRound users repetitions (confirmations ++ [phase])

/-- A candidate that a round of repetitions refuted. -/
structure ConfirmationFailure where
  candidate : Passing
  confirmations : List Phase
  deriving DecidableEq, Repr

structure Confirmed where
  candidate : Passing
  confirmations : List Phase
  confirmationFailures : List ConfirmationFailure
  deriving DecidableEq, Repr

def confirmLoop (total : Nat) : Nat → Passing → List ConfirmationFailure →
    SearchAction (Option Confirmed)
  | 0, _, _ => Action.fail .exhausted
  | fuel + 1, candidate, failures => do
      let (confirmations, passed) ←
        confirmRound env candidate.users workload.repetitions.toNat []
      if passed then return some ⟨candidate, confirmations, failures⟩
      else do
        setFailing candidate.users
        let refined ← refineBelow floating env workload total candidate.users
        match refined with
        | none => return none
        | some refined =>
            confirmLoop total fuel refined (failures ++ [⟨candidate, confirmations⟩])

structure ConfirmedResult where
  users : Nat
  search : List Passing
  failing : Option Nat
  confirmations : List Phase
  confirmationFailures : List ConfirmationFailure
  plateauBoundary : Option PlateauBoundary
  rps : ℚ
  rpsMin : ℚ
  rpsMax : ℚ
  rpsCvPercent : ℚ
  replicaImbalancePercent : ℚ
  p50Ms : ℚ
  p95Ms : ℚ
  p99Ms : ℚ
  lowerBound : Bool
  deriving DecidableEq, Repr

inductive SearchResult where
  | failed (reason : String)
  | failedConfirmation
  | inconclusive
  | confirmed (result : ConfirmedResult)
  deriving DecidableEq, Repr

/-- The least and the greatest value; none of an empty list. -/
def extremes : List ℚ → Option (ℚ × ℚ)
  | [] => none
  | value :: rest => some (rest.foldl min value, rest.foldl max value)

def imbalance (phase : Phase) : ℚ :=
  match extremes phase.perReplicaRps with
  | none => 0
  | some (least, greatest) =>
      let mean := floating.fmean phase.perReplicaRps
      if mean ≠ 0 ∧ 1 < phase.perReplicaRps.length then
        floating.div (floating.round (100 * floating.round (greatest - least))) mean
      else 0

/-- The spread of the repetitions; a single one has none. -/
def coefficientOfVariation (values : List ℚ) : SearchAction ℚ :=
  if 1 < values.length then
    divide floating (floating.round (100 * floating.pstdev values)) (floating.fmean values)
  else pure 0

def summarize (boundary : Option PlateauBoundary) (confirmed : Confirmed) :
    SearchAction SearchResult := do
  let phases := confirmed.confirmations
  let values := phases.map Phase.rps
  match extremes values with
  | none => raise
  | some (least, greatest) => do
      let history ← readState
      match env.calibration history.measurements confirmed.candidate.users with
      | .raised => raise
      | .failed => return .inconclusive
      | .passed calibration =>
          if calibration.rps < floating.round (least * floating.round (21 / 20)) then
            return .inconclusive
          else do
            let variation ← coefficientOfVariation floating values
            return .confirmed {
              users := confirmed.candidate.users
              search := history.passing
              failing := history.failing
              confirmations := phases
              confirmationFailures := confirmed.confirmationFailures
              plateauBoundary := boundary
              rps := floating.fmean values
              rpsMin := least
              rpsMax := greatest
              rpsCvPercent := variation
              replicaImbalancePercent := floating.fmean (phases.map (imbalance floating))
              p50Ms := floating.fmean (phases.map Phase.p50Ms)
              p95Ms := floating.fmean (phases.map Phase.p95Ms)
              p99Ms := floating.fmean (phases.map Phase.p99Ms)
              lowerBound := confirmed.candidate.users = maximumUsers workload ∧
                history.failing = none }

/-- The candidate that growth and refinement leave. -/
def findCandidate (fuel : Nat) (plateau : Option (Passing × Passing)) :
    SearchAction (Option (Passing × Option PlateauBoundary)) := do
  let state ← readState
  match state.failing, plateau with
  | some high, _ => do
      let refined ← refineBelow floating env workload fuel high
      return refined.map fun candidate => (candidate, none)
  | none, some (low, high) => do
      let (candidate, boundary) ← refinePlateauLoop floating env workload fuel fuel low high
      return some (candidate, some boundary)
  | none, none => return (mostUsers state.passing).map fun candidate => (candidate, none)

/-- The search with so many turns for each of its loops; every turn measures. -/
def capacitySearch (fuel : Nat) : SearchAction SearchResult := do
  let plateau ← growthLoop floating env workload fuel (firstUsers workload) []
  let state ← readState
  if state.passing = [] then return .failed "no zero-error concurrency passed"
  else
    match ← findCandidate floating env workload fuel plateau with
    | none => return .failed "no zero-error concurrency passed below the failing bound"
    | some (candidate, boundary) => do
        match ← confirmLoop floating env workload fuel fuel candidate [] with
        | none => return .failedConfirmation
        | some confirmed => summarize floating env workload boundary confirmed

end Search

def SearchState.initial : SearchState := ⟨[], 0, [], none⟩

end CfIntegration.Fyre.Capacity
