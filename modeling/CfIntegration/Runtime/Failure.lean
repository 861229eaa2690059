import CfIntegration.Foundation.Fallible

/-! # Application failures

Failures of the application's operations, and how the failure of a phase is
joined with the failure of its cleanup.
-/

namespace CfIntegration.Runtime

inductive InfrastructureError where
  /-- A child process ended; it has an exit code unless a signal ended it. -/
  | childExit (code : Option Int) (message : String)
  | native (message : String)
  deriving DecidableEq, Repr

inductive AppFailure where
  | infrastructure (error : InfrastructureError)
  | native (message : String)
  /-- The workflow already rendered a complete diagnostic. -/
  | reported
  deriving DecidableEq, Repr

abbrev AppResult (α : Type) := Except AppFailure α

namespace AppFailure

def isReported : AppFailure → Bool
  | .reported => true
  | .infrastructure _ | .native _ => false

def display : AppFailure → String
  | .infrastructure (.childExit _ message) | .infrastructure (.native message) => message
  | .native message => message
  | .reported => "failure already reported"

end AppFailure

/-- A library error as an application failure. -/
def fromNative {α : Type} : Except String α → AppResult α
  | .ok value => .ok value
  | .error message => .error (.native message)

@[simp] theorem fromNative_eq_ok {α : Type} {result : Except String α} {value : α} :
    fromNative result = .ok value ↔ result = .ok value := by
  cases result <;> simp [fromNative]

/-- The failure of a result, if any. -/
def err {α : Type} : AppResult α → Option AppFailure
  | .ok _ => none
  | .error failure => some failure

@[simp] theorem err_ok {α : Type} (value : α) : err (.ok value) = none := rfl

@[simp] theorem err_error {α : Type} (failure : AppFailure) :
    err (.error failure : AppResult α) = some failure := rfl

def finishWithCleanupFailures (primary : Option AppFailure) (cleanupFailures : List AppFailure) :
    AppResult Unit :=
  if cleanupFailures = [] then
    match primary with
    | none => .ok ()
    | some failure => .error failure
  else
    .error (.native (cleanupFailures.foldl
      (fun message cleanup => message ++ "; additionally cleanup failed: " ++ cleanup.display)
      ((primary.map AppFailure.display).getD "cleanup failed")))

def finishWithCleanup (primary : Option AppFailure) (cleanup : AppResult Unit) : AppResult Unit :=
  finishWithCleanupFailures primary (err cleanup).toList

/-- A phase with its cleanup succeeded exactly when both did. -/
theorem err_finishWithCleanup_eq_none {primary : Option AppFailure} {cleanup : AppResult Unit} :
    err (finishWithCleanup primary cleanup) = none ↔ primary = none ∧ cleanup = .ok () := by
  rcases primary with _ | failure <;> rcases cleanup with error | ⟨⟨⟩⟩ <;>
    simp [finishWithCleanup, finishWithCleanupFailures]

theorem finishWithCleanup_isSome {primary : Option AppFailure} (cleanup : AppResult Unit)
    (hprimary : primary.isSome = true) :
    (err (finishWithCleanup primary cleanup)).isSome = true := by
  rw [← Option.ne_none_iff_isSome, ne_eq, err_finishWithCleanup_eq_none]
  rintro ⟨rfl, _⟩
  simp at hprimary

/-- Each failure of a cleanup shows in the failure of the whole. -/
theorem display_of_mem_cleanupFailures {primary : Option AppFailure}
    {cleanupFailures : List AppFailure} {failure : AppFailure} (hmem : failure ∈ cleanupFailures) :
    ∃ combined, finishWithCleanupFailures primary cleanupFailures = .error combined ∧
      failure.display.toList <:+: combined.display.toList := by
  have hkept : ∀ (failures : List AppFailure) (message : String) (text : List Char),
      text <:+: message.toList → text <:+: (failures.foldl (fun message cleanup =>
        message ++ "; additionally cleanup failed: " ++ cleanup.display) message).toList := by
    intro failures
    induction failures with
    | nil => exact fun message text htext => htext
    | cons first failures ih =>
        intro message text htext
        refine ih _ text ?_
        rw [String.toList_append, String.toList_append, List.append_assoc]
        exact htext.trans (List.prefix_append _ _).isInfix
  have hshown : ∀ (failures : List AppFailure) (message : String), failure ∈ failures →
      failure.display.toList <:+: (failures.foldl (fun message cleanup =>
        message ++ "; additionally cleanup failed: " ++ cleanup.display) message).toList := by
    intro failures
    induction failures with
    | nil => exact fun message hfailure => absurd hfailure List.not_mem_nil
    | cons first failures ih =>
        intro message hfailure
        rcases List.mem_cons.mp hfailure with rfl | hlater
        · refine hkept failures _ _ ?_
          rw [String.toList_append]
          exact (List.suffix_append _ _).isInfix
        · exact ih _ hlater
  unfold finishWithCleanupFailures
  rw [if_neg (List.ne_nil_of_mem hmem)]
  exact ⟨_, rfl, hshown cleanupFailures _ hmem⟩

def combineCleanupResults (first second : AppResult Unit) : AppResult Unit :=
  match first, second with
  | .ok (), .ok () => .ok ()
  | .error error, .ok () | .ok (), .error error => .error error
  | .error first, .error second => .error (.native s!"{
      first.display}; additionally conformance service cleanup failed: {second.display}")

/-- Whether the official runner ran to its end, whatever it exited with. -/
def conformanceProcessCompleted : AppResult Unit → Bool
  | .ok () => true
  | .error (.infrastructure (.childExit code _)) => code.isSome
  | .error (.infrastructure (.native _)) | .error (.native _) | .error .reported => false

end CfIntegration.Runtime
