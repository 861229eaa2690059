import Mathlib.Algebra.Order.BigOperators.Group.List
import CfIntegration.Fyre.CapacityBracket

/-! # What the capacity search divides by

The search divides by rates of phases that passed, and by the mean of such rates. As
long as these are not zero it raises only where a measurement raises.
-/

namespace CfIntegration.Fyre.Capacity

/-- The least positive number of the arithmetic. Rounding keeps it and its multiples, as far
as their factors are whole numbers of the arithmetic. -/
structure Floating.Least (floating : Floating) (least : ℚ) : Prop where
  positive : 0 < least
  kept : ∀ count : Nat, count ≤ 2 ^ 53 → floating.round (count * least) = count * least

/-- Rounding a sum of rates does not take it below the exact multiple of the least rate. -/
theorem Floating.Least.mul_le_round {floating : Floating} {least value : ℚ}
    (hleast : floating.Least least) {count : Nat} (hcount : count ≤ 2 ^ 53)
    (hvalue : count * least ≤ value) : count * least ≤ floating.round value := by
  have hround := floating.monotone hvalue
  rwa [hleast.kept count hcount] at hround

/-- A value that is at least the least rate does not round to zero. -/
theorem Floating.Least.round_pos {floating : Floating} {least value : ℚ}
    (hleast : floating.Least least) (hvalue : least ≤ value) : 0 < floating.round value := by
  have hround := hleast.mul_le_round (show 1 ≤ 2 ^ 53 by norm_num) (by simpa using hvalue)
  rw [Nat.cast_one, one_mul] at hround
  exact hleast.positive.trans_le hround

/-- Every phase that passes has a rate of at least this much. -/
def SearchEnv.Rated (env : SearchEnv) (least : ℚ) : Prop :=
  ∀ measurements users phase, env.oracle measurements users = .passed phase → least ≤ phase.rps

/-- A measurement or the calibration raises where the search stands. -/
def SearchEnv.Raises (env : SearchEnv) (state : SearchState) : Prop :=
  ∃ users, env.oracle state.measurements users = .raised ∨
    env.calibration state.measurements users = .raised

/-- No division is by zero and only the environment raises; what is returned meets a
postcondition. -/
def OnlyEnvRaises {α : Type} (env : SearchEnv) (post : α → SearchState → Prop) :
    Except SearchStop α → SearchState → Prop
  | .ok value, state => post value state
  | .error .raised, state => env.Raises state
  | .error .zeroDivision, _ => False
  | .error .exhausted, _ => True

/-- All levels in the list have the rate. -/
def RatedItems (least : ℚ) (items : List Passing) : Prop := ∀ item ∈ items, least ≤ item.phase.rps

section Division

variable {α β : Type} {floating : Floating} {env : SearchEnv} {workload : WorkloadConfig}
variable {least : ℚ}

/-- Two steps that never divide by zero never do so one after the other. -/
theorem onlyEnvRaises_bind {action : SearchAction α} {next : α → SearchAction β}
    {start : SearchState} {middle : α → SearchState → Prop} {post : β → SearchState → Prop}
    (haction : action.Ensures start (OnlyEnvRaises env middle))
    (hnext : ∀ value state, middle value state →
      (next value).Ensures state (OnlyEnvRaises env post)) :
    (action >>= next).Ensures start (OnlyEnvRaises env post) :=
  haction.bind (fun value state hmiddle => hnext value state hmiddle) fun error _ herror => by
    cases error <;> exact herror

/-- A measurement adds no level by itself. -/
theorem measuredStep_raises (hrated : env.Rated least) (users : Nat) (start : SearchState) :
    (measuredStep env users).Ensures start (OnlyEnvRaises env fun result state =>
      state.passing = start.passing ∧ ∀ phase, result = some phase → least ≤ phase.rps) := by
  unfold Action.Ensures Action.run measuredStep
  cases houtcome : env.oracle start.measurements users with
  | passed phase =>
      refine ⟨rfl, fun other hother => ?_⟩
      cases hother
      exact hrated _ _ _ houtcome
  | failed => exact ⟨rfl, fun _ hnone => by cases hnone⟩
  | raised => exact ⟨users, .inl houtcome⟩

/-- The improvement over a rate divides by it, so a rate other than zero is enough. -/
theorem improvementOver_raises {rps previous : ℚ} (hprevious : previous ≠ 0)
    (start : SearchState) : (improvementOver floating rps previous).Ensures start
      (OnlyEnvRaises env fun _ state => state = start) := by
  unfold improvementOver divide
  rw [if_neg hprevious]
  exact rfl

theorem ratedItems_append {items : List Passing} {users : Nat} {phase : Phase}
    (hitems : RatedItems least items) (hphase : least ≤ phase.rps) :
    RatedItems least (items ++ [⟨users, phase⟩]) := fun item hitem => by
  rcases List.mem_append.mp hitem with hold | hnew
  · exact hitems item hold
  · rw [List.mem_singleton.mp hnew]
    exact hphase

/-- The plateau's improvement divides by the rate of a pass. -/
theorem plateauOf_raises {passing : List Passing} (hlength : 3 ≤ passing.length)
    (start : SearchState) : (plateauOf passing).Ensures start
      (OnlyEnvRaises env fun plateau state => state = start ∧ plateau.1 ∈ passing ∧
        plateau.2 ∈ passing) := by
  unfold plateauOf
  split
  next last second third rest hreverse =>
    have hmem : ∀ item ∈ [second, third], item ∈ passing := by
      intro item hitem
      rw [← List.mem_reverse, hreverse]
      exact List.mem_cons_of_mem _ (List.mem_append_left rest hitem)
    exact ⟨rfl, hmem third (by simp), hmem second (by simp)⟩
  next hshort =>
    have hreversed : 3 ≤ passing.reverse.length := by rwa [List.length_reverse]
    rcases hreverse : passing.reverse with _ | ⟨last, _ | ⟨second, _ | ⟨third, rest⟩⟩⟩
    · simp [hreverse] at hreversed
    · simp [hreverse] at hreversed
    · simp [hreverse] at hreversed
    · exact absurd hreverse (hshort last second third rest)

/-- A level that improves on none or on one with a rate gives one improvement for each
level but the first. -/
theorem nextImprovements_raises (hleast : 0 < least) {phase : Phase} {passing : List Passing}
    (hpassing : RatedItems least passing) {improvements : List ℚ}
    (hlength : improvements.length = passing.length - 1) (start : SearchState) :
    (nextImprovements floating phase passing.getLast? improvements).Ensures start
      (OnlyEnvRaises env fun values state => state = start ∧ values.length = passing.length) := by
  unfold nextImprovements
  cases hlast : passing.getLast? with
  | none =>
      rw [List.getLast?_eq_none_iff.mp hlast] at hlength ⊢
      exact ⟨rfl, hlength⟩
  | some previous =>
      have hmem := List.mem_of_getLast? hlast
      have hrps := hpassing previous hmem
      refine onlyEnvRaises_bind (improvementOver_raises (hleast.trans_le hrps).ne' start)
        fun improvement state hstate => ⟨hstate, ?_⟩
      have hpositive := List.length_pos_of_mem hmem
      rw [List.length_append, List.length_singleton]
      omega

/-- The growth loop only divides by the rates it has measured. -/
theorem growthLoop_raises (hleast : 0 < least) (hrated : env.Rated least) (fuel users : Nat)
    {improvements : List ℚ} {start : SearchState} (hpassing : RatedItems least start.passing)
    (hlength : improvements.length = start.passing.length - 1) :
    (growthLoop floating env workload fuel users improvements).Ensures start
      (OnlyEnvRaises env fun plateau state => RatedItems least state.passing ∧
        ∀ low high, plateau = some (low, high) → RatedItems least [low, high]) := by
  induction fuel generalizing users improvements start with
  | zero => exact trivial
  | succ fuel ih =>
      unfold growthLoop
      split
      · exact ⟨hpassing, by simp⟩
      refine withinTime_then ?_
      split
      · exact ⟨hpassing, by simp⟩
      refine onlyEnvRaises_bind (measuredStep_raises hrated users start.tick) ?_
      rintro outcome state ⟨hstate, hphase⟩
      change state.passing = start.passing at hstate
      -- A level that fails adds no rate.
      cases outcome with
      | none =>
          refine update_then ⟨?_, by simp⟩
          rw [← hstate] at hpassing
          exact hpassing
      | some phase =>
          rw [← hstate] at hpassing hlength
          refine readState_then (onlyEnvRaises_bind
            (nextImprovements_raises hleast hpassing hlength state) ?_)
          rintro values after ⟨rfl, hvalues⟩
          have hnext := @ratedItems_append least after.passing users phase hpassing
            (hphase phase rfl)
          refine update_then ?_
          split
          next hflat =>
            -- Two improvements belong to three levels that passed.
            have hthree : 3 ≤ (after.passing ++ [(⟨users, phase⟩ : Passing)]).length := by
              rw [List.length_append, List.length_singleton, ← hvalues]
              have htwo := hflat.1
              omega
            refine readState_then (onlyEnvRaises_bind (plateauOf_raises hthree _) ?_)
            rintro ⟨low, high⟩ last ⟨rfl, hlow, hhigh⟩
            refine ⟨hnext, fun other next heq => ?_⟩
            cases heq
            intro item hitem
            rcases List.mem_pair.mp hitem with rfl | rfl
            · exact hnext _ hlow
            · exact hnext _ hhigh
          · split
            · exact ⟨hnext, by simp⟩
            · exact ih _ hnext (by simp [hvalues])

/-- The search below a failure keeps a rated pass as its lower bound. -/
theorem refineBelowLoop_raises (hrated : env.Rated least) (fuel high : Nat) {low : Passing}
    (hlow : least ≤ low.phase.rps) {start : SearchState}
    (hpassing : RatedItems least start.passing) :
    (refineBelowLoop floating env workload fuel low high).Ensures start
      (OnlyEnvRaises env fun refined state => RatedItems least state.passing ∧
        least ≤ refined.phase.rps) := by
  induction fuel generalizing low high start with
  | zero => exact trivial
  | succ fuel ih =>
      unfold refineBelowLoop
      split
      · refine onlyEnvRaises_bind (measuredStep_raises hrated _ start) ?_
        rintro outcome state ⟨hstate, hphase⟩
        rw [← hstate] at hpassing
        cases outcome with
        | none => exact update_then (ih _ hlow hpassing)
        | some phase =>
            have hrps := hphase phase rfl
            exact update_then (ih _ hrps (ratedItems_append hpassing hrps))
      · exact ⟨hpassing, hlow⟩

theorem refineBelow_raises (hrated : env.Rated least) (fuel high : Nat) {start : SearchState}
    (hpassing : RatedItems least start.passing) :
    (refineBelow floating env workload fuel high).Ensures start
      (OnlyEnvRaises env fun refined state => RatedItems least state.passing ∧
        ∀ item, refined = some item → least ≤ item.phase.rps) := by
  unfold refineBelow
  refine readState_then ?_
  split
  · exact ⟨hpassing, by simp⟩
  next low hlow =>
    have hmem := List.mem_of_mem_filter (mostUsers_mem hlow)
    refine onlyEnvRaises_bind (refineBelowLoop_raises hrated fuel high (hpassing low hmem) hpassing)
      fun refined state hrefined => ⟨hrefined.1, fun item hitem => ?_⟩
    cases hitem
    exact hrefined.2

/-- The search of the plateau keeps rated passes as its bounds. -/
theorem refinePlateauLoop_raises (hleast : 0 < least) (hrated : env.Rated least)
    (total fuel : Nat) {low high : Passing} (hbounds : RatedItems least [low, high])
    {start : SearchState} (hpassing : RatedItems least start.passing) :
    (refinePlateauLoop floating env workload total fuel low high).Ensures start
      (OnlyEnvRaises env fun _ state => RatedItems least state.passing) := by
  induction fuel generalizing low high start with
  | zero => exact trivial
  | succ fuel ih =>
      have hlow : least ≤ low.phase.rps := hbounds low (by simp)
      have hhigh : least ≤ high.phase.rps := hbounds high (by simp)
      unfold refinePlateauLoop
      split
      · refine onlyEnvRaises_bind (measuredStep_raises hrated _ start) ?_
        rintro outcome state ⟨hstate, hphase⟩
        rw [← hstate] at hpassing
        cases outcome with
        | none =>
            refine update_then (onlyEnvRaises_bind (refineBelow_raises hrated total _ ?_) ?_)
            · exact hpassing
            · rintro refined after ⟨hafter, -⟩
              refine readState_then ?_
              cases refined with
              | none => exact hafter
              | some refined => exact hafter
        | some phase =>
            have hrps := hphase phase rfl
            refine update_then (onlyEnvRaises_bind
              (improvementOver_raises (hleast.trans_le hlow).ne' _) ?_)
            rintro improvement after rfl
            have hnext : RatedItems least (state.passing ++
                [(⟨(low.users + high.users) / 2, phase⟩ : Passing)]) :=
              ratedItems_append hpassing hrps
            split
            · exact ih (by simp [RatedItems, hrps, hhigh]) hnext
            · exact ih (by simp [RatedItems, hrps, hlow]) hnext
      · exact hpassing

/-- The confirmations of a level are rated phases. -/
theorem confirmRound_raises (hrated : env.Rated least) (users repetitions : Nat)
    {confirmations : List Phase} (hconfirmations : ∀ phase ∈ confirmations, least ≤ phase.rps)
    {start : SearchState} (hpassing : RatedItems least start.passing) :
    (confirmRound env users repetitions confirmations).Ensures start
      (OnlyEnvRaises env fun round state => RatedItems least state.passing ∧
        (∀ phase ∈ round.1, least ≤ phase.rps) ∧
        (round.2 = true → round.1.length = confirmations.length + repetitions)) := by
  induction repetitions generalizing confirmations start with
  | zero => exact ⟨hpassing, hconfirmations, fun _ => rfl⟩
  | succ repetitions ih =>
      unfold confirmRound
      refine onlyEnvRaises_bind (measuredStep_raises hrated users start) ?_
      rintro outcome state ⟨hstate, hphase⟩
      rw [← hstate] at hpassing
      cases outcome with
      | none => exact ⟨hpassing, hconfirmations, by simp⟩
      | some phase =>
          have hmore : ∀ other ∈ confirmations ++ [phase], least ≤ other.rps := by
            intro other hother
            rcases List.mem_append.mp hother with hold | hnew
            · exact hconfirmations other hold
            · rw [List.mem_singleton.mp hnew]
              exact hphase phase rfl
          refine (ih hmore hpassing).mono fun result last hresult => ?_
          cases result with
          | error error => cases error <;> exact hresult
          | ok round =>
              obtain ⟨hlast, hrates, hlength⟩ := hresult
              refine ⟨hlast, hrates, fun hpassed => ?_⟩
              rw [hlength hpassed, List.length_append, List.length_singleton]
              omega

/-- A candidate that fails its confirmation is replaced by a rated one. -/
theorem confirmLoop_raises (hrated : env.Rated least) (total fuel : Nat) (candidate : Passing)
    (failures : List ConfirmationFailure) {start : SearchState}
    (hpassing : RatedItems least start.passing) :
    (confirmLoop floating env workload total fuel candidate failures).Ensures start
      (OnlyEnvRaises env fun result _ => ∀ confirmed, result = some confirmed →
        (∀ phase ∈ confirmed.confirmations, least ≤ phase.rps) ∧
        confirmed.confirmations.length = workload.repetitions.toNat) := by
  induction fuel generalizing candidate failures start with
  | zero => exact trivial
  | succ fuel ih =>
      unfold confirmLoop
      refine onlyEnvRaises_bind (confirmRound_raises hrated candidate.users _ (by simp) hpassing) ?_
      rintro ⟨confirmations, passed⟩ state ⟨hstate, hrates, hlength⟩
      dsimp only
      split
      next hpassed =>
        intro confirmed hconfirmed
        cases hconfirmed
        exact ⟨hrates, by simpa using hlength hpassed⟩
      · refine update_then (onlyEnvRaises_bind (refineBelow_raises hrated total _ ?_) ?_)
        · exact hstate
        · rintro refined after ⟨hafter, -⟩
          cases refined with
          | none => exact nofun
          | some refined => exact ih refined _ hafter

theorem extremes_eq_none {values : List ℚ} : extremes values = none ↔ values = [] := by
  cases values <;> simp [extremes]

/-- The mean of rates is not zero. -/
theorem fmean_ne_zero (hleast : floating.Least least) {values : List ℚ} (hne : values ≠ [])
    (hcount : values.length ≤ 2 ^ 53) (hvalues : ∀ value ∈ values, least ≤ value) :
    floating.fmean values ≠ 0 := by
  have hlength : (0 : ℚ) < values.length := by
    exact_mod_cast List.length_pos_iff.mpr hne
  have hsum : values.length * least ≤ values.sum := by
    have hle := List.card_nsmul_le_sum values least hvalues
    rwa [nsmul_eq_mul] at hle
  have hrounded := hleast.mul_le_round hcount hsum
  refine (hleast.round_pos ?_).ne'
  rw [le_div_iff₀ hlength, mul_comm]
  exact hrounded

/-- The summary divides by the mean of its rates, which is no zero while there is a phase. -/
theorem summarize_raises (hleast : floating.Least least) {boundary : Option PlateauBoundary}
    {confirmed : Confirmed} (hne : confirmed.confirmations ≠ [])
    (hcount : confirmed.confirmations.length ≤ 2 ^ 53)
    (hrates : ∀ phase ∈ confirmed.confirmations, least ≤ phase.rps) (start : SearchState) :
    (summarize floating env workload boundary confirmed).Ensures start
      (OnlyEnvRaises env fun _ _ => True) := by
  have hvalues : ∀ value ∈ confirmed.confirmations.map Phase.rps, least ≤ value := by
    intro value hvalue
    obtain ⟨phase, hphase, rfl⟩ := List.mem_map.mp hvalue
    exact hrates phase hphase
  have hmap : confirmed.confirmations.map Phase.rps ≠ [] := by simpa using hne
  unfold summarize
  dsimp only
  cases hextremes : extremes (confirmed.confirmations.map Phase.rps) with
  | none => exact absurd (extremes_eq_none.mp hextremes) hmap
  | some bounds =>
      refine readState_then ?_
      cases hcalibration : env.calibration start.measurements confirmed.candidate.users with
      | raised => exact ⟨_, .inr hcalibration⟩
      | failed => exact trivial
      | passed calibration =>
          dsimp only
          split
          · exact trivial
          · have hvariation : (coefficientOfVariation floating
                (confirmed.confirmations.map Phase.rps)).Ensures start
                (OnlyEnvRaises env fun _ _ => True) := by
              unfold coefficientOfVariation divide
              split
              · rw [if_neg (fmean_ne_zero hleast hmap (by rwa [List.length_map]) hvalues)]
                exact trivial
              · exact trivial
            exact onlyEnvRaises_bind hvariation fun _ _ _ => trivial

/-- A search whose phases have a rate divides by no zero: where it raises, a measurement
or the calibration raises. -/
theorem capacitySearch_raises (hleast : floating.Least least) (hrated : env.Rated least)
    (hrepetitions : 0 < workload.repetitions.toNat) (fuel : Nat) :
    (capacitySearch floating env workload fuel).Ensures .initial
      (OnlyEnvRaises env fun _ _ => True) := by
  unfold capacitySearch
  refine onlyEnvRaises_bind (growthLoop_raises hleast.positive hrated fuel _
    (fun item hitem => by cases hitem) rfl) ?_
  rintro plateau state ⟨hpassing, hplateau⟩
  refine readState_then ?_
  split
  · exact trivial
  have hfound : (findCandidate floating env workload fuel plateau).Ensures state
      (OnlyEnvRaises env fun _ after => RatedItems least after.passing) := by
    unfold findCandidate
    refine readState_then ?_
    split
    next high _ =>
      exact onlyEnvRaises_bind (refineBelow_raises hrated fuel high hpassing)
        fun _ _ hrefined => hrefined.1
    next low high _ =>
      exact onlyEnvRaises_bind (refinePlateauLoop_raises hleast.positive hrated fuel fuel
        (hplateau low high rfl) hpassing) fun _ _ hafter => hafter
    · exact hpassing
  refine onlyEnvRaises_bind hfound fun found after hafter => ?_
  split
  · exact trivial
  next candidate boundary =>
    refine onlyEnvRaises_bind (confirmLoop_raises hrated fuel fuel candidate [] hafter) ?_
    intro outcome last hlast
    cases outcome with
    | none => exact trivial
    | some confirmed =>
        obtain ⟨hrates, hlength⟩ := hlast confirmed rfl
        have hsmall := UInt32.toNat_lt workload.repetitions
        refine summarize_raises hleast (List.ne_nil_of_length_pos ?_) (by omega) hrates last
        rw [hlength]
        exact hrepetitions

end Division

end CfIntegration.Fyre.Capacity
