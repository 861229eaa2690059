import Mathlib.Algebra.BigOperators.Group.List.Basic
import Mathlib.Tactic.NormNum
import CfIntegration.Fyre.CapacitySoundness

/-! # Runs that confirm a failing level

Where the bracket of two adjacent levels is wider than the boundary, the midpoint
is the lower of the two. If it fails there and passes every repetition afterwards,
it is confirmed as the capacity.
-/

namespace CfIntegration.Fyre.Capacity

/-- A phase that only tells its throughput. -/
def phaseAt (rps : ℚ) (hrps : 0 ≤ rps) : Phase := ⟨rps, [], 0, 0, 0, hrps⟩

def steadyPhase : Phase := phaseAt 1 (by norm_num)

/-- A machine with such outcomes, all the time it needs and enough upstream headroom. -/
def noisyEnv (oracle : List (Nat × Bool) → Nat → StepOutcome) : SearchEnv where
  oracle
  elapsed _ := 0
  elapsed_nonneg _ := le_rfl
  elapsed_monotone := monotone_const
  calibration _ _ := .passed (phaseAt 2 (by norm_num))

section Search

variable {floating : Floating} {env : SearchEnv} {workload : WorkloadConfig}

/-- A level that the outcomes pass continues with its phase. -/
theorem measuredStep_passed {α : Type} {users : Nat} {phase : Phase}
    {next : Option Phase → SearchAction α} {start : SearchState}
    {post : Except SearchStop α → SearchState → Prop}
    (houtcome : env.oracle start.measurements users = .passed phase)
    (hnext : (next (some phase)).Ensures (start.measure users true) post) :
    (measuredStep env users >>= next).Ensures start post := by
  refine Action.ensures_bind.mpr ?_
  unfold measuredStep Action.Ensures Action.run
  simp only [houtcome]
  exact hnext

/-- A level that the outcomes fail continues without a phase. -/
theorem measuredStep_failed {α : Type} {users : Nat}
    {next : Option Phase → SearchAction α} {start : SearchState}
    {post : Except SearchStop α → SearchState → Prop}
    (houtcome : env.oracle start.measurements users = .failed)
    (hnext : (next none).Ensures (start.measure users false) post) :
    (measuredStep env users >>= next).Ensures start post := by
  refine Action.ensures_bind.mpr ?_
  unfold measuredStep Action.Ensures Action.run
  simp only [houtcome]
  exact hnext

/-- Every measurement of a level after its first failure passes. -/
def Recovers (env : SearchEnv) (users : Nat) : Prop :=
  ∀ history, (users, false) ∈ history → env.oracle history users = .passed steadyPhase

/-- A level that recovers is confirmed although it has failed. -/
theorem confirmRound_recovers {users : Nat} (hrecovers : Recovers env users) (repetitions : Nat)
    (confirmations : List Phase) {start : SearchState} (hfails : Fails start users) :
    (confirmRound env users repetitions confirmations).Ensures start fun result state =>
      result = .ok (confirmations ++ List.replicate repetitions steadyPhase, true) ∧
        Fails state users := by
  induction repetitions generalizing confirmations start with
  | zero => exact ⟨by simp [Action.run, confirmRound, pure, Action.pure], hfails⟩
  | succ repetitions ih =>
      refine measuredStep_passed (hrecovers _ hfails) ?_
      refine (ih (confirmations ++ [steadyPhase]) (fails_measure_true.mpr hfails)).mono
        fun _ _ hafter => ⟨hafter.1.trans ?_, hafter.2⟩
      rw [List.append_assoc, List.singleton_append, ← List.replicate_succ]

/-- Equal measurements are their own extremes. -/
theorem extremes_replicate (repetitions : Nat) (value : ℚ) :
    extremes (List.replicate (repetitions + 1) value) = some (value, value) := by
  have hfold : ∀ (combine : ℚ → ℚ → ℚ), combine value value = value →
      (List.replicate repetitions value).foldl combine value = value := by
    intro combine hcombine
    induction repetitions with
    | zero => rfl
    | succ repetitions ih => rw [List.replicate_succ, List.foldl_cons, hcombine, ih]
  rw [List.replicate_succ, extremes, hfold min (min_self _), hfold max (max_self _)]

/-- The rest of a search whose candidate passes every repetition. -/
theorem confirm_recovers {oracle : List (Nat × Bool) → Nat → StepOutcome} {pstdev : List ℚ → ℚ}
    {candidate : Passing} (hrecovers : Recovers (noisyEnv oracle) candidate.users)
    (hrepetitions : 0 < workload.repetitions.toNat) (boundary : Option PlateauBoundary)
    {start : SearchState} (hfails : Fails start candidate.users) (total fuel : Nat) :
    Action.Ensures (do
      match ← confirmLoop (.exact pstdev) (noisyEnv oracle) workload total (fuel + 1)
          candidate [] with
      | none => return .failedConfirmation
      | some confirmed => summarize (.exact pstdev) (noisyEnv oracle) workload boundary confirmed)
      start fun result state => ∃ summary, result = .ok (.confirmed summary) ∧
        summary.users = candidate.users ∧ Fails state candidate.users := by
  -- Every repetition passes at the steady rate, so the first round confirms the candidate.
  have hround := confirmRound_recovers hrecovers workload.repetitions.toNat [] hfails
  obtain ⟨more, hmore⟩ : ∃ more, workload.repetitions.toNat = more + 1 :=
    Nat.exists_eq_add_one.mpr hrepetitions
  have hconfirm : (confirmLoop (.exact pstdev) (noisyEnv oracle) workload total (fuel + 1)
      candidate []).Ensures start fun result state => result =
        .ok (some ⟨candidate, List.replicate (more + 1) steadyPhase, []⟩) ∧
        Fails state candidate.users := by
    refine hround.bind ?_ fun _ _ hstop => by cases hstop.1
    rintro ⟨phases, passed⟩ state ⟨hok, hstate⟩
    cases hok
    rw [← hmore]
    exact ⟨rfl, hstate⟩
  refine hconfirm.bind ?_ fun _ _ hstop => by cases hstop.1
  rintro confirmed state ⟨hok, hstate⟩
  cases hok
  -- The rates are all one; neither their mean nor their spread raises.
  have hmean : (Floating.exact pstdev).fmean (List.replicate (more + 1) 1) ≠ 0 := by
    simp only [Floating.fmean, Floating.div, Floating.exact, id, List.sum_replicate,
      List.length_replicate, nsmul_eq_mul, mul_one]
    rw [div_self (Nat.cast_ne_zero.mpr (Nat.succ_ne_zero more))]
    exact one_ne_zero
  have hvalues : (List.replicate (more + 1) steadyPhase).map Phase.rps =
      List.replicate (more + 1) 1 := List.map_replicate
  simp only [summarize, hvalues, extremes_replicate]
  refine readState_then ?_
  simp only [noisyEnv]
  rw [if_neg (by norm_num [phaseAt, Floating.exact])]
  have hvariation : (coefficientOfVariation (.exact pstdev)
      (List.replicate (more + 1) 1)).Ensures state fun result after =>
        (∃ value, result = .ok value) ∧ after = state := by
    unfold coefficientOfVariation divide
    split
    · exact ⟨⟨_, rfl⟩, rfl⟩
    · exact ⟨⟨_, rfl⟩, rfl⟩
  refine hvariation.bind ?_ fun _ _ hstop => by obtain ⟨⟨_, hok⟩, -⟩ := hstop; cases hok
  rintro value after ⟨-, rfl⟩
  exact ⟨_, rfl, rfl, hstate⟩

/-- One step of the growth loop at a level that passes. -/
theorem growthLoop_passed {oracle : List (Nat × Bool) → Nat → StepOutcome} {fuel users : Nat}
    {improvements values : List ℚ} {phase : Phase} {start : SearchState}
    {post : Except SearchStop (Option (Passing × Passing)) → SearchState → Prop}
    (htime : 0 < workload.maximumCampaignSeconds.toNat) (hmaximum : users ≤ maximumUsers workload)
    (houtcome : oracle start.measurements users = .passed phase)
    (hvalues : nextImprovements floating phase start.passing.getLast? improvements = pure values)
    (hnext : (if flattened workload values then do
        let state ← readState
        let plateau ← plateauOf state.passing
        return some plateau
      else if users = maximumUsers workload then return none
      else growthLoop floating (noisyEnv oracle) workload fuel
        (min (maximumUsers workload) (users * 2)) values
      : SearchAction (Option (Passing × Passing))).Ensures
        (start.tick.passAt ⟨users, phase⟩) post) :
    (growthLoop floating (noisyEnv oracle) workload (fuel + 1) users improvements).Ensures
      start post := by
  rw [growthLoop, if_neg (Nat.not_lt.mpr hmaximum)]
  refine withinTime_then ?_
  rw [if_neg (by simpa [noisyEnv] using htime.ne')]
  refine measuredStep_passed houtcome (readState_then ?_)
  change (nextImprovements floating phase start.passing.getLast? improvements >>= _).Ensures _ _
  rw [hvalues]
  exact hnext

/-- One step of the growth loop at a level that fails. -/
theorem growthLoop_failed {oracle : List (Nat × Bool) → Nat → StepOutcome} {fuel users : Nat}
    {improvements : List ℚ} {start : SearchState}
    {post : Except SearchStop (Option (Passing × Passing)) → SearchState → Prop}
    (htime : 0 < workload.maximumCampaignSeconds.toNat) (hmaximum : users ≤ maximumUsers workload)
    (houtcome : oracle start.measurements users = .failed)
    (hpost : post (.ok none) (start.tick.failAt users)) :
    (growthLoop floating (noisyEnv oracle) workload (fuel + 1) users improvements).Ensures
      start post := by
  rw [growthLoop, if_neg (Nat.not_lt.mpr hmaximum)]
  refine withinTime_then ?_
  rw [if_neg (by simpa [noisyEnv] using htime.ne')]
  exact measuredStep_failed houtcome (update_then hpost)

/-- The first level passes but for one lapse, once the level above it failed; every
other level fails. -/
def lapsing (first : Nat) (history : List (Nat × Bool)) (users : Nat) : StepOutcome :=
  if users = first then
    if (first + 1, false) ∈ history ∧ (first, false) ∉ history then .failed
    else .passed steadyPhase
  else .failed

theorem recovers_lapsing (first : Nat) : Recovers (noisyEnv (lapsing first)) first := by
  intro history hfailed
  simp [noisyEnv, lapsing, hfailed]

/-- The narrowest bracket above a level is the narrowest of all above it. -/
theorem narrowest_le {first high : Nat} (hlt : first < high) :
    1 / ((first : ℚ) + 1) ≤ ((high : ℚ) - first) / high := by
  have hfirst : (0 : ℚ) ≤ first := Nat.cast_nonneg _
  have hhigh : (first : ℚ) + 1 ≤ high := by exact_mod_cast hlt
  rw [div_le_div_iff₀ (by linarith) (by linarith)]
  nlinarith

/-- With a narrow boundary the refinement measures the first level again, where it lapses. -/
theorem refineBelowLoop_lapses {pstdev : List ℚ → ℚ} {first : Nat}
    (hnonneg : 0 ≤ workload.boundaryPercent)
    (hnarrow : workload.boundaryPercent / 100 < 1 / ((first : ℚ) + 1)) (fuel : Nat) {high : Nat}
    {start : SearchState} (hlt : first < high) (hfails : Fails start high)
    (hfirst : ¬ Fails start first) (hfuel : high - first + 1 ≤ fuel) :
    (refineBelowLoop (.exact pstdev) (noisyEnv (lapsing first)) workload fuel
        ⟨first, steadyPhase⟩ high).Ensures start fun result state =>
      result = .ok ⟨first, steadyPhase⟩ ∧ Fails state first := by
  induction fuel generalizing high start with
  | zero => omega
  | succ fuel ih =>
      have hwide : wide (.exact pstdev) workload first high := hnarrow.trans_le (narrowest_le hlt)
      rw [refineBelowLoop, if_pos hwide]
      by_cases hadjacent : high = first + 1
      · subst hadjacent
        have hmiddle : (first + (first + 1)) / 2 = first := by omega
        simp only [hmiddle]
        refine measuredStep_failed ?_ (update_then ?_)
        · simp only [noisyEnv, lapsing, if_pos]
          exact if_pos ⟨hfails, hfirst⟩
        · obtain ⟨fuel, rfl⟩ := Nat.exists_eq_add_one.mpr (show 0 < fuel by omega)
          have hclosed : ¬ wide (.exact pstdev) workload first first := by
            refine not_lt.mpr ?_
            change ((first : ℚ) - first) / first ≤ workload.boundaryPercent / 100
            rw [sub_self, zero_div]
            positivity
          rw [refineBelowLoop, if_neg hclosed]
          exact ⟨rfl, fails_failAt.mpr (.inr rfl)⟩
      · simp only
        generalize husers : (first + high) / 2 = users
        refine measuredStep_failed ?_ (update_then ?_)
        · simp only [noisyEnv, lapsing]
          exact if_neg (by omega)
        · refine @ih users (start.failAt users) (by omega) (fails_failAt.mpr (.inr rfl)) ?_
            (by omega)
          rw [fails_failAt, not_or]
          exact ⟨hfirst, by omega⟩

/-- The lower level is confirmed although it failed. -/
theorem capacitySearch_lapses (pstdev : List ℚ → ℚ)
    (htime : 0 < workload.maximumCampaignSeconds.toNat)
    (hlevels : firstUsers workload < maximumUsers workload)
    (hpositive : 0 < firstUsers workload) (hrepetitions : 0 < workload.repetitions.toNat)
    (hnonneg : 0 ≤ workload.boundaryPercent)
    (hnarrow : workload.boundaryPercent / 100 < 1 / ((firstUsers workload : ℚ) + 1)) :
    ∃ fuel, (capacitySearch (.exact pstdev) (noisyEnv (lapsing (firstUsers workload))) workload
      fuel).Ensures .initial fun result state => ∃ summary, result = .ok (.confirmed summary) ∧
        summary.users = firstUsers workload ∧ Fails state (firstUsers workload) := by
  refine ⟨maximumUsers workload + 2, ?_⟩
  generalize hfirst : firstUsers workload = first at *
  let low : Passing := ⟨first, steadyPhase⟩
  let high := min (maximumUsers workload) (first * 2)
  have hhigh : first < high := by
    simp only [high]
    omega
  have hmaximum : high ≤ maximumUsers workload := Nat.min_le_left _ _
  -- Growth measures the first level, which passes, and the next one, which fails.
  have hgrowth : (growthLoop (.exact pstdev) (noisyEnv (lapsing first)) workload
      (maximumUsers workload + 2) first []).Ensures .initial fun result state =>
        result = .ok none ∧ state = (SearchState.initial.tick.passAt low).tick.failAt high := by
    have houtcome : lapsing first SearchState.initial.measurements first = .passed steadyPhase := by
      simp [lapsing, SearchState.initial]
    refine growthLoop_passed htime hlevels.le houtcome rfl ?_
    · rw [if_neg (not_flattened_of_length (by decide)), if_neg hlevels.ne]
      refine growthLoop_failed htime hmaximum ?_ ⟨rfl, rfl⟩
      exact if_neg hhigh.ne'
  rw [capacitySearch, hfirst]
  refine hgrowth.bind ?_ fun _ _ hstop => by cases hstop.1
  rintro plateau state ⟨hplateau, rfl⟩
  cases hplateau
  refine readState_then ?_
  generalize hstate : (SearchState.initial.tick.passAt low).tick.failAt high = state
  have hpassing : state.passing = [low] := by rw [← hstate]; rfl
  have hfailing : state.failing = some high := by rw [← hstate]; rfl
  rw [if_neg (by rw [hpassing]; exact List.cons_ne_nil _ _)]
  -- The bisection comes down to the first level and finds that it fails now.
  have hrefine : (refineBelow (.exact pstdev) (noisyEnv (lapsing first)) workload
      (maximumUsers workload + 2) high).Ensures state fun result after =>
        result = .ok (some low) ∧ Fails after first := by
    refine readState_then ?_
    have hlowest : mostUsers (state.passing.filter fun item => item.users < high) = some low := by
      rw [hpassing]
      simp [low, hhigh, mostUsers]
    rw [hlowest]
    have hfails : ∀ level, Fails state level ↔ level = high := by
      intro level
      rw [← hstate, fails_failAt, or_iff_right]
      simp [Fails, SearchState.passAt, SearchState.measure, SearchState.tick, SearchState.initial]
    refine (refineBelowLoop_lapses hnonneg hnarrow _ hhigh ((hfails high).mpr rfl)
      (fun hfirst => hhigh.ne ((hfails first).mp hfirst)) (by omega)).bind ?_
      fun _ _ hstop => by cases hstop.1
    rintro refined after ⟨hrefined, hafter⟩
    cases hrefined
    exact ⟨rfl, hafter⟩
  have hcandidate : (findCandidate (.exact pstdev) (noisyEnv (lapsing first)) workload
      (maximumUsers workload + 2) none).Ensures state fun result after =>
        result = .ok (some (low, none)) ∧ Fails after first := by
    refine readState_then ?_
    rw [hfailing]
    refine hrefine.bind ?_ fun _ _ hstop => by cases hstop.1
    rintro refined after ⟨hrefined, hafter⟩
    cases hrefined
    exact ⟨rfl, hafter⟩
  refine hcandidate.bind ?_ fun _ _ hstop => by cases hstop.1
  rintro found after ⟨hfound, hafter⟩
  cases hfound
  exact confirm_recovers (recovers_lapsing first) hrepetitions none hafter _ _

/-- A ratio of throughputs that stays below the threshold of a plateau. -/
def fadingRatio (workload : WorkloadConfig) : ℚ :=
  min 1 ((workload.plateauImprovementPercent + 100) / 200)

theorem fadingRatio_pos (hthreshold : -100 < workload.plateauImprovementPercent) :
    0 < fadingRatio workload := by
  refine lt_min one_pos (div_pos ?_ (by norm_num))
  linarith

/-- Each step of the fading rates improves by less than the plateau's threshold. -/
theorem fadingRatio_improves (hthreshold : -100 < workload.plateauImprovementPercent) :
    100 * (fadingRatio workload - 1) < workload.plateauImprovementPercent := by
  have hle := min_le_right 1 ((workload.plateauImprovementPercent + 100) / 200)
  change fadingRatio workload ≤ _ at hle
  linarith

def fadingPhase (workload : WorkloadConfig) (steps : Nat) : Phase :=
  phaseAt (max 0 (fadingRatio workload) ^ steps) (pow_nonneg (le_max_left _ _) _)

/-- The throughput fades from level to level, and the first level fails once, after the
level above it passed. -/
def fading (workload : WorkloadConfig) (history : List (Nat × Bool)) (users : Nat) : StepOutcome :=
  let first := firstUsers workload
  if users = first then
    if (first + 1, true) ∈ history ∧ (first, false) ∉ history then .failed
    else .passed steadyPhase
  else if users ≤ first * 2 then .passed (fadingPhase workload 1)
  else .passed (fadingPhase workload 2)

theorem recovers_fading : Recovers (noisyEnv (fading workload)) (firstUsers workload) := by
  intro history hfailed
  simp [noisyEnv, fading, hfailed]

theorem improvementOver_fading {pstdev : List ℚ → ℚ}
    (hthreshold : -100 < workload.plateauImprovementPercent) {previous : ℚ} (steps : Nat)
    (hprevious : previous = fadingRatio workload ^ steps) :
    improvementOver (.exact pstdev) (fadingPhase workload (steps + 1)).rps previous =
      pure (100 * (fadingRatio workload - 1)) := by
  have hpos := fadingRatio_pos hthreshold
  have hzero : previous ≠ 0 := hprevious ▸ (pow_pos hpos steps).ne'
  have hratio : (fadingPhase workload (steps + 1)).rps / previous = fadingRatio workload := by
    rw [div_eq_iff hzero, hprevious]
    simp only [fadingPhase, phaseAt, max_eq_right hpos.le, pow_succ']
  unfold improvementOver divide
  rw [if_neg hzero]
  change (pure (100 * ((fadingPhase workload (steps + 1)).rps / previous - 1)) :
    SearchAction ℚ) = _
  rw [hratio]

/-- The bisection of the plateau closes in on the first level, which fails there and has
no level below it. -/
theorem refinePlateauLoop_lapses {pstdev : List ℚ → ℚ}
    (hthreshold : -100 < workload.plateauImprovementPercent)
    (hnegative : workload.boundaryPercent < 0) (total fuel : Nat) {high : Passing}
    {start : SearchState} (hlt : firstUsers workload < high.users)
    (hhigh : high.users ≤ firstUsers workload * 2)
    (hadjacent : high.users = firstUsers workload + 1 →
      (firstUsers workload + 1, true) ∈ start.measurements)
    (hpassing : ∀ item ∈ start.passing, firstUsers workload ≤ item.users)
    (hfirst : ¬ Fails start (firstUsers workload))
    (hfuel : high.users - firstUsers workload + 1 ≤ fuel) :
    (refinePlateauLoop (.exact pstdev) (noisyEnv (fading workload)) workload total fuel
        ⟨firstUsers workload, steadyPhase⟩ high).Ensures start fun result state =>
      ∃ boundary, result = .ok (⟨firstUsers workload, steadyPhase⟩, boundary) ∧
        Fails state (firstUsers workload) := by
  generalize hlevel : firstUsers workload = first at *
  induction fuel generalizing high start with
  | zero => omega
  | succ fuel ih =>
      -- A negative boundary is narrower than any bracket.
      have hwide : wide (.exact pstdev) workload first high.users := by
        have hgap : (0 : ℚ) ≤ (high.users : ℚ) - first := sub_nonneg.mpr (Nat.cast_le.mpr hlt.le)
        exact (div_neg_of_neg_of_pos hnegative (by norm_num)).trans_le
          (div_nonneg hgap (Nat.cast_nonneg _))
      rw [refinePlateauLoop, if_pos hwide]
      by_cases hclose : high.users = first + 1
      -- Between adjacent levels the midpoint is the lower one, which has passed before.
      · have hmiddle : (first + high.users) / 2 = first := by omega
        simp only [hmiddle]
        refine measuredStep_failed ?_ (update_then ?_)
        · simp only [noisyEnv, fading, hlevel, if_pos]
          exact if_pos ⟨hadjacent hclose, hfirst⟩
        · have hnone : mostUsers ((start.failAt first).passing.filter
              fun item => item.users < first) = none := by
            rw [mostUsers_eq_none, List.filter_eq_nil_iff]
            intro item hitem
            simpa using hpassing item hitem
          have hrefine : (refineBelow (.exact pstdev) (noisyEnv (fading workload)) workload total
              first).Ensures (start.failAt first) fun result state =>
                result = .ok none ∧ state = start.failAt first := by
            refine readState_then ?_
            rw [hnone]
            exact ⟨rfl, rfl⟩
          change Action.Ensures _ (start.failAt first) _
          refine hrefine.bind ?_ fun _ _ hstop => by cases hstop.1
          rintro refined state ⟨hrefined, rfl⟩
          cases hrefined
          exact ⟨_, rfl, fails_failAt.mpr (.inr rfl)⟩
      · simp only
        generalize husers : (first + high.users) / 2 = users
        -- A level in between passes without an improvement, so the bracket moves down.
        have houtcome : (noisyEnv (fading workload)).oracle start.measurements users =
            .passed (fadingPhase workload 1) := by
          simp only [noisyEnv, fading, hlevel]
          rw [if_neg (by omega), if_pos (by omega)]
        refine measuredStep_passed houtcome (update_then ?_)
        rw [improvementOver_fading hthreshold 0 (by rw [pow_zero]; rfl)]
        change Action.Ensures (if workload.plateauImprovementPercent ≤
          100 * (fadingRatio workload - 1) then _ else _) (start.passAt ⟨users, _⟩) _
        rw [if_neg (not_le.mpr (fadingRatio_improves hthreshold))]
        refine ih ?_ ?_ ?_ ?_ ?_ ?_
        · dsimp only
          omega
        · dsimp only
          omega
        · rintro heq
          exact List.mem_append_right _ (by simpa using heq.symm)
        · intro item hitem
          rcases List.mem_append.mp hitem with hold | hnew
          · exact hpassing item hold
          · rw [List.mem_singleton.mp hnew]
            dsimp only
            omega
        · rw [fails_passAt]
          exact hfirst
        · dsimp only
          omega

theorem nextImprovements_fading {pstdev : List ℚ → ℚ}
    (hthreshold : -100 < workload.plateauImprovementPercent) {previous : Passing} (steps : Nat)
    (hprevious : previous.phase.rps = fadingRatio workload ^ steps) (improvements : List ℚ) :
    nextImprovements (.exact pstdev) (fadingPhase workload (steps + 1)) (some previous)
      improvements = pure (improvements ++ [100 * (fadingRatio workload - 1)]) := by
  simp only [nextImprovements, improvementOver_fading hthreshold steps hprevious]
  rfl

/-- The first level is confirmed although it failed below a plateau. -/
theorem capacitySearch_fades (pstdev : List ℚ → ℚ)
    (htime : 0 < workload.maximumCampaignSeconds.toNat)
    (hlevels : firstUsers workload * 2 < maximumUsers workload)
    (hfirst : 1 < firstUsers workload) (hrepetitions : 0 < workload.repetitions.toNat)
    (hnegative : workload.boundaryPercent < 0)
    (hthreshold : -100 < workload.plateauImprovementPercent) :
    ∃ fuel, (capacitySearch (.exact pstdev) (noisyEnv (fading workload)) workload
      fuel).Ensures .initial fun result state => ∃ summary, result = .ok (.confirmed summary) ∧
        summary.users = firstUsers workload ∧ Fails state (firstUsers workload) := by
  refine ⟨maximumUsers workload + 3, ?_⟩
  generalize hlevel : firstUsers workload = first at *
  have hpos := fadingRatio_pos hthreshold
  let low : Passing := ⟨first, steadyPhase⟩
  let middle : Passing := ⟨first * 2, fadingPhase workload 1⟩
  let high : Passing := ⟨min (maximumUsers workload) (first * 2 * 2), fadingPhase workload 2⟩
  let second := (SearchState.initial.tick.passAt low).tick.passAt middle
  have hhigh : first * 2 < high.users := by
    simp only [high]
    omega
  have hlow : fading workload SearchState.initial.measurements first = .passed steadyPhase := by
    simp [fading, hlevel, SearchState.initial]
  have hmiddle : ∀ history, fading workload history (first * 2) =
      .passed (fadingPhase workload 1) := by
    intro history
    simp only [fading, hlevel]
    rw [if_neg (by omega), if_pos le_rfl]
  have hlast : ∀ history, fading workload history high.users =
      .passed (fadingPhase workload 2) := by
    intro history
    simp only [fading, hlevel]
    rw [if_neg (by omega), if_neg (by omega)]
  have hsteady : low.phase.rps = fadingRatio workload ^ 0 := (pow_zero _).symm
  have hfaded : middle.phase.rps = fadingRatio workload ^ 1 := by
    simp only [middle, fadingPhase, phaseAt, max_eq_right hpos.le]
  -- Three levels pass, and the rate falls twice: the plateau is the first pair.
  have hgrowth : (growthLoop (.exact pstdev) (noisyEnv (fading workload)) workload
      (maximumUsers workload + 3) first []).Ensures .initial fun result state =>
        result = .ok (some (low, middle)) ∧ state = second.tick.passAt high := by
    refine growthLoop_passed htime (by omega) hlow rfl ?_
    rw [if_neg (not_flattened_of_length (by decide)), if_neg (by omega),
      Nat.min_eq_right (by omega)]
    refine growthLoop_passed htime hlevels.le (hmiddle _)
      (nextImprovements_fading hthreshold 0 hsteady []) ?_
    rw [if_neg (not_flattened_of_length (by simp)), if_neg (by omega)]
    refine growthLoop_passed htime (Nat.min_le_left _ _) (hlast _)
      (nextImprovements_fading hthreshold 1 hfaded _) ?_
    rw [if_pos ⟨by simp, by simpa using fadingRatio_improves hthreshold⟩]
    exact ⟨rfl, rfl⟩
  rw [capacitySearch, hlevel]
  refine hgrowth.bind ?_ fun _ _ hstop => by cases hstop.1
  rintro plateau state ⟨hplateau, hstate⟩
  cases hplateau
  have hpassing : state.passing = [low, middle, high] := by rw [hstate]; rfl
  have hfailing : state.failing = none := by rw [hstate]; rfl
  refine readState_then ?_
  rw [if_neg (by rw [hpassing]; exact List.cons_ne_nil _ _)]
  -- The plateau is refined to its lower end, which fails on the way.
  have hcandidate : (findCandidate (.exact pstdev) (noisyEnv (fading workload)) workload
      (maximumUsers workload + 3) (some (low, middle))).Ensures state fun result after =>
        ∃ boundary, result = .ok (some (low, some boundary)) ∧ Fails after first := by
    refine readState_then ?_
    rw [hfailing]
    subst hlevel
    have hbelow : ∀ item ∈ state.passing, firstUsers workload ≤ item.users := by
      rw [hpassing]
      simp only [List.forall_mem_cons]
      exact ⟨le_rfl, by simp only [middle]; omega, by omega, nofun⟩
    have hunfailed : ¬ Fails state (firstUsers workload) := by
      rw [hstate, fails_passAt]
      simp [second, Fails, SearchState.passAt, SearchState.measure, SearchState.tick,
        SearchState.initial]
    refine (@refinePlateauLoop_lapses workload pstdev hthreshold hnegative _ _ middle state
      ?_ ?_ ?_ hbelow hunfailed ?_).bind ?_
      fun _ _ hstop => by obtain ⟨_, hok, -⟩ := hstop; cases hok
    · simp only [middle]
      omega
    · exact le_rfl
    · simp only [middle]
      omega
    · simp only [middle]
      omega
    · rintro ⟨refined, boundary⟩ after ⟨_, hrefined, hafter⟩
      cases hrefined
      exact ⟨_, rfl, hafter⟩
  refine hcandidate.bind ?_ fun _ _ hstop => by obtain ⟨_, hok, -⟩ := hstop; cases hok
  rintro found after ⟨boundary, hfound, hafter⟩
  cases hfound
  subst hlevel
  exact confirm_recovers recovers_fading hrepetitions (some boundary) hafter _ _

end Search

/-- A soundly confirmed level never failed. -/
theorem ConfirmedSoundly.not_fails {workload : WorkloadConfig} {summary : ConfirmedResult}
    {state : SearchState} (hsound : ConfirmedSoundly workload summary state) :
    ¬ Fails state summary.users := by
  intro hfails
  have hlowest : LowestFailing state summary.users :=
    ⟨hfails, fun users husers => Nat.le_of_not_lt fun hlt => hsound.below users hlt husers⟩
  exact lt_irrefl _ (hsound.boundary _ hlowest).1

/-- Every confirmed capacity of every run is sound exactly when no bisection can reach
a bracket of adjacent levels that is wider than the boundary. -/
theorem capacitySearch_sound_iff (pstdev : List ℚ → ℚ) {config : FyreConfig}
    (hvalid : validateConfig config = .ok ⟨⟩) :
    (∀ env fuel, (capacitySearch (.exact pstdev) env config.workload fuel).Ensures .initial
      fun result state => ∀ summary, result = .ok (.confirmed summary) →
        ConfirmedSoundly config.workload summary state) ↔ BracketKept config.workload := by
  have hfirst : 125 ≤ firstUsers config.workload :=
    UInt32.le_iff_toNat_le.mp (validateConfig_ok hvalid).firstUsers
  have hrepetitions := repetitions_pos hvalid
  constructor
  · intro hsound
    by_contra hkept
    simp only [BracketKept, not_or, not_le, not_and_or, not_lt] at hkept
    obtain ⟨htime, hlevels, hnarrow, hnegative⟩ := hkept
    have htime : 0 < config.workload.maximumCampaignSeconds.toNat :=
      Nat.pos_of_ne_zero fun hzero => htime (UInt32.toNat_inj.mp hzero)
    obtain ⟨env, fuel, hconfirmed⟩ : ∃ env fuel,
        (capacitySearch (.exact pstdev) env config.workload fuel).Ensures .initial
          fun result state => ∃ summary, result = .ok (.confirmed summary) ∧
            summary.users = firstUsers config.workload ∧
            Fails state (firstUsers config.workload) := by
      rcases hnegative with hnonneg | ⟨hplateau, hthreshold⟩
      · exact ⟨_,
          capacitySearch_lapses pstdev htime hlevels (by omega) hrepetitions hnonneg hnarrow⟩
      · rcases lt_or_ge config.workload.boundaryPercent 0 with hnegative | hnonneg
        · exact ⟨_, capacitySearch_fades pstdev htime hplateau (by omega) hrepetitions hnegative
            hthreshold⟩
        · exact ⟨_, capacitySearch_lapses pstdev htime hlevels (by omega) hrepetitions hnonneg
            hnarrow⟩
    obtain ⟨summary, hok, husers, hfails⟩ := hconfirmed
    exact (hsound env fuel summary hok).not_fails (husers ▸ hfails)
  · exact fun hkept env fuel => capacitySearch_sound_of_kept (by omega) hkept

/-- The packaged boundary of 12.5 percent is wider than any bracket from 125 users on. -/
theorem capacitySearch_sound_packagedProfile :
    validateConfig packagedProfile = .ok ⟨⟩ ∧
      ∀ env fuel, (capacitySearch (.exact fun _ => 0) env packagedProfile.workload fuel).Ensures
        .initial fun result state => ∀ summary, result = .ok (.confirmed summary) →
          ConfirmedSoundly packagedProfile.workload summary state := by
  have hfirst : firstUsers packagedProfile.workload = 125 := by rfl
  refine ⟨validateConfig_packagedProfile,
    (capacitySearch_sound_iff _ validateConfig_packagedProfile).mpr (.inr (.inr (.inl ?_)))⟩
  rw [hfirst]
  norm_num [packagedProfile, lowMemoryProfile]

/-- The packaged profile with a boundary of half a percent. -/
def narrowProfile : FyreConfig :=
  { packagedProfile with workload := { packagedProfile.workload with boundaryPercent := 1 / 2 } }

/-- 125 users fail once 126 failed, pass every repetition, and are confirmed. -/
theorem capacitySearch_confirms_lapse :
    validateConfig narrowProfile = .ok ⟨⟩ ∧ ∃ fuel,
      ¬ (capacitySearch (.exact fun _ => 0) (noisyEnv (lapsing 125)) narrowProfile.workload
        fuel).Ensures .initial fun result state => ∀ summary,
          result = .ok (.confirmed summary) →
            ConfirmedSoundly narrowProfile.workload summary state := by
  have hfirst : firstUsers narrowProfile.workload = 125 := by rfl
  refine ⟨by rfl, ?_⟩
  have hlapses := @capacitySearch_lapses narrowProfile.workload (fun _ => 0) (by decide) (by decide)
    (by decide) (by decide) (by norm_num [narrowProfile])
    (by rw [hfirst]; norm_num [narrowProfile])
  rw [hfirst] at hlapses
  obtain ⟨fuel, summary, hok, husers, hfails⟩ := hlapses
  exact ⟨fuel, fun hsound => (hsound summary hok).not_fails (husers ▸ hfails)⟩

end CfIntegration.Fyre.Capacity
