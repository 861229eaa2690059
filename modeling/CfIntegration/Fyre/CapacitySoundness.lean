import CfIntegration.Fyre.CapacityBracket

/-! # What a confirmed capacity means

A confirmed level passed every repetition of its last round, no level at or below
it failed, and the lowest failing one is within the boundary. The search keeps
this on every run unless a bisection may measure the lower bound of its bracket
once more.
-/

namespace CfIntegration.Fyre.Capacity

section Search

variable {floating : Floating} {env : SearchEnv} {workload : WorkloadConfig}

/-- A plateau found by growth is refined to a bracketed candidate. -/
def RefinesPlateau (floating : Floating) (env : SearchEnv) (workload : WorkloadConfig)
    (fuel : Nat) : Prop :=
  ∀ (low high : Passing) (start : SearchState), Unfailed workload start → low ∈ start.passing →
    high ∈ start.passing → low.users < high.users →
    (refinePlateauLoop floating env workload fuel fuel low high).Ensures start fun result state =>
      ∀ candidate boundary, result = .ok (candidate, boundary) →
        Bracketed floating workload state candidate

/-- The candidate, refined at the plateau or below a failure, is bracketed. -/
theorem findCandidate_ensures {fuel : Nat} {plateau : Option (Passing × Passing)}
    {start : SearchState} (hrefines : RefinesBelow floating env workload fuel)
    (hplateau : plateau = none ∨ RefinesPlateau floating env workload fuel)
    (hgrown : Grown workload plateau start) :
    (findCandidate floating env workload fuel plateau).Ensures start fun result state =>
      ∀ candidate boundary, result = .ok (some (candidate, boundary)) →
        Bracketed floating workload state candidate := by
  refine readState_then ?_
  split
  next high hfailing =>
    obtain ⟨hlowest, hmaximum⟩ := hgrown.failed high hfailing
    refine (refineBelow_ensures hrefines hgrown.within hmaximum hlowest).bind ?_
      fun _ _ _ _ _ hok => by cases hok
    rintro refined state ⟨hrefined, -⟩ candidate boundary hok
    cases refined with
    | none => cases hok
    | some refined =>
        cases hok
        exact hrefined _ rfl
  next low high hfailing =>
    obtain ⟨hlow, hhigh, hlt⟩ := hgrown.plateau low high rfl
    have hunfailed : Unfailed workload start := ⟨hgrown.within, hgrown.unfailed hfailing⟩
    have hrefinesPlateau := hplateau.resolve_left nofun
    refine (hrefinesPlateau low high start hunfailed hlow hhigh hlt).bind ?_
      fun _ _ _ _ _ hok => by cases hok
    rintro ⟨refined, at'⟩ state hrefined candidate boundary hok
    cases hok
    exact hrefined refined at' rfl
  next hfailing =>
    intro candidate boundary hok
    obtain ⟨best, hbest, heq⟩ := Option.map_eq_some_iff.mp (Except.ok.inj hok)
    cases heq
    exact ⟨mostUsers_mem hbest, hgrown.within, .inl (hgrown.unfailed hfailing)⟩

/-- A round either repeats the level as often as configured or ends with its failure. -/
theorem confirmRound_ensures (users repetitions : Nat) (confirmations : List Phase)
    (start : SearchState) :
    (confirmRound env users repetitions confirmations).Ensures start fun result state =>
      (∀ phases, result = .ok (phases, true) →
        phases.length = confirmations.length + repetitions ∧
        state = { start with
          measurements := start.measurements ++ List.replicate repetitions (users, true) }) ∧
      ∀ phases, result = .ok (phases, false) → ∃ passed, state = { start with
        measurements := start.measurements ++ List.replicate passed (users, true) ++
          [(users, false)] } := by
  induction repetitions generalizing confirmations start with
  | zero =>
      refine ⟨fun phases hok => ?_, fun _ hok => ?_⟩ <;> cases hok
      exact ⟨rfl, by simp [Action.run, confirmRound, pure, Action.pure]⟩
  | succ repetitions ih =>
      refine measuredStep_then (fun phase _ => ?_) (fun _ => ?_)
        ⟨(fun _ hok => by cases hok), fun _ hok => by cases hok⟩
      · refine (ih (confirmations ++ [phase]) (start.measure users true)).mono
          fun result state hafter => ⟨fun phases hok => ?_, fun phases hok => ?_⟩
        · obtain ⟨hlength, hstate⟩ := hafter.1 phases hok
          refine ⟨by simp at hlength; omega, ?_⟩
          rw [hstate]
          simp [SearchState.measure, List.replicate_succ]
        · obtain ⟨passed, hstate⟩ := hafter.2 phases hok
          refine ⟨passed + 1, ?_⟩
          rw [hstate]
          simp [SearchState.measure, List.replicate_succ]
      · refine ⟨(fun _ hok => by cases hok), fun phases hok => ⟨0, ?_⟩⟩
        simp [Action.run, SearchState.measure, pure, Action.pure]

/-- The state after the repetitions of a round. -/
def SearchState.repeated (state : SearchState) (users repetitions : Nat) : SearchState :=
  { state with measurements := state.measurements ++ List.replicate repetitions (users, true) }

/-- Repeated passes add no failing level. -/
theorem fails_repeated {state : SearchState} {users repetitions level : Nat} :
    Fails (state.repeated users repetitions) level ↔ Fails state level := by
  simp [Fails, SearchState.repeated, List.mem_replicate]

theorem Bracketed.repeated {state : SearchState} {candidate : Passing}
    (hbracketed : Bracketed floating workload state candidate) (users repetitions : Nat) :
    Bracketed floating workload (state.repeated users repetitions) candidate where
  passing := hbracketed.passing
  within := hbracketed.within
  lowest := by
    simp only [LowestFailing, fails_repeated]
    exact hbracketed.lowest

/-- A failing repetition is the lowest failure so far. -/
theorem Bracketed.refuted {state : SearchState} {candidate : Passing}
    (hbracketed : Bracketed floating workload state candidate) (passed : Nat) :
    LowestFailing ((state.repeated candidate.users passed).failAt candidate.users)
      candidate.users := by
  refine lowestFailing_failAt fun level hlevel => ?_
  rw [fails_repeated] at hlevel
  rcases hbracketed.lowest with hnone | ⟨high, hlowest, hlt, -⟩
  · exact absurd hlevel (hnone level)
  · exact hlt.le.trans (hlowest.2 level hlevel)

/-- A confirmed candidate, at the end of its last round. -/
structure LastRound (floating : Floating) (workload : WorkloadConfig) (confirmed : Confirmed)
    (state : SearchState) : Prop where
  bracketed : Bracketed floating workload state confirmed.candidate
  repetitions : confirmed.confirmations.length = workload.repetitions.toNat
  measured : ∃ before, state.measurements = before ++
    List.replicate workload.repetitions.toNat (confirmed.candidate.users, true)

/-- What the loop confirms has passed its last round. -/
theorem confirmLoop_ensures {total : Nat} (hrefines : RefinesBelow floating env workload total)
    (fuel : Nat) {candidate : Passing} {failures : List ConfirmationFailure} {start : SearchState}
    (hstart : Bracketed floating workload start candidate) :
    (confirmLoop floating env workload total fuel candidate failures).Ensures start
      fun result state => ∀ confirmed, result = .ok (some confirmed) →
        LastRound floating workload confirmed state := by
  induction fuel generalizing candidate failures start with
  | zero => exact fun _ hok => by cases hok
  | succ fuel ih =>
      refine (confirmRound_ensures _ _ [] start).bind ?_ fun _ _ _ _ hok => by cases hok
      rintro ⟨phases, passed⟩ state ⟨hpassed, hfailed⟩
      dsimp only
      split
      next htrue =>
        obtain ⟨hlength, hstate⟩ := hpassed phases (by rw [htrue])
        intro confirmed hok
        cases hok
        change LastRound _ _ _ state
        rw [hstate]
        exact ⟨hstart.repeated _ _, by simpa using hlength, _, rfl⟩
      next hfalse =>
        obtain ⟨passed, hstate⟩ := hfailed phases (by rw [Bool.eq_false_of_not_eq_true hfalse])
        refine update_then ?_
        rw [hstate]
        have hlowest := hstart.refuted passed
        have hmaximum := (hstart.within candidate hstart.passing).2
        have hbelow := @refineBelow_ensures floating env workload total candidate.users
          ((start.repeated candidate.users passed).failAt candidate.users) hrefines hstart.within
          hmaximum hlowest
        refine Action.Ensures.bind hbelow ?_ fun _ _ _ _ hok => by cases hok
        rintro refined after ⟨hrefined, -⟩
        cases refined with
        | none => exact fun _ hok => by cases hok
        | some refined => exact ih (hrefined refined rfl)

/-- The summary adds no measurement. -/
theorem summarize_ensures (boundary : Option PlateauBoundary) (confirmed : Confirmed)
    (start : SearchState) :
    (summarize floating env workload boundary confirmed).Ensures start fun result state =>
      state = start ∧ result ≠ .error .exhausted ∧
        ∀ summary, result = .ok (.confirmed summary) →
          summary.users = confirmed.candidate.users ∧
          summary.confirmations = confirmed.confirmations := by
  unfold summarize
  dsimp only
  split
  · exact ⟨rfl, by simp [Action.run, raise, Action.fail], fun _ hok => by cases hok⟩
  next least greatest _ =>
    refine readState_then ?_
    split
    · exact ⟨rfl, by simp [Action.run, raise, Action.fail], fun _ hok => by cases hok⟩
    · exact ⟨rfl, (fun heq => by cases heq), fun _ hok => by cases hok⟩
    · split
      · exact ⟨rfl, (fun heq => by cases heq), fun _ hok => by cases hok⟩
      · have hvariation : (coefficientOfVariation floating
            (confirmed.confirmations.map Phase.rps)).Ensures start fun result state =>
              state = start ∧ result ≠ .error .exhausted := by
          unfold coefficientOfVariation divide
          split
          · split
            · exact ⟨rfl, by simp [Action.run, Action.fail]⟩
            · exact ⟨rfl, fun heq => by cases heq⟩
          · exact ⟨rfl, fun heq => by cases heq⟩
        refine hvariation.bind ?_ fun _ _ hstop =>
          ⟨hstop.1, by simpa using hstop.2, fun _ hok => by cases hok⟩
        rintro variation state ⟨rfl, -⟩
        refine ⟨rfl, (fun heq => by cases heq), fun summary hok => ?_⟩
        cases hok
        exact ⟨rfl, rfl⟩

/-- A confirmed capacity is sound. -/
structure ConfirmedSoundly (workload : WorkloadConfig) (summary : ConfirmedResult)
    (state : SearchState) : Prop where
  repetitions : summary.confirmations.length = workload.repetitions.toNat
  measured : ∃ before, state.measurements = before ++
    List.replicate workload.repetitions.toNat (summary.users, true)
  first : firstUsers workload ≤ summary.users
  maximum : summary.users ≤ maximumUsers workload
  below : ∀ users < summary.users, ¬ Fails state users
  boundary : ∀ lowest, LowestFailing state lowest → summary.users < lowest ∧
    ((lowest : ℚ) - summary.users) / lowest ≤ workload.boundaryPercent / 100

/-- The summary of a round that passed is sound for the level it confirms. -/
theorem LastRound.sound {pstdev : List ℚ → ℚ} {confirmed : Confirmed} {state : SearchState}
    (hround : LastRound (.exact pstdev) workload confirmed state) {summary : ConfirmedResult}
    (husers : summary.users = confirmed.candidate.users)
    (hconfirmations : summary.confirmations = confirmed.confirmations) :
    ConfirmedSoundly workload summary state := by
  obtain ⟨hpassing, hwithin, hlowest⟩ := hround.bracketed
  obtain ⟨hfirst, hmaximum⟩ := hwithin _ hpassing
  rw [← husers] at hfirst hmaximum hlowest
  refine ⟨hconfirmations ▸ hround.repetitions, husers ▸ hround.measured, hfirst, hmaximum, ?_, ?_⟩
  · intro users hlt hfails
    rcases hlowest with hnone | ⟨high, hhigh, habove, -⟩
    · exact hnone users hfails
    · exact absurd (hhigh.2 users hfails) (by omega)
  · intro lowest hfails
    rcases hlowest with hnone | ⟨high, hhigh, habove, hnarrow⟩
    · exact absurd hfails.1 (hnone lowest)
    · obtain rfl : lowest = high :=
        Nat.le_antisymm (hfails.2 high hhigh.1) (hhigh.2 lowest hfails.1)
      exact ⟨habove, not_lt.mp hnarrow⟩

theorem growing_initial (workload : WorkloadConfig) :
    Growing workload (firstUsers workload) SearchState.initial where
  within _ hitem := by cases hitem
  fails _ hlevel := by cases hlevel
  failing := rfl
  increasing := List.Pairwise.nil
  below _ hitem := by cases hitem
  first := le_rfl

/-- The search is sound wherever its two bisections are. -/
theorem capacitySearch_ensures {pstdev : List ℚ → ℚ} {fuel : Nat}
    (hpositive : 0 < firstUsers workload)
    (hrefines : RefinesBelow (.exact pstdev) env workload fuel)
    (hplateau : (growthLoop (.exact pstdev) env workload fuel (firstUsers workload) []).Ensures
        .initial (fun result _ => ∀ plateau, result = .ok plateau → plateau = none) ∨
      RefinesPlateau (.exact pstdev) env workload fuel) :
    (capacitySearch (.exact pstdev) env workload fuel).Ensures .initial fun result state =>
      ∀ summary, result = .ok (.confirmed summary) → ConfirmedSoundly workload summary state := by
  have hgrowth : (growthLoop (.exact pstdev) env workload fuel (firstUsers workload) []).Ensures
      .initial fun result state => ∀ plateau, result = .ok plateau →
        Grown workload plateau state ∧
          (plateau = none ∨ RefinesPlateau (.exact pstdev) env workload fuel) := by
    have hgrown := @growthLoop_ensures (.exact pstdev) env workload hpositive fuel _ [] _
      (growing_initial workload)
    rcases hplateau with hnone | hrefinesPlateau
    · exact (hgrown.and hnone).mono fun _ _ hboth plateau hok =>
        ⟨hboth.1 plateau hok, .inl (hboth.2 plateau hok)⟩
    · exact hgrown.mono fun _ _ hafter plateau hok => ⟨hafter plateau hok, .inr hrefinesPlateau⟩
  refine hgrowth.bind ?_ fun _ _ _ _ hok => by cases hok
  intro plateau state hstate
  obtain ⟨hgrown, hplateau⟩ := hstate plateau rfl
  refine readState_then ?_
  split
  · exact fun _ hok => by cases hok
  -- The candidate is bracketed, and confirming keeps the bracket.
  refine (findCandidate_ensures hrefines hplateau hgrown).bind ?_ fun _ _ _ _ hok => by cases hok
  intro found after hfound
  split
  · exact fun _ hok => by cases hok
  next candidate boundary =>
    refine (confirmLoop_ensures hrefines fuel (hfound candidate boundary rfl)).bind ?_
      fun _ _ _ _ hok => by cases hok
    intro outcome last hlast
    split
    · exact fun _ hok => by cases hok
    next confirmed =>
      refine (summarize_ensures boundary confirmed last).mono ?_
      intro result final hfinal summary hok
      obtain ⟨rfl, -, hsummary⟩ := hfinal
      obtain ⟨husers, hconfirmations⟩ := hsummary summary hok
      exact (hlast confirmed rfl).sound husers hconfirmations

theorem not_flattened_of_length {improvements : List ℚ} (hlength : improvements.length < 2) :
    ¬ flattened workload improvements := fun hflattened => by
  have hle := hflattened.1
  omega

/-- A pass adds its improvement over the pass before it, if there was one. -/
theorem nextImprovements_ensures (phase : Phase) (previous : Option Passing)
    (improvements : List ℚ) (start : SearchState) :
    (nextImprovements floating phase previous improvements).Ensures start fun result state =>
      state = start ∧ ∀ values, result = .ok values →
        (previous = none ∧ values = improvements) ∨ ∃ item, previous = some item ∧
          item.phase.rps ≠ 0 ∧ values = improvements ++ [floating.round
            (100 * floating.round (floating.div phase.rps item.phase.rps - 1))] := by
  unfold nextImprovements
  split
  · refine ⟨rfl, fun values hok => .inl ⟨rfl, ?_⟩⟩
    cases hok
    rfl
  next item =>
    unfold improvementOver divide
    split
    · exact ⟨rfl, fun _ hok => by cases hok⟩
    next hzero =>
      refine ⟨rfl, fun values hok => .inr ⟨item, rfl, hzero, ?_⟩⟩
      cases hok
      rfl

/-- A throughput never falls by more than everything. -/
theorem improvement_ge {pstdev : List ℚ → ℚ} (phase previous : Phase) :
    -100 ≤ (Floating.exact pstdev).round (100 * (Floating.exact pstdev).round
      ((Floating.exact pstdev).div phase.rps previous.rps - 1)) := by
  have hratio : 0 ≤ phase.rps / previous.rps := div_nonneg phase.rps_nonneg previous.rps_nonneg
  change -100 ≤ 100 * (phase.rps / previous.rps - 1)
  linarith

/-- Growth at one level, with what the next one starts from. -/
theorem growthLoop_step {fuel users : Nat} {improvements : List ℚ} {start : SearchState}
    {post : Except SearchStop (Option (Passing × Passing)) → SearchState → Prop}
    (hstopped : ∀ state, post (.ok none) state)
    (hfailed : ∀ stop state, post (.error stop) state)
    (hpassed : ∀ (phase : Phase) (values : List ℚ) (state : SearchState),
      users ≤ maximumUsers workload →
      ((start.passing.getLast? = none ∧ values = improvements) ∨
        ∃ item, start.passing.getLast? = some item ∧ item.phase.rps ≠ 0 ∧
          values = improvements ++ [floating.round
            (100 * floating.round (floating.div phase.rps item.phase.rps - 1))]) →
      state.passing = start.passing ++ [⟨users, phase⟩] →
      (if flattened workload values then do
          let state ← readState
          let plateau ← plateauOf state.passing
          return some plateau
        else if users = maximumUsers workload then return none
        else growthLoop floating env workload fuel (min (maximumUsers workload) (users * 2)) values
        : SearchAction (Option (Passing × Passing))).Ensures state post) :
    (growthLoop floating env workload (fuel + 1) users improvements).Ensures start post := by
  rw [growthLoop]
  split
  · exact hstopped _
  next hmaximum =>
    refine withinTime_then ?_
    split
    · exact hstopped _
    · refine measuredStep_then (fun phase _ => ?_) (fun _ => update_then (hstopped _)) (hfailed _ _)
      refine readState_then ?_
      refine (nextImprovements_ensures phase _ improvements _).bind ?_ fun _ _ _ => hfailed _ _
      rintro values state ⟨rfl, hvalues⟩
      exact update_then
        (hpassed phase values _ (Nat.le_of_not_lt hmaximum) (hvalues values rfl) rfl)

/-- No plateau is found with so low a threshold. -/
theorem growthLoop_noPlateau_of_threshold {pstdev : List ℚ → ℚ}
    (hthreshold : workload.plateauImprovementPercent ≤ -100) (fuel users : Nat)
    {improvements : List ℚ} (himprovements : ∀ value ∈ improvements, -100 ≤ value)
    (start : SearchState) :
    (growthLoop (.exact pstdev) env workload fuel users improvements).Ensures start
      fun result _ => ∀ plateau, result = .ok plateau → plateau = none := by
  induction fuel generalizing users improvements start with
  | zero => exact fun _ hok => by cases hok
  | succ fuel ih =>
      refine growthLoop_step (fun _ _ hok => by cases hok; rfl) (fun _ _ _ hok => by cases hok) ?_
      intro phase values state _ hvalues _
      have hbounded : ∀ value ∈ values, -100 ≤ value := by
        rcases hvalues with ⟨-, rfl⟩ | ⟨item, -, -, rfl⟩
        · exact himprovements
        · intro value hvalue
          rcases List.mem_append.mp hvalue with hold | hnew
          · exact himprovements value hold
          · exact List.mem_singleton.mp hnew ▸ improvement_ge phase item.phase
      split
      next hflattened =>
        obtain ⟨hlength, hall⟩ := hflattened
        have hne : values.drop (values.length - 2) ≠ [] := by
          simp only [ne_eq, List.drop_eq_nil_iff]
          omega
        obtain ⟨value, hvalue⟩ := List.exists_mem_of_ne_nil _ hne
        have hlow := hbounded value (List.mem_of_mem_drop hvalue)
        have hhigh := hall value hvalue
        exact absurd (hhigh.trans_le hthreshold) (not_lt.mpr hlow)
      · split
        · exact fun _ hok => by cases hok; rfl
        · exact ih _ hbounded state

/-- A plateau needs three levels. -/
theorem growthLoop_noPlateau_of_levels (hlevels : maximumUsers workload ≤ firstUsers workload * 2)
    (fuel : Nat) :
    (growthLoop floating env workload fuel (firstUsers workload) []).Ensures .initial
      fun result _ => ∀ plateau, result = .ok plateau → plateau = none := by
  cases fuel with
  | zero => exact fun _ hok => by cases hok
  | succ fuel =>
      refine growthLoop_step (fun _ _ hok => by cases hok; rfl) (fun _ _ _ hok => by cases hok) ?_
      intro phase values state hle hvalues hpassing
      have hnone : values = [] := by
        rcases hvalues with ⟨-, rfl⟩ | ⟨item, hitem, -⟩
        · rfl
        · cases hitem
      subst hnone
      rw [if_neg (not_flattened_of_length (by decide))]
      split
      · exact fun _ hok => by cases hok; rfl
      · rw [Nat.min_eq_left hlevels]
        cases fuel with
        | zero => exact fun _ hok => by cases hok
        | succ fuel =>
            refine growthLoop_step (fun _ _ hok => by cases hok; rfl)
              (fun _ _ _ hok => by cases hok) ?_
            intro next later after _ hlater _
            have hlength : later.length < 2 := by
              rcases hlater with ⟨-, rfl⟩ | ⟨item, -, -, rfl⟩ <;> simp
            rw [if_neg (not_flattened_of_length hlength), if_pos rfl]
            exact fun _ hok => by cases hok; rfl

/-- Below a negative boundary no bracket is narrow enough. -/
theorem refineBelowLoop_of_negative {pstdev : List ℚ → ℚ}
    (hnegative : workload.boundaryPercent < 0) (fuel : Nat) {low : Passing} {high : Nat}
    (hle : low.users ≤ high) (start : SearchState) :
    (refineBelowLoop (.exact pstdev) env workload fuel low high).Ensures start
      fun result _ => ∀ candidate, result ≠ .ok candidate := by
  induction fuel generalizing low high start with
  | zero => exact fun _ hok => by cases hok
  | succ fuel ih =>
      unfold refineBelowLoop
      have hwide : wide (.exact pstdev) workload low.users high := by
        have hgap : (0 : ℚ) ≤ (high : ℚ) - low.users := sub_nonneg.mpr (Nat.cast_le.mpr hle)
        exact (div_neg_of_neg_of_pos hnegative (by norm_num)).trans_le
          (div_nonneg hgap (Nat.cast_nonneg _))
      rw [if_pos hwide]
      refine measuredStep_then (fun phase _ => update_then (ih ?_ _))
        (fun _ => update_then (ih ?_ _)) fun _ hok => by cases hok
      · dsimp only
        omega
      · omega

/-- When a confirmed capacity is sound on every run: no time, a single level, a
boundary no narrower than the narrowest bracket, or a negative one without a plateau. -/
def BracketKept (workload : WorkloadConfig) : Prop :=
  workload.maximumCampaignSeconds = 0 ∨ maximumUsers workload ≤ firstUsers workload ∨
    1 / ((firstUsers workload : ℚ) + 1) ≤ workload.boundaryPercent / 100 ∨
    (workload.boundaryPercent < 0 ∧ (maximumUsers workload ≤ firstUsers workload * 2 ∨
      workload.plateauImprovementPercent ≤ -100))

/-- Without time nothing is measured. -/
theorem capacitySearch_of_no_time {fuel : Nat} (htime : workload.maximumCampaignSeconds = 0) :
    (capacitySearch floating env workload fuel).Ensures .initial fun result state =>
      state.measurements = [] ∧ (0 < fuel → result ≠ .error .exhausted) ∧
        ∀ summary, result ≠ .ok (.confirmed summary) := by
  have hgrowth : (growthLoop floating env workload fuel (firstUsers workload) []).Ensures .initial
      fun result state => state.measurements = [] ∧ state.passing = [] ∧
        (0 < fuel → result ≠ .error .exhausted) := by
    cases fuel with
    | zero => exact ⟨rfl, rfl, fun hlt => absurd hlt (Nat.lt_irrefl 0)⟩
    | succ fuel =>
        unfold growthLoop
        split
        · exact ⟨rfl, rfl, fun _ heq => by cases heq⟩
        · refine withinTime_then ?_
          rw [if_pos]
          · exact ⟨rfl, rfl, fun _ heq => by cases heq⟩
          · simpa [htime] using env.elapsed_nonneg _
  refine hgrowth.bind (fun plateau state hstate => ?_) fun stop state hstop =>
    ⟨hstop.1, fun hlt => by simpa using hstop.2.2 hlt, fun _ hok => by cases hok⟩
  refine readState_then ?_
  rw [if_pos hstate.2.1]
  exact ⟨hstate.1, (fun _ heq => by cases heq), fun _ hok => by cases hok⟩

/-- The search is sound for every configuration that keeps the bracket. -/
theorem capacitySearch_sound_of_kept {pstdev : List ℚ → ℚ} {fuel : Nat}
    (hpositive : 0 < firstUsers workload) (hkept : BracketKept workload) :
    (capacitySearch (.exact pstdev) env workload fuel).Ensures .initial fun result state =>
      ∀ summary, result = .ok (.confirmed summary) → ConfirmedSoundly workload summary state := by
  have hcases : workload.maximumCampaignSeconds = 0 ∨ Separated (.exact pstdev) workload ∨
      (workload.boundaryPercent < 0 ∧ (maximumUsers workload ≤ firstUsers workload * 2 ∨
        workload.plateauImprovementPercent ≤ -100)) := by
    rcases hkept with htime | hempty | hboundary | hnegative
    · exact .inl htime
    · exact .inr (.inl (separated_of_boundary (.inl hempty)))
    · exact .inr (.inl (separated_of_boundary (.inr hboundary)))
    · exact .inr (.inr hnegative)
  rcases hcases with htime | hseparated | ⟨hnegative, hplateau⟩
  · exact (capacitySearch_of_no_time htime).mono fun _ _ hnever summary hok =>
      absurd hok (hnever.2.2 summary)
  · exact capacitySearch_ensures hpositive (refinesBelow_of_separated hseparated fuel)
      (.inr fun _ _ _ hstart hlow hhigh hlt =>
        refinePlateauLoop_ensures hseparated fuel fuel hstart hlow hhigh hlt)
  · refine capacitySearch_ensures hpositive ?_ (.inl ?_)
    · exact fun _ _ start _ _ hlt _ _ =>
        (refineBelowLoop_of_negative hnegative fuel hlt.le start).mono
        fun _ _ hnever candidate hok => absurd hok (hnever candidate)
    · rcases hplateau with hlevels | hthreshold
      · exact growthLoop_noPlateau_of_levels hlevels fuel
      · exact growthLoop_noPlateau_of_threshold hthreshold fuel _
          (fun _ hvalue => by cases hvalue) _

end Search

end CfIntegration.Fyre.Capacity
