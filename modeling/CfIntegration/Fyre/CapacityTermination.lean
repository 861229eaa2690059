import CfIntegration.Fyre.CapacityNoise

/-! # How many measurements a search takes

With an oracle that repeats itself the confirmation settles at once, and a bisection
measures each time a level strictly inside its bracket, unless the bracket of two
adjacent levels is still too wide.
-/

namespace CfIntegration.Fyre.Capacity

/-- The levels that passed pass again. -/
def Repeatable (outcome : Nat → StepOutcome) (state : SearchState) : Prop :=
  ∀ item ∈ state.passing, outcome item.users = .passed item.phase

/-- A part of the search took at most so many measurements, and more fuel than that is
enough for it. -/
structure Bounded {α : Type} (outcome : Nat → StepOutcome) (start : SearchState)
    (count fuel : Nat) (result : Except SearchStop α) (state : SearchState) : Prop where
  repeatable : Repeatable outcome state
  measured : state.measurements.length ≤ start.measurements.length + count
  finished : count < fuel → result ≠ .error .exhausted

/-- The search ends after finitely many measurements. -/
def FinitelyMeasured (floating : Floating) (env : SearchEnv) (workload : WorkloadConfig) : Prop :=
  ∃ count, ∀ fuel, (capacitySearch floating env workload fuel).Ensures .initial
    fun result state => state.measurements.length ≤ count ∧
      (count < fuel → result ≠ .error .exhausted)

section Search

variable {α β : Type} {floating : Floating} {env : SearchEnv} {workload : WorkloadConfig}
  {outcome : Nat → StepOutcome}

/-- Each measurement adds one entry to the record. -/
theorem length_measure (state : SearchState) (users : Nat) (passed : Bool) :
    (state.measure users passed).measurements.length = state.measurements.length + 1 := by
  simp [SearchState.measure]

theorem length_passAt (state : SearchState) (item : Passing) :
    (state.passAt item).measurements.length = state.measurements.length + 1 := by
  simp [SearchState.passAt, SearchState.measure]

theorem length_failAt (state : SearchState) (users : Nat) :
    (state.failAt users).measurements.length = state.measurements.length + 1 := by
  simp [SearchState.failAt, SearchState.measure]

/-- A pass that the outcomes predict keeps the record repeatable. -/
theorem Repeatable.passAt {state : SearchState} (hrepeatable : Repeatable outcome state)
    {item : Passing} (hitem : outcome item.users = .passed item.phase) :
    Repeatable outcome (state.passAt item) := by
  intro other hother
  rcases List.mem_append.mp hother with hold | hnew
  · exact hrepeatable other hold
  · exact List.mem_singleton.mp hnew ▸ hitem

/-- An outcome without a further measurement. -/
theorem Bounded.done {start : SearchState} {count fuel : Nat} {result : Except SearchStop α}
    (hstart : Repeatable outcome start) (hresult : result ≠ .error .exhausted) :
    Bounded outcome start count fuel result start :=
  ⟨hstart, Nat.le_add_right _ _, fun _ => hresult⟩

/-- A search that stops without measuring meets every bound. -/
theorem Bounded.returned {start : SearchState} {count fuel : Nat} {value : α}
    (hstart : Repeatable outcome start) :
    Bounded outcome start count fuel (.ok value : Except SearchStop α) start :=
  .done hstart nofun

theorem Bounded.raised {start : SearchState} {count fuel : Nat}
    (hstart : Repeatable outcome start) :
    Bounded outcome start count fuel (.error .raised : Except SearchStop α) start :=
  .done hstart (by simp)

/-- The rest of a part, after one measurement and with one turn less. -/
theorem Bounded.step {start next state : SearchState} {more count fuel : Nat}
    {result : Except SearchStop α} (hbounded : Bounded outcome next more fuel result state)
    (hnext : next.measurements.length = start.measurements.length + 1) (hmore : more + 1 ≤ count) :
    Bounded outcome start count (fuel + 1) result state where
  repeatable := hbounded.repeatable
  measured := by
    have hle := hbounded.measured
    omega
  finished hlt := hbounded.finished (by omega)

/-- The last measurement of a part. -/
theorem Bounded.last {start next : SearchState} {count fuel : Nat} {result : Except SearchStop α}
    (hrepeatable : Repeatable outcome next) (hresult : result ≠ .error .exhausted)
    (hnext : next.measurements.length = start.measurements.length + 1) (hcount : 1 ≤ count) :
    Bounded outcome start count fuel result next :=
  ⟨hrepeatable, by omega, fun _ => hresult⟩

/-- A search that stops after one more measurement needs room for one. -/
theorem Bounded.lastReturned {start next : SearchState} {count fuel : Nat} {value : α}
    (hrepeatable : Repeatable outcome next)
    (hnext : next.measurements.length = start.measurements.length + 1) (hcount : 1 ≤ count) :
    Bounded outcome start count fuel (.ok value : Except SearchStop α) next :=
  .last hrepeatable nofun hnext hcount

/-- A measurement may be followed by a division by zero, which takes no further one. -/
theorem Bounded.lastDivided {start next : SearchState} {count fuel : Nat}
    (hrepeatable : Repeatable outcome next)
    (hnext : next.measurements.length = start.measurements.length + 1) (hcount : 1 ≤ count) :
    Bounded outcome start count fuel (.error .zeroDivision : Except SearchStop α) next :=
  .last hrepeatable (by simp) hnext hcount

theorem Bounded.tick {start state : SearchState} {count fuel : Nat} {result : Except SearchStop α}
    (hbounded : Bounded outcome start.tick count fuel result state) :
    Bounded outcome start count fuel result state :=
  ⟨hbounded.repeatable, hbounded.measured, hbounded.finished⟩

/-- Two parts in sequence. -/
theorem Bounded.seq {start middle state : SearchState} {first second count fuel : Nat}
    {result : Except SearchStop α} (hbounded : Bounded outcome middle second fuel result state)
    (hmiddle : middle.measurements.length ≤ start.measurements.length + first)
    (hcount : first + second ≤ count) : Bounded outcome start count fuel result state where
  repeatable := hbounded.repeatable
  measured := by
    have hle := hbounded.measured
    omega
  finished hlt := hbounded.finished (by omega)

/-- A part that stopped early, as the part after it would be bounded. -/
theorem Bounded.stop {start state : SearchState} {first count fuel : Nat} {stop : SearchStop}
    (hbounded : Bounded outcome start first fuel (.error stop : Except SearchStop α) state)
    (hcount : first ≤ count) :
    Bounded outcome start count fuel (.error stop : Except SearchStop β) state where
  repeatable := hbounded.repeatable
  measured := by
    have hle := hbounded.measured
    omega
  finished hlt := by
    have hne := hbounded.finished (by omega)
    simpa using hne

/-- A measurement with a repeatable outcome. -/
theorem measuredStep_repeats {users : Nat} {next : Option Phase → SearchAction α}
    (hrepeats : ∀ history users, env.oracle history users = outcome users)
    {start : SearchState} {post : Except SearchStop α → SearchState → Prop}
    (hpassed : ∀ phase, outcome users = .passed phase →
      (next (some phase)).Ensures (start.measure users true) post)
    (hfailed : (next none).Ensures (start.measure users false) post)
    (hraised : post (.error .raised) start) :
    (measuredStep env users >>= next).Ensures start post :=
  measuredStep_then (fun phase hphase => hpassed phase ((hrepeats _ _).symm.trans hphase))
    (fun _ => hfailed) hraised

variable (hrepeats : ∀ history users, env.oracle history users = outcome users)

include hrepeats

/-- The growth measures each level from the first to the largest at most once. -/
theorem growthLoop_bounded (hpositive : 0 < firstUsers workload) (fuel : Nat) {users : Nat}
    {improvements : List ℚ} {start : SearchState} (hfirst : firstUsers workload ≤ users)
    (hstart : Repeatable outcome start) :
    (growthLoop floating env workload fuel users improvements).Ensures start fun result state =>
      Bounded outcome start (maximumUsers workload + 1 - users) fuel result state := by
  induction fuel generalizing users improvements start with
  | zero => exact ⟨hstart, Nat.le_add_right _ _, fun hlt => absurd hlt (Nat.not_lt_zero _)⟩
  | succ fuel ih =>
      rw [growthLoop]
      split
      · exact .returned hstart
      next hmaximum =>
        refine withinTime_then ?_
        have hticked : Repeatable outcome start.tick := hstart
        split
        · exact (Bounded.returned hticked).tick
        -- Each measurement is of a level above the earlier ones, and counts against the maximum.
        · refine measuredStep_repeats hrepeats (fun phase hphase => ?_) (update_then ?_)
            (Bounded.raised hticked).tick
          · have hpassed : Repeatable outcome (start.tick.passAt ⟨users, phase⟩) :=
              hstart.passAt hphase
            have hlength := length_passAt start.tick ⟨users, phase⟩
            refine readState_then (nextImprovements_then (fun values => update_then ?_) ?_)
            · change Action.Ensures _ (start.tick.passAt ⟨users, phase⟩) _
              split
              · have hplateau : (plateauOf (start.tick.passAt ⟨users, phase⟩).passing).Ensures
                    (start.tick.passAt ⟨users, phase⟩) fun result state =>
                      state = start.tick.passAt ⟨users, phase⟩ ∧ result ≠ .error .exhausted := by
                  unfold plateauOf
                  split <;> exact ⟨rfl, fun heq => by cases heq⟩
                refine readState_then (hplateau.bind ?_ ?_)
                · rintro plateau state ⟨rfl, -⟩
                  exact (Bounded.lastReturned hpassed hlength (by omega)).tick
                · rintro stop state ⟨rfl, hstop⟩
                  exact (Bounded.last hpassed (by simpa using hstop) hlength (by omega)).tick
              · split
                · exact (Bounded.lastReturned hpassed hlength (by omega)).tick
                · exact (ih (by omega) hpassed).mono fun _ _ hbounded =>
                    (hbounded.step hlength (by omega)).tick
            · have hmeasured : Repeatable outcome (start.tick.measure users true) := hstart
              exact (Bounded.lastDivided hmeasured (length_measure _ _ _) (by omega)).tick
          · have hfailed : Repeatable outcome (start.tick.failAt users) := hstart
            exact (Bounded.lastReturned hfailed (length_failAt _ _) (by omega)).tick

/-- Under a separated bracket each measurement narrows it. -/
theorem refineBelowLoop_bounded (hseparated : Separated floating workload) (fuel : Nat)
    {low : Passing} {high : Nat} {start : SearchState}
    (hfirst : firstUsers workload ≤ low.users) (hlt : low.users < high)
    (hhigh : high ≤ maximumUsers workload) (hstart : Repeatable outcome start) :
    (refineBelowLoop floating env workload fuel low high).Ensures start fun result state =>
      Bounded outcome start (high - low.users) fuel result state := by
  induction fuel generalizing low high start with
  | zero => exact ⟨hstart, Nat.le_add_right _ _, fun hlt => absurd hlt (Nat.not_lt_zero _)⟩
  | succ fuel ih =>
      unfold refineBelowLoop
      split
      next hwide =>
        have hgap := hseparated low.users high hfirst hlt hhigh hwide
        simp only
        generalize husers : (low.users + high) / 2 = users
        refine measuredStep_repeats hrepeats (fun phase hphase => update_then ?_) (update_then ?_)
          (.raised hstart)
        · have hpassed : Repeatable outcome (start.passAt ⟨users, phase⟩) := hstart.passAt hphase
          exact (@ih ⟨users, phase⟩ high (start.passAt ⟨users, phase⟩) (by dsimp only; omega)
            (by dsimp only; omega) hhigh hpassed).mono fun _ _ hbounded =>
              hbounded.step (length_passAt _ _) (by dsimp only; omega)
        · exact (@ih low users (start.failAt users) hfirst (by omega) (by omega) hstart).mono
            fun _ _ hbounded => hbounded.step (length_failAt _ _) (by omega)
      · exact .returned hstart

/-- The refinement below a failure measures each level at most once. -/
theorem refineBelow_bounded (hseparated : Separated floating workload) (fuel : Nat) {high : Nat}
    {start : SearchState} (hwithin : Within workload start) (hhigh : high ≤ maximumUsers workload)
    (hstart : Repeatable outcome start) :
    (refineBelow floating env workload fuel high).Ensures start fun result state =>
      Bounded outcome start (maximumUsers workload) fuel result state := by
  refine readState_then ?_
  split
  · exact .returned hstart
  next low hlow =>
    obtain ⟨hmem, hlt⟩ := List.mem_filter.mp (mostUsers_mem hlow)
    refine (refineBelowLoop_bounded hrepeats hseparated fuel (hwithin low hmem).1
      (of_decide_eq_true hlt) hhigh hstart).bind ?_ fun _ _ hstop => hstop.stop (by omega)
    intro refined state hrefined
    exact ⟨hrefined.repeatable, hrefined.measured.trans (by omega), fun _ heq => by cases heq⟩

/-- The refinement of a plateau measures the levels between its bounds once, and after a failure
each level below it once. -/
theorem refinePlateauLoop_bounded (hseparated : Separated floating workload) (total fuel : Nat)
    (htotal : fuel ≤ total) {low high : Passing} {start : SearchState}
    (hwithin : Within workload start) (hfirst : firstUsers workload ≤ low.users)
    (hlt : low.users < high.users) (hhigh : high.users ≤ maximumUsers workload)
    (hstart : Repeatable outcome start) :
    (refinePlateauLoop floating env workload total fuel low high).Ensures start
      fun result state => Bounded outcome start (high.users - low.users + maximumUsers workload)
        fuel result state := by
  induction fuel generalizing low high start with
  | zero => exact ⟨hstart, Nat.le_add_right _ _, fun hlt => absurd hlt (Nat.not_lt_zero _)⟩
  | succ fuel ih =>
      unfold refinePlateauLoop
      split
      next hwide =>
        -- The midpoint lies strictly inside, so the gap of the bracket shrinks.
        have hgap := hseparated low.users high.users hfirst hlt hhigh hwide
        simp only
        generalize husers : (low.users + high.users) / 2 = users
        refine measuredStep_repeats hrepeats (fun phase hphase => update_then ?_) (update_then ?_)
          (.raised hstart)
        · have hpassed : Repeatable outcome (start.passAt ⟨users, phase⟩) := hstart.passAt hphase
          have hnext : Within workload (start.passAt ⟨users, phase⟩) :=
            within_passAt hwithin ⟨by dsimp only; omega, by dsimp only; omega⟩
          have hlength := length_passAt start ⟨users, phase⟩
          change Action.Ensures _ (start.passAt ⟨users, phase⟩) _
          refine improvementOver_then (fun _ value _ => ?_) ?_
          · split
            · exact (ih (by omega) hnext (by dsimp only; omega) (by dsimp only; omega) hhigh
                hpassed).mono fun _ _ hbounded => hbounded.step hlength (by dsimp only; omega)
            · exact (ih (by omega) hnext hfirst (by dsimp only; omega) (by dsimp only; omega)
                hpassed).mono fun _ _ hbounded => hbounded.step hlength (by dsimp only; omega)
          · exact Bounded.lastDivided hpassed hlength (by omega)
        · have hbelow :=
            @refineBelow_bounded floating env workload outcome hrepeats hseparated total
            users (start.failAt users) hwithin (by omega) hstart
          have hlength := length_failAt start users
          change Action.Ensures _ (start.failAt users) _
          -- The search below a failing level has a bound of its own, the maximum.
          have hmore : ∀ {γ : Type} {result : Except SearchStop γ} {state},
              Bounded outcome (start.failAt users) (maximumUsers workload) total result state →
              Bounded outcome start (high.users - low.users + maximumUsers workload) (fuel + 1)
                result state := fun hbounded =>
            ⟨hbounded.repeatable, hbounded.measured.trans (by omega),
              fun hlt => hbounded.finished (by omega)⟩
          refine Action.Ensures.bind hbelow ?_ fun _ _ hstop => (hmore hstop).stop le_rfl
          intro refined state hrefined
          have hafter := hmore hrefined
          cases refined <;> exact ⟨hafter.repeatable, hafter.measured, fun _ heq => by cases heq⟩
      · exact .returned hstart

/-- A candidate is found within two passes over the levels. -/
theorem findCandidate_bounded (hseparated : Separated floating workload) (fuel : Nat)
    {plateau : Option (Passing × Passing)} {start : SearchState}
    (hgrown : Grown workload plateau start) (hstart : Repeatable outcome start) :
    (findCandidate floating env workload fuel plateau).Ensures start fun result state =>
      Bounded outcome start (2 * maximumUsers workload) fuel result state := by
  refine readState_then ?_
  split
  next high hfailing =>
    refine (refineBelow_bounded hrepeats hseparated fuel hgrown.within
      (hgrown.failed high hfailing).2 hstart).bind ?_ fun _ _ hstop => hstop.stop (by omega)
    intro refined state hrefined
    exact ⟨hrefined.repeatable, hrefined.measured.trans (by omega), fun _ heq => by cases heq⟩
  next low high _ =>
    obtain ⟨hlow, hhigh, hlt⟩ := hgrown.plateau low high rfl
    have hmaximum := (hgrown.within high hhigh).2
    refine (refinePlateauLoop_bounded hrepeats hseparated fuel fuel le_rfl hgrown.within
      (hgrown.within low hlow).1 hlt hmaximum hstart).bind ?_ fun _ _ hstop =>
        hstop.stop (by omega)
    rintro ⟨refined, boundary⟩ state hrefined
    exact ⟨hrefined.repeatable, hrefined.measured.trans (by omega), fun _ heq => by cases heq⟩
  · exact .returned hstart

/-- A level that passed passes every repetition. -/
theorem confirmRound_bounded {candidate : Passing}
    (hcandidate : outcome candidate.users = .passed candidate.phase) (repetitions : Nat)
    (confirmations : List Phase) (start : SearchState) :
    (confirmRound env candidate.users repetitions confirmations).Ensures start fun result state =>
      state.measurements.length ≤ start.measurements.length + repetitions ∧
        (∀ phases passed, result = .ok (phases, passed) → passed = true) ∧
        result ≠ .error .exhausted := by
  induction repetitions generalizing confirmations start with
  | zero => exact ⟨le_rfl, (fun _ _ hok => by cases hok; rfl), fun heq => by cases heq⟩
  | succ repetitions ih =>
      refine measuredStep_then (fun phase _ => ?_) (fun hfailed => ?_) ?_
      · refine (ih (confirmations ++ [phase]) (start.measure candidate.users true)).mono
          fun _ _ hafter => ⟨hafter.1.trans ?_, hafter.2⟩
        rw [length_measure]
        omega
      · rw [hrepeats, hcandidate] at hfailed
        cases hfailed
      · exact ⟨Nat.le_add_right _ _, (fun _ _ hok => by cases hok), fun heq => by cases heq⟩

/-- Outcomes that repeat confirm the first candidate in its first round. -/
theorem confirmLoop_bounded {total fuel : Nat} {candidate : Passing}
    {failures : List ConfirmationFailure} {start : SearchState}
    (hcandidate : outcome candidate.users = .passed candidate.phase) :
    (confirmLoop floating env workload total fuel candidate failures).Ensures start
      fun result state =>
        state.measurements.length ≤ start.measurements.length + workload.repetitions.toNat ∧
          (0 < fuel → result ≠ .error .exhausted) := by
  cases fuel with
  | zero => exact ⟨Nat.le_add_right _ _, fun hlt => absurd hlt (Nat.lt_irrefl 0)⟩
  | succ fuel =>
      refine (confirmRound_bounded hrepeats hcandidate _ [] start).bind ?_ fun _ _ hstop =>
        ⟨hstop.1, fun _ => by simpa using hstop.2.2⟩
      rintro ⟨phases, passed⟩ state ⟨hmeasured, hpassed, -⟩
      have hpassed := hpassed phases passed rfl
      subst hpassed
      exact ⟨hmeasured, fun _ heq => by cases heq⟩

theorem capacitySearch_finite (hseparated : Separated floating workload)
    (hpositive : 0 < firstUsers workload) : FinitelyMeasured floating env workload := by
  refine ⟨maximumUsers workload + 1 + 2 * maximumUsers workload + workload.repetitions.toNat,
    fun fuel => ?_⟩
  have hinitial : Repeatable outcome SearchState.initial := fun _ hitem => by cases hitem
  -- The bounds of growth, of the refinement and of the confirmation add up.
  have hgrowth := (@growthLoop_bounded floating env workload outcome hrepeats hpositive fuel
    (firstUsers workload) [] _ le_rfl hinitial).and
    (@growthLoop_ensures floating env workload hpositive fuel _ [] _ (growing_initial workload))
  refine hgrowth.bind ?_ fun stop state hstop =>
    ⟨hstop.1.measured.trans (by simp [SearchState.initial]; omega), fun hlt => by
      simpa using hstop.1.finished (by omega)⟩
  rintro plateau grown ⟨hbounded, hgrown⟩
  have hgrown := hgrown plateau rfl
  have hgrowthLength : grown.measurements.length ≤ maximumUsers workload + 1 :=
    hbounded.measured.trans (by simp [SearchState.initial])
  refine readState_then ?_
  split
  · exact ⟨by simp [Action.run, pure, Action.pure]; omega, fun _ heq => by cases heq⟩
  have hfound := (findCandidate_bounded hrepeats hseparated fuel hgrown hbounded.repeatable).and
    (findCandidate_ensures (refinesBelow_of_separated hseparated fuel)
      (.inr fun _ _ _ hstart hlow hhigh hlt =>
        refinePlateauLoop_ensures hseparated fuel fuel hstart hlow hhigh hlt) hgrown)
  refine Action.Ensures.bind hfound ?_ fun stop state hstop => ⟨?_, fun hlt => ?_⟩
  case refine_2 =>
    have hle := hstop.1.measured
    omega
  case refine_3 => simpa using hstop.1.finished (by omega)
  rintro found state ⟨hcandidate, hbracketed⟩
  have hlength := hcandidate.measured
  split
  · exact ⟨by simp [Action.run, pure, Action.pure]; omega, fun _ heq => by cases heq⟩
  next candidate boundary =>
    have hpasses := hcandidate.repeatable candidate (hbracketed candidate boundary rfl).passing
    refine (confirmLoop_bounded hrepeats hpasses).bind ?_ fun stop after hstop =>
      ⟨?_, fun hlt => ?_⟩
    case refine_2 =>
      have hle := hstop.1
      omega
    case refine_3 => simpa using hstop.2 (by omega)
    rintro confirmed after ⟨hafter, -⟩
    split
    · exact ⟨by simp [Action.run, pure, Action.pure]; omega, fun _ heq => by cases heq⟩
    · refine (summarize_ensures boundary _ after).mono fun result final hfinal => ?_
      obtain ⟨rfl, hfinished, -⟩ := hfinal
      exact ⟨by omega, fun _ => hfinished⟩

end Search

/-- Every level up to the first passes, every one above it fails. -/
def standing (first : Nat) (users : Nat) : StepOutcome :=
  if users ≤ first then .passed steadyPhase else .failed

section Endless

variable {floating : Floating} {workload : WorkloadConfig}

/-- The midpoint of two adjacent levels is the lower one, which passes again. -/
theorem refineBelowLoop_endless {first : Nat}
    (hnarrow : floating.div workload.boundaryPercent 100 < floating.div 1 ((first : ℚ) + 1))
    (fuel : Nat) {high : Nat} {start : SearchState} (hlt : first < high) :
    (refineBelowLoop floating (noisyEnv fun _ => standing first) workload fuel
        ⟨first, steadyPhase⟩ high).Ensures start fun result _ => result = .error .exhausted := by
  induction fuel generalizing high start with
  | zero => rfl
  | succ fuel ih =>
      have hwide : wide floating workload first high :=
        hnarrow.trans_le (floating.monotone (narrowest_le hlt))
      rw [refineBelowLoop, if_pos hwide]
      simp only
      by_cases hadjacent : high = first + 1
      · have hmiddle : (first + high) / 2 = first := by omega
        rw [hmiddle]
        exact measuredStep_passed (if_pos le_rfl) (update_then (ih hlt))
      · exact measuredStep_failed (if_neg (by omega)) (update_then (ih (by omega)))

/-- Without a boundary as wide as the narrowest bracket the bisection goes on forever. -/
theorem capacitySearch_endless (htime : 0 < workload.maximumCampaignSeconds.toNat)
    (hlevels : firstUsers workload < maximumUsers workload)
    (hpositive : 0 < firstUsers workload)
    (hnarrow : floating.div workload.boundaryPercent 100 <
      floating.div 1 ((firstUsers workload : ℚ) + 1)) (fuel : Nat) :
    (capacitySearch floating (noisyEnv fun _ => standing (firstUsers workload)) workload
      (fuel + 2)).Ensures .initial fun result _ => result = .error .exhausted := by
  generalize hfirst : firstUsers workload = first at *
  let low : Passing := ⟨first, steadyPhase⟩
  let high := min (maximumUsers workload) (first * 2)
  have hhigh : first < high := by
    simp only [high]
    omega
  -- Growth leaves a bracket of adjacent levels that is wider than the boundary.
  have hgrowth : (growthLoop floating (noisyEnv fun _ => standing first) workload (fuel + 2)
      first []).Ensures .initial fun result state =>
        result = .ok none ∧ state = (SearchState.initial.tick.passAt low).tick.failAt high := by
    refine growthLoop_passed htime hlevels.le (if_pos le_rfl) rfl ?_
    rw [if_neg (not_flattened_of_length (by decide)), if_neg hlevels.ne]
    exact growthLoop_failed htime (Nat.min_le_left _ _) (if_neg (Nat.not_le.mpr hhigh)) ⟨rfl, rfl⟩
  rw [capacitySearch, hfirst]
  refine hgrowth.bind ?_ fun _ _ hstop => by cases hstop.1
  rintro plateau state ⟨hplateau, rfl⟩
  cases hplateau
  refine readState_then ?_
  generalize hstate : (SearchState.initial.tick.passAt low).tick.failAt high = state
  have hpassing : state.passing = [low] := by rw [← hstate]; rfl
  have hfailing : state.failing = some high := by rw [← hstate]; rfl
  rw [if_neg (by rw [hpassing]; exact List.cons_ne_nil _ _)]
  have hcandidate : (findCandidate floating (noisyEnv fun _ => standing first) workload
      (fuel + 2) none).Ensures state fun result _ => result = .error .exhausted := by
    refine readState_then ?_
    rw [hfailing]
    -- Its midpoint is the lower level, which passes again and again.
    have hbelow : (refineBelow floating (noisyEnv fun _ => standing first) workload (fuel + 2)
        high).Ensures state fun result _ => result = .error .exhausted := by
      refine readState_then ?_
      have hlowest : mostUsers (state.passing.filter fun item => item.users < high) =
          some low := by
        rw [hpassing]
        simp [low, hhigh, mostUsers]
      rw [hlowest]
      refine (refineBelowLoop_endless hnarrow _ hhigh).bind (fun _ _ hok => by cases hok) ?_
      rintro stop after hstop
      cases hstop
      rfl
    refine hbelow.bind (fun _ _ hok => by cases hok) ?_
    rintro stop after hstop
    cases hstop
    rfl
  refine hcandidate.bind (fun _ _ hok => by cases hok) ?_
  rintro stop after hstop
  cases hstop
  rfl

end Endless

/-- Every measurement of a level has the same outcome. -/
def Deterministic (env : SearchEnv) : Prop :=
  ∃ outcome : Nat → StepOutcome, ∀ history users, env.oracle history users = outcome users

/-- No time, a single level, or a boundary no narrower than the narrowest bracket. -/
def BracketCloses (floating : Floating) (workload : WorkloadConfig) : Prop :=
  workload.maximumCampaignSeconds = 0 ∨ maximumUsers workload ≤ firstUsers workload ∨
    floating.div 1 ((firstUsers workload : ℚ) + 1) ≤ floating.div workload.boundaryPercent 100

/-- Every search with an outcome per level ends exactly when the brackets of adjacent
levels close, whatever the rounding. -/
theorem capacitySearch_finite_iff (floating : Floating) {config : FyreConfig}
    (hvalid : validateConfig config = .ok ⟨⟩) :
    (∀ env, Deterministic env → FinitelyMeasured floating env config.workload) ↔
      BracketCloses floating config.workload := by
  have hfirst : 125 ≤ firstUsers config.workload :=
    UInt32.le_iff_toNat_le.mp (validateConfig_ok hvalid).firstUsers
  constructor
  · intro hfinite
    by_contra hcloses
    simp only [BracketCloses, not_or, not_le] at hcloses
    obtain ⟨htime, hlevels, hnarrow⟩ := hcloses
    have htime : 0 < config.workload.maximumCampaignSeconds.toNat :=
      Nat.pos_of_ne_zero fun hzero => htime (UInt32.toNat_inj.mp hzero)
    obtain ⟨count, hcount⟩ := hfinite
      (noisyEnv fun _ => standing (firstUsers config.workload)) ⟨_, fun _ _ => rfl⟩
    have hendless := @capacitySearch_endless floating _ htime hlevels (by omega) hnarrow count
    exact (hcount (count + 2)).2 (by omega) hendless
  · rintro hcloses env ⟨outcome, hrepeats⟩
    have hcases : config.workload.maximumCampaignSeconds = 0 ∨
        Separated floating config.workload := by
      rcases hcloses with htime | hboundary
      · exact .inl htime
      · exact .inr (separated_of_boundary hboundary)
    rcases hcases with htime | hseparated
    · exact ⟨0, fun fuel => (capacitySearch_of_no_time htime).mono fun _ _ hstate =>
        ⟨by rw [hstate.1]; exact le_rfl, hstate.2.1⟩⟩
    · exact capacitySearch_finite hrepeats hseparated (by omega)

/-- The packaged boundary of 12.5 percent closes every bracket from 125 users on. -/
theorem capacitySearch_finite_packagedProfile :
    validateConfig packagedProfile = .ok ⟨⟩ ∧ ∀ env, Deterministic env →
      FinitelyMeasured (.exact fun _ => 0) env packagedProfile.workload := by
  have hfirst : firstUsers packagedProfile.workload = 125 := by rfl
  refine ⟨validateConfig_packagedProfile,
    (capacitySearch_finite_iff _ validateConfig_packagedProfile).mpr (.inr (.inr ?_))⟩
  rw [hfirst]
  norm_num [packagedProfile, lowMemoryProfile, Floating.div, Floating.exact]

/-- Half a percent does not separate 125 users from 126: the bisection measures 125
users over and over. -/
theorem capacitySearch_repeats_forever :
    validateConfig narrowProfile = .ok ⟨⟩ ∧ 0 < narrowProfile.workload.boundaryPercent ∧
      ¬ FinitelyMeasured (.exact fun _ => 0) (noisyEnv fun _ => standing 125)
        narrowProfile.workload := by
  have hfirst : firstUsers narrowProfile.workload = 125 := by rfl
  refine ⟨by rfl, by norm_num [narrowProfile], ?_⟩
  rintro ⟨count, hcount⟩
  have hendless := @capacitySearch_endless (.exact fun _ => 0) narrowProfile.workload (by decide)
    (by decide) (by decide)
    (by rw [hfirst]; norm_num [narrowProfile, Floating.div, Floating.exact]) count
  rw [hfirst] at hendless
  exact (hcount (count + 2)).2 (by omega) hendless

end CfIntegration.Fyre.Capacity
