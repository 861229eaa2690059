import Mathlib.Tactic.Linarith
import CfIntegration.Fyre.CapacitySearch

/-! # The bracket of the capacity search

The levels that failed stay above the candidate, and the lowest of them stays
within the boundary. A bisection keeps this as long as its midpoint lies strictly
between the bounds of the bracket.
-/

namespace CfIntegration.Fyre.Capacity

section Steps

variable {α : Type} {floating : Floating} {env : SearchEnv} {workload : WorkloadConfig}

/-- A change of the search state always succeeds, so only what follows it can stop. -/
theorem update_then {change : SearchState → SearchState} {next : Unit → SearchAction α}
    {start : SearchState} {post : Except SearchStop α → SearchState → Prop}
    (hnext : (next ()).Ensures (change start) post) :
    (update change >>= next).Ensures start post := hnext

/-- Reading the search state leaves it alone. -/
theorem readState_then {next : SearchState → SearchAction α} {start : SearchState}
    {post : Except SearchStop α → SearchState → Prop} (hnext : (next start).Ensures start post) :
    (readState >>= next).Ensures start post := hnext

/-- The state after a measurement. -/
def SearchState.measure (state : SearchState) (users : Nat) (passed : Bool) : SearchState :=
  { state with measurements := state.measurements ++ [(users, passed)] }

/-- A measurement of a level passes, fails or raises, and the state records which. -/
theorem measuredStep_then {users : Nat} {next : Option Phase → SearchAction α}
    {start : SearchState} {post : Except SearchStop α → SearchState → Prop}
    (hpassed : ∀ phase, env.oracle start.measurements users = .passed phase →
      (next (some phase)).Ensures (start.measure users true) post)
    (hfailed : env.oracle start.measurements users = .failed →
      (next none).Ensures (start.measure users false) post)
    (hraised : post (.error .raised) start) :
    (measuredStep env users >>= next).Ensures start post := by
  apply Action.ensures_bind.mpr
  unfold Action.Ensures Action.run
  cases houtcome : env.oracle start.measurements users with
  | passed phase =>
      have hrun : measuredStep env users start = (.ok (some phase), start.measure users true) := by
        simp only [measuredStep, houtcome]
        rfl
      rw [hrun]
      exact hpassed phase houtcome
  | failed =>
      have hrun : measuredStep env users start = (.ok none, start.measure users false) := by
        simp only [measuredStep, houtcome]
        rfl
      rw [hrun]
      exact hfailed houtcome
  | raised =>
      have hrun : measuredStep env users start = (.error .raised, start) := by
        simp only [measuredStep, houtcome]
      rw [hrun]
      exact hraised

/-- An improvement does not touch the state. -/
theorem improvementOver_then {rps previous : ℚ} {next : ℚ → SearchAction α} {start : SearchState}
    {post : Except SearchStop α → SearchState → Prop}
    (hnext : previous ≠ 0 → ∀ value,
      value = floating.round (100 * floating.round (floating.div rps previous - 1)) →
      (next value).Ensures start post)
    (hzero : post (.error .zeroDivision) start) :
    (improvementOver floating rps previous >>= next).Ensures start post := by
  unfold improvementOver divide
  split
  · exact hzero
  next hprevious => exact hnext hprevious _ rfl

end Steps

/-- A level was measured as failing. -/
def Fails (state : SearchState) (users : Nat) : Prop := (users, false) ∈ state.measurements

def LowestFailing (state : SearchState) (high : Nat) : Prop :=
  Fails state high ∧ ∀ users, Fails state users → high ≤ users

/-- A passed measurement leaves the failing levels as they were. -/
@[simp] theorem fails_measure_true {state : SearchState} {users level : Nat} :
    Fails (state.measure users true) level ↔ Fails state level := by
  simp [Fails, SearchState.measure]

/-- A failed measurement makes its own level the only new failing one. -/
@[simp] theorem fails_measure_false {state : SearchState} {users level : Nat} :
    Fails (state.measure users false) level ↔ Fails state level ∨ level = users := by
  simp [Fails, SearchState.measure]

/-- The state after a level passed. -/
def SearchState.passAt (state : SearchState) (item : Passing) : SearchState :=
  { state.measure item.users true with passing := state.passing ++ [item] }

@[simp] theorem fails_passAt {state : SearchState} {item : Passing} {level : Nat} :
    Fails (state.passAt item) level ↔ Fails state level := fails_measure_true

/-- The measured level is among those that passed. -/
theorem mem_passAt (state : SearchState) (item : Passing) : item ∈ (state.passAt item).passing :=
  List.mem_append_right _ (List.mem_singleton_self item)

/-- A level that passed before is not forgotten. -/
theorem mem_passAt_of_mem {state : SearchState} {item other : Passing}
    (hother : other ∈ state.passing) : other ∈ (state.passAt item).passing :=
  List.mem_append_left _ hother

/-- The state after a level failed. -/
def SearchState.failAt (state : SearchState) (users : Nat) : SearchState :=
  { state.measure users false with failing := some users }

@[simp] theorem fails_failAt {state : SearchState} {users level : Nat} :
    Fails (state.failAt users) level ↔ Fails state level ∨ level = users := fails_measure_false

/-- A failure below every other is the lowest. -/
theorem lowestFailing_failAt {state : SearchState} {users : Nat}
    (hbelow : ∀ level, Fails state level → users ≤ level) :
    LowestFailing (state.failAt users) users := by
  refine ⟨fails_failAt.mpr (.inr rfl), fun level hlevel => ?_⟩
  rcases fails_failAt.mp hlevel with hold | rfl
  · exact hbelow level hold
  · exact le_rfl

section Bracket

variable {floating : Floating} {env : SearchEnv} {workload : WorkloadConfig}

/-- The levels that passed are within the configured range. -/
def Within (workload : WorkloadConfig) (state : SearchState) : Prop :=
  ∀ item ∈ state.passing, firstUsers workload ≤ item.users ∧ item.users ≤ maximumUsers workload

/-- A wide bracket has a level strictly between its bounds. -/
def Separated (floating : Floating) (workload : WorkloadConfig) : Prop :=
  ∀ low high, firstUsers workload ≤ low → low < high → high ≤ maximumUsers workload →
    wide floating workload low high → low + 2 ≤ high

/-- A boundary at least as wide as the narrowest bracket separates every bracket. -/
theorem separated_of_boundary (hboundary : maximumUsers workload ≤ firstUsers workload ∨
      floating.div 1 (firstUsers workload + 1) ≤ floating.div workload.boundaryPercent 100) :
    Separated floating workload := by
  intro low high hfirst hlt hhigh hwide
  rcases hboundary with hempty | hboundary
  · omega
  · by_contra hgap
    obtain rfl : high = low + 1 := by omega
    refine absurd hwide (not_lt.mpr (le_trans (floating.monotone ?_) hboundary))
    have hle : (firstUsers workload : ℚ) ≤ low := Nat.cast_le.mpr hfirst
    have hnonneg : (0 : ℚ) ≤ firstUsers workload := Nat.cast_nonneg _
    rw [Nat.cast_add, Nat.cast_one, add_sub_cancel_left]
    exact one_div_le_one_div_of_le (by linarith) (by linarith)

/-- A level that passed, below the lowest failing one and within the boundary of it. -/
structure Bracketed (floating : Floating) (workload : WorkloadConfig) (state : SearchState)
    (candidate : Passing) : Prop where
  passing : candidate ∈ state.passing
  within : Within workload state
  lowest : (∀ users, ¬ Fails state users) ∨ ∃ high, LowestFailing state high ∧
    candidate.users < high ∧ ¬ wide floating workload candidate.users high

/-- A pass within the configured levels keeps every recorded pass there. -/
theorem within_passAt {state : SearchState} (hwithin : Within workload state) {item : Passing}
    (hitem : firstUsers workload ≤ item.users ∧ item.users ≤ maximumUsers workload) :
    Within workload (state.passAt item) := by
  intro other hother
  rcases List.mem_append.mp hother with hold | hnew
  · exact hwithin other hold
  · exact List.mem_singleton.mp hnew ▸ hitem

/-- A bisection below the lowest failing level ends within the boundary of the one that
is lowest then. -/
theorem refineBelowLoop_ensures (hseparated : Separated floating workload) (fuel : Nat)
    {low : Passing} {high : Nat} {start : SearchState} (hwithin : Within workload start)
    (hlow : low ∈ start.passing) (hlt : low.users < high) (hhigh : high ≤ maximumUsers workload)
    (hfails : LowestFailing start high) :
    (refineBelowLoop floating env workload fuel low high).Ensures start fun result state =>
      ∀ candidate, result = .ok candidate → Bracketed floating workload state candidate := by
  induction fuel generalizing low high start with
  | zero => exact nofun
  | succ fuel ih =>
      unfold refineBelowLoop
      split
      next hwide =>
        have hfirst := (hwithin low hlow).1
        have hgap := hseparated low.users high hfirst hlt hhigh hwide
        simp only
        generalize husers : (low.users + high) / 2 = users
        refine measuredStep_then (fun phase _ => update_then ?_) (fun _ => update_then ?_) nofun
        · change (refineBelowLoop floating env workload fuel ⟨users, phase⟩ high).Ensures
            (start.passAt ⟨users, phase⟩) _
          refine ih ?_ (mem_passAt start _) ?_ hhigh ?_
          · exact within_passAt hwithin ⟨by dsimp only; omega, by dsimp only; omega⟩
          · dsimp only
            omega
          · exact ⟨fails_passAt.mpr hfails.1, fun level hlevel =>
              hfails.2 level (fails_passAt.mp hlevel)⟩
        · change (refineBelowLoop floating env workload fuel low users).Ensures
            (start.failAt users) _
          refine ih hwithin hlow (by omega) (by omega) ?_
          refine lowestFailing_failAt fun level hlevel => ?_
          have hle := hfails.2 level hlevel
          omega
      next hnarrow =>
        intro candidate hok
        cases hok
        exact ⟨hlow, hwithin, .inr ⟨high, hfails, hlt, hnarrow⟩⟩

/-- Bisections below a failing level end in a bracketed candidate. -/
def RefinesBelow (floating : Floating) (env : SearchEnv) (workload : WorkloadConfig)
    (fuel : Nat) : Prop :=
  ∀ (low : Passing) (high : Nat) (start : SearchState), Within workload start →
    low ∈ start.passing → low.users < high → high ≤ maximumUsers workload →
    LowestFailing start high →
    (refineBelowLoop floating env workload fuel low high).Ensures start fun result state =>
      ∀ candidate, result = .ok candidate → Bracketed floating workload state candidate

/-- With separated levels the refinement below a failure brackets its candidate. -/
theorem refinesBelow_of_separated (hseparated : Separated floating workload) (fuel : Nat) :
    RefinesBelow floating env workload fuel := fun _ _ _ hwithin hlow hlt hhigh hfails =>
  refineBelowLoop_ensures hseparated fuel hwithin hlow hlt hhigh hfails

/-- The largest passing level is one of the passing levels. -/
theorem mostUsers_mem {items : List Passing} {best : Passing}
    (hbest : mostUsers items = some best) :
    best ∈ items := by
  have hfold : ∀ (rest : List Passing) (item : Passing),
      rest.foldl (fun best item => if best.users < item.users then item else best) item ∈
        item :: rest := by
    intro rest
    induction rest with
    | nil => exact fun item => List.mem_singleton_self item
    | cons next rest ih =>
        intro item
        rcases List.mem_cons.mp (ih (if item.users < next.users then next else item)) with
          hhead | hrest
        · rw [List.foldl_cons, hhead]
          split
          · exact List.mem_cons_of_mem _ List.mem_cons_self
          · exact List.mem_cons_self
        · exact List.mem_cons_of_mem _ (List.mem_cons_of_mem _ hrest)
  cases items with
  | nil => cases hbest
  | cons item rest =>
      cases hbest
      exact hfold rest item

/-- There is a largest passing level unless nothing passed. -/
theorem mostUsers_eq_none {items : List Passing} : mostUsers items = none ↔ items = [] := by
  cases items <;> simp [mostUsers]

/-- The refinement below a failing level ends with a bracketed candidate, or with none when
nothing passed below that level. -/
theorem refineBelow_ensures {fuel high : Nat} {start : SearchState}
    (hrefines : RefinesBelow floating env workload fuel) (hwithin : Within workload start)
    (hhigh : high ≤ maximumUsers workload) (hfails : LowestFailing start high) :
    (refineBelow floating env workload fuel high).Ensures start fun result state =>
      (∀ candidate, result = .ok (some candidate) →
        Bracketed floating workload state candidate) ∧
      (result = .ok none → ∀ item ∈ start.passing, high ≤ item.users) := by
  refine readState_then ?_
  split
  next hnone =>
    refine ⟨nofun, fun _ item hitem => ?_⟩
    by_contra hlt
    have hmem : item ∈ start.passing.filter fun item => item.users < high :=
      List.mem_filter.mpr ⟨hitem, decide_eq_true (Nat.lt_of_not_le hlt)⟩
    rw [mostUsers_eq_none.mp hnone] at hmem
    cases hmem
  next low hlow =>
    obtain ⟨hmem, hlt⟩ := List.mem_filter.mp (mostUsers_mem hlow)
    refine (hrefines low high start hwithin hmem (of_decide_eq_true hlt) hhigh hfails).bind
      (fun refined state hrefined => ⟨fun candidate hok => ?_, nofun⟩) fun _ _ _ => ⟨nofun, nofun⟩
    cases hok
    exact hrefined refined rfl

/-- Growth at a level: the levels before it passed, in increasing order. -/
structure Growing (workload : WorkloadConfig) (users : Nat) (state : SearchState) : Prop where
  within : Within workload state
  fails : ∀ level, ¬ Fails state level
  failing : state.failing = none
  increasing : state.passing.Pairwise fun item next => item.users < next.users
  below : ∀ item ∈ state.passing, item.users < users
  first : firstUsers workload ≤ users

/-- What growth leaves behind. -/
structure Grown (workload : WorkloadConfig) (plateau : Option (Passing × Passing))
    (state : SearchState) : Prop where
  within : Within workload state
  unfailed : state.failing = none → ∀ users, ¬ Fails state users
  failed : ∀ high, state.failing = some high →
    LowestFailing state high ∧ high ≤ maximumUsers workload
  plateau : ∀ low high, plateau = some (low, high) →
    low ∈ state.passing ∧ high ∈ state.passing ∧ low.users < high.users

theorem Growing.grown {users : Nat} {state : SearchState}
    (hgrowing : Growing workload users state) :
    Grown workload none state where
  within := hgrowing.within
  unfailed _ := hgrowing.fails
  failed high hhigh := by rw [hgrowing.failing] at hhigh; cases hhigh
  plateau _ _ hplateau := by cases hplateau

/-- The state after a reading of the clock. -/
def SearchState.tick (state : SearchState) : SearchState :=
  { state with readings := state.readings + 1 }

theorem Growing.tick {users : Nat} {state : SearchState} (hgrowing : Growing workload users state) :
    Growing workload users state.tick :=
  ⟨hgrowing.within, hgrowing.fails, hgrowing.failing, hgrowing.increasing, hgrowing.below,
    hgrowing.first⟩

/-- The time check reads the clock once. -/
theorem withinTime_then {α : Type} {next : Bool → SearchAction α} {start : SearchState}
    {post : Except SearchStop α → SearchState → Prop}
    (hnext : (next (env.elapsed start.readings < workload.maximumCampaignSeconds.toNat)).Ensures
      start.tick post) :
    (withinTime env workload >>= next).Ensures start post := hnext

/-- The bounds of a plateau are two of the passes, the lower one first. -/
theorem plateauOf_ensures {passing : List Passing} {start : SearchState}
    (hincreasing : passing.Pairwise fun item next => item.users < next.users) :
    (plateauOf passing).Ensures start fun result state => state = start ∧
      ∀ low high, result = .ok (low, high) →
        low ∈ passing ∧ high ∈ passing ∧ low.users < high.users := by
  unfold plateauOf
  split
  next last second third rest hreverse =>
    refine ⟨rfl, fun low high hok => ?_⟩
    cases hok
    have hmem : ∀ item ∈ [second, third], item ∈ passing := by
      intro item hitem
      rw [← List.mem_reverse, hreverse]
      exact List.mem_cons_of_mem _ (List.mem_append_left rest hitem)
    have hpair := List.pairwise_reverse.mpr hincreasing
    rw [hreverse] at hpair
    exact ⟨hmem third (by simp), hmem second (by simp),
      (List.pairwise_cons.mp (List.pairwise_cons.mp hpair).2).1 third List.mem_cons_self⟩
  · exact ⟨rfl, fun _ _ hok => by cases hok⟩

/-- A pass at the growing level leaves every earlier pass below the next one. -/
theorem Growing.passAt {users : Nat} {state : SearchState}
    (hgrowing : Growing workload users state) (phase : Phase)
    (hmaximum : users ≤ maximumUsers workload) {next : Nat} (hnext : users < next) :
    Growing workload next (state.passAt ⟨users, phase⟩) where
  within := within_passAt hgrowing.within ⟨hgrowing.first, hmaximum⟩
  fails level hlevel := hgrowing.fails level (fails_passAt.mp hlevel)
  failing := hgrowing.failing
  increasing := List.pairwise_append.mpr ⟨hgrowing.increasing, List.pairwise_singleton _ _,
    fun item hitem other hother => List.mem_singleton.mp hother ▸ hgrowing.below item hitem⟩
  below item hitem := by
    rcases List.mem_append.mp hitem with hold | hnew
    · exact (hgrowing.below item hold).trans hnext
    · exact List.mem_singleton.mp hnew ▸ hnext
  first := hgrowing.first.trans hnext.le

/-- The improvements are read without a trace in the results. -/
theorem nextImprovements_then {α : Type} {phase : Phase} {previous : Option Passing}
    {improvements : List ℚ} {next : List ℚ → SearchAction α} {start : SearchState}
    {post : Except SearchStop α → SearchState → Prop}
    (hnext : ∀ values, (next values).Ensures start post)
    (hzero : post (.error .zeroDivision) start) :
    (nextImprovements floating phase previous improvements >>= next).Ensures start post := by
  unfold nextImprovements
  split
  · exact hnext improvements
  · unfold improvementOver divide
    split
    · exact hzero
    · exact hnext _

/-- A failure that stops the growth is the lowest one, and the bounds of a plateau are passes. -/
theorem growthLoop_ensures (hpositive : 0 < firstUsers workload) (fuel : Nat) {users : Nat}
    {improvements : List ℚ} {start : SearchState} (hstart : Growing workload users start) :
    (growthLoop floating env workload fuel users improvements).Ensures start fun result state =>
      ∀ plateau, result = .ok plateau → Grown workload plateau state := by
  induction fuel generalizing users improvements start with
  | zero => exact fun _ hok => by cases hok
  | succ fuel ih =>
      unfold growthLoop
      split
      · intro plateau hok
        cases hok
        exact hstart.grown
      next hmaximum =>
        have hle := Nat.le_of_not_lt hmaximum
        refine withinTime_then ?_
        generalize hticked : start.tick = ticked
        have hgrowing : Growing workload users ticked := hticked ▸ hstart.tick
        split
        · intro plateau hok
          cases hok
          exact hgrowing.grown
        -- The level passes, fails, or its measurement raises.
        · refine measuredStep_then (fun phase _ => ?_) (fun _ => update_then ?_)
            fun _ hok => by cases hok
          · refine readState_then (nextImprovements_then (fun values => update_then ?_) ?_)
            · change Action.Ensures _ (ticked.passAt ⟨users, phase⟩) _
              have hpassed := hgrowing.passAt phase hle (Nat.lt_succ_self users)
              split
              -- The throughput has flattened: the plateau lies between the last two levels.
              · refine readState_then ((plateauOf_ensures hpassed.increasing).bind ?_
                  fun _ _ _ _ hok => by cases hok)
                rintro ⟨low, high⟩ state ⟨rfl, hplateau⟩ plateau hok
                cases hok
                refine ⟨hpassed.within, hpassed.grown.unfailed, hpassed.grown.failed, ?_⟩
                intro other next heq
                cases heq
                exact hplateau low high rfl
              · split
                · intro plateau hok
                  cases hok
                  exact hpassed.grown
                next hother =>
                  have hfirst := hgrowing.first
                  exact ih (hgrowing.passAt phase hle (by omega))
            · exact fun _ hok => by cases hok
          · intro plateau hok
            cases hok
            -- The first level that fails is the lowest.
            refine ⟨hgrowing.within, nofun, fun high hhigh => ?_, fun _ _ hnone => by cases hnone⟩
            cases hhigh
            exact ⟨lowestFailing_failAt fun level hlevel => absurd hlevel (hgrowing.fails level),
              hle⟩

/-- Levels that passed, and none that failed. -/
structure Unfailed (workload : WorkloadConfig) (state : SearchState) : Prop where
  within : Within workload state
  fails : ∀ users, ¬ Fails state users

/-- The bisection of a plateau keeps its lower level among those that passed, so a
failure on the way always has a level below it. -/
theorem refinePlateauLoop_ensures (hseparated : Separated floating workload) (total fuel : Nat)
    {low high : Passing} {start : SearchState} (hstart : Unfailed workload start)
    (hlow : low ∈ start.passing) (hhigh : high ∈ start.passing) (hlt : low.users < high.users) :
    (refinePlateauLoop floating env workload total fuel low high).Ensures start
      fun result state => ∀ candidate boundary, result = .ok (candidate, boundary) →
        Bracketed floating workload state candidate := by
  induction fuel generalizing low high start with
  | zero => exact fun _ _ hok => by cases hok
  | succ fuel ih =>
      unfold refinePlateauLoop
      have hfirst := (hstart.within low hlow).1
      have hmaximum := (hstart.within high hhigh).2
      split
      next hwide =>
        -- The bracket is wider than the boundary, so the midpoint lies strictly inside.
        have hgap := hseparated low.users high.users hfirst hlt hmaximum hwide
        simp only
        generalize husers : (low.users + high.users) / 2 = users
        refine measuredStep_then (fun phase _ => update_then ?_) (fun _ => update_then ?_)
          fun _ _ hok => by cases hok
        · have hnext : Unfailed workload (start.passAt ⟨users, phase⟩) :=
            ⟨within_passAt hstart.within ⟨by dsimp only; omega, by dsimp only; omega⟩,
              fun level hlevel => hstart.fails level (fails_passAt.mp hlevel)⟩
          have hmiddle := mem_passAt start ⟨users, phase⟩
          change Action.Ensures _ (start.passAt ⟨users, phase⟩) _
          refine improvementOver_then (fun _ value _ => ?_) fun _ _ hok => by cases hok
          split
          · exact ih hnext hmiddle (mem_passAt_of_mem hhigh) (by dsimp only; omega)
          · exact ih hnext (mem_passAt_of_mem hlow) hmiddle (by dsimp only; omega)
        -- A level inside the plateau that fails turns the search to the levels below it.
        · have hlowest : LowestFailing (start.failAt users) users :=
            lowestFailing_failAt fun level hlevel => absurd hlevel (hstart.fails level)
          have hbelow := @refineBelow_ensures floating env workload total users
            (start.failAt users) (refinesBelow_of_separated hseparated total) hstart.within
            (by omega) hlowest
          change Action.Ensures _ (start.failAt users) _
          refine Action.Ensures.bind hbelow ?_ fun _ _ _ _ _ hok => by cases hok
          rintro refined state ⟨hrefined, hnone⟩
          refine readState_then ?_
          cases refined with
          | none =>
              -- The lower end of the plateau passed and lies below.
              have hle := hnone rfl low hlow
              omega
          | some refined =>
              intro candidate boundary hok
              cases hok
              exact hrefined refined rfl
      · intro candidate boundary hok
        cases hok
        exact ⟨hhigh, hstart.within, .inl hstart.fails⟩

end Bracket

end CfIntegration.Fyre.Capacity
