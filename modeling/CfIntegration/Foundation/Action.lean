/-! # Fallible actions on a state

An action changes a state and either returns a value or fails; a failure keeps
the changes made so far. Postconditions speak about both outcomes, and the rules
below take an action apart into its steps.
-/

namespace CfIntegration

def Action (σ ε α : Type) : Type := σ → Except ε α × σ

namespace Action

variable {σ ε ε' α β : Type}

def run (action : Action σ ε α) (start : σ) : Except ε α × σ := action start

protected def pure (value : α) : Action σ ε α := fun state => (.ok value, state)

protected def bind (action : Action σ ε α) (next : α → Action σ ε β) : Action σ ε β := fun state =>
  match action state with
  | (.ok value, state) => next value state
  | (.error error, state) => (.error error, state)

instance : Monad (Action σ ε) where
  pure := Action.pure
  bind := Action.bind

def fail (error : ε) : Action σ ε α := fun state => (.error error, state)

/-- Run an action and return its outcome; nothing is undone when it failed. -/
def attempt (action : Action σ ε α) : Action σ ε' (Except ε α) := fun state =>
  let (result, state) := action state
  (.ok result, state)

def mapError (f : ε → ε') (action : Action σ ε α) : Action σ ε' α := fun state =>
  match action state with
  | (.ok value, state) => (.ok value, state)
  | (.error error, state) => (.error (f error), state)

/-- Return or fail with a result computed elsewhere. -/
def ofExcept (result : Except ε α) : Action σ ε α := fun state => (result, state)

/-- Apply a state change that also answers. -/
def transition (step : σ → Except ε α × σ) : Action σ ε α := step

/-- The outcome of an action from a state meets a postcondition. -/
def Ensures (action : Action σ ε α) (start : σ) (post : Except ε α → σ → Prop) : Prop :=
  post (action.run start).1 (action.run start).2

/-- A known run meets what its outcome meets. -/
theorem ensures_of_eq {action : Action σ ε α} {start after : σ} {result : Except ε α}
    {post : Except ε α → σ → Prop} (hrun : action start = (result, after))
    (hpost : post result after) : Ensures action start post := by
  rwa [Ensures, run, hrun]

/-- Actions with the same run meet the same. -/
theorem ensures_congr {action other : Action σ ε α} {start : σ} {post : Except ε α → σ → Prop}
    (hrun : action start = other start) (hother : Ensures other start post) :
    Ensures action start post := by
  rwa [Ensures, run, hrun]

theorem ensures_pure {value : α} {start : σ} {post : Except ε α → σ → Prop} :
    Ensures (pure value) start post ↔ post (.ok value) start := Iff.rfl

theorem ensures_fail {error : ε} {start : σ} {post : Except ε α → σ → Prop} :
    Ensures (fail error) start post ↔ post (.error error) start := Iff.rfl

theorem ensures_ofExcept {result : Except ε α} {start : σ} {post : Except ε α → σ → Prop} :
    Ensures (ofExcept result) start post ↔ post result start := Iff.rfl

/-- An attempt ends with the outcome of its action as a value. -/
theorem ensures_attempt {action : Action σ ε α} {start : σ}
    {post : Except ε' (Except ε α) → σ → Prop} :
    Ensures (attempt action) start post ↔
      Ensures action start fun result state => post (.ok result) state := Iff.rfl

/-- A postcondition is read through the changed error. -/
theorem ensures_mapError {f : ε → ε'} {action : Action σ ε α} {start : σ}
    {post : Except ε' α → σ → Prop} :
    Ensures (mapError f action) start post ↔
      Ensures action start fun result state => post (result.mapError f) state := by
  change post (mapError f action start).1 (mapError f action start).2 ↔ _
  unfold mapError Ensures run
  rcases action start with ⟨_ | _, _⟩ <;> rfl

/-- A sequence meets a postcondition if its first part ends where the second part meets it, or
fails with it. -/
theorem ensures_bind {action : Action σ ε α} {next : α → Action σ ε β} {start : σ}
    {post : Except ε β → σ → Prop} :
    Ensures (action >>= next) start post ↔
      Ensures action start fun result state => match result with
        | .ok value => Ensures (next value) state post
        | .error error => post (.error error) state := by
  change post (Action.bind action next start).1 (Action.bind action next start).2 ↔ _
  unfold Action.bind Ensures run
  rcases action start with ⟨_ | _, _⟩ <;> rfl

namespace Ensures

variable {action : Action σ ε α} {start : σ}

/-- A postcondition may be weakened. -/
theorem mono {post weaker : Except ε α → σ → Prop} (hensures : Ensures action start post)
    (hweaker : ∀ result state, post result state → weaker result state) :
    Ensures action start weaker :=
  hweaker _ _ hensures

/-- What a run meets holds of its outcome. -/
theorem of_run {post : Except ε α → σ → Prop} {result : Except ε α} {after : σ}
    (hensures : Ensures action start post) (hrun : action.run start = (result, after)) :
    post result after := by
  unfold Ensures at hensures
  rwa [hrun] at hensures

/-- Two postconditions hold together. -/
theorem and {post other : Except ε α → σ → Prop} (hpost : Ensures action start post)
    (hother : Ensures action start other) :
    Ensures action start fun result state => post result state ∧ other result state :=
  ⟨hpost, hother⟩

/-- A sequence, from what its first action ensures. -/
theorem bind {middle : Except ε α → σ → Prop} {next : α → Action σ ε β}
    {post : Except ε β → σ → Prop} (haction : Ensures action start middle)
    (hnext : ∀ value state, middle (.ok value) state → Ensures (next value) state post)
    (hfailed : ∀ error state, middle (.error error) state → post (.error error) state) :
    Ensures (action >>= next) start post := by
  refine ensures_bind.mpr (haction.mono fun result state hmiddle => ?_)
  cases result with
  | ok value => exact hnext value state hmiddle
  | error error => exact hfailed error state hmiddle

theorem ofExcept {result : Except ε α} {next : α → Action σ ε β} {post : Except ε β → σ → Prop}
    (hnext : ∀ value, result = .ok value → Ensures (next value) start post)
    (hfailed : ∀ error, result = .error error → post (.error error) start) :
    Ensures (Action.ofExcept result >>= next) start post := by
  refine ensures_bind.mpr (ensures_ofExcept.mpr ?_)
  cases result with
  | ok value => exact hnext value rfl
  | error error => exact hfailed error rfl

theorem attempt {middle : Except ε α → σ → Prop} {next : Except ε α → Action σ ε' β}
    {post : Except ε' β → σ → Prop} (haction : Ensures action start middle)
    (hnext : ∀ result state, middle result state → Ensures (next result) state post) :
    Ensures (Action.attempt action >>= next) start post :=
  ensures_bind.mpr (ensures_attempt.mpr (haction.mono hnext))

theorem mapError {middle : Except ε α → σ → Prop} {f : ε → ε'} {next : α → Action σ ε' β}
    {post : Except ε' β → σ → Prop} (haction : Ensures action start middle)
    (hnext : ∀ value state, middle (.ok value) state → Ensures (next value) state post)
    (hfailed : ∀ error state, middle (.error error) state → post (.error (f error)) state) :
    Ensures (Action.mapError f action >>= next) start post := by
  refine ensures_bind.mpr (ensures_mapError.mpr (haction.mono fun result state hmiddle => ?_))
  cases result with
  | ok value => exact hnext value state hmiddle
  | error error => exact hfailed error state hmiddle

end Ensures

/-- An action keeps a property of the state, whether it succeeds or fails. -/
def Keeps (property : σ → Prop) (action : Action σ ε α) : Prop :=
  ∀ start, property start → Ensures action start fun _ state => property state

section Keeps

variable {property : σ → Prop}

theorem keeps_pure (value : α) : Keeps property (pure value : Action σ ε α) :=
  fun _ hstart => hstart

theorem keeps_fail (error : ε) : Keeps property (fail error : Action σ ε α) :=
  fun _ hstart => hstart

theorem keeps_ofExcept (result : Except ε α) : Keeps property (ofExcept result) :=
  fun _ hstart => hstart

/-- A sequence keeps what both of its parts keep. -/
theorem Keeps.bind {action : Action σ ε α} {next : α → Action σ ε β}
    (haction : Keeps property action) (hnext : ∀ value, Keeps property (next value)) :
    Keeps property (action >>= next) := fun start hstart =>
  Ensures.bind (haction start hstart) (fun value state hstate => hnext value state hstate)
    fun _ _ hstate => hstate

/-- An attempt keeps what its action keeps. -/
theorem Keeps.attempt {action : Action σ ε α} (haction : Keeps property action) :
    Keeps property (attempt action : Action σ ε' (Except ε α)) := haction

/-- Changing the error changes nothing that is kept. -/
theorem Keeps.mapError {action : Action σ ε α} (haction : Keeps property action) (f : ε → ε') :
    Keeps property (mapError f action) := fun start hstart =>
  ensures_mapError.mpr (haction start hstart)

end Keeps

/-- The value of an action, where it returns one, meets a postcondition. -/
def Returns (action : Action σ ε α) (start : σ) (post : α → σ → Prop) : Prop :=
  Ensures action start fun result state => ∀ value, result = .ok value → post value state

section Returns

theorem returns_pure {value : α} {start : σ} {post : α → σ → Prop} (hpost : post value start) :
    Returns (pure value : Action σ ε α) start post := by
  rintro value ⟨⟩
  exact hpost

/-- An action that fails returns nothing. -/
theorem returns_fail (error : ε) (start : σ) (post : α → σ → Prop) :
    Returns (fail error) start post := by
  rintro value ⟨⟩

theorem returns_ofExcept {result : Except ε α} {start : σ} {post : α → σ → Prop}
    (hpost : ∀ value, result = .ok value → post value start) :
    Returns (ofExcept result) start post := hpost

/-- What the second part returns from every return of the first one. -/
theorem Returns.bind {action : Action σ ε α} {next : α → Action σ ε β} {start : σ}
    {middle : α → σ → Prop} {post : β → σ → Prop} (haction : Returns action start middle)
    (hnext : ∀ value state, middle value state → Returns (next value) state post) :
    Returns (action >>= next) start post := by
  refine Ensures.bind haction (fun value state hmiddle => ?_) fun error state _ value herror => ?_
  · exact hnext value state (hmiddle value rfl)
  · cases herror

theorem Returns.ofExcept {result : Except ε α} {next : α → Action σ ε β} {start : σ}
    {post : β → σ → Prop} (hnext : ∀ value, result = .ok value → Returns (next value) start post) :
    Returns (Action.ofExcept result >>= next) start post := by
  refine Ensures.ofExcept hnext fun error _ value herror => ?_
  cases herror

/-- What is known of a return may be weakened. -/
theorem Returns.mono {action : Action σ ε α} {start : σ} {post weaker : α → σ → Prop}
    (hreturns : Returns action start post)
    (hweaker : ∀ value state, post value state → weaker value state) :
    Returns action start weaker :=
  Ensures.mono hreturns fun _ state hpost value hvalue => hweaker value state (hpost value hvalue)

/-- What is kept holds at every return. -/
theorem Keeps.returns {property : σ → Prop} {action : Action σ ε α}
    (hkeeps : Keeps property action) {start : σ} (hstart : property start) :
    Returns action start fun _ state => property state := fun _ _ => hkeeps start hstart

end Returns

/-- The cleanup runs however the body ends, and its error takes the place of the outcome. -/
def tryFinally (body : Action σ ε α) (cleanup : Action σ ε Unit) : Action σ ε α := do
  let outcome ← attempt body
  cleanup
  ofExcept outcome

/-- The cleanup runs after either outcome of the body, and its own failure is reported after that.
-/
theorem ensures_tryFinally {body : Action σ ε α} {cleanup : Action σ ε Unit} {start : σ}
    {middle post : Except ε α → σ → Prop} (hbody : Ensures body start middle)
    (hcleanup : ∀ outcome state, middle outcome state →
      Ensures cleanup state fun result after => match result with
        | .ok () => post outcome after
        | .error error => post (.error error) after) :
    Ensures (tryFinally body cleanup) start post := by
  refine Ensures.attempt hbody fun outcome state hmiddle => ?_
  exact Ensures.bind (hcleanup outcome state hmiddle) (fun _ _ hpost => hpost)
    fun _ _ hpost => hpost

/-- A body and its cleanup keep what both keep. -/
theorem Keeps.tryFinally {property : σ → Prop} {body : Action σ ε α} {cleanup : Action σ ε Unit}
    (hbody : Keeps property body) (hcleanup : Keeps property cleanup) :
    Keeps property (tryFinally body cleanup) := fun start hstart =>
  ensures_tryFinally (hbody start hstart) fun _ state hstate =>
    (hcleanup state hstate).mono fun result _ hafter => by cases result <;> exact hafter

/-- Run an action for each item, up to the first failure. -/
def forEach (body : α → Action σ ε Unit) : List α → Action σ ε Unit
  | [] => pure ()
  | item :: rest => do
      body item
      forEach body rest

/-- The invariant speaks about the items that are still to come. -/
theorem ensures_forEach (invariant : List α → σ → Prop) {body : α → Action σ ε Unit}
    {post : Except ε Unit → σ → Prop} {items : List α} {start : σ}
    (hbody : ∀ item rest state, invariant (item :: rest) state →
      Ensures (body item) state fun result after => match result with
        | .ok () => invariant rest after
        | .error error => post (.error error) after)
    (hdone : ∀ state, invariant [] state → post (.ok ()) state)
    (hstart : invariant items start) : Ensures (forEach body items) start post := by
  induction items generalizing start with
  | nil => exact hdone start hstart
  | cons item rest ih =>
      exact Ensures.bind (hbody item rest start hstart) (fun _ _ hrest => ih hrest)
        fun _ _ hfailed => hfailed

/-- A loop keeps what its body keeps. -/
theorem keeps_forEach {property : σ → Prop} {body : α → Action σ ε Unit} {items : List α}
    (hbody : ∀ item ∈ items, Keeps property (body item)) : Keeps property (forEach body items) := by
  induction items with
  | nil => exact keeps_pure ()
  | cons item rest ih =>
      exact (hbody item List.mem_cons_self).bind fun _ =>
        ih fun later hlater => hbody later (List.mem_cons_of_mem item hlater)

end Action

end CfIntegration
