import Mathlib.Algebra.Ring.Nat
import Mathlib.Logic.Function.Basic
import CfIntegration.Foundation.Interleaving
import CfIntegration.Foundation.Text

/-! # Generated secrets

The admin password and the local secrets are generated by the first call that needs
them and read back by the others. A call makes several file-system steps, and the
steps of any number of calls interleave; each call may fail or crash between two of
its steps.
-/

namespace CfIntegration.Infrastructure

open Interleaving Text

/-! ## Secrets and their files -/

def isHexDigit (char : Char) : Bool := ('0' ≤ char && char ≤ '9') || ('a' ≤ char && char ≤ 'f')

/-- Two random UUIDs in their simple form. -/
structure RandomSecret where
  text : List Char
  length_text : text.length = 64
  hexadecimal : ∀ char ∈ text, isHexDigit char = true

structure LocalSecrets where
  jwtSecretKey : List Char
  authEncryptionSecret : List Char
  deriving DecidableEq, Repr

/-- A file with a generated value: what is generated from random secrets, how it is
written, and what a reader makes of the content. -/
structure SecretFile (Seed Value : Type) where
  /-- The directory is created before the first read, not just before the creation. -/
  directoryFirst : Bool
  generate : Seed → Value
  render : Value → List Char
  parse : List Char → Option Value

def adminPassword : SecretFile RandomSecret (List Char) where
  directoryFirst := true
  generate secret := secret.text ++ "Aa1!".toList
  render password := password
  parse content := some content

/-- The number of bytes of a text. -/
def byteLength (text : List Char) : Nat := (text.map Char.utf8Size).sum

def parseLine (secrets : Option (List Char) × Option (List Char)) (line : List Char) :
    Option (List Char) × Option (List Char) :=
  match stripPrefix "JWT_SECRET_KEY=".toList line with
  | some value => (some value, secrets.2)
  | none =>
      match stripPrefix "AUTH_ENCRYPTION_SECRET=".toList line with
      | some value => (secrets.1, some value)
      | none => secrets

/-- Both secrets must be there with at least 32 bytes. -/
def parseLocalSecrets (content : List Char) : Option LocalSecrets :=
  match (lines content).foldl parseLine (none, none) with
  | (some jwtSecretKey, some authEncryptionSecret) =>
      if 32 ≤ byteLength jwtSecretKey ∧ 32 ≤ byteLength authEncryptionSecret then
        some ⟨jwtSecretKey, authEncryptionSecret⟩
      else none
  | _ => none

def localSecrets : SecretFile (RandomSecret × RandomSecret) LocalSecrets where
  directoryFirst := false
  generate secrets := ⟨secrets.1.text, secrets.2.text⟩
  render secrets := "JWT_SECRET_KEY=".toList ++ secrets.jwtSecretKey ++ ['\n'] ++
    "AUTH_ENCRYPTION_SECRET=".toList ++ secrets.authEncryptionSecret ++ ['\n']
  parse := parseLocalSecrets

/-! ## Calls that load or create -/

/-- The next step of a call. -/
inductive Stage (Value : Type) where
  | makingDirectory
  | opening
  /-- The file is open; a reader goes on until it meets the end of the file. -/
  | reading
  | creating
  /-- The exclusive creation succeeded, and so much is still to be written. -/
  | writing (rest : List Char)
  /-- Another call created the file. -/
  | reopening
  | returned (value : Value)
  | failed
  | crashed
  deriving DecidableEq

def Stage.running {Value : Type} : Stage Value → Bool
  | .returned _ | .failed | .crashed => false
  | _ => true

structure State (Call Value : Type) where
  content : Option (List Char)
  stage : Call → Stage Value

inductive Event (Call : Type) where
  | makeDirectory (call : Call)
  | openFile (call : Call)
  | read (call : Call)
  | create (call : Call)
  /-- A write of so many characters, as the operating system accepts them. -/
  | write (call : Call) (count : Nat)
  | fail (call : Call)
  | crash (call : Call)

def Event.actor {Call : Type} : Event Call → Call
  | .makeDirectory call | .openFile call | .read call | .create call | .write call _
  | .fail call | .crash call => call

section Calls

variable {Seed Value Call : Type} [DecidableEq Call]

def State.moved (state : State Call Value) (call : Call) (stage : Stage Value) :
    State Call Value :=
  { state with stage := Function.update state.stage call stage }

variable (file : SecretFile Seed Value) (seeds : Call → Seed)

/-- The outcome of a read. -/
def readStage (content : List Char) : Stage Value :=
  match file.parse content with
  | some value => .returned value
  | none => .failed

/-- One file-system step of one call, the errors of the source aside: a call may fail or
crash at any time instead. -/
def step (state : State Call Value) : Event Call → Option (State Call Value)
  | .makeDirectory call =>
      match state.stage call with
      | .makingDirectory =>
          some (state.moved call (if file.directoryFirst then .opening else .creating))
      | _ => none
  | .openFile call =>
      match state.stage call, state.content with
      | .opening, none =>
          some (state.moved call (if file.directoryFirst then .creating else .makingDirectory))
      | .reopening, none => some (state.moved call .failed)
      | .opening, some _ | .reopening, some _ => some (state.moved call .reading)
      | _, _ => none
  | .read call =>
      match state.stage call, state.content with
      | .reading, some content => some (state.moved call (readStage file content))
      | _, _ => none
  | .create call =>
      match state.stage call, state.content with
      | .creating, none =>
          some { state.moved call (.writing (file.render (file.generate (seeds call)))) with
            content := some [] }
      | .creating, some _ => some (state.moved call .reopening)
      | _, _ => none
  | .write call count =>
      match state.stage call, state.content with
      | .writing rest, some content =>
          if 0 < count ∧ count ≤ rest.length then
            some { state.moved call
                (if count = rest.length then .returned (file.generate (seeds call))
                else .writing (rest.drop count)) with
              content := some (content ++ rest.take count) }
          else none
      | _, _ => none
  | .fail call => if (state.stage call).running then some (state.moved call .failed) else none
  | .crash call => if (state.stage call).running then some (state.moved call .crashed) else none

/-- No call has begun, and the file is missing or holds a generated value. -/
structure Initial (state : State Call Value) : Prop where
  stage : ∀ call, state.stage call = if file.directoryFirst then .makingDirectory else .opening
  content : state.content = none ∨
    ∃ seed, state.content = some (file.render (file.generate seed))

/-- All calls that returned did so with the same generated value. -/
def Whole (state : State Call Value) : Prop :=
  ∀ call value, state.stage call = .returned value →
    (∃ seed, value = file.generate seed) ∧
      ∀ other otherValue, state.stage other = .returned otherValue → otherValue = value

/-! ## What every run keeps -/

/-- The content goes back to one seed, as does what is still being written, by one call at
most; trusted calls return the value of that seed. -/
structure Origin (trusted : Prop) (state : State Call Value) (content : List Char) (seed : Seed) :
    Prop where
  written : content <+: file.render (file.generate seed)
  writing : ∀ call rest, state.stage call = .writing rest →
    content ++ rest = file.render (file.generate seed) ∧
      file.generate (seeds call) = file.generate seed
  writer : ∀ call other rest otherRest, state.stage call = .writing rest →
    state.stage other = .writing otherRest → call = other
  returned : trusted → ∀ call value, state.stage call = .returned value →
    value = file.generate seed

/-- Without a file nothing was written or returned. -/
structure Traced (trusted : Prop) (state : State Call Value) : Prop where
  absent : state.content = none → ∀ call,
    (∀ rest, state.stage call ≠ .writing rest) ∧ ∀ value, state.stage call ≠ .returned value
  present : ∀ content, state.content = some content →
    ∃ seed, Origin file seeds trusted state content seed

variable {file seeds} {trusted : Prop} {state next : State Call Value} {call : Call}

theorem moved_self (stage : Stage Value) : (state.moved call stage).stage call = stage :=
  Function.update_self _ _ _

theorem moved_of_ne {other : Call} (hother : other ≠ call) (stage : Stage Value) :
    (state.moved call stage).stage other = state.stage other :=
  Function.update_of_ne hother _ _

omit [DecidableEq Call] in
/-- At the start the file holds nothing or what was there before. -/
theorem traced_initial (hinitial : Initial file state) : Traced file seeds trusted state := by
  have hstage : ∀ call, (∀ rest, state.stage call ≠ .writing rest) ∧
      ∀ value, state.stage call ≠ .returned value := fun call => by
    rw [hinitial.stage call]
    split <;> exact ⟨nofun, nofun⟩
  refine ⟨fun _ => hstage, fun content hcontent => ?_⟩
  rcases hinitial.content with hnone | ⟨seed, hseed⟩
  · rw [hnone] at hcontent
    cases hcontent
  · obtain rfl : file.render (file.generate seed) = content := by simpa [hseed] using hcontent
    exact ⟨seed, List.prefix_rfl, fun call rest hwriting => absurd hwriting ((hstage call).1 rest),
      fun call _ rest _ hwriting => absurd hwriting ((hstage call).1 rest),
      fun _ call value hreturned => absurd hreturned ((hstage call).2 value)⟩

/-- A call that moves on without writing or returning. -/
theorem Traced.moved (htraced : Traced file seeds trusted state) {stage : Stage Value}
    (hwriting : ∀ rest, stage ≠ .writing rest) (hreturned : ∀ value, stage ≠ .returned value) :
    Traced file seeds trusted (state.moved call stage) := by
  have hkept : ∀ other rest, (state.moved call stage).stage other = .writing rest →
      state.stage other = .writing rest := fun other rest hother => by
    by_cases hsame : other = call
    · subst hsame
      rw [moved_self] at hother
      exact absurd hother (hwriting rest)
    · rwa [moved_of_ne hsame] at hother
  have hreturns : ∀ other value, (state.moved call stage).stage other = .returned value →
      state.stage other = .returned value := fun other value hother => by
    by_cases hsame : other = call
    · subst hsame
      rw [moved_self] at hother
      exact absurd hother (hreturned value)
    · rwa [moved_of_ne hsame] at hother
  refine ⟨fun habsent other => ⟨fun rest hother => ?_, fun value hother => ?_⟩,
    fun content hcontent => ?_⟩
  · exact (htraced.absent habsent other).1 rest (hkept other rest hother)
  · exact (htraced.absent habsent other).2 value (hreturns other value hother)
  · obtain ⟨seed, horigin⟩ := htraced.present content hcontent
    exact ⟨seed, horigin.written,
      fun other rest hother => horigin.writing other rest (hkept other rest hother),
      fun first second rest otherRest hfirst hsecond => horigin.writer first second rest otherRest
        (hkept first rest hfirst) (hkept second otherRest hsecond),
      fun htrusted other value hother =>
        horigin.returned htrusted other value (hreturns other value hother)⟩

/-- The lengths of a file at which a reader takes a torn value for a whole one. -/
structure TornLengths (file : SecretFile Seed Value) (torn : Nat → Prop) : Prop where
  whole : ∀ seed content value, content <+: file.render (file.generate seed) →
    ¬ torn content.length → file.parse content = some value → value = file.generate seed
  torn : ∀ seed content, content <+: file.render (file.generate seed) → torn content.length →
    ∃ value, file.parse content = some value ∧ ∀ other, value ≠ file.generate other

/-- A read meets no torn value. -/
def ReadsWhole (torn : Nat → Prop) (state : State Call Value) : Event Call → Prop
  | .read _ => ∀ content, state.content = some content → ¬ torn content.length
  | _ => True

variable {torn : Nat → Prop}

/-- A read returns the value that the file goes back to. -/
theorem Traced.read (htorn : TornLengths file torn) (htraced : Traced file seeds trusted state)
    {content : List Char} (hcontent : state.content = some content)
    (hwhole : trusted → ¬ torn content.length) :
    Traced file seeds trusted (state.moved call (readStage file content)) := by
  unfold readStage
  cases hparse : file.parse content with
  | none => exact htraced.moved nofun nofun
  | some value =>
      obtain ⟨seed, horigin⟩ := htraced.present content hcontent
      have hkept : ∀ other rest,
          (state.moved call (.returned value)).stage other = .writing rest →
            state.stage other = .writing rest := fun other rest hother => by
        by_cases hsame : other = call
        · subst hsame
          rw [moved_self] at hother
          cases hother
        · rwa [moved_of_ne hsame] at hother
      refine ⟨fun habsent => ?_, fun other hother => ?_⟩
      · cases habsent.symm.trans hcontent
      obtain rfl : content = other := Option.some.inj (hcontent.symm.trans hother)
      refine ⟨seed, horigin.written,
        fun first rest hfirst => horigin.writing first rest (hkept first rest hfirst),
        fun first second rest otherRest hfirst hsecond => horigin.writer first second rest otherRest
          (hkept first rest hfirst) (hkept second otherRest hsecond), ?_⟩
      intro htrusted other otherValue hother
      by_cases hsame : other = call
      · subst hsame
        rw [moved_self] at hother
        cases hother
        exact htorn.whole seed content value horigin.written (hwhole htrusted) hparse
      · rw [moved_of_ne hsame] at hother
        exact horigin.returned htrusted other otherValue hother

/-- A created file is traced to the call that created it. -/
theorem Traced.create (htraced : Traced file seeds trusted state)
    (habsent : state.content = none) :
    Traced file seeds trusted { state.moved call
      (.writing (file.render (file.generate (seeds call)))) with content := some [] } := by
  have hothers := htraced.absent habsent
  have hwriting : ∀ other rest, (state.moved call (.writing
      (file.render (file.generate (seeds call))))).stage other = .writing rest →
        other = call ∧ rest = file.render (file.generate (seeds call)) := by
    intro other rest hother
    by_cases hsame : other = call
    · subst hsame
      rw [moved_self] at hother
      exact ⟨rfl, (Stage.writing.inj hother).symm⟩
    · rw [moved_of_ne hsame] at hother
      exact absurd hother ((hothers other).1 rest)
  refine ⟨nofun, fun content hcontent => ⟨seeds call, ?_, ?_, ?_, ?_⟩⟩
  · cases hcontent
    exact List.nil_prefix
  · intro other rest hother
    obtain ⟨rfl, rfl⟩ := hwriting other rest hother
    cases hcontent
    exact ⟨rfl, rfl⟩
  · intro first second rest otherRest hfirst hsecond
    rw [(hwriting first rest hfirst).1, (hwriting second otherRest hsecond).1]
  · intro _ other value hother
    by_cases hsame : other = call
    · subst hsame
      rw [moved_self] at hother
      cases hother
    · rw [moved_of_ne hsame] at hother
      exact absurd hother ((hothers other).2 value)

/-- A write takes the content further along the rendered secret. -/
theorem Traced.write (htraced : Traced file seeds trusted state) {rest content : List Char}
    (hstage : state.stage call = .writing rest) (hcontent : state.content = some content)
    (count : Nat) :
    Traced file seeds trusted { state.moved call
      (if count = rest.length then .returned (file.generate (seeds call))
        else .writing (rest.drop count)) with content := some (content ++ rest.take count) } := by
  obtain ⟨seed, horigin⟩ := htraced.present content hcontent
  obtain ⟨hrest, hseed⟩ := horigin.writing call rest hstage
  -- The file and what is left to write make up one rendered value, before and after.
  have hjoin : content ++ rest.take count ++ rest.drop count =
      file.render (file.generate seed) := by
    rw [List.append_assoc, List.take_append_drop, hrest]
  generalize hnext : (if count = rest.length then .returned (file.generate (seeds call))
    else .writing (rest.drop count) : Stage Value) = stage
  -- Only this call writes: a second writer would have met the existing file.
  have hwriting : ∀ other otherRest, (state.moved call stage).stage other = .writing otherRest →
      other = call ∧ otherRest = rest.drop count := fun other otherRest hother => by
    by_cases hsame : other = call
    · subst hsame
      rw [moved_self, ← hnext] at hother
      split at hother
      · cases hother
      · exact ⟨rfl, (Stage.writing.inj hother).symm⟩
    · rw [moved_of_ne hsame] at hother
      exact absurd (horigin.writer other call otherRest rest hother hstage) hsame
  refine ⟨nofun, fun other hother => ⟨seed, ?_, ?_, ?_, ?_⟩⟩
  · cases hother
    exact ⟨_, hjoin⟩
  · intro first otherRest hfirst
    obtain ⟨rfl, rfl⟩ := hwriting first otherRest hfirst
    cases hother
    exact ⟨hjoin, hseed⟩
  · intro first second _ _ hfirst hsecond
    rw [(hwriting first _ hfirst).1, (hwriting second _ hsecond).1]
  · intro htrusted first value hfirst
    by_cases hsame : first = call
    · subst hsame
      rw [moved_self, ← hnext] at hfirst
      split at hfirst
      · exact (Stage.returned.inj hfirst).symm.trans hseed
      · cases hfirst
    · rw [moved_of_ne hsame] at hfirst
      exact horigin.returned htrusted first value hfirst

/-- Every step keeps the origin of the file; of the values returned as well if reads meet no
torn value. -/
theorem step_traced (htorn : TornLengths file torn) {event : Event Call}
    (hallowed : trusted → ReadsWhole torn state event) (htraced : Traced file seeds trusted state)
    (hstep : step file seeds state event = some next) : Traced file seeds trusted next := by
  cases event with
  | makeDirectory call =>
      simp only [step] at hstep
      split at hstep
      · cases hstep
        refine htraced.moved ?_ ?_ <;> split <;> nofun
      · cases hstep
  | openFile call =>
      simp only [step] at hstep
      split at hstep
      · cases hstep
        refine htraced.moved ?_ ?_ <;> split <;> nofun
      · cases hstep
        exact htraced.moved nofun nofun
      · cases hstep
        exact htraced.moved nofun nofun
      · cases hstep
        exact htraced.moved nofun nofun
      · cases hstep
  | read call =>
      simp only [step] at hstep
      split at hstep
      next content _ hcontent =>
        cases hstep
        -- The content may be a beginning of the file; a trusted run reads no such beginning.
        exact htraced.read htorn hcontent fun htrusted => hallowed htrusted content hcontent
      · cases hstep
  | create call =>
      simp only [step] at hstep
      split at hstep
      next _ hcontent =>
        cases hstep
        exact htraced.create hcontent
      · cases hstep
        exact htraced.moved nofun nofun
      · cases hstep
  | write call count =>
      simp only [step] at hstep
      split at hstep
      next rest content hstage hcontent =>
        split at hstep
        · cases hstep
          exact htraced.write hstage hcontent count
        · cases hstep
      · cases hstep
  | fail call =>
      simp only [step] at hstep
      split at hstep
      · cases hstep
        exact htraced.moved nofun nofun
      · cases hstep
  | crash call =>
      simp only [step] at hstep
      split at hstep
      · cases hstep
        exact htraced.moved nofun nofun
      · cases hstep

/-! ## What calls return -/

/-- A step moves one call that was still running. -/
theorem step_moves {event : Event Call} (hstep : step file seeds state event = some next) :
    (state.stage event.actor).running = true ∧
      ∃ stage, next.stage = Function.update state.stage event.actor stage := by
  cases event <;> simp only [step] at hstep
  case fail call | crash call =>
    split at hstep
    next hrunning =>
      cases hstep
      exact ⟨hrunning, _, rfl⟩
    next => cases hstep
  case write call count =>
    split at hstep
    next hstage _ =>
      split at hstep
      · cases hstep
        exact ⟨by rw [Event.actor, hstage]; rfl, _, rfl⟩
      · cases hstep
    next => cases hstep
  case makeDirectory call =>
    split at hstep
    next hstage =>
      cases hstep
      exact ⟨by rw [Event.actor, hstage]; rfl, _, rfl⟩
    next => cases hstep
  case read call =>
    split at hstep
    next hstage _ =>
      cases hstep
      exact ⟨by rw [Event.actor, hstage]; rfl, _, rfl⟩
    next => cases hstep
  case create call =>
    split at hstep
    next hstage _ =>
      cases hstep
      exact ⟨by rw [Event.actor, hstage]; rfl, _, rfl⟩
    next hstage _ =>
      cases hstep
      exact ⟨by rw [Event.actor, hstage]; rfl, _, rfl⟩
    next => cases hstep
  case openFile call =>
    split at hstep
    case h_5 => cases hstep
    all_goals
      next hstage _ =>
        cases hstep
        exact ⟨by rw [Event.actor, hstage]; rfl, _, rfl⟩

/-- A call that returned stays returned. -/
theorem step_returned {event : Event Call} {value : Value}
    (hreturned : state.stage call = .returned value)
    (hstep : step file seeds state event = some next) : next.stage call = .returned value := by
  obtain ⟨hrunning, stage, hstage⟩ := step_moves hstep
  have hother : call ≠ event.actor := by
    rintro rfl
    rw [hreturned] at hrunning
    cases hrunning
  rw [hstage, Function.update_of_ne hother, hreturned]

/-- All calls of a run return the same generated value exactly when no read met a torn one. -/
theorem whole_iff (htorn : TornLengths file torn) {start final : State Call Value}
    {events : List (Event Call)} (hinitial : Initial file start)
    (hrun : run (step file seeds) start events = some final) :
    Whole file final ↔ Along (step file seeds) (ReadsWhole torn) start events := by
  constructor
  · intro hwhole
    by_contra halong
    -- The first step that breaks the condition is a read of a torn file.
    obtain ⟨state, event, next, rest, htraced, hbreach, hstep, hrest⟩ :=
      exists_breach (fun _ _ _ htraced hstep => step_traced htorn False.elim htraced hstep) halong
        (traced_initial hinitial) hrun
    cases event with
    | read call =>
        simp only [ReadsWhole, not_forall, not_not] at hbreach
        obtain ⟨content, hcontent, hlength⟩ := hbreach
        obtain ⟨seed, horigin⟩ := htraced.present content hcontent
        obtain ⟨value, hparse, hforeign⟩ := htorn.torn seed content horigin.written hlength
        have hnext : next.stage call = .returned value := by
          simp only [step] at hstep
          split at hstep
          next other _ hother =>
            obtain rfl := Option.some.inj (hcontent.symm.trans hother)
            cases hstep
            rw [moved_self, readStage, hparse]
          next => cases hstep
        -- What a call has returned stays, and no generated value equals a torn one.
        have hfinal : final.stage call = .returned value :=
          run_invariant (fun _ _ _ hreturned hstep => step_returned hreturned hstep) hnext hrest
        obtain ⟨other, hother⟩ := (hwhole call value hfinal).1
        exact hforeign other hother
    | makeDirectory | openFile | create | write | fail | crash => exact hbreach trivial
  · intro halong
    have htraced : Traced file seeds True final :=
      run_invariant_along (fun _ _ _ hallowed htraced hstep =>
        step_traced htorn (fun _ => hallowed) htraced hstep) halong (traced_initial hinitial) hrun
    intro call value hreturned
    cases hcontent : final.content with
    | none => exact absurd hreturned ((htraced.absent hcontent call).2 value)
    | some content =>
        obtain ⟨seed, horigin⟩ := htraced.present content hcontent
        have hvalue := horigin.returned trivial call value hreturned
        exact ⟨⟨seed, hvalue⟩, fun other otherValue hother =>
          (horigin.returned trivial other otherValue hother).trans hvalue.symm⟩

end Calls

/-! ## The admin password -/

/-- A password is torn below its full length. -/
theorem adminPassword_torn : TornLengths adminPassword (· < 68) where
  whole secret content value hcontent hlength hparse := by
    cases hparse
    refine hcontent.eq_of_length_le ?_
    simp only [adminPassword, List.length_append, secret.length_text]
    exact not_lt.mp hlength
  torn secret content _ hlength := by
    refine ⟨content, rfl, fun other hother => ?_⟩
    rw [hother] at hlength
    simp [adminPassword, other.length_text] at hlength

/-! ## The local secrets -/

section LocalSecrets

theorem byteLength_of_hexadecimal {text : List Char}
    (htext : ∀ char ∈ text, isHexDigit char = true) : byteLength text = text.length := by
  induction text with
  | nil => rfl
  | cons char rest ih =>
      rw [List.forall_mem_cons] at htext
      have hsize : char.utf8Size = 1 := by
        simp only [isHexDigit, Bool.or_eq_true, Bool.and_eq_true, decide_eq_true_eq] at htext
        have hascii : char ≤ '\x7f' := by
          rcases htext.1 with hdigit | hletter
          · exact Char.le_trans hdigit.2 (by decide)
          · exact Char.le_trans hletter.2 (by decide)
        exact if_pos hascii
      rw [byteLength, List.map_cons, List.sum_cons, hsize, List.length_cons]
      rw [byteLength] at ih
      rw [ih htext.2, Nat.add_comm]

theorem notMem_of_hexadecimal {text : List Char} (htext : ∀ char ∈ text, isHexDigit char = true)
    {char : Char} (hchar : isHexDigit char = false) : char ∉ text := fun hmem => by
  rw [htext char hmem] at hchar
  cases hchar

variable (jwt encryption : RandomSecret)

def jwtLine : List Char := "JWT_SECRET_KEY=".toList ++ jwt.text

def encryptionLine : List Char := "AUTH_ENCRYPTION_SECRET=".toList ++ encryption.text

theorem append_two_lines (name value otherName otherValue : List Char) :
    name ++ value ++ ['\n'] ++ otherName ++ otherValue ++ ['\n'] =
      name ++ value ++ '\n' :: (otherName ++ otherValue ++ ['\n']) := by
  simp only [List.append_assoc, List.cons_append, List.nil_append]

theorem length_jwtLine : (jwtLine jwt).length = 79 := by
  have hname : "JWT_SECRET_KEY=".toList.length = 15 := by decide
  exact List.length_append.trans (congrArg₂ (· + ·) hname jwt.length_text)

theorem length_encryptionLine : (encryptionLine encryption).length = 87 := by
  have hname : "AUTH_ENCRYPTION_SECRET=".toList.length = 23 := by decide
  exact List.length_append.trans (congrArg₂ (· + ·) hname encryption.length_text)

theorem head?_jwt (rest : List Char) : ("JWT_SECRET_KEY=".toList ++ rest).head? = some 'J' := by
  have hname : "JWT_SECRET_KEY=".toList.head? = some 'J' := by decide
  rw [List.head?_append, hname, Option.some_or]

theorem head?_encryption (rest : List Char) :
    ("AUTH_ENCRYPTION_SECRET=".toList ++ rest).head? = some 'A' := by
  have hname : "AUTH_ENCRYPTION_SECRET=".toList.head? = some 'A' := by decide
  rw [List.head?_append, hname, Option.some_or]

theorem notMem_jwtLine {char : Char} (hchar : isHexDigit char = false)
    (hname : char ∉ "JWT_SECRET_KEY=".toList) : char ∉ jwtLine jwt := fun hmem =>
  (List.mem_append.mp hmem).elim hname (notMem_of_hexadecimal jwt.hexadecimal hchar)

theorem notMem_encryptionLine {char : Char} (hchar : isHexDigit char = false)
    (hname : char ∉ "AUTH_ENCRYPTION_SECRET=".toList) : char ∉ encryptionLine encryption :=
  fun hmem =>
    (List.mem_append.mp hmem).elim hname (notMem_of_hexadecimal encryption.hexadecimal hchar)

theorem parseLine_jwt (secrets : Option (List Char) × Option (List Char)) :
    parseLine secrets (jwtLine jwt) = (some jwt.text, secrets.2) := by
  have hvalue : stripPrefix "JWT_SECRET_KEY=".toList (jwtLine jwt) = some jwt.text :=
    stripPrefix_eq_some.mpr rfl
  rw [parseLine, hvalue]

/-- A line that starts otherwise is not taken for this one. -/
theorem stripPrefix_of_head {start line whole : List Char} (hline : line <+: whole)
    (hhead : ∀ rest, (start ++ rest).head? ≠ whole.head?) : stripPrefix start line = none := by
  refine Option.eq_none_iff_forall_ne_some.mpr fun rest hrest => ?_
  obtain ⟨tail, rfl⟩ := hline
  rw [stripPrefix_eq_some.mp hrest] at hhead
  exact hhead (rest ++ tail) (by rw [List.append_assoc])

theorem stripPrefix_encryption_of_begins {line : List Char} (hline : line <+: jwtLine jwt) :
    stripPrefix "AUTH_ENCRYPTION_SECRET=".toList line = none := by
  refine stripPrefix_of_head hline fun rest hhead => ?_
  have hchars : some 'A' = some 'J' :=
    (head?_encryption rest).symm.trans (hhead.trans (head?_jwt jwt.text))
  cases hchars

theorem stripPrefix_jwt_of_begins {line value : List Char}
    (hline : line <+: "AUTH_ENCRYPTION_SECRET=".toList ++ value) :
    stripPrefix "JWT_SECRET_KEY=".toList line = none := by
  refine stripPrefix_of_head hline fun rest hhead => ?_
  have hchars : some 'J' = some 'A' :=
    (head?_jwt rest).symm.trans (hhead.trans (head?_encryption value))
  cases hchars

theorem parseLine_encryption (secrets : Option (List Char) × Option (List Char))
    (value : List Char) :
    parseLine secrets ("AUTH_ENCRYPTION_SECRET=".toList ++ value) = (secrets.1, some value) := by
  have hvalue : stripPrefix "AUTH_ENCRYPTION_SECRET=".toList
      ("AUTH_ENCRYPTION_SECRET=".toList ++ value) = some value := stripPrefix_eq_some.mpr rfl
  rw [parseLine, stripPrefix_jwt_of_begins List.prefix_rfl, hvalue]

theorem parseLocalSecrets_of_none {content : List Char}
    (hnone : ((lines content).foldl parseLine (none, none)).2 = none) :
    parseLocalSecrets content = none := by
  unfold parseLocalSecrets
  split
  next hsecrets =>
    rw [hsecrets] at hnone
    cases hnone
  next => rfl

theorem parseLocalSecrets_of_some {content value : List Char}
    (hsome : (lines content).foldl parseLine (none, none) = (some jwt.text, some value))
    (hvalue : ∀ char ∈ value, isHexDigit char = true) :
    parseLocalSecrets content =
      if value.length < 32 then none else some ⟨jwt.text, value⟩ := by
  have hlength : byteLength jwt.text = 64 :=
    (byteLength_of_hexadecimal jwt.hexadecimal).trans jwt.length_text
  unfold parseLocalSecrets
  rw [hsome]
  simp only [hlength, byteLength_of_hexadecimal hvalue]
  split
  next hlong => rw [if_neg (by omega)]
  next hshort => rw [if_pos (by omega)]

/-- Nothing is read of a prefix of the first line alone. -/
theorem parseLocalSecrets_first {content : List Char} (hcontent : content <+: jwtLine jwt) :
    parseLocalSecrets content = none := by
  refine parseLocalSecrets_of_none ?_
  by_cases hempty : content = []
  · rw [hempty]
    rfl
  · have hfeed : '\n' ∉ content := fun hmem =>
      notMem_jwtLine jwt (by decide) (by decide) (hcontent.subset hmem)
    rw [lines_single hfeed hempty, List.foldl_cons, List.foldl_nil, parseLine]
    split
    · rfl
    · rw [stripPrefix_encryption_of_begins jwt hcontent]

theorem foldl_lines_jwt (content : List Char) :
    (lines (jwtLine jwt ++ '\n' :: content)).foldl parseLine (none, none) =
      (lines content).foldl parseLine (some jwt.text, none) := by
  rw [lines_append (notMem_jwtLine jwt (by decide) (by decide))
    (notMem_jwtLine jwt (by decide) (by decide)), List.foldl_cons, parseLine_jwt]

/-- A prefix of the second line gives as much of the second secret as it holds. -/
theorem parseLocalSecrets_second {content : List Char}
    (hcontent : content <+: encryptionLine encryption) :
    parseLocalSecrets (jwtLine jwt ++ '\n' :: content) =
      if content.length < 55 then none
      else some ⟨jwt.text, encryption.text.take (content.length - 23)⟩ := by
  have hfeed : '\n' ∉ content := fun hmem =>
    notMem_encryptionLine encryption (by decide) (by decide) (hcontent.subset hmem)
  by_cases hname : "AUTH_ENCRYPTION_SECRET=".toList <+: content
  · obtain ⟨value, rfl⟩ := hname
    have hvalue : value <+: encryption.text := (List.prefix_append_right_inj _).mp hcontent
    have hlines : (lines (jwtLine jwt ++ '\n' :: ("AUTH_ENCRYPTION_SECRET=".toList ++ value))).foldl
        parseLine (none, none) = (some jwt.text, some value) := by
      rw [foldl_lines_jwt, lines_single hfeed (by simp), List.foldl_cons, List.foldl_nil,
        parseLine_encryption]
    have hlength : ("AUTH_ENCRYPTION_SECRET=".toList ++ value).length = 23 + value.length :=
      List.length_append
    rw [parseLocalSecrets_of_some jwt hlines fun char hchar =>
      encryption.hexadecimal char (hvalue.subset hchar), hlength, Nat.add_sub_cancel_left,
      ← List.prefix_iff_eq_take.mp hvalue]
    split
    next hshort => rw [if_pos (by omega)]
    next hlong => rw [if_neg (by omega)]
  · have hshort : content.length < 23 := by
      by_contra hlong
      exact hname (List.prefix_of_prefix_length_le (List.prefix_append _ _) hcontent
        (not_lt.mp hlong))
    rw [if_pos (by omega)]
    refine parseLocalSecrets_of_none ?_
    rw [foldl_lines_jwt]
    by_cases hempty : content = []
    · rw [hempty]
      rfl
    · have hencryption : stripPrefix "AUTH_ENCRYPTION_SECRET=".toList content = none :=
        Option.eq_none_iff_forall_ne_some.mpr fun rest hrest =>
          hname ⟨rest, (stripPrefix_eq_some.mp hrest).symm⟩
      rw [lines_single hfeed hempty, List.foldl_cons, List.foldl_nil, parseLine,
        stripPrefix_jwt_of_begins hcontent, hencryption]

/-- What is read of a pair whose second line breaks off. -/
theorem parseLocalSecrets_rest {content : List Char}
    (hcontent : content <+: encryptionLine encryption ++ ['\n']) :
    parseLocalSecrets (jwtLine jwt ++ '\n' :: content) =
      if content.length < 55 then none
      else some ⟨jwt.text, encryption.text.take (content.length - 23)⟩ := by
  rcases List.prefix_concat_iff.mp hcontent with rfl | hline
  · have hlines : (lines (jwtLine jwt ++ '\n' :: (encryptionLine encryption ++ ['\n']))).foldl
        parseLine (none, none) = (some jwt.text, some encryption.text) := by
      rw [foldl_lines_jwt, lines_append (notMem_encryptionLine encryption (by decide) (by decide))
        (notMem_encryptionLine encryption (by decide) (by decide)), List.foldl_cons]
      exact parseLine_encryption (some jwt.text, none) encryption.text
    have hlength : (encryptionLine encryption ++ ['\n']).length = 88 := by
      rw [List.length_append, length_encryptionLine, List.length_singleton]
    have htext := encryption.length_text
    rw [parseLocalSecrets_of_some jwt hlines encryption.hexadecimal, hlength,
      List.take_of_length_le (by omega), if_neg (by omega), if_neg (by omega)]
  · exact parseLocalSecrets_second jwt encryption hline

/-- What a reader makes of a prefix of the file. -/
theorem parseLocalSecrets_torn {content : List Char}
    (hcontent : content <+: localSecrets.render ⟨jwt.text, encryption.text⟩) :
    parseLocalSecrets content =
      if content.length < 135 then none
      else some ⟨jwt.text, encryption.text.take (content.length - 103)⟩ := by
  have hjwt := length_jwtLine jwt
  have hencryption := length_encryptionLine encryption
  have hrender : localSecrets.render ⟨jwt.text, encryption.text⟩ =
      jwtLine jwt ++ '\n' :: (encryptionLine encryption ++ ['\n']) :=
    append_two_lines _ _ _ _
  rw [hrender] at hcontent
  rcases Nat.lt_or_ge (jwtLine jwt).length content.length with hlong | hshort
  · obtain ⟨rest, rfl⟩ := List.prefix_of_prefix_length_le (List.prefix_append _ _) hcontent hlong.le
    rw [List.prefix_append_right_inj] at hcontent
    cases rest with
    | nil =>
        rw [List.append_nil] at hlong
        exact absurd hlong (lt_irrefl _)
    | cons char rest =>
        obtain ⟨rfl, hrest⟩ := List.cons_prefix_cons.mp hcontent
        rw [parseLocalSecrets_rest jwt encryption hrest, List.length_append, List.length_cons, hjwt]
        have hshift : 79 + (rest.length + 1) - 103 = rest.length - 23 := by omega
        rw [hshift]
        exact if_congr (by omega) rfl rfl
  · have hfirst := List.prefix_of_prefix_length_le hcontent (List.prefix_append _ _) hshort
    rw [parseLocalSecrets_first jwt hfirst, if_pos (by omega)]

/-- A pair of secrets is torn where its second line has begun to count and still lacks digits. -/
theorem localSecrets_torn : TornLengths localSecrets fun length => 135 ≤ length ∧ length < 167 where
  whole secrets content value hcontent hlength hparse := by
    change parseLocalSecrets content = some value at hparse
    rw [parseLocalSecrets_torn _ _ hcontent] at hparse
    split at hparse
    · cases hparse
    next hlong =>
      have hwhole : 64 ≤ content.length - 103 := by omega
      rw [List.take_of_length_le (secrets.2.length_text ▸ hwhole)] at hparse
      exact (Option.some.inj hparse).symm
  torn secrets content hcontent hlength := by
    refine ⟨_, (parseLocalSecrets_torn _ _ hcontent).trans (if_neg (by omega)),
      fun other hother => ?_⟩
    have hencryption := congrArg (fun secrets => secrets.authEncryptionSecret.length) hother
    simp only [localSecrets, List.length_take, secrets.2.length_text, other.2.length_text]
      at hencryption
    omega

end LocalSecrets

/-! ## Every generated secret -/

/-- Calls that load or create the admin password, or the local secrets, return one whole
generated value exactly when none of them reads the file while a torn value is in it: less
than the 68 characters of a password, or an encryption secret of 32 to 63 characters. -/
theorem generatedSecrets_whole_iff {Call : Type} [DecidableEq Call] :
    (∀ (seeds : Call → RandomSecret) (start final : State Call (List Char))
        (events : List (Event Call)),
      Initial adminPassword start → run (step adminPassword seeds) start events = some final →
        (Whole adminPassword final ↔
          Along (step adminPassword seeds) (ReadsWhole (· < 68)) start events)) ∧
    ∀ (seeds : Call → RandomSecret × RandomSecret) (start final : State Call LocalSecrets)
        (events : List (Event Call)),
      Initial localSecrets start → run (step localSecrets seeds) start events = some final →
        (Whole localSecrets final ↔ Along (step localSecrets seeds)
          (ReadsWhole fun length => 135 ≤ length ∧ length < 167) start events) :=
  ⟨fun _ _ _ _ => whole_iff adminPassword_torn, fun _ _ _ _ => whole_iff localSecrets_torn⟩

def zeroSecret : RandomSecret where
  text := List.replicate 64 '0'
  length_text := List.length_replicate
  hexadecimal char hchar := by
    rw [List.eq_of_mem_replicate hchar]
    rfl

/-- Two calls, and no file yet. -/
def noPassword : State Bool (List Char) where
  content := none
  stage _ := .makingDirectory

def readAfterWrite : List (Event Bool) :=
  [.makeDirectory false, .openFile false, .create false, .write false 68,
    .makeDirectory true, .openFile true, .read true]

theorem generatedSecrets_whole_iff_read_after_write :
    ∃ final, run (step adminPassword fun _ => zeroSecret) noPassword readAfterWrite = some final ∧
      Whole adminPassword final := by
  obtain ⟨final, hrun⟩ : ∃ final,
      run (step adminPassword fun _ => zeroSecret) noPassword readAfterWrite = some final :=
    ⟨_, rfl⟩
  refine ⟨final, hrun, (generatedSecrets_whole_iff.1 _ _ _ _ ⟨fun _ => rfl, .inl rfl⟩ hrun).mpr ?_⟩
  iterate 6
    refine ⟨trivial, fun _ hnext => ?_⟩
    cases hnext
  refine ⟨fun content hcontent => ?_, fun _ _ => trivial⟩
  cases hcontent
  decide

/-- The second call reads between the creation and the write of the first one, which may
never come: it returns the empty password. -/
theorem adminPassword_read_before_write :
    ∃ final, Initial adminPassword noPassword ∧
      run (step adminPassword fun _ => zeroSecret) noPassword
        [.makeDirectory false, .openFile false, .create false,
          .makeDirectory true, .openFile true, .read true, .crash false] = some final ∧
      final.stage true = .returned [] ∧ ¬ Whole adminPassword final := by
  refine ⟨_, ⟨fun _ => rfl, .inl rfl⟩, rfl, rfl, fun hwhole => ?_⟩
  obtain ⟨⟨seed, hseed⟩, -⟩ := hwhole true [] rfl
  have hlength := congrArg List.length hseed
  simp [adminPassword, seed.length_text] at hlength

end CfIntegration.Infrastructure
