import CfIntegration.Infrastructure.Config

/-! # Releases

Before a release what an earlier attempt left of it is removed: draft releases, the
remote tag and the local tag. Afterwards the tag to build is selected. Both ask the
registry, GitHub and git one after the other, and every command may fail before or
after it took effect.
-/

namespace CfIntegration.Runtime.Release

open scoped Text
open Mcp.Protocol (isWhitespace)

/-! ## What is released -/

/-- A version of the package, made of what Cargo allows in one. -/
structure Version where
  text : List Char
  plain : ∀ char ∈ text, char.isAlphanum = true ∨ char ∈ ['.', '-', '+']

def Version.tag (version : Version) : List Char := 'v' :: version.text

structure GitHubRelease where
  id : Nat
  tagName : List Char
  draft : Bool
  deriving DecidableEq

structure CommitId where
  text : List Char
  hexadecimal : ∀ char ∈ text, char.isAlphanum = true
  deriving DecidableEq

/-- A tag and the commit that it stands for. -/
structure Tag where
  name : List Char
  commit : CommitId
  deriving DecidableEq

/-- A release that release-plz has made. -/
structure ReleasePlzRelease where
  packageName : List Char
  tag : List Char
  deriving DecidableEq

/-! ## Commands -/

inductive Command where
  | cratesStatus (version : List Char)
  | listReleases (repository : List Char)
  | deleteRelease (repository : List Char) (id : Nat)
  | matchingReferences (repository tag : List Char)
  | deleteReference (repository tag : List Char)
  | listTags (pattern : List Char)
  | deleteTag (tag : List Char)
  | lsRemote (tag : List Char)
  | fetchTag (tag : List Char)
  | revList (revision : List Char)
  deriving DecidableEq

/-- The program and its arguments. -/
def Command.args : Command → List (List Char)
  | .cratesStatus version => ["curl", "--silent", "--show-error", "--output", "/dev/null",
      "--write-out", "%\x7bhttp_code\x7d", "--user-agent",
      "contextforge-dev-tools-release"].map String.toList ++
      ["https://crates.io/api/v1/crates/cf-integration/".toList ++ version]
  | .listReleases repository => ["gh", "api", "--paginate", "--slurp"].map String.toList ++
      ["repos/".toList ++ repository ++ "/releases".toList]
  | .deleteRelease repository id => ["gh", "api", "--method", "DELETE"].map String.toList ++
      ["repos/".toList ++ repository ++ "/releases/".toList ++ (toString id).toList]
  | .matchingReferences repository tag => ["gh", "api"].map String.toList ++
      ["repos/".toList ++ repository ++ "/git/matching-refs/tags/".toList ++ tag]
  | .deleteReference repository tag => ["gh", "api", "--method", "DELETE"].map String.toList ++
      ["repos/".toList ++ repository ++ "/git/refs/tags/".toList ++ tag]
  | .listTags pattern => ["git", "tag", "--list"].map String.toList ++ [pattern]
  | .deleteTag tag => ["git", "tag", "--delete"].map String.toList ++ [tag]
  | .lsRemote tag => ["git", "ls-remote", "--tags", "origin"].map String.toList ++
      ["refs/tags/".toList ++ tag]
  | .fetchTag tag => ["git", "fetch", "--force", "origin"].map String.toList ++
      ["refs/tags/".toList ++ tag ++ ":refs/tags/".toList ++ tag]
  | .revList revision => ["git", "rev-list", "-n", "1"].map String.toList ++ [revision]

/-- The commands that remove a release or a tag. -/
def Command.deletes : Command → Bool
  | .deleteRelease .. | .deleteReference .. | .deleteTag _ => true
  | _ => false

/-- The commands that change nothing. -/
def Command.reads : Command → Bool
  | .cratesStatus _ | .listReleases _ | .matchingReferences .. | .listTags _ | .lsRemote _
  | .revList _ => true
  | _ => false

/-- What the commands see and change. -/
structure World where
  /-- The versions that crates.io has. -/
  published : List (List Char)
  /-- The releases, page by page. -/
  releases : List (List GitHubRelease)
  remoteTags : List Tag
  localTags : List Tag
  /-- The keys and values written for later steps. -/
  output : List (List Char × List Char)
  /-- The commands that were started. -/
  commands : List Command

def World.start (world : World) (command : Command) : World :=
  { world with commands := world.commands ++ [command] }

/-- A status of crates.io that tells nothing about the version. -/
abbrev OtherStatus := { status : List Char //
  Text.trim isWhitespace status ≠ "200".toList ∧ Text.trim isWhitespace status ≠ "404".toList }

inductive Fault where
  /-- The command fails and changes nothing. -/
  | refused (error : String)
  /-- The command fails after it took effect. -/
  | interrupted (error : String)
  /-- The output is not UTF-8 or not the JSON that is asked for. -/
  | garbled
  /-- The registry answers with another status. -/
  | status (other : OtherStatus)

/-- What stays the same during a run. -/
structure Environment where
  text : String → Option (List Char)
  /-- What goes wrong with a command, by the number of commands before it. -/
  fault : Nat → Option Fault
  outputError : Option String
  /-- The patterns of `git tag --list`. -/
  glob : List Char → List Char → Bool
  glob_plain : ∀ pattern, (∀ char ∈ pattern, char ∉ ['*', '?', '[', '\\']) →
    ∀ name, glob pattern name = true ↔ name = pattern
  /-- The references that `git ls-remote` shows for a pattern. -/
  advertised : List Char → List Char → Bool
  /-- The revisions that are not tags. -/
  revision : List Char → Option CommitId
  /-- `serde_json::from_str` for the output of release-plz. -/
  releasePlz : List Char → Except String (List ReleasePlzRelease)

inductive Reply where
  | done
  | text (text : List Char)
  | releases (pages : List (List GitHubRelease))
  | references (names : List (List Char))
  | unreadable

def Reply.garbled : Reply → Reply
  | .done => .done
  | _ => .unreadable

def line (text : List Char) : List Char := text ++ ['\n']

/-- What a command does when nothing goes wrong. -/
def Command.apply (env : Environment) (world : World) : Command → Except String Reply × World
  | .cratesStatus version =>
      (.ok (.text (if world.published.any (· = version) then "200" else "404").toList), world)
  | .listReleases _ => (.ok (.releases world.releases), world)
  | .deleteRelease _ id =>
      if world.releases.flatten.any (·.id = id) then
        (.ok .done, { world with releases := world.releases.map (·.filter (·.id ≠ id)) })
      else (.error "gh: Not Found (HTTP 404)", world)
  | .matchingReferences _ tag =>
      let names := (world.remoteTags.map Tag.name).filter (tag.isPrefixOf ·)
      (.ok (.references (names.map ("refs/tags/".toList ++ ·))), world)
  | .deleteReference _ tag =>
      if world.remoteTags.any (·.name = tag) then
        (.ok .done, { world with remoteTags := world.remoteTags.filter (·.name ≠ tag) })
      else (.error "gh: Reference does not exist (HTTP 422)", world)
  | .listTags pattern =>
      let names := (world.localTags.map Tag.name).filter (env.glob pattern)
      (.ok (.text (names.flatMap line)), world)
  | .deleteTag tag =>
      if world.localTags.any (·.name = tag) then
        (.ok .done, { world with localTags := world.localTags.filter (·.name ≠ tag) })
      else (.error "git: tag not found", world)
  | .lsRemote tag =>
      let shown := world.remoteTags.filter fun found => env.advertised tag found.name
      (.ok (.text (shown.flatMap fun found =>
        line (found.commit.text ++ "\trefs/tags/".toList ++ found.name))), world)
  | .fetchTag tag => match world.remoteTags.find? (·.name = tag) with
      | some found => (.ok .done,
          { world with localTags := found :: world.localTags.filter (·.name ≠ tag) })
      | none => (.error "git: couldn't find remote ref", world)
  | .revList revision =>
      match ((world.localTags.find? (·.name = revision)).map Tag.commit).or
          (env.revision revision) with
      | some commit => (.ok (.text (line commit.text)), world)
      | none => (.error "git: ambiguous argument", world)

section
variable (env : Environment)

def perform (command : Command) : Action World String Reply := fun world =>
  let started := world.start command
  match env.fault world.commands.length with
  | some (.refused error) => (.error error, started)
  | some (.interrupted error) => (.error error, (command.apply env started).2)
  | some .garbled =>
      ((command.apply env started).1.map Reply.garbled, (command.apply env started).2)
  | some (.status other) => match command with
      | .cratesStatus _ => (.ok (.text other.val), started)
      | _ => command.apply env started
  | none => command.apply env started

def captureText (command : Command) : Action World String (List Char) := do
  match ← perform env command with
  | .text text => return Text.trim isWhitespace text
  | _ => Action.fail "child process returned non-UTF-8 standard output"

def captureReleases (repository : List Char) :
    Action World String (List (List GitHubRelease)) := do
  match ← perform env (.listReleases repository) with
  | .releases pages => return pages
  | _ => Action.fail "failed to parse GitHub release list"

def captureReferences (repository tag : List Char) : Action World String (List (List Char)) := do
  match ← perform env (.matchingReferences repository tag) with
  | .references names => return names
  | _ => Action.fail "failed to parse GitHub tag references"

def required (key : String) : Except String (List Char) :=
  match (env.text key).filter (· ≠ []) with
  | some value => .ok value
  | none => .error s!"{key} is required for this CI operation"

def requiredCiEnvironment (key : String) : Action World String (List Char) :=
  Action.ofExcept (required env key)

def appendOutput (key value : List Char) : Action World String Unit := fun world =>
  match env.outputError with
  | some error => (.error error, world)
  | none => (.ok (), { world with output := world.output ++ [(key, value)] })

def writeGithubOutput (key value : List Char) : Action World String Unit := do
  let _ ← requiredCiEnvironment env "GITHUB_OUTPUT"
  if '\r' ∈ key ++ value ∨ '\n' ∈ key ++ value then
    Action.fail "GitHub Actions output values cannot contain newlines"
  else appendOutput env key value

def crateIsPublished (version : List Char) : Action World String Bool := do
  let status ← captureText env (.cratesStatus version)
  if status = "200".toList then return true
  else if status = "404".toList then return false
  else
    let answer := s!"crates.io returned HTTP {String.ofList status} while checking "
    Action.fail (answer ++ s!"cf-integration {String.ofList version}")

/-! ## Preparing and selecting -/

def deleteReleases (repository : List Char) : List GitHubRelease → Action World String Unit
  | [] => return ()
  | release :: rest => do
      let _ ← perform env (.deleteRelease repository release.id)
      deleteReleases repository rest

def removeRemoteTag (repository tag : List Char) : Action World String Unit := do
  let references ← captureReferences env repository tag
  if references.any (· = "refs/tags/".toList ++ tag) then
    let _ ← perform env (.deleteReference repository tag)
    return ()
  else return ()

def removeLocalTag (tag : List Char) : Action World String Unit := do
  let localTag ← captureText env (.listTags tag)
  if (Text.lines localTag).any (· = tag) then
    let _ ← perform env (.deleteTag tag)
    return ()
  else return ()

/-- The part after the registry has answered that the version is not published. -/
def removeStaleRelease (repository tag : List Char) : Action World String Unit := do
  let pages ← captureReleases env repository
  let found := pages.flatten.filter (·.tagName = tag)
  if found.any (!·.draft) then
    Action.fail s!"refusing to replace published GitHub release {String.ofList tag}"
  else
    deleteReleases env repository found
    removeRemoteTag env repository tag
    removeLocalTag env tag

def prepareReleaseState (version : Version) : Action World String Unit := do
  let repository ← requiredCiEnvironment env "GITHUB_REPOSITORY"
  if ← crateIsPublished env version.text then
    writeGithubOutput env "tag".toList version.tag
  else
    removeStaleRelease env repository version.tag
    writeGithubOutput env "tag".toList version.tag

/-- What release-plz has reported for the package. -/
def reportedRelease : Except String (Option ReleasePlzRelease) :=
  let releases := ((env.text "RELEASES").filter (· ≠ [])).getD "[]".toList
  match env.releasePlz releases with
  | .ok releases => .ok (releases.find? fun release =>
      release.packageName = "cf-integration".toList && release.tag ≠ [])
  | .error _ => .error "failed to parse release-plz output"

/-- The part for a version that an earlier run may have published. -/
def selectCandidate : Action World String Unit := do
  let candidate ← requiredCiEnvironment env "CANDIDATE_TAG"
  let remote ← captureText env (.lsRemote candidate)
  if remote = [] then writeGithubOutput env "tag".toList []
  else
    let _ ← perform env (.fetchTag candidate)
    let taggedRevision ← captureText env (.revList candidate)
    let sha ← requiredCiEnvironment env "GITHUB_SHA"
    if taggedRevision ≠ sha then writeGithubOutput env "tag".toList []
    else match Text.stripPrefix ['v'] candidate with
      | none => Action.fail "candidate release tag must start with v"
      | some version =>
          let published ← crateIsPublished env version
          writeGithubOutput env "tag".toList (if published then candidate else [])

def selectReleaseTag : Action World String Unit := do
  match ← Action.ofExcept (reportedRelease env) with
  | some release => writeGithubOutput env "tag".toList release.tag
  | none => selectCandidate env

end

/-! ## Texts of the commands -/

theorem isWhitespace_plain {char : Char}
    (hplain : char.isAlphanum = true ∨ char ∈ ['.', '-', '+']) : isWhitespace char = false := by
  have hcode : 0x20 < char.toNat ∧ char.toNat < 0x85 := by
    rcases hplain with hplain | hmem
    · have hcode := Text.isAlphanum_code hplain
      omega
    · have hall : ∀ other ∈ ['.', '-', '+'], 0x20 < other.toNat ∧ other.toNat < 0x85 := by decide
      exact hall char hmem
  by_contra hspace
  have hrange := Infrastructure.Config.toNat_of_isWhitespace (eq_true_of_ne_false hspace)
  omega

theorem rdropWhile_append {text : List Char} (htext : ∀ char ∈ text, isWhitespace char = false)
    (rest : List Char) :
    (text ++ rest).rdropWhile isWhitespace = text ++ rest.rdropWhile isWhitespace := by
  induction rest using List.reverseRecOn with
  | nil =>
      rw [List.append_nil, List.rdropWhile_nil, List.append_nil, List.rdropWhile_eq_self_iff]
      intro hne
      simp [htext _ (List.getLast_mem hne)]
  | append_singleton rest char ih =>
      rw [← List.append_assoc]
      cases hspace : isWhitespace char with
      | true =>
          rw [List.rdropWhile_concat_pos _ _ _ hspace, List.rdropWhile_concat_pos _ _ _ hspace, ih]
      | false =>
          have hnot : ¬ isWhitespace char = true := by simp [hspace]
          rw [List.rdropWhile_concat_neg _ _ _ hnot, List.rdropWhile_concat_neg _ _ _ hnot,
            List.append_assoc]

theorem trim_append {text : List Char} (htext : ∀ char ∈ text, isWhitespace char = false)
    (hne : text ≠ []) (rest : List Char) :
    Text.trim isWhitespace (text ++ rest) = text ++ rest.rdropWhile isWhitespace := by
  have hfront : (text ++ rest).dropWhile isWhitespace = text ++ rest := by
    obtain ⟨char, others, rfl⟩ := List.exists_cons_of_ne_nil hne
    rw [List.cons_append, List.dropWhile_cons_of_neg]
    simp [htext char List.mem_cons_self]
  rw [Text.trim, hfront, rdropWhile_append htext]

theorem trim_line_commit (commit : CommitId) :
    Text.trim isWhitespace (line commit.text) = commit.text := by
  have hplain : ∀ char ∈ commit.text, isWhitespace char = false :=
    fun char hchar => isWhitespace_plain (Or.inl (commit.hexadecimal char hchar))
  have hspace : isWhitespace '\n' = true := by decide
  by_cases hne : commit.text = []
  · rw [hne]
    decide
  · rw [line, trim_append hplain hne]
    have hfeed : ['\n'].rdropWhile isWhitespace = [] := by decide
    rw [hfeed, List.append_nil]

/-- A tag is among the lines that the command shows for it. -/
theorem mem_lines_shown {tag : List Char} (htag : ∀ char ∈ tag, isWhitespace char = false)
    (hne : tag ≠ []) {shown : List (List Char)} (hshown : ∀ name ∈ shown, name = tag)
    (hfound : shown ≠ []) : tag ∈ Text.lines (Text.trim isWhitespace (shown.flatMap line)) := by
  obtain ⟨name, others, rfl⟩ := List.exists_cons_of_ne_nil hfound
  obtain rfl := hshown name List.mem_cons_self
  have hfeed : '\n' ∉ name := fun hmem => absurd (htag '\n' hmem) (by decide)
  have hreturn : '\r' ∉ name := fun hmem => absurd (htag '\r' hmem) (by decide)
  rw [List.flatMap_cons, line, List.append_assoc, trim_append htag hne]
  -- What is left of the text after the first name is empty or another line.
  obtain ⟨dropped, hprefix⟩ := List.rdropWhile_prefix (p := isWhitespace)
    (['\n'] ++ others.flatMap line)
  cases hrest : (['\n'] ++ others.flatMap line).rdropWhile isWhitespace with
  | nil =>
      rw [List.append_nil, Text.lines_single hfeed hne]
      exact List.mem_singleton.mpr rfl
  | cons char rest =>
      rw [hrest] at hprefix
      obtain rfl : char = '\n' := by simpa using congrArg List.head? hprefix
      rw [Text.lines_append hfeed hreturn]
      exact List.mem_cons_self

/-! ## What one command does -/

/-- The registry, the releases and the tags are the same, and nothing was to be removed. -/
structure Untouched (before after : World) : Prop where
  published : after.published = before.published
  releases : after.releases = before.releases
  remoteTags : after.remoteTags = before.remoteTags
  localTags : after.localTags = before.localTags
  deletions : after.commands.filter Command.deletes = before.commands.filter Command.deletes

theorem Untouched.refl (world : World) : Untouched world world := ⟨rfl, rfl, rfl, rfl, rfl⟩

theorem Untouched.trans {first second third : World} (hfirst : Untouched first second)
    (hsecond : Untouched second third) : Untouched first third :=
  ⟨hsecond.published.trans hfirst.published, hsecond.releases.trans hfirst.releases,
    hsecond.remoteTags.trans hfirst.remoteTags, hsecond.localTags.trans hfirst.localTags,
    hsecond.deletions.trans hfirst.deletions⟩

section
variable {env : Environment} {world : World} {command : Command}

theorem apply_reads (hreads : command.reads = true) : (command.apply env world).2 = world := by
  cases command with
  | revList revision =>
      rw [Command.apply]
      split <;> rfl
  | cratesStatus | listReleases | matchingReferences | listTags | lsRemote => rfl
  | deleteRelease | deleteReference | deleteTag | fetchTag => cases hreads

theorem apply_start (hreads : command.reads = true) :
    (command.apply env (world.start command)).1 = (command.apply env world).1 := by
  cases command with
  | deleteRelease | deleteReference | deleteTag | fetchTag => cases hreads
  | cratesStatus | listReleases | matchingReferences | listTags | lsRemote => rfl
  | revList revision =>
      simp only [Command.apply, World.start]
      split
      · rfl
      · rfl

theorem garbled_reads (hreads : command.reads = true) {reply : Reply}
    (hreply : (command.apply env world).1 = .ok reply) : reply.garbled = .unreadable := by
  cases command with
  | revList revision =>
      rw [Command.apply] at hreply
      split at hreply
      next => cases hreply; rfl
      next => cases hreply
  | cratesStatus | listReleases | matchingReferences | listTags | lsRemote =>
      cases hreply
      rfl
  | deleteRelease | deleteReference | deleteTag | fetchTag => cases hreads

/-- No command writes output for later steps. -/
theorem apply_output : (command.apply env world).2.output = world.output := by
  cases command with
  | cratesStatus | listReleases | matchingReferences | listTags | lsRemote => rfl
  | deleteRelease | deleteReference | deleteTag | revList | fetchTag =>
      rw [Command.apply]
      split <;> rfl

/-- The outcomes of a command: it failed, or it answered from the world it was started in,
unless the answer cannot be read or comes from a registry in trouble. -/
inductive Performed (env : Environment) (world : World) (command : Command) :
    Except String Reply → World → Prop
  | failed (error : String) (after : World)
      (hafter : after = world.start command ∨
        after = (command.apply env (world.start command)).2) :
      Performed env world command (.error error) after
  | answered (reply : Reply) (hreply : (command.apply env (world.start command)).1 = .ok reply) :
      Performed env world command (.ok reply) (command.apply env (world.start command)).2
  | garbled (reply : Reply) (hreply : (command.apply env (world.start command)).1 = .ok reply) :
      Performed env world command (.ok reply.garbled) (command.apply env (world.start command)).2
  | status (other : OtherStatus) (version : List Char)
      (hcommand : command = .cratesStatus version) :
      Performed env world command (.ok (.text other.val)) (world.start command)

theorem performed_apply (env : Environment) (command : Command) (world : World) :
    Performed env world command (command.apply env (world.start command)).1
      (command.apply env (world.start command)).2 := by
  cases hreply : (command.apply env (world.start command)).1 with
  | error error => exact .failed error _ (Or.inr rfl)
  | ok reply => exact .answered reply hreply

theorem perform_cases (env : Environment) (command : Command) (world : World) :
    (perform env command).Ensures world (Performed env world command) := by
  unfold Action.Ensures Action.run perform
  cases env.fault world.commands.length with
  | none => exact performed_apply env command world
  | some fault =>
      cases fault with
      | refused error => exact .failed error _ (Or.inl rfl)
      | interrupted error => exact .failed error _ (Or.inr rfl)
      | garbled =>
          dsimp only
          cases hreply : (command.apply env (world.start command)).1 with
          | error error => exact .failed error _ (Or.inr rfl)
          | ok reply => exact .garbled reply hreply
      | status other =>
          cases command with
          | cratesStatus version => exact .status other version rfl
          | _ => exact performed_apply env _ world

/-! ## Queries -/

/-- The outcome of a query: nothing that matters has changed, and an answer is right. -/
def Answers {α : Type} (query : Action World String α) (world : World) (right : α → Prop) : Prop :=
  query.Ensures world fun result after => Untouched world after ∧ after.output = world.output ∧
    ∀ answer, result = .ok answer → right answer

theorem answers_pure {α : Type} {answer : α} {right : α → Prop} (hright : right answer) :
    Answers (pure answer) world right := by
  refine ⟨Untouched.refl world, rfl, ?_⟩
  intro other heq
  cases heq
  exact hright

theorem answers_fail {α : Type} {error : String} {right : α → Prop} :
    Answers (Action.fail error) world right :=
  ⟨Untouched.refl world, rfl, fun _ heq => by cases heq⟩

theorem Answers.bind {α β : Type} {query : Action World String α}
    {next : α → Action World String β} {middle : α → Prop} {right : β → Prop}
    (hquery : Answers query world middle)
    (hnext : ∀ value after, Untouched world after → middle value →
      Answers (next value) after right) : Answers (query >>= next) world right := by
  apply Action.Ensures.bind hquery
  · intro value after hmiddle
    obtain ⟨huntouched, houtput, hvalue⟩ := hmiddle
    apply (hnext value after huntouched (hvalue value rfl)).mono
    intro result last hlast
    exact ⟨huntouched.trans hlast.1, hlast.2.1.trans houtput, hlast.2.2⟩
  · intro error after hmiddle
    exact ⟨hmiddle.1, hmiddle.2.1, fun _ heq => by cases heq⟩

/-- What a command that reads may answer. -/
def Readable (env : Environment) (world : World) (command : Command) (reply : Reply) : Prop :=
  reply = .unreadable ∨ (command.apply env world).1 = .ok reply ∨
    ∃ other : OtherStatus, ∃ version, command = .cratesStatus version ∧ reply = .text other.val

theorem perform_answers (hreads : command.reads = true) :
    Answers (perform env command) world (Readable env world command) := by
  have hdeletes : command.deletes = false := by
    cases command with
    | deleteRelease | deleteReference | deleteTag => cases hreads
    | _ => rfl
  have huntouched : Untouched world (world.start command) :=
    ⟨rfl, rfl, rfl, rfl, by simp [World.start, hdeletes]⟩
  apply (perform_cases env command world).mono
  intro result after hperformed
  cases hperformed with
  | failed error after hafter =>
      rw [apply_reads hreads, or_self] at hafter
      subst hafter
      exact ⟨huntouched, rfl, fun _ heq => by cases heq⟩
  | answered reply hreply =>
      rw [apply_reads hreads]
      refine ⟨huntouched, rfl, ?_⟩
      intro other heq
      cases heq
      exact Or.inr (Or.inl ((apply_start hreads).symm.trans hreply))
  | garbled reply hreply =>
      rw [apply_reads hreads]
      refine ⟨huntouched, rfl, ?_⟩
      intro other heq
      cases heq
      exact Or.inl (garbled_reads hreads hreply)
  | status other version hcommand =>
      refine ⟨huntouched, rfl, ?_⟩
      intro reply heq
      cases heq
      exact Or.inr (Or.inr ⟨other, version, hcommand, rfl⟩)

theorem captureText_answers (hreads : command.reads = true) :
    Answers (captureText env command) world fun answer => ∃ text,
      Readable env world command (.text text) ∧ answer = Text.trim isWhitespace text := by
  apply (perform_answers hreads).bind
  intro reply after _ hreply
  cases reply with
  | text text => exact answers_pure ⟨text, hreply, rfl⟩
  | _ => exact answers_fail

theorem captureReleases_answers (repository : List Char) :
    Answers (captureReleases env repository) world fun pages => pages = world.releases := by
  apply (perform_answers rfl).bind
  intro reply after _ hreply
  cases reply with
  | releases pages =>
      apply answers_pure
      rcases hreply with hunreadable | hanswer | ⟨_, _, hcommand, _⟩
      · cases hunreadable
      · cases hanswer
        rfl
      · cases hcommand
  | _ => exact answers_fail

theorem captureReferences_answers (repository tag : List Char) :
    Answers (captureReferences env repository tag) world fun names =>
      "refs/tags/".toList ++ tag ∈ names ↔ ∃ found ∈ world.remoteTags, found.name = tag := by
  apply (perform_answers rfl).bind
  intro reply after _ hreply
  cases reply with
  | references names =>
      apply answers_pure
      rcases hreply with hunreadable | hanswer | ⟨_, _, hcommand, _⟩
      · cases hunreadable
      · cases hanswer
        simp only [List.mem_map, List.mem_filter, List.append_cancel_left_eq]
        constructor
        · intro hfound
          obtain ⟨name, ⟨⟨found, hfound, rfl⟩, -⟩, heq⟩ := hfound
          exact ⟨found, hfound, heq⟩
        · intro hfound
          obtain ⟨found, hfound, rfl⟩ := hfound
          exact ⟨found.name, ⟨⟨found, hfound, rfl⟩, by simp⟩, rfl⟩
      · cases hcommand
  | _ => exact answers_fail

theorem crateIsPublished_answers (version : List Char) :
    Answers (crateIsPublished env version) world fun answer =>
      answer = true ↔ version ∈ world.published := by
  apply (captureText_answers rfl).bind
  intro status after _ hstatus
  obtain ⟨text, hreply, rfl⟩ := hstatus
  rcases hreply with hunreadable | hanswer | ⟨other, _, _, hother⟩
  · cases hunreadable
  · have htext : text =
        (if world.published.any (· = version) then "200" else "404").toList := by
      cases hanswer
      rfl
    subst htext
    split
    next hpublished =>
      exact answers_pure (by simpa using hpublished)
    next hpublished =>
      exact answers_pure (by simpa using hpublished)
  · cases hother
    rw [if_neg other.property.1, if_neg other.property.2]
    exact answers_fail

theorem Version.plain_tag (version : Version) :
    ∀ char ∈ version.tag, char.isAlphanum = true ∨ char ∈ ['.', '-', '+'] := by
  intro char hchar
  rcases List.mem_cons.mp hchar with rfl | hchar
  · exact Or.inl (by decide)
  · exact version.plain char hchar

/-- Git reads the tag of a version as itself and not as a pattern. -/
theorem Version.glob_tag (version : Version) (name : List Char) :
    env.glob version.tag name = true ↔ name = version.tag := by
  apply env.glob_plain
  intro char hchar hspecial
  have hnot : ∀ other ∈ ['*', '?', '[', '\\'],
      ¬ (other.isAlphanum = true ∨ other ∈ ['.', '-', '+']) := by decide
  exact hnot char hspecial (version.plain_tag char hchar)

/-- A local tag of the version is among the lines that git shows. -/
theorem listTags_answers (version : Version) :
    Answers (captureText env (.listTags version.tag)) world fun shown =>
      (∃ found ∈ world.localTags, found.name = version.tag) →
        version.tag ∈ Text.lines shown := by
  apply (captureText_answers rfl).mono
  intro result after hcaptured
  obtain ⟨huntouched, houtput, hanswer⟩ := hcaptured
  refine ⟨huntouched, houtput, ?_⟩
  intro shown hresult hlocal
  obtain ⟨text, hreply, rfl⟩ := hanswer shown hresult
  obtain ⟨found, hfound, hname⟩ := hlocal
  rcases hreply with hunreadable | hshown | ⟨_, _, hcommand, _⟩
  · cases hunreadable
  · cases hshown
    apply mem_lines_shown
    · intro char hchar
      exact isWhitespace_plain (version.plain_tag char hchar)
    · exact List.cons_ne_nil _ _
    · intro name hmem
      exact (version.glob_tag name).mp (List.mem_filter.mp hmem).2
    · apply List.ne_nil_of_mem
      rw [List.mem_filter]
      exact ⟨List.mem_map_of_mem hfound, (version.glob_tag found.name).mpr hname⟩
  · cases hcommand

theorem requiredCiEnvironment_answers (key : String) :
    Answers (requiredCiEnvironment env key) world fun value => env.text key = some value := by
  refine ⟨Untouched.refl world, rfl, ?_⟩
  intro value hvalue
  change required env key = .ok value at hvalue
  unfold required at hvalue
  split at hvalue
  next found hfound =>
    cases hvalue
    exact (Option.filter_eq_some_iff.mp hfound).1
  next => cases hvalue

/-- Writing output for a later step changes the output only, and by one entry where it
succeeds. -/
theorem writeGithubOutput_ensures (key value : List Char) :
    (writeGithubOutput env key value).Ensures world fun result after => Untouched world after ∧
      after.output =
        world.output ++ match result with
          | .ok _ => [(key, value)]
          | .error _ => [] := by
  apply Action.Ensures.bind (requiredCiEnvironment_answers "GITHUB_OUTPUT")
  · intro path after hrequired
    obtain ⟨huntouched, houtput, -⟩ := hrequired
    rw [← houtput]
    split
    next => exact ⟨huntouched, (List.append_nil _).symm⟩
    next =>
      unfold Action.Ensures Action.run appendOutput
      cases env.outputError with
      | some error => exact ⟨huntouched, (List.append_nil _).symm⟩
      | none => exact ⟨huntouched.trans ⟨rfl, rfl, rfl, rfl, rfl⟩, rfl⟩
  · intro error after hrequired
    exact ⟨hrequired.1, hrequired.2.1.trans (List.append_nil _).symm⟩

end

end CfIntegration.Runtime.Release
