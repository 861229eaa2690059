import CfIntegration.Foundation.Action
import CfIntegration.Foundation.FileSystem

/-! # Source checkouts

A checkout below the integration directory is generated: it is reset, cleaned and,
when its origin is another repository, replaced by a fresh clone. Any other checkout
is external and is only fetched and switched.
-/

namespace CfIntegration.Infrastructure.Checkout

open FileSystem

/-- A character of an operating-system string, or a run of bytes that are not UTF-8. -/
inductive OsUnit where
  | char (value : Char)
  | invalid (bytes : List UInt8)
  deriving DecidableEq

abbrev OsString := List OsUnit

def osString (text : String) : OsString := text.toList.map OsUnit.char

abbrev PathBuf := Path OsString

/-- `PathBuf` as an operating-system string. -/
def pathText : PathBuf → OsString
  | [] => []
  | .rootDir :: rest => osString "/" ++ pathText rest
  | component :: rest =>
      let text := match component with
        | .normal name => name
        | .parentDir => osString ".."
        | .curDir | .rootDir => osString "."
      if rest = [] then text else text ++ osString "/" ++ pathText rest

inductive CheckoutKind where
  | controlplane
  | dataplane
  deriving DecidableEq, Repr

/-- One source checkout managed by the integration harness. -/
structure CheckoutRequest where
  kind : CheckoutKind
  directory : PathBuf
  repository : OsString
  reference : OsString

def CheckoutRequest.isDisabled (request : CheckoutRequest) : Bool :=
  request.kind = .dataplane && request.reference.isEmpty

inductive CheckoutStatus where
  | updated
  | skipped
  deriving DecidableEq, Repr

inductive GitOperation where
  | clone (repository : OsString)
  | fetch (pruneTags : Bool)
  | checkout (reference : OsString)
  | checkoutBranch (reference target : OsString)
  | resetHard
  | clean
  | setOrigin (repository : OsString)
  | matchOrigin (pattern : OsString)
  | showRef (reference : OsString)
  | catFile (object : OsString)
  deriving DecidableEq

/-- A git command for one directory. -/
structure CommandSpec where
  directory : PathBuf
  operation : GitOperation

def CommandSpec.args (spec : CommandSpec) : List OsString :=
  let gitIn (args : List OsString) := [osString "-C", pathText spec.directory] ++ args
  match spec.operation with
  | .clone repository => [osString "clone", osString "-q", osString "--no-progress", repository,
      pathText spec.directory]
  | .fetch pruneTags => gitIn <| ["fetch", "-q", "--no-progress", "--prune"].map osString ++
      (if pruneTags then [osString "--prune-tags"] else []) ++
      ["--tags", "--force", "origin"].map osString
  | .checkout reference => gitIn [osString "checkout", osString "-q", reference]
  | .checkoutBranch reference target =>
      gitIn [osString "checkout", osString "-q", osString "-B", reference, target]
  | .resetHard => gitIn (["reset", "--hard", "--quiet", "HEAD"].map osString)
  | .clean => gitIn (["clean", "-ffd", "-q"].map osString)
  | .setOrigin repository =>
      gitIn [osString "remote", osString "set-url", osString "origin", repository]
  | .matchOrigin pattern => gitIn [osString "config", osString "--get-regexp",
      osString "^remote\\.origin\\.url$", pattern]
  | .showRef reference =>
      gitIn [osString "show-ref", osString "--verify", osString "--quiet", reference]
  | .catFile object => gitIn [osString "cat-file", osString "-e", object]

def cloneCommand (request : CheckoutRequest) (directory : PathBuf) : CommandSpec :=
  ⟨directory, .clone request.repository⟩

def originSetCommand (request : CheckoutRequest) : CommandSpec :=
  ⟨request.directory, .setOrigin request.repository⟩

/-- The characters of a string, with a replacement character for what is not UTF-8. -/
def toStringLossy (text : OsString) : List Char :=
  text.map fun
    | .char value => value
    | .invalid _ => '\uFFFD'

def exactGitRegex (value : OsString) : OsString :=
  let special := ['.', '^', '$', '*', '+', '?', '(', ')', '[', ']', '\x7b', '\x7d', '|', '\\']
  let escaped := (toStringLossy value).flatMap fun character =>
    if character ∈ special then ['\\', character] else [character]
  ('^' :: escaped ++ ['$']).map OsUnit.char

def originMatchProbe (request : CheckoutRequest) : CommandSpec :=
  ⟨request.directory, .matchOrigin (exactGitRegex request.repository)⟩

def remoteBranchProbe (request : CheckoutRequest) : CommandSpec :=
  ⟨request.directory, .showRef (osString "refs/remotes/origin/" ++ request.reference)⟩

def toStr (text : OsString) : Option (List Char) :=
  text.mapM fun
    | .char value => some value
    | .invalid _ => none

def tagProbe (request : CheckoutRequest) : CommandSpec :=
  let named := match toStr request.reference with
    | some reference => "refs/tags/".toList.isPrefixOf reference
    | none => false
  ⟨request.directory, .showRef <|
    if named then request.reference else osString "refs/tags/" ++ request.reference⟩

def commitProbe (request : CheckoutRequest) : CommandSpec :=
  ⟨request.directory, .catFile (request.reference ++ osString "^\x7bcommit\x7d")⟩

def isCommitHash (reference : OsString) : Bool :=
  match toStr reference with
  | some reference => 7 ≤ reference.length && reference.length ≤ 64 && reference.all fun digit =>
      digit.isDigit || ('a' ≤ digit && digit ≤ 'f') || ('A' ≤ digit && digit ≤ 'F')
  | none => false

def normalizeStep (normalized : PathBuf) : Component OsString → PathBuf
  | .rootDir => [.rootDir]
  | .normal name => normalized ++ [.normal name]
  | .curDir => normalized
  | .parentDir => match normalized.getLast? with
      | some (.normal _) => normalized.dropLast
      | some .parentDir | none => normalized ++ [.parentDir]
      | some .rootDir | some .curDir => normalized

def normalizePath (path : PathBuf) : PathBuf := path.foldl normalizeStep []

def isPathWithin (path directory : PathBuf) : Bool :=
  normalizePath path ≠ normalizePath directory &&
    (normalizePath directory).isPrefixOf (normalizePath path)

def normalizedPathsEqual (first second : PathBuf) : Bool :=
  normalizePath first = normalizePath second

/-- Deterministic Git commands for one checkout request. -/
structure CheckoutPlan where
  generated : Bool
  clone : CommandSpec
  fetch : CommandSpec
  plainCheckout : CommandSpec
  remoteCheckout : Option CommandSpec
  generatedCleanup : List CommandSpec

namespace CheckoutPlan

def new (integrationDirectory : PathBuf) (request : CheckoutRequest) : CheckoutPlan :=
  let generated := isPathWithin request.directory integrationDirectory
  let directory := request.directory
  { generated
    clone := cloneCommand request directory
    fetch := ⟨directory, .fetch generated⟩
    plainCheckout := ⟨directory, .checkout request.reference⟩
    remoteCheckout := if generated then
        some ⟨directory,
          .checkoutBranch request.reference (osString "origin/" ++ request.reference)⟩
      else none
    generatedCleanup := if generated then [⟨directory, .resetHard⟩, ⟨directory, .clean⟩] else [] }

def checkoutCommand (plan : CheckoutPlan) (remoteBranchExists : Bool) : CommandSpec :=
  if remoteBranchExists then plan.remoteCheckout.getD plan.plainCheckout else plan.plainCheckout

end CheckoutPlan

inductive ErrorPart where
  | text (text : String)
  | path (path : PathBuf)
  | os (text : OsString)
  | cause (error : PathError)
  deriving DecidableEq

/-- The messages of an error, the outermost first. -/
abbrev InfrastructureError := List (List ErrorPart)

def InfrastructureError.names (error : InfrastructureError) (path : PathBuf) : Prop :=
  ∃ message ∈ error, .path path ∈ message

abbrev RealPath := Place OsString

variable {β : Type}

/-- The places of a repository that git's commands change. A link or a file in the place
of `.git` lets the git directory be anywhere, and the directories of several work trees
share what is in the common one. -/
structure Repository where
  workTree : RealPath
  gitDirectory : RealPath
  commonDirectory : RealPath
  deriving DecidableEq

def Repository.directories (repository : Repository) : List RealPath :=
  [repository.workTree, repository.gitDirectory, repository.commonDirectory]

/-- The repository of a directory that holds its git directory itself. -/
def Repository.own (place : RealPath) : Repository :=
  ⟨place, place ++ [osString ".git"], place ++ [osString ".git"]⟩

/-- What is relied on of git: it finds at most one repository from a directory, and what
it clones is a repository of its own. -/
structure Git (β : Type) where
  discover : Entry OsString β → RealPath → Option Repository
  /-- A directory with these contents is what a clone makes. -/
  IsClone : List (OsString × Entry OsString β) → Prop
  discover_clone : ∀ root place contents, root.get? place = some (.directory contents) →
    IsClone contents → discover root place = some (.own place)
  clonable : ∃ contents, IsClone contents

/-- The directory that git runs in, and the repository that it found from there. -/
structure Site where
  directory : RealPath
  repository : Option Repository
  deriving DecidableEq

/-- What was done, the places resolved when it was done. -/
inductive Deed where
  | git (operation : GitOperation) (site : Option Site) (succeeded : Bool)
  | rename (source target : RealPath) (succeeded : Bool)
  | remove (place : RealPath)
  deriving DecidableEq

structure World (β : Type) where
  root : Entry OsString β
  /-- The next number of a generated replacement. -/
  sequence : Nat
  /-- What was done so far, newest first. -/
  log : List Deed

/-- What decides the outcome of an operation, given what was done before it. -/
structure Environment (β : Type) where
  git : Git β
  processId : Nat
  createIntegration : Option String
  command : List Deed → CommandSpec → Option String
  /-- What a successful clone fills its directory with. -/
  cloned : List Deed → List (OsString × Entry OsString β)
  isClone : ∀ log, git.IsClone (cloned log)
  /-- What a failing clone leaves at its directory. -/
  leftover : List Deed → Option (Entry OsString β)
  rename : List Deed → Option String
  /-- A failing removal leaves any part of what it removes. -/
  removal : List Deed → Option (String × Option (Entry OsString β))

abbrev Run (β : Type) := Action (World β) InfrastructureError

section Operations

variable (env : Environment β) (process : Process OsString)

/-- The directory that `git clone` makes or finds, and the tree it finds itself in. -/
def cloneTarget (root : Entry OsString β) (path : PathBuf) :
    Except PathError (RealPath × Entry OsString β) :=
  match process.canonicalize root path, path.getLast? with
  | .ok place, _ => match root.get? place with
      | some (.directory []) => .ok (place, root)
      | _ => .error .notDirectory
  | .error _, some (.normal name) => do
      let (parent, made) ← createDirectories process.linkLimit path.dropLast root process.cwd
      made.directoryAt parent
      bailIf (made.get? (parent ++ [name])).isSome PathError.notDirectory
      let made := made.put (some (.directory [])) (parent ++ [name])
      match process.canonicalize made path with
      | .ok place => if place = parent ++ [name] then .ok (place, made) else .error .notFound
      | .error error => .error error
  | .error error, _ => .error error

def runClone (spec : CommandSpec) : Run β Unit := fun world =>
  match cloneTarget process world.root spec.directory with
  | .error error => (.error [[.text "git clone", .cause error]],
      { world with log := .git spec.operation none false :: world.log })
  | .ok (place, made) => match env.command world.log spec with
      | none => (.ok (), { world with
          root := made.put (some (.directory (env.cloned world.log))) place
          log := .git spec.operation (some ⟨place, none⟩) true :: world.log })
      | some reason => (.error [[.text reason]], { world with
          root := match env.leftover world.log with
            | some entry => made.put (some entry) place
            | none => world.root
          log := .git spec.operation (some ⟨place, none⟩) false :: world.log })

/-- The directory that `git -C` changes to. -/
def enterDirectory (root : Entry OsString β) (path : PathBuf) : Except PathError RealPath := do
  let place ← process.resolve root path
  root.directoryAt place
  return place

def runIn (spec : CommandSpec) : Run β Unit := fun world =>
  match enterDirectory process world.root spec.directory with
  | .error error => (.error [[.text "git", .cause error]],
      { world with log := .git spec.operation none false :: world.log })
  | .ok place =>
      let site : Site := ⟨place, env.git.discover world.root place⟩
      match site.repository, env.command world.log spec with
      | none, _ => (.error [[.text "git", .text "not a git repository"]],
          { world with log := .git spec.operation (some site) false :: world.log })
      | some _, none => (.ok (),
          { world with log := .git spec.operation (some site) true :: world.log })
      | some _, some reason => (.error [[.text reason]],
          { world with log := .git spec.operation (some site) false :: world.log })

/-- A rename to a place where nothing is. -/
def renameEntry (fault : Option String) (root : Entry OsString β) (source target : RealPath) :
    Except ErrorPart (Entry OsString β) :=
  match fault, root.get? source, root.get? target with
  | some reason, _, _ => .error (.text reason)
  | none, none, _ => .error (.cause .notFound)
  | none, some _, some _ => .error (.text "Directory not empty")
  | none, some entry, none =>
      if source.isPrefixOf target then .error (.text "Invalid argument")
      else .ok ((root.put none source).put (some entry) target)

def rename (source target : PathBuf) : Run β Unit := fun world =>
  match process.slot world.root source, process.slot world.root target with
  | .error error, _ | .ok _, .error error => (.error [[.cause error]], world)
  | .ok source, .ok target =>
      match renameEntry (env.rename world.log) world.root source target with
      | .error error => (.error [[error]],
          { world with log := .rename source target false :: world.log })
      | .ok root => (.ok (), { world with root, log := .rename source target true :: world.log })

def removePathIfPresent (path : PathBuf) : Run β Unit := fun world =>
  match process.lstat world.root path, process.slot world.root path with
  | .error .notFound, _ => (.ok (), world)
  | .error error, _ | .ok _, .error error => (.error [[.cause error]], world)
  | .ok _, .ok place => match env.removal world.log with
      | none => (.ok (), { world with
          root := world.root.put none place, log := .remove place :: world.log })
      | some (reason, leftover) => (.error [[.text reason]], { world with
          root := world.root.put leftover place, log := .remove place :: world.log })

def siblingName (name : OsString) (role : String) (processId sequence : Nat) : OsString :=
  osString "." ++ name ++ osString s!".cf-integration-{role}-{processId}-{sequence}"

/-- Look for a sibling name that is free, taking one number for each attempt. -/
def freeSibling (root : Entry OsString β) (parent : PathBuf) (name : OsString) (role : String)
    (processId : Nat) : Nat → Nat → Option (Except InfrastructureError PathBuf × Nat)
  | 0, _ => none
  | attempts + 1, sequence =>
      let candidate := parent ++ [.normal (siblingName name role processId sequence)]
      match process.lstat root candidate with
      | .ok _ => freeSibling root parent name role processId attempts (sequence + 1)
      | .error .notFound => some (.ok candidate, sequence + 1)
      | .error error => some (.error
          [[.text "failed to inspect generated replacement path ", .path candidate],
            [.cause error]], sequence + 1)

/-- Enough attempts: one more than the parent has entries. -/
def siblingAttempts (root : Entry OsString β) (parent : PathBuf) : Nat :=
  match process.resolve root parent with
  | .error _ => 1
  | .ok place => match root.get? place with
      | some (.directory entries) => entries.length + 1
      | _ => 1

def uniqueGeneratedSibling (directory : PathBuf) (role : String) : Run β PathBuf := fun world =>
  match directory.getLast? with
  | none | some .rootDir => (.error
      [[.text "generated checkout ", .path directory, .text " has no parent directory"]], world)
  | some .curDir | some .parentDir => (.error
      [[.text "generated checkout ", .path directory, .text " has no final path component"]],
      world)
  | some (.normal name) =>
      let parent := directory.dropLast
      match freeSibling process world.root parent name role env.processId
          (siblingAttempts process world.root parent) world.sequence with
      | some (result, sequence) => (result, { world with sequence })
      | none => (.error [], world)

/-- The path itself or its closest parent that exists, given backwards. -/
def existingAncestor (root : Entry OsString β) : PathBuf → Option PathBuf
  | [] => none
  | last :: above =>
      match process.lstat root (last :: above).reverse with
      | .ok _ => some (last :: above).reverse
      | .error _ => if last = .rootDir then none else existingAncestor root above

def validateGeneratedCheckoutBoundary (integrationDirectory checkoutDirectory : PathBuf) :
    Run β Unit := fun world => (·, world) <| do
  let canonicalIntegration ←
    match process.canonicalize world.root integrationDirectory with
    | .ok place => .ok place
    | .error error => .error [[.text "failed to resolve generated integration directory ",
        .path integrationDirectory], [.cause error]]
  let ancestor ← okOr (existingAncestor process world.root checkoutDirectory.reverse)
    [[.text "generated checkout ", .path checkoutDirectory,
      .text " has no existing filesystem ancestor"]]
  let canonicalAncestor ←
    match process.canonicalize world.root ancestor with
    | .ok place => .ok place
    | .error error => .error [[.text "failed to resolve generated checkout path ",
        .path checkoutDirectory], [.cause error]]
  bailIf (¬ canonicalIntegration.isPrefixOf canonicalAncestor)
    [[.text "generated checkout path ", .path checkoutDirectory,
      .text " resolves outside integration state ", .path integrationDirectory,
      .text "; configure the external checkout path explicitly to preserve its worktree"]]

/-- Remove a path, reporting a failure under a message. -/
def cleanUp (message : String) (path : PathBuf) : Run β Unit :=
  (removePathIfPresent env process path).mapError fun error =>
    [.text message, .path path] :: error

/-- Put the staged clone in the place of the old checkout, which waits in the backup. -/
def installFreshCheckout (request : CheckoutRequest) (staging backup : PathBuf) : Run β Unit := do
  match ← Action.attempt (rename env process request.directory backup) with
  | .error error => do
      cleanUp env process "failed to clean fresh generated clone " staging
      Action.fail ([.text "failed to preserve generated checkout ", .path request.directory,
        .text " before replacing its repository"] :: error)
  | .ok () => do
    match ← Action.attempt (rename env process staging request.directory) with
    | .error replaceError => do
        match ← Action.attempt (rename env process backup request.directory) with
        | .error restoreError =>
            Action.fail [[.text "failed to install fresh generated checkout ",
              .path request.directory, .text ": "] ++ replaceError.headD [] ++
              [.text "; failed to restore the previous checkout from ", .path backup,
              .text ": "] ++ restoreError.headD []]
        | .ok () => do
            cleanUp env process "failed to clean fresh generated clone " staging
            Action.fail ([.text "failed to install fresh generated checkout ",
              .path request.directory] :: replaceError)
    | .ok () => cleanUp env process "failed to remove replaced generated checkout " backup

def replaceGeneratedCheckout (integrationDirectory : PathBuf) (request : CheckoutRequest) :
    Run β Unit := do
  let staging ← uniqueGeneratedSibling env process request.directory "replacement"
  let backup ← uniqueGeneratedSibling env process request.directory "previous"
  validateGeneratedCheckoutBoundary process integrationDirectory staging
  validateGeneratedCheckoutBoundary process integrationDirectory backup
  match ← Action.attempt (runClone env process (cloneCommand request staging)) with
  | .error error => do
      cleanUp env process "failed to clean incomplete generated clone " staging
      Action.fail error
  | .ok () => installFreshCheckout env process request staging backup

/-- Run an action under a condition. -/
def whenever (condition : Bool) (action : Run β Unit) : Run β Unit :=
  if condition then action else pure ()

/-- Whether an action succeeded; a failure is not passed on. -/
def succeeds (action : Run β Unit) : Run β Bool := do
  let result ← (Action.attempt action : Run β (Except InfrastructureError Unit))
  return result.isOk

def createIntegrationDirectory (integrationDirectory : PathBuf) : Run β Unit := fun world =>
  let message := [.text "failed to create integration checkout directory ",
    .path integrationDirectory]
  match env.createIntegration with
  | some reason => (.error [message, [.text reason]], world)
  | none =>
      match createDirectories process.linkLimit integrationDirectory world.root process.cwd with
      | .error error => (.error [message, [.cause error]], world)
      | .ok (_, root) => (.ok (), { world with root })

def verifiedNonbranchRef (request : CheckoutRequest) : Run β Bool := do
  if ← succeeds (runIn env process (tagProbe request)) then
    return true
  else if isCommitHash request.reference then
    succeeds (runIn env process (commitProbe request))
  else
    return false

/-- The reference is a fetched branch, or what else may be checked out. -/
def checkReference (request : CheckoutRequest) : Run β Bool := do
  let remoteBranchExists ← succeeds (runIn env process (remoteBranchProbe request))
  if remoteBranchExists then
    return true
  else if ← verifiedNonbranchRef env process request then
    return false
  else
    Action.fail [[.text "configured ref ", .os request.reference,
      .text " is not a fetched origin branch, tag, or commit for checkout ",
      .path request.directory]]

def isFound (root : Entry OsString β) (path : PathBuf) : Bool := (process.lstat root path).isOk

/-- Clone what has no `.git`. -/
def cloneIfMissing (plan : CheckoutPlan) (request : CheckoutRequest) : Run β Unit := fun world =>
  if isFound process world.root (request.directory ++ [.normal (osString ".git")]) then
    (.ok (), world)
  else runClone env process plan.clone world

/-- Make the origin of a generated checkout the requested one; an external checkout
has to have it. -/
def claimOrigin (integrationDirectory : PathBuf) (plan : CheckoutPlan)
    (request : CheckoutRequest) : Run β Unit := do
  if plan.generated then
    let originMatches ← succeeds (runIn env process (originMatchProbe request))
    whenever (!originMatches) (replaceGeneratedCheckout env process integrationDirectory request)
    runIn env process (originSetCommand request)
  else if ← succeeds (runIn env process (originMatchProbe request)) then
    return ()
  else
    Action.fail [[.text "external checkout ", .path request.directory,
      .text " origin does not match configured repository ", .os request.repository,
      .text "; refusing to mutate the external worktree"]]

def cleanGenerated (plan : CheckoutPlan) : Run β Unit :=
  plan.generatedCleanup.forM fun command => runIn env process command

/-- Fetch, and switch to the requested reference. -/
def synchronize (plan : CheckoutPlan) (request : CheckoutRequest) : Run β CheckoutStatus := do
  runIn env process plan.fetch
  let remoteBranchExists ← checkReference env process request
  cleanGenerated env process plan
  runIn env process (plan.checkoutCommand remoteBranchExists)
  cleanGenerated env process plan
  return .updated

/-- Ensure one configured source checkout exists at the requested ref. -/
def ensure (integrationDirectory : PathBuf) (request : CheckoutRequest) :
    Run β CheckoutStatus :=
  if request.isDisabled then
    return .skipped
  else do
    createIntegrationDirectory env process integrationDirectory
    let plan := CheckoutPlan.new integrationDirectory request
    if normalizedPathsEqual request.directory integrationDirectory then
      Action.fail [[.text "checkout path ", .path request.directory,
        .text " must be a child of integration state ", .path integrationDirectory,
        .text ", not the integration root itself"]]
    else do
      whenever plan.generated
        (validateGeneratedCheckoutBoundary process integrationDirectory request.directory)
      cloneIfMissing env process plan request
      claimOrigin env process integrationDirectory plan request
      synchronize env process plan request

end Operations

end CfIntegration.Infrastructure.Checkout
