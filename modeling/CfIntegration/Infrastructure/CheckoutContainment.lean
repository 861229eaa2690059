import CfIntegration.Infrastructure.CheckoutReplacement

/-! # Where a checkout may be destroyed

The boundary check looks at the path as it is before anything is cloned, and accepts the
integration directory itself. What a generated checkout's commands act on is the
directory the path leads to, or the one that the clone creates for it, and with it the
repository that git finds from there, wherever the repository keeps its parts.
-/

namespace CfIntegration.Infrastructure.Checkout

open FileSystem CfIntegration.Action

variable {β : Type}

/-- The operation discards history or files of the worktree. -/
def GitOperation.destroys : GitOperation → Bool
  | .resetHard | .clean | .checkoutBranch _ _ | .setOrigin _ => true
  | _ => false

/-- The operation fetches or switches. -/
def GitOperation.switches : GitOperation → Bool
  | .fetch _ | .checkout _ | .checkoutBranch _ _ => true
  | _ => false

def StrictlyBelow (boundary place : RealPath) : Prop :=
  boundary <+: place ∧ place ≠ boundary

/-- The directory that git runs in and every part of its repository are strictly below
the boundary. -/
def Inside (boundary directory : RealPath) (repository : Repository) : Prop :=
  ∀ place ∈ directory :: repository.directories, StrictlyBelow boundary place

/-- Only what is strictly below the boundary is destroyed, moved or removed. Git changes
nothing where it finds no repository. -/
def Deed.Within (boundary : RealPath) : Deed → Prop
  | .git operation site _ => operation.destroys = true →
      ∀ directory repository, site = some ⟨directory, some repository⟩ →
        Inside boundary directory repository
  | .rename source target _ => StrictlyBelow boundary source ∧ StrictlyBelow boundary target
  | .remove place => StrictlyBelow boundary place

/-- The origin was found to be the requested repository. -/
def OriginMatched (request : CheckoutRequest) (log : List Deed) : Prop :=
  ∃ site, .git (originMatchProbe request).operation site true ∈ log

/-- Every fetch and every switch comes after the origin was found to match. -/
def Guarded (request : CheckoutRequest) : List Deed → Prop
  | [] => True
  | deed :: earlier =>
      (match deed with
        | .git operation _ _ => operation.switches = true → OriginMatched request earlier
        | _ => True) ∧ Guarded request earlier

/-- The path on which `ensure` runs git is checked and found to be generated. -/
structure EntersGenerated (process : Process OsString) (integrationDirectory : PathBuf)
    (request : CheckoutRequest) (root created : Entry OsString β) (boundary : RealPath) :
    Prop where
  enabled : request.isDisabled = false
  made : ∃ place, createDirectories process.linkLimit integrationDirectory root process.cwd =
    .ok (place, created)
  differs : normalizedPathsEqual request.directory integrationDirectory = false
  generated : isPathWithin request.directory integrationDirectory = true
  resolves : process.canonicalize created integrationDirectory = .ok boundary
  validated : ∃ ancestor place, existingAncestor process created request.directory.reverse =
    some ancestor ∧ process.canonicalize created ancestor = .ok place ∧ boundary <+: place

/-- Where git works: in the directory with `.git` and on the repository that it finds
from there, or in the directory that a clone creates. -/
def WorkTree (git : Git β) (process : Process OsString) (root : Entry OsString β)
    (directory : PathBuf) (place : RealPath) (repository : Repository) : Prop :=
  if isFound process root (directory ++ [.normal (osString ".git")]) then
    process.resolve root directory = .ok place ∧ git.discover root place = some repository
  else (∃ made, cloneTarget process root directory = .ok (place, made)) ∧
    repository = .own place

/-- The part of a path below its closest parent that exists. -/
def missingPart (process : Process OsString) (root : Entry OsString β) (path : PathBuf) : PathBuf :=
  match existingAncestor process root path.reverse with
  | some ancestor => path.drop ancestor.length
  | none => path

/-- The missing part does not only go down. -/
def Climbs (process : Process OsString) (root : Entry OsString β) (path : PathBuf) : Prop :=
  ∃ component ∈ missingPart process root path, ∀ name, component ≠ .normal name

/-! ## The boundary check -/

section Boundary

variable {process : Process OsString} {root : Entry OsString β}

/-- A path that exists is its own existing ancestor. -/
theorem existingAncestor_of_lstat {path : PathBuf} (hpath : path ≠ []) {entry : Entry OsString β}
    (hlstat : process.lstat root path = .ok entry) :
    existingAncestor process root path.reverse = some path := by
  rcases List.eq_nil_or_concat path with rfl | ⟨front, last, rfl⟩
  · contradiction
  rw [List.concat_eq_append] at *
  rw [List.reverse_append, List.reverse_singleton, List.singleton_append, existingAncestor,
    List.reverse_cons, List.reverse_reverse, hlstat]

/-- The existing ancestor of a missing path is that of its parent. -/
theorem existingAncestor_of_absent {front : PathBuf} {name : OsString} {error : PathError}
    (hlstat : process.lstat root (front ++ [.normal name]) = .error error) :
    existingAncestor process root (front ++ [Component.normal name]).reverse =
      existingAncestor process root front.reverse := by
  rw [List.reverse_append, List.reverse_singleton, List.singleton_append, existingAncestor,
    List.reverse_cons, List.reverse_reverse, hlstat]
  rfl

/-- The closest parent that exists, and that what comes after it does not. -/
theorem existingAncestor_eq_some {reversed ancestor : PathBuf}
    (hancestor : existingAncestor process root reversed = some ancestor) :
    ∃ rest, reversed.reverse = ancestor ++ rest ∧ ancestor ≠ [] ∧
      ∀ component tail, rest = component :: tail →
        ∃ error, process.lstat root (ancestor ++ [component]) = .error error := by
  induction reversed with
  | nil => cases hancestor
  | cons last above ih =>
      rw [existingAncestor] at hancestor
      cases hlstat : process.lstat root (last :: above).reverse with
      | ok entry =>
          rw [hlstat] at hancestor
          cases hancestor
          exact ⟨[], (List.append_nil _).symm, by simp, nofun⟩
      | error error =>
          rw [hlstat] at hancestor
          dsimp only at hancestor
          split at hancestor
          · cases hancestor
          obtain ⟨rest, hrest, hne, hnext⟩ := ih hancestor
          rw [List.reverse_cons] at hlstat ⊢
          rw [hrest] at hlstat ⊢
          refine ⟨rest ++ [last], List.append_assoc .., hne, fun component tail htail => ?_⟩
          cases rest with
          | nil =>
              cases htail
              rw [List.append_nil] at hlstat
              exact ⟨error, hlstat⟩
          | cons head below =>
              cases htail
              exact hnext component below rfl

/-- The boundary check passes exactly where the existing ancestor resolves within the integration
directory. -/
theorem validateGeneratedCheckoutBoundary_eq_ok {integrationDirectory directory : PathBuf}
    {world : World β} :
    ((validateGeneratedCheckoutBoundary process integrationDirectory directory).run world).1 =
        .ok () ↔
      ∃ boundary ancestor place,
        process.canonicalize world.root integrationDirectory = .ok boundary ∧
        existingAncestor process world.root directory.reverse = some ancestor ∧
        process.canonicalize world.root ancestor = .ok place ∧ boundary <+: place := by
  unfold validateGeneratedCheckoutBoundary Action.run
  dsimp only
  cases process.canonicalize world.root integrationDirectory with
  | error error => simp [bind, Except.bind]
  | ok boundary =>
      cases existingAncestor process world.root directory.reverse with
      | none => simp [bind, Except.bind, okOr]
      | some ancestor =>
          cases hplace : process.canonicalize world.root ancestor with
          | error error => simp [bind, Except.bind, okOr, hplace]
          | ok place => simp [bind, Except.bind, okOr, hplace]

section Validated

variable {integrationDirectory : PathBuf} {request : CheckoutRequest} {start : Entry OsString β}
  {boundary place : RealPath}

/-- A checked path that leads somewhere leads below the boundary. -/
theorem EntersGenerated.prefix_of_resolve
    (henters : EntersGenerated process integrationDirectory request start root boundary)
    (hresolve : process.resolve root request.directory = .ok place) : boundary <+: place := by
  obtain ⟨ancestor, above, hancestor, habove, hbegins⟩ := henters.validated
  have hne : request.directory ≠ [] := by
    intro hempty
    rw [hempty] at hancestor
    cases hancestor
  obtain ⟨entry, hentry⟩ := Process.lstat_of_resolve hne hresolve
  rw [existingAncestor_of_lstat hne hentry] at hancestor
  cases hancestor
  obtain ⟨_, habove⟩ := Process.canonicalize_eq_ok.mp habove
  cases habove.symm.trans hresolve
  exact hbegins

/-- Where a missing directory only goes down, the clone is made strictly below the
boundary. -/
theorem EntersGenerated.strictlyBelow_of_missing
    (henters : EntersGenerated process integrationDirectory request start root boundary)
    (hclimbs : ¬ Climbs process root request.directory) {made : Entry OsString β}
    (hextends : Extends root made) (honly : OnlyDirectories root made)
    {error : PathError} (hmissing : process.canonicalize root request.directory = .error error)
    (hmade : process.resolve made request.directory = .ok place) :
    StrictlyBelow boundary place := by
  obtain ⟨ancestor, above, hancestor, habove, hbegins⟩ := henters.validated
  obtain ⟨rest, hrest, hne, hnext⟩ := existingAncestor_eq_some hancestor
  rw [List.reverse_reverse] at hrest
  -- Without climbing, what is missing of the path consists of names only.
  have hnames : ∀ component ∈ rest, ∃ name, component = .normal name := by
    intro component hcomponent
    by_contra hother
    refine hclimbs ⟨component, ?_, fun name heq => hother ⟨name, heq⟩⟩
    unfold missingPart
    rw [hancestor]
    dsimp only
    rw [hrest, List.drop_left]
    exact hcomponent
  have hrestNe : rest ≠ [] := by
    rintro rfl
    rw [List.append_nil] at hrest
    rw [hrest, habove] at hmissing
    cases hmissing
  obtain ⟨_, habove⟩ := Process.canonicalize_eq_ok.mp habove
  obtain ⟨_, hwalks⟩ := Process.resolve_eq_ok.mp habove
  obtain ⟨_, hmade⟩ := Process.resolve_eq_ok.mp hmade
  rw [hrest] at hmade
  obtain ⟨middle, _, hfront, hback⟩ := Entry.walks_append_iff.mp hmade
  -- The part that existed leads to the same place as before.
  have hmiddle : middle = above := by
    have hsame : Compatible made made := fun _ _ _ h h' => Option.some.inj (h.symm.trans h')
    cases hsame.walks hfront (hextends.walks hwalks)
    rfl
  subst hmiddle
  obtain ⟨names, hlength, hplace⟩ := honly.walks_names hback hnames (by
    rintro name tail rfl
    obtain ⟨_, hlstat⟩ := hnext _ _ rfl
    obtain ⟨entries, hdirectory⟩ := hback.directory
    have hkind : made.kindAt middle = some .directory := by
      rw [Entry.kindAt, hdirectory]
      rfl
    obtain ⟨entry, hentry, _⟩ := Entry.get?_of_walks hwalks hne
    have hbefore : root.kindAt middle = some .directory := by
      have hentryKind : root.kindAt middle = some entry.kind := by
        rw [Entry.kindAt, hentry]
        rfl
      rw [hentryKind, ← hextends _ _ hentryKind, hkind]
    -- The first missing name was not there, so a directory was made under it.
    have hslot : process.slot root (ancestor ++ [.normal name]) = .ok (middle ++ [name]) := by
      have hstands : root.directoryAt middle = .ok PUnit.unit := by
        rw [Entry.directoryAt, hbefore]
      exact Process.slot_concat.mpr
        ⟨middle, habove, Entry.directoryAt_eq_ok.mp hstands, rfl⟩
    rw [Process.lstat_concat, hslot] at hlstat
    unfold Entry.kindAt
    cases hget : root.get? (middle ++ [name]) with
    | none => rfl
    | some entry => simp [bind, Except.bind, okOr, hget] at hlstat)
  rw [show place = middle ++ names from hplace]
  refine ⟨hbegins.trans (List.prefix_append _ _), fun heq => ?_⟩
  have hshort := hbegins.length_le
  rw [← heq, List.length_append, hlength] at hshort
  have hpositive := List.length_pos_of_ne_nil hrestNe
  omega

/-- What a clone makes: the tree extended by directories, among them its own, which the
path leads to. -/
theorem cloneTarget_ok {path : PathBuf} {made : Entry OsString β}
    (htarget : cloneTarget process root path = .ok (place, made)) :
    Extends root made ∧ OnlyDirectories root made ∧
      process.resolve made path = .ok place ∧ made.get? place = some (.directory []) := by
  unfold cloneTarget at htarget
  cases hcanonical : process.canonicalize root path with
  | ok found =>
      rw [hcanonical] at htarget
      dsimp only at htarget
      split at htarget
      next hempty =>
        cases htarget
        exact ⟨Extends.refl _, fun _ _ hkind => Or.inl hkind,
          (Process.canonicalize_eq_ok.mp hcanonical).2, hempty⟩
      · cases htarget
  | error error =>
      rw [hcanonical] at htarget
      rcases hlast : path.getLast? with _ | (_ | _ | _ | name)
      -- The path is missing and ends with a name: its parents are created, then the directory.
      case some.normal =>
        rw [hlast] at htarget
        obtain ⟨⟨parent, created⟩, hcreated, htarget⟩ := except_bind_eq_ok.mp htarget
        obtain ⟨_, hparent, htarget⟩ := except_bind_eq_ok.mp htarget
        obtain ⟨_, habsent, htarget⟩ := except_bind_eq_ok.mp htarget
        dsimp only at hparent habsent htarget
        rw [bailIf_eq_ok, Bool.not_eq_true, Option.isSome_eq_false_iff,
          Option.isNone_iff_eq_none] at habsent
        have hdirectory := Entry.directoryAt_eq_ok.mp hparent
        split at htarget
        next found hfound =>
          split at htarget
          next heq =>
            cases htarget
            obtain ⟨entries, hentries⟩ := hdirectory
            refine ⟨(createDirectories_extends hcreated).trans (extends_put_of_absent habsent),
              (createDirectories_onlyDirectories hcreated).trans
                (onlyDirectories_put ⟨entries, hentries⟩),
              (Process.canonicalize_eq_ok.mp hfound).2, ?_⟩
            rw [heq]
            exact Entry.get?_put_self hentries
          · cases htarget
        · cases htarget
      all_goals
        rw [hlast] at htarget
        cases htarget

theorem StrictlyBelow.append {name : OsString} (hbelow : boundary <+: place) :
    StrictlyBelow boundary (place ++ [name]) := by
  refine ⟨hbelow.trans (List.prefix_append _ _), fun heq => ?_⟩
  have hlength := hbelow.length_le
  rw [← heq, List.length_append, List.length_singleton] at hlength
  omega

/-- A repository of its own is inside when its directory is. -/
theorem StrictlyBelow.own (hbelow : StrictlyBelow boundary place) :
    Inside boundary place (.own place) := by
  unfold Inside Repository.directories Repository.own
  simp only [List.forall_mem_cons]
  exact ⟨hbelow, hbelow, .append hbelow.1, .append hbelow.1, nofun⟩

/-- The condition puts the work tree strictly below the boundary. -/
theorem EntersGenerated.strictlyBelow {git : Git β} {repository : Repository}
    (henters : EntersGenerated process integrationDirectory request start root boundary)
    (hworks : WorkTree git process root request.directory place repository)
    (hne : place ≠ boundary)
    (hclimbs : Climbs process root request.directory → boundary <+: place) :
    StrictlyBelow boundary place := by
  unfold WorkTree at hworks
  split at hworks
  · exact ⟨henters.prefix_of_resolve hworks.1, hne⟩
  obtain ⟨⟨made, htarget⟩, -⟩ := hworks
  obtain ⟨hextends, honly, hmade, _⟩ := cloneTarget_ok htarget
  cases hcanonical : process.canonicalize root request.directory with
  | ok found =>
      obtain ⟨_, hfound⟩ := Process.canonicalize_eq_ok.mp hcanonical
      cases (hextends.resolve hfound).symm.trans hmade
      exact ⟨henters.prefix_of_resolve hfound, hne⟩
  | error error =>
      by_cases hclimb : Climbs process root request.directory
      · exact ⟨hclimbs hclimb, hne⟩
      · exact henters.strictlyBelow_of_missing hclimb hextends honly hcanonical hmade

end Validated

end Boundary

/-! ## Running git -/

section Run

variable {env : Environment β} {process : Process OsString} {directory : PathBuf}
  {boundary : RealPath}

/-- A command leaves the tree alone and is logged with the directory it ran in and the
repository it found there. -/
theorem runIn_ensures (spec : CommandSpec) (world : World β) :
    Ensures (runIn env process spec) world fun result final =>
      final.root = world.root ∧ ∃ site succeeded,
        final.log = .git spec.operation site succeeded :: world.log ∧
        (∀ found, site = some found →
          process.resolve world.root spec.directory = .ok found.directory ∧
            found.repository = env.git.discover world.root found.directory) ∧
        (result = .ok () → succeeded = true) := by
  unfold Ensures Action.run runIn
  cases henter : enterDirectory process world.root spec.directory with
  | error error => exact ⟨rfl, none, false, rfl, nofun, nofun⟩
  | ok place =>
      obtain ⟨_, hresolve, hplace⟩ := except_bind_eq_ok.mp henter
      obtain ⟨_, _, hplace⟩ := except_bind_eq_ok.mp hplace
      cases hplace
      let site : Site := ⟨place, env.git.discover world.root place⟩
      have hfound : ∀ found, some site = some found →
          process.resolve world.root spec.directory = .ok found.directory ∧
            found.repository = env.git.discover world.root found.directory := by
        rintro found ⟨⟩
        exact ⟨hresolve, rfl⟩
      dsimp only
      split
      · exact ⟨rfl, some site, false, rfl, hfound, nofun⟩
      · exact ⟨rfl, some site, true, rfl, hfound, fun _ => rfl⟩
      · exact ⟨rfl, some site, false, rfl, hfound, nofun⟩

/-- A repository that git finds from the checkout is strictly below the boundary, and so
far nothing else was destroyed. -/
structure Settled (git : Git β) (process : Process OsString) (directory : PathBuf)
    (boundary : RealPath) (world : World β) : Prop where
  leads : ∀ place repository, process.resolve world.root directory = .ok place →
    git.discover world.root place = some repository → Inside boundary place repository
  within : Logged (Deed.Within boundary) world

/-- A git command in the checkout works within the boundary. -/
theorem runIn_settled (operation : GitOperation) :
    Keeps (Settled env.git process directory boundary)
      (runIn env process ⟨directory, operation⟩) := by
  intro world hsettled
  refine (runIn_ensures _ world).mono fun result final hpost => ?_
  obtain ⟨hroot, site, succeeded, hlog, hsite, _⟩ := hpost
  refine ⟨hroot ▸ hsettled.leads, ?_⟩
  unfold Logged
  rw [hlog, List.forall_mem_cons]
  refine ⟨fun _ place repository hfound => ?_, hsettled.within⟩
  obtain ⟨hplace, hrepository⟩ := hsite _ hfound
  exact hsettled.leads place repository hplace hrepository.symm

theorem succeeds_keeps {property : World β → Prop} {action : Run β Unit}
    (haction : Keeps property action) : Keeps property (succeeds action) :=
  Keeps.bind (Keeps.attempt haction) fun result => keeps_pure result.isOk

/-- What every command in the checkout's directory keeps, the rest of the run keeps. -/
theorem synchronize_keeps {property : World β → Prop} {integrationDirectory : PathBuf}
    {request : CheckoutRequest}
    (hrun : ∀ operation, (operation.destroys = true →
        isPathWithin request.directory integrationDirectory = true) →
      Keeps property (runIn env process ⟨request.directory, operation⟩)) :
    Keeps property
      (synchronize env process (CheckoutPlan.new integrationDirectory request) request) := by
  -- Only the reset, the clean and the forced checkout destroy anything.
  have hclean : Keeps property
      (cleanGenerated env process (CheckoutPlan.new integrationDirectory request)) := by
    unfold cleanGenerated CheckoutPlan.new
    dsimp only
    split
    next hgenerated =>
      change Keeps property (runIn env process ⟨request.directory, .resetHard⟩ >>= fun _ =>
        runIn env process ⟨request.directory, .clean⟩ >>= fun _ => pure ())
      exact Keeps.bind (hrun _ fun _ => hgenerated) fun _ =>
        Keeps.bind (hrun _ fun _ => hgenerated) fun _ => keeps_pure _
    · exact keeps_pure _
  have hnonbranch : Keeps property (verifiedNonbranchRef env process request) := by
    unfold verifiedNonbranchRef
    refine Keeps.bind (succeeds_keeps (hrun _ nofun)) fun tagged => ?_
    split
    · exact keeps_pure true
    · split
      · exact succeeds_keeps (hrun _ nofun)
      · exact keeps_pure false
  have hreference : Keeps property (checkReference env process request) := by
    unfold checkReference
    refine Keeps.bind (succeeds_keeps (hrun _ nofun)) fun branch => ?_
    split
    · exact keeps_pure true
    · refine Keeps.bind hnonbranch fun verified => ?_
      split
      · exact keeps_pure false
      · exact keeps_fail _
  have hcheckout : ∀ branch, Keeps property (runIn env process
      ((CheckoutPlan.new integrationDirectory request).checkoutCommand branch)) := by
    intro branch
    unfold CheckoutPlan.checkoutCommand CheckoutPlan.new
    dsimp only
    split
    · split
      next hgenerated => exact hrun _ fun _ => hgenerated
      · exact hrun _ nofun
    · exact hrun _ nofun
  unfold synchronize
  exact Keeps.bind (hrun _ nofun) fun _ => Keeps.bind hreference fun branch =>
    Keeps.bind hclean fun _ => Keeps.bind (hcheckout branch) fun _ =>
      Keeps.bind hclean fun _ => keeps_pure _

/-! ## A generated checkout -/

section Generated

variable {integrationDirectory : PathBuf} {request : CheckoutRequest} {start : Entry OsString β}
  {root : Entry OsString β}

/-- A clone, and whatever it leaves when it fails, is not a deed that destroys. -/
theorem runClone_ensures_within (spec : CommandSpec) (repository : OsString)
    (hspec : spec.operation = .clone repository) {world : World β}
    (hwithin : Logged (Deed.Within boundary) world) :
    Ensures (runClone env process spec) world fun result final =>
      Logged (Deed.Within boundary) final ∧ (result = .ok () → ∃ place made,
        cloneTarget process world.root spec.directory = .ok (place, made) ∧
        final.root = made.put (some (.directory (env.cloned world.log))) place) := by
  have hcons : ∀ site succeeded, ∀ deed ∈ .git spec.operation site succeeded :: world.log,
      deed.Within boundary := fun site succeeded => by
    rw [hspec, List.forall_mem_cons]
    exact ⟨nofun, hwithin⟩
  unfold Ensures Action.run runClone
  cases htarget : cloneTarget process world.root spec.directory with
  | error error => exact ⟨hcons _ _, nofun⟩
  | ok target =>
      obtain ⟨place, made⟩ := target
      dsimp only
      cases env.command world.log spec with
      | none => exact ⟨hcons _ _, fun _ => ⟨place, made, rfl, rfl⟩⟩
      | some reason => exact ⟨hcons _ _, fun hok => by cases hok⟩

/-- After a successful clone the path leads to the directory that was filled. -/
theorem resolve_of_cloneTarget {path : PathBuf} {made : Entry OsString β} {place : RealPath}
    (htarget : cloneTarget process root path = .ok (place, made))
    (contents : List (OsString × Entry OsString β)) :
    process.resolve (made.put (some (.directory contents)) place) path = .ok place ∧
      (made.put (some (.directory contents)) place).get? place = some (.directory contents) := by
  obtain ⟨_, _, hmade, hempty⟩ := cloneTarget_ok htarget
  exact ⟨(extends_put_of_empty hempty contents).resolve hmade,
    Entry.get?_put_of_empty hempty contents⟩

/-- Where `.git` is found, the path leads to a directory. -/
theorem resolve_of_isFound {path : PathBuf} {name : OsString}
    (hfound : isFound process root (path ++ [.normal name]) = true) :
    ∃ place, process.resolve root path = .ok place ∧
      ∃ entries, root.get? place = some (.directory entries) := by
  unfold isFound at hfound
  rw [Process.lstat_concat] at hfound
  cases hslot : process.slot root (path ++ [.normal name]) with
  | error error => simp [hslot, bind, Except.bind, Except.isOk, Except.toBool] at hfound
  | ok place =>
      obtain ⟨parent, hparent, hdirectory, _⟩ := Process.slot_concat.mp hslot
      exact ⟨parent, hparent, hdirectory⟩

/-- A replacement only moves and removes entries strictly below the boundary, and leaves
the path leading there. -/
theorem replaceGeneratedCheckout_settled {world : World β}
    (hresolves : process.canonicalize world.root integrationDirectory = .ok boundary)
    (hleads : ∃ place, process.resolve world.root request.directory = .ok place)
    (hwithin : Logged (Deed.Within boundary) world) :
    Ensures (replaceGeneratedCheckout env process integrationDirectory request) world
      fun result final => match result with
        | .ok () => Settled env.git process request.directory boundary final
        | .error _ => Logged (Deed.Within boundary) final := by
  rcases hlast : request.directory.getLast? with _ | (_ | _ | _ | name)
  case some.normal =>
    obtain ⟨parentPath, hdirectory⟩ : ∃ parentPath,
        request.directory = parentPath ++ [.normal name] :=
      List.getLast?_eq_some_iff.mp hlast
    obtain ⟨place, hplace⟩ := hleads
    rw [hdirectory] at hplace
    obtain ⟨_, hwalks⟩ := Process.resolve_eq_ok.mp hplace
    obtain ⟨parent, left, hfront, hback⟩ := Entry.walks_append_iff.mp hwalks
    have hparent : process.resolve world.root parentPath = .ok parent :=
      Process.resolve_eq_ok.mpr ⟨left, hfront⟩
    -- A sibling that passes the check vouches for the parent, and so for all of them.
    have hallows : ∀ sibling start, start.root = world.root →
        process.lstat world.root (parentPath ++ [.normal sibling]) = .error .notFound →
        ((validateGeneratedCheckoutBoundary process integrationDirectory
          (parentPath ++ [.normal sibling])).run start).1 = .ok () →
        boundary <+: parent := by
      intro sibling start hstart habsent hvalid
      obtain ⟨other, ancestor, above, hother, hancestor, habove, hbegins⟩ :=
        validateGeneratedCheckoutBoundary_eq_ok.mp hvalid
      rw [hstart] at hother hancestor habove
      cases hother.symm.trans hresolves
      rw [existingAncestor_of_absent habsent] at hancestor
      have hne : parentPath ≠ [] := by
        rintro rfl
        cases hancestor
      obtain ⟨entry, hentry⟩ := Process.lstat_of_resolve hne hparent
      rw [existingAncestor_of_lstat hne hentry] at hancestor
      cases hancestor
      obtain ⟨_, habove⟩ := Process.canonicalize_eq_ok.mp habove
      cases habove.symm.trans hparent
      exact hbegins
    have hbelow : boundary <+: parent →
        ∀ sibling, StrictlyBelow boundary (parent ++ [sibling]) :=
      fun hbegins _ => .append hbegins
    have hreplaced : Ensures (replaceGeneratedCheckout env process integrationDirectory request)
        world fun result final => Replaced process (Deed.Within boundary) request.directory
            (parent ++ [name]) (.directory (env.cloned world.log)) world.root result final ∧
          (result = .ok () → AllowsSiblings (Deed.Within boundary) parent) :=
      replaceGeneratedCheckout_ensures hdirectory hparent hback.directory hwithin
        fun sibling start hstart habsent hvalid =>
          have hsiblings := hbelow (hallows sibling start hstart habsent hvalid)
          ⟨fun _ _ _ => nofun, fun _ _ _ => ⟨hsiblings _, hsiblings _⟩, fun _ => hsiblings _⟩
    refine hreplaced.mono fun result final hpost => ?_
    cases result with
    | error error => exact hpost.1.logged
    | ok value =>
        refine ⟨fun found repository hfound hrepository => ?_, hpost.1.logged⟩
        -- The fresh clone is a repository of its own.
        obtain rfl := hpost.1.located rfl found hfound
        have hown := env.git.discover_clone _ _ _ (hpost.1.installed rfl) (env.isClone world.log)
        obtain rfl := Option.some.inj (hown.symm.trans hrepository)
        exact ((hpost.2 rfl).rename name name true).1.own
  all_goals
    unfold replaceGeneratedCheckout uniqueGeneratedSibling
    refine ensures_bind.mpr ?_
    unfold Ensures Action.run
    simp only [hlast]
    exact hwithin

theorem createIntegrationDirectory_ensures (world : World β) :
    Ensures (createIntegrationDirectory env process integrationDirectory) world
      fun result final => final.log = world.log ∧ match result with
        | .ok () => ∃ place, createDirectories process.linkLimit integrationDirectory world.root
            process.cwd = .ok (place, final.root)
        | .error _ => True := by
  unfold Ensures Action.run createIntegrationDirectory
  dsimp only
  cases env.createIntegration with
  | some reason => exact ⟨rfl, trivial⟩
  | none =>
      cases hmade : createDirectories process.linkLimit integrationDirectory world.root
          process.cwd with
      | error error => exact ⟨rfl, trivial⟩
      | ok made => exact ⟨rfl, made.1, rfl⟩

theorem ensures_cloneIfMissing {plan : CheckoutPlan} {world : World β}
    {post : Except InfrastructureError Unit → World β → Prop} :
    Ensures (cloneIfMissing env process plan request) world post ↔
      if isFound process world.root (request.directory ++ [.normal (osString ".git")]) then
        post (.ok ()) world
      else Ensures (runClone env process plan.clone) world post := by
  have hrun : (cloneIfMissing env process plan request).run world =
      if isFound process world.root (request.directory ++ [.normal (osString ".git")]) then
        (.ok (), world)
      else (runClone env process plan.clone).run world := rfl
  unfold Ensures
  rw [hrun]
  split <;> rfl

/-- Where git works after a missing checkout was cloned. -/
theorem cloneIfMissing_ensures {world : World β}
    (hresolves : process.canonicalize world.root integrationDirectory = .ok boundary)
    (hwithin : Logged (Deed.Within boundary) world) :
    Ensures (cloneIfMissing env process (CheckoutPlan.new integrationDirectory request) request)
      world fun result final => Logged (Deed.Within boundary) final ∧ (result = .ok () →
        process.canonicalize final.root integrationDirectory = .ok boundary ∧
        ∃ place, process.resolve final.root request.directory = .ok place ∧
          ∀ repository, env.git.discover final.root place = some repository →
            WorkTree env.git process world.root request.directory place repository) := by
  rw [ensures_cloneIfMissing]
  split
  next hfound =>
    obtain ⟨place, hplace, _⟩ := resolve_of_isFound hfound
    refine ⟨hwithin, fun _ => ⟨hresolves, place, hplace, fun repository hrepository => ?_⟩⟩
    rw [WorkTree, if_pos hfound]
    exact ⟨hplace, hrepository⟩
  next hfound =>
    refine (runClone_ensures_within _ request.repository rfl hwithin).mono
      fun result final hpost => ⟨hpost.1, fun hok => ?_⟩
    obtain ⟨place, made, htarget, hroot⟩ := hpost.2 hok
    obtain ⟨hplace, hfresh⟩ := resolve_of_cloneTarget htarget (env.cloned world.log)
    obtain ⟨hextends, _, _, hempty⟩ := cloneTarget_ok htarget
    obtain ⟨hne, hintegration⟩ := Process.canonicalize_eq_ok.mp hresolves
    have hfilled := hextends.trans (extends_put_of_empty hempty (env.cloned world.log))
    rw [hroot]
    refine ⟨Process.canonicalize_eq_ok.mpr ⟨hne, hfilled.resolve hintegration⟩, place, hplace,
      fun repository hrepository => ?_⟩
    rw [WorkTree, if_neg hfound]
    have hown := env.git.discover_clone _ _ _ hfresh (env.isClone world.log)
    exact ⟨⟨made, htarget⟩, Option.some.inj (hrepository.symm.trans hown)⟩

/-- Claiming the origin of a generated checkout stays within the boundary. -/
theorem claimOrigin_settled {plan : CheckoutPlan} (hplan : plan.generated = true)
    {world : World β}
    (hresolves : process.canonicalize world.root integrationDirectory = .ok boundary)
    {place : RealPath} (hplace : process.resolve world.root request.directory = .ok place)
    (hbelow : ∀ repository, env.git.discover world.root place = some repository →
      Inside boundary place repository) (hwithin : Logged (Deed.Within boundary) world) :
    Ensures (claimOrigin env process integrationDirectory plan request) world
      fun result final => match result with
        | .ok () => Settled env.git process request.directory boundary final
        | .error _ => Logged (Deed.Within boundary) final := by
  unfold claimOrigin
  rw [if_pos hplan]
  have hsettled : Settled env.git process request.directory boundary world := by
    refine ⟨fun found repository hfound hrepository => ?_, hwithin⟩
    cases hfound.symm.trans hplace
    exact hbelow repository hrepository
  have hset : ∀ middle, Settled env.git process request.directory boundary middle →
      Ensures (runIn env process (originSetCommand request)) middle fun result final =>
        match result with
        | .ok () => Settled env.git process request.directory boundary final
        | .error _ => Logged (Deed.Within boundary) final := fun middle hmiddle => by
    refine (runIn_settled _ middle hmiddle).mono fun result final hfinal => ?_
    cases result with
    | ok value => exact hfinal
    | error error => exact hfinal.within
  -- The probe keeps the file system, whatever it answers.
  have hprobe : Ensures (succeeds (runIn env process (originMatchProbe request))) world
      fun _ final => Settled env.git process request.directory boundary final ∧
        final.root = world.root := by
    refine Ensures.and (succeeds_keeps (runIn_settled _) world hsettled) ?_
    exact Ensures.attempt ((runIn_ensures _ world).mono fun _ _ hpost => hpost.1)
      fun _ _ hroot => hroot
  refine hprobe.bind ?_ fun _ _ hpost => hpost.1.within
  rintro originMatches probed ⟨hprobed, hroot⟩
  cases originMatches with
  | true =>
      exact Ensures.bind (keeps_pure () probed hprobed) (fun _ _ h => hset _ h)
        fun _ _ h => h.within
  | false =>
      rw [← hroot] at hresolves hplace
      refine Ensures.bind
        (replaceGeneratedCheckout_settled hresolves ⟨place, hplace⟩ hprobed.within) ?_ ?_
      · exact fun _ _ hpost => hset _ hpost
      · exact fun _ _ hpost => hpost

/-- When git works inside the boundary, so does all that `ensure` destroys. -/
theorem ensure_within {created : Entry OsString β} {integrationPlace : RealPath}
    (hcreated : createDirectories process.linkLimit integrationDirectory start process.cwd =
      .ok (integrationPlace, created))
    (hresolves : process.canonicalize created integrationDirectory = .ok boundary)
    (hgenerated : isPathWithin request.directory integrationDirectory = true)
    (hbelow : EntersGenerated process integrationDirectory request start created boundary →
      ∀ place repository, WorkTree env.git process created request.directory place repository →
        Inside boundary place repository)
    (sequence : Nat) :
    Ensures (ensure env process integrationDirectory request) ⟨start, sequence, []⟩
      fun _ final => Logged (Deed.Within boundary) final := by
  have hempty : ∀ world : World β, world.log = [] → Logged (Deed.Within boundary) world :=
    fun world hlog deed hdeed => absurd (hlog ▸ hdeed) List.not_mem_nil
  have hplan : (CheckoutPlan.new integrationDirectory request).generated = true := hgenerated
  unfold ensure
  split
  · exact hempty _ rfl
  next henabled =>
    refine Ensures.bind (createIntegrationDirectory_ensures _) ?_
      fun _ _ hpost => hempty _ hpost.1
    rintro ⟨⟩ first ⟨hlog, place, hmade⟩
    have hroot : first.root = created := by
      cases hmade.symm.trans hcreated
      rfl
    dsimp only
    split
    · exact hempty _ hlog
    next hdiffers =>
      rw [hplan]
      refine Ensures.bind (validateGeneratedCheckoutBoundary_ensures integrationDirectory
        request.directory first) ?_ fun _ _ hpost => hempty _ (hpost.1 ▸ hlog)
      rintro ⟨⟩ _ ⟨rfl, hvalid⟩
      obtain ⟨_, ancestor, above, hboundary, hvalidated⟩ :=
        validateGeneratedCheckoutBoundary_eq_ok.mp hvalid.symm
      rw [hroot] at hboundary hvalidated
      cases hboundary.symm.trans hresolves
      -- Both checks of the boundary have passed on the tree that they were made of.
      have henters : EntersGenerated process integrationDirectory request start created boundary :=
        ⟨Bool.eq_false_iff.mpr henabled, ⟨_, hcreated⟩, Bool.eq_false_iff.mpr hdiffers,
          hgenerated, hresolves, ancestor, above, hvalidated⟩
      rw [← hroot] at hresolves
      refine Ensures.bind (cloneIfMissing_ensures hresolves (hempty _ hlog)) ?_
        fun _ _ hpost => hpost.1
      rintro ⟨⟩ cloned ⟨hcloned, hok⟩
      obtain ⟨hcanonical, place, hplace, hworks⟩ := hok rfl
      rw [hroot] at hworks
      refine Ensures.bind (claimOrigin_settled hplan hcanonical hplace
        (fun repository hrepository => hbelow henters place repository
          (hworks repository hrepository)) hcloned) ?_ fun _ _ hfinal => hfinal
      intro _ claimed hclaimed
      exact Ensures.mono (synchronize_keeps (fun operation _ => runIn_settled operation) claimed
        hclaimed) fun _ _ hfinal => hfinal.within

/-! ## An external checkout -/

/-- The deed neither destroys, moves nor removes anything. -/
def Deed.Harmless : Deed → Prop
  | .git operation _ _ => operation.destroys = false
  | .rename _ _ _ | .remove _ => False

/-- A harmless deed is within any boundary. -/
theorem Deed.Harmless.within {deed : Deed} (hharmless : deed.Harmless) (boundary : RealPath) :
    deed.Within boundary := by
  cases deed with
  | git operation site succeeded =>
      intro hdestroys
      rw [show operation.destroys = false from hharmless] at hdestroys
      cases hdestroys
  | rename source target succeeded => exact hharmless.elim
  | remove place => exact hharmless.elim

/-- So far nothing was destroyed, nothing fetched or switched before the origin matched. -/
structure Untouched (request : CheckoutRequest) (world : World β) : Prop where
  guarded : Guarded request world.log
  harmless : Logged Deed.Harmless world

/-- A command that destroys nothing leaves the requested directory untouched. -/
theorem runIn_untouched {operation : GitOperation} (hharmless : operation.destroys = false)
    {world : World β} (huntouched : Untouched request world)
    (hswitches : operation.switches = true → OriginMatched request world.log) :
    Ensures (runIn env process ⟨request.directory, operation⟩) world fun result final =>
      Untouched request final ∧ (∃ deed, final.log = deed :: world.log) ∧
      (result = .ok () → ∃ site, .git operation site true ∈ final.log) := by
  refine (runIn_ensures _ world).mono fun result final hpost => ?_
  obtain ⟨_, site, succeeded, hlog, _, hok⟩ := hpost
  refine ⟨⟨?_, ?_⟩, ⟨_, hlog⟩, fun hresult => ⟨site, ?_⟩⟩
  · rw [hlog]
    exact ⟨hswitches, huntouched.guarded⟩
  · unfold Logged
    rw [hlog, List.forall_mem_cons]
    exact ⟨hharmless, huntouched.harmless⟩
  · rw [hlog, hok hresult]
    exact List.mem_cons_self

/-- The clone of a missing checkout leaves the requested directory untouched. -/
theorem cloneIfMissing_untouched {world : World β} (huntouched : Untouched request world) :
    Ensures (cloneIfMissing env process (CheckoutPlan.new integrationDirectory request) request)
      world fun _ final => Untouched request final := by
  rw [ensures_cloneIfMissing]
  split
  · exact huntouched
  have hcons : ∀ (final : World β) site succeeded,
      final.log = .git (.clone request.repository) site succeeded :: world.log →
        Untouched request final := fun final site succeeded hlog => by
    refine ⟨by rw [hlog]; exact ⟨nofun, huntouched.guarded⟩, ?_⟩
    unfold Logged
    rw [hlog, List.forall_mem_cons]
    exact ⟨rfl, huntouched.harmless⟩
  unfold Ensures Action.run runClone
  cases cloneTarget process world.root
      (CheckoutPlan.new integrationDirectory request).clone.directory with
  | error error => exact hcons _ _ _ rfl
  | ok target =>
      obtain ⟨place, made⟩ := target
      dsimp only
      cases env.command world.log (CheckoutPlan.new integrationDirectory request).clone with
      | none => exact hcons _ _ _ rfl
      | some reason => exact hcons _ _ _ rfl

/-- Claiming an external checkout asks that its origin matches. -/
theorem claimOrigin_untouched {plan : CheckoutPlan} (hplan : plan.generated = false)
    {world : World β} (huntouched : Untouched request world) :
    Ensures (claimOrigin env process integrationDirectory plan request) world
      fun result final => Untouched request final ∧
        (result = .ok () → OriginMatched request final.log) := by
  unfold claimOrigin
  rw [hplan, if_neg Bool.false_ne_true]
  have hprobe : Ensures (succeeds (runIn env process (originMatchProbe request))) world
      fun result final => Untouched request final ∧
        (result = .ok true → OriginMatched request final.log) := by
    refine Ensures.attempt (runIn_untouched rfl huntouched nofun) ?_
    rintro result final ⟨hfinal, _, hmatched⟩
    refine ensures_pure.mpr ⟨hfinal, fun hok => hmatched ?_⟩
    cases result with
    | ok value => rfl
    | error error => cases hok
  refine hprobe.bind ?_ fun _ _ hpost => ⟨hpost.1, nofun⟩
  rintro (_ | _) final ⟨hfinal, hmatched⟩
  · exact ensures_fail.mpr ⟨hfinal, nofun⟩
  · exact ensures_pure.mpr ⟨hfinal, fun _ => hmatched rfl⟩

/-- The steps of an external checkout leave the requested directory untouched. -/
theorem synchronize_untouched
    (hexternal : isPathWithin request.directory integrationDirectory = false) :
    Keeps (fun world : World β => Untouched request world ∧ OriginMatched request world.log)
      (synchronize env process (CheckoutPlan.new integrationDirectory request) request) := by
  refine synchronize_keeps ?_
  rintro operation hdestroys world ⟨huntouched, site, hsite⟩
  have hharmless : operation.destroys = false := by
    rw [← Bool.not_eq_true]
    intro htrue
    rw [hdestroys htrue] at hexternal
    cases hexternal
  refine (runIn_untouched hharmless huntouched fun _ => ⟨site, hsite⟩).mono ?_
  rintro result final ⟨hfinal, ⟨deed, hlog⟩, _⟩
  exact ⟨hfinal, site, hlog ▸ List.mem_cons_of_mem _ hsite⟩

/-- An external checkout is only fetched and switched when its origin matches. -/
theorem ensure_untouched
    (hexternal : isPathWithin request.directory integrationDirectory = false) (sequence : Nat) :
    Ensures (ensure env process integrationDirectory request) ⟨start, sequence, []⟩
      fun _ final => Untouched request final := by
  have hplan : (CheckoutPlan.new integrationDirectory request).generated = false := hexternal
  have hempty : ∀ world : World β, world.log = [] → Untouched request world := fun world hlog => by
    refine ⟨by rw [hlog]; trivial, ?_⟩
    unfold Logged
    rw [hlog]
    exact fun _ hdeed => absurd hdeed List.not_mem_nil
  unfold ensure
  split
  · exact hempty _ rfl
  refine Ensures.bind (createIntegrationDirectory_ensures _) ?_
    fun _ _ hpost => hempty _ hpost.1
  rintro ⟨⟩ first ⟨hlog, _⟩
  dsimp only
  split
  · exact hempty _ hlog
  rw [hplan]
  refine Ensures.bind (keeps_pure () first (hempty first hlog)) ?_ fun _ _ hpost => hpost
  rintro ⟨⟩ second hsecond
  refine (cloneIfMissing_untouched hsecond).bind ?_ fun _ _ hpost => hpost
  rintro ⟨⟩ third hthird
  refine (claimOrigin_untouched hplan hthird).bind ?_ fun _ _ hpost => hpost.1
  rintro ⟨⟩ fourth ⟨hfourth, hmatched⟩
  exact Ensures.mono (synchronize_untouched hexternal fourth ⟨hfourth, hmatched rfl⟩)
    fun _ _ hfinal => hfinal.1

end Generated

end Run

/-! ## Containment -/

/-- What a run has to keep to: below the boundary it destroys, and an external checkout
it only fetches and switches when the origin is the requested one. -/
structure Contained (process : Process OsString) (integrationDirectory : PathBuf)
    (request : CheckoutRequest) (start : Entry OsString β) (log : List Deed) : Prop where
  within : ∀ place created boundary, createDirectories process.linkLimit integrationDirectory
      start process.cwd = .ok (place, created) →
    process.canonicalize created integrationDirectory = .ok boundary →
    ∀ deed ∈ log, deed.Within boundary
  guarded : isPathWithin request.directory integrationDirectory = false → Guarded request log

/-- An environment in which everything succeeds, every clone with the same contents. -/
def Environment.obliging (git : Git β) {contents : List (OsString × Entry OsString β)}
    (hclone : git.IsClone contents) : Environment β where
  git := git
  processId := 0
  createIntegration := none
  command _ _ := none
  cloned _ := contents
  isClone _ := hclone
  leftover _ := none
  rename _ := none
  removal _ := none

section Containment

variable {git : Git β} {process : Process OsString} {integrationDirectory : PathBuf}
  {request : CheckoutRequest} {start created : Entry OsString β} {boundary place : RealPath}
  {repository : Repository} {contents : List (OsString × Entry OsString β)}

/-- The path of the checkout leads to a directory from which git finds the repository. -/
structure Works (git : Git β) (process : Process OsString) (directory : PathBuf)
    (place : RealPath) (repository : Repository) (root : Entry OsString β) : Prop where
  leads : process.resolve root directory = .ok place
  directory : ∃ entries, root.get? place = some (.directory entries)
  found : git.discover root place = some repository

theorem runIn_obliging (hclone : git.IsClone contents) {spec : CommandSpec} {world : World β}
    (hworks : Works git process spec.directory place repository world.root) :
    (runIn (Environment.obliging git hclone) process spec).run world =
      (.ok (), { world with
        log := .git spec.operation (some ⟨place, some repository⟩) true :: world.log }) := by
  have henter : enterDirectory process world.root spec.directory = .ok place :=
    except_bind_eq_ok.mpr ⟨place, hworks.leads, except_bind_eq_ok.mpr
      ⟨⟨⟩, Entry.directoryAt_eq_ok.mpr hworks.directory, rfl⟩⟩
  have hfound : (Environment.obliging git hclone).git.discover world.root place =
      some repository := hworks.found
  unfold Action.run runIn
  rw [henter]
  dsimp only
  rw [hfound]
  rfl

/-- With a host that obliges, the clone is there afterwards. -/
theorem cloneIfMissing_obliging (hclone : git.IsClone contents) {world : World β}
    (hworks : WorkTree git process world.root request.directory place repository) :
    Ensures (cloneIfMissing (Environment.obliging git hclone) process
        (CheckoutPlan.new integrationDirectory request) request) world fun result final =>
      result = .ok () ∧ Works git process request.directory place repository final.root := by
  rw [ensures_cloneIfMissing]
  unfold WorkTree at hworks
  split
  next hfound =>
    rw [if_pos hfound] at hworks
    obtain ⟨other, hother, hdirectory⟩ := resolve_of_isFound hfound
    cases hother.symm.trans hworks.1
    exact ⟨rfl, hworks.1, hdirectory, hworks.2⟩
  next hfound =>
    rw [if_neg hfound] at hworks
    obtain ⟨⟨made, htarget⟩, rfl⟩ := hworks
    have hrun : (runClone (Environment.obliging git hclone) process
        (CheckoutPlan.new integrationDirectory request).clone).run world =
        (.ok (), { world with
          root := made.put (some (.directory contents)) place
          log := .git (.clone request.repository) (some ⟨place, none⟩) true :: world.log }) := by
      unfold Action.run runClone
      rw [show cloneTarget process world.root (CheckoutPlan.new integrationDirectory
        request).clone.directory = .ok (place, made) from htarget]
      rfl
    unfold Ensures
    rw [hrun]
    obtain ⟨hplace, hfresh⟩ := resolve_of_cloneTarget htarget contents
    exact ⟨rfl, hplace, ⟨_, hfresh⟩, git.discover_clone _ _ _ hfresh hclone⟩

theorem claimOrigin_obliging (hclone : git.IsClone contents) {plan : CheckoutPlan}
    (hplan : plan.generated = true) {world : World β}
    (hworks : Works git process request.directory place repository world.root) :
    Ensures (claimOrigin (Environment.obliging git hclone) process integrationDirectory plan
        request) world fun result final => result = .ok () ∧
      .git (.setOrigin request.repository) (some ⟨place, some repository⟩) true ∈ final.log := by
  unfold claimOrigin
  rw [if_pos hplan]
  have hprobe : Ensures (succeeds (runIn (Environment.obliging git hclone) process
      (originMatchProbe request))) world fun result final =>
        result = .ok true ∧ final.root = world.root := by
    have hrun : Ensures (runIn (Environment.obliging git hclone) process
        (originMatchProbe request)) world fun result final =>
          result = .ok () ∧ final.root = world.root := by
      unfold Ensures
      rw [runIn_obliging hclone hworks]
      exact ⟨rfl, rfl⟩
    refine Ensures.attempt hrun ?_
    rintro _ final ⟨rfl, hroot⟩
    exact ensures_pure.mpr ⟨rfl, hroot⟩
  refine hprobe.bind ?_ fun _ _ hpost => by cases hpost.1
  rintro originMatches probed ⟨hmatches, hroot⟩
  cases hmatches
  rw [← hroot] at hworks
  change Ensures (pure () >>= fun _ => runIn (Environment.obliging git hclone) process
    (originSetCommand request)) probed _
  refine ensures_bind.mpr (ensures_pure.mpr ?_)
  unfold Ensures
  rw [runIn_obliging hclone hworks]
  exact ⟨rfl, List.mem_cons_self⟩

/-- When everything succeeds, git sets the origin in the work tree. -/
theorem ensure_sets_origin (hclone : git.IsClone contents)
    (henters : EntersGenerated process integrationDirectory request start created boundary)
    (hworks : WorkTree git process created request.directory place repository)
    (sequence : Nat) :
    Ensures (ensure (Environment.obliging git hclone) process integrationDirectory request)
      ⟨start, sequence, []⟩ fun _ final =>
        .git (.setOrigin request.repository) (some ⟨place, some repository⟩) true ∈
          final.log := by
  obtain ⟨_, hcreated⟩ := henters.made
  unfold ensure
  rw [henters.enabled, if_neg Bool.false_ne_true]
  have hmade : Ensures (createIntegrationDirectory (Environment.obliging git hclone) process
      integrationDirectory) ⟨start, sequence, []⟩ fun result final =>
        result = .ok () ∧ final = ⟨created, sequence, []⟩ := by
    unfold Ensures Action.run createIntegrationDirectory
    simp [Environment.obliging, hcreated]
  refine hmade.bind ?_ fun _ _ hpost => by cases hpost.1
  rintro ⟨⟩ _ ⟨_, rfl⟩
  dsimp only
  rw [henters.differs, if_neg Bool.false_ne_true]
  have hplan : (CheckoutPlan.new integrationDirectory request).generated = true :=
    henters.generated
  rw [hplan]
  have hvalid : Ensures (whenever true (validateGeneratedCheckoutBoundary process
      integrationDirectory request.directory)) ⟨created, sequence, []⟩ fun result final =>
        result = .ok () ∧ final = ⟨created, sequence, []⟩ := by
    obtain ⟨ancestor, above, hvalidated⟩ := henters.validated
    exact ⟨validateGeneratedCheckoutBoundary_eq_ok.mpr
      ⟨boundary, ancestor, above, henters.resolves, hvalidated⟩, rfl⟩
  refine hvalid.bind ?_ fun _ _ hpost => by cases hpost.1
  rintro ⟨⟩ _ ⟨_, rfl⟩
  refine (cloneIfMissing_obliging hclone hworks).bind ?_ fun _ _ hpost => by cases hpost.1
  rintro ⟨⟩ cloned ⟨_, hworks⟩
  refine (claimOrigin_obliging hclone hplan hworks).bind ?_ fun _ _ hpost => hpost.2
  rintro ⟨⟩ claimed ⟨_, hset⟩
  refine synchronize_keeps (fun operation _ world hworld => ?_) claimed hset
  refine (runIn_ensures _ world).mono fun _ final hpost => ?_
  obtain ⟨_, _, _, hlog, _⟩ := hpost
  exact hlog ▸ List.mem_cons_of_mem _ hworld

end Containment

/-! ### A link to the integration directory -/

def selfLinkTree : Entry OsString Unit := .directory [(osString "work", .directory
  (clonedRepository ++ [(osString "link", .symlink [.curDir])]))]

def selfLinkProcess : Process OsString := ⟨[], 40⟩

def selfLinkIntegration : PathBuf := [.rootDir, .normal (osString "work")]

def selfLinkRequest : CheckoutRequest where
  kind := .controlplane
  directory := [.rootDir, .normal (osString "work"), .normal (osString "link")]
  repository := osString "upstream"
  reference := osString "main"

theorem selfLink_enters : EntersGenerated selfLinkProcess selfLinkIntegration selfLinkRequest
    selfLinkTree selfLinkTree [osString "work"] where
  enabled := rfl
  made := ⟨[osString "work"], rfl⟩
  differs := rfl
  generated := rfl
  resolves := rfl
  validated := ⟨selfLinkRequest.directory, [osString "work"], rfl, rfl, List.prefix_rfl⟩

theorem selfLink_workTree : WorkTree searchingGit selfLinkProcess selfLinkTree
    selfLinkRequest.directory [osString "work"] (.own [osString "work"]) := by
  have hfound : isFound selfLinkProcess selfLinkTree
      (selfLinkRequest.directory ++ [.normal (osString ".git")]) = true := rfl
  rw [WorkTree, if_pos hfound]
  exact ⟨rfl, rfl⟩

end CfIntegration.Infrastructure.Checkout
