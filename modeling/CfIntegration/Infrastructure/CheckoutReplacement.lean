import Mathlib.Data.List.Nodup
import Mathlib.Data.List.Perm.Subperm
import CfIntegration.Infrastructure.Checkout

/-! # Replacing a generated checkout

The fresh clone is made beside the old checkout, which is moved aside before the
clone takes its place. The directory and the two siblings lie in one parent, so a
failure of any of these steps can only leave a few arrangements of the three.
-/

namespace CfIntegration.Infrastructure.Checkout

open FileSystem

variable {β : Type}

/-! ## Sibling names -/

theorem siblingName_eq (name : OsString) (role : String) (processId sequence : Nat) :
    siblingName name role processId sequence =
      osString "." ++ (name ++ (osString ".cf-integration-" ++ (osString role ++ (osString "-" ++
        (osString (toString processId) ++ (osString "-" ++ osString (toString sequence))))))) := by
  unfold siblingName
  rw [List.append_assoc]
  congr 2
  simp [osString, toString]

/-- A sibling never has the checkout's own name. -/
theorem siblingName_ne (name : OsString) (role : String) (processId sequence : Nat) :
    siblingName name role processId sequence ≠ name := by
  intro heq
  have hlength := congrArg List.length heq
  rw [siblingName_eq] at hlength
  simp only [List.length_append] at hlength
  have hdot : (osString ".").length = 1 := rfl
  omega

/-- The sibling of the replacement is not the one of the previous checkout. -/
theorem siblingName_replacement_ne_previous (name : OsString) (processId first second : Nat) :
    siblingName name "replacement" processId first ≠
      siblingName name "previous" processId second := by
  intro heq
  rw [siblingName_eq, siblingName_eq] at heq
  have hroles := List.append_cancel_left (List.append_cancel_left (List.append_cancel_left heq))
  have hhead : OsUnit.char 'r' = OsUnit.char 'p' := (List.cons.inj hroles).1
  cases hhead

/-- Siblings of different sequence numbers have different names. -/
theorem siblingName_injective (name : OsString) (role : String) (processId : Nat) :
    Function.Injective (siblingName name role processId) := by
  intro first second heq
  rw [siblingName_eq, siblingName_eq] at heq
  simp only [List.append_cancel_left_eq] at heq
  have htexts : (toString first).toList = (toString second).toList :=
    List.map_injective_iff.mpr (fun _ _ h => OsUnit.char.inj h) heq
  have hdigits : Nat.toDigits 10 first = Nat.toDigits 10 second := by
    simpa [toString, Nat.toList_repr] using htexts
  have hvalues := congrArg (Nat.ofDigitChars 10 · 0) hdigits
  simpa only [Nat.ofDigitChars_ten_toDigits] using hvalues

section FreeSibling

variable {process : Process OsString} {root : Entry OsString β} {parentPath : PathBuf}
  {name : OsString} {role : String} {processId : Nat}

/-- A sibling that was found free has a generated name and does not exist. -/
theorem freeSibling_ok {attempts sequence next : Nat} {path : PathBuf}
    (hfree : freeSibling process root parentPath name role processId attempts sequence =
      some (.ok path, next)) :
    ∃ number, path = parentPath ++ [.normal (siblingName name role processId number)] ∧
      process.lstat root path = .error .notFound := by
  induction attempts generalizing sequence with
  | zero => cases hfree
  | succ attempts ih =>
      rw [freeSibling] at hfree
      split at hfree
      · exact ih hfree
      next hnone =>
        cases hfree
        exact ⟨sequence, rfl, hnone⟩
      · cases hfree

/-- Every number that was tried in vain belongs to an entry of the parent. -/
theorem freeSibling_none {attempts sequence : Nat}
    (hfree : freeSibling process root parentPath name role processId attempts sequence = none) :
    ∀ number, sequence ≤ number → number < sequence + attempts →
      ∃ entry, process.lstat root
        (parentPath ++ [.normal (siblingName name role processId number)]) = .ok entry := by
  induction attempts generalizing sequence with
  | zero =>
      intro number hlow hhigh
      omega
  | succ attempts ih =>
      intro number hlow hhigh
      rw [freeSibling] at hfree
      split at hfree
      next entry hentry =>
        obtain rfl | hlater := Nat.eq_or_lt_of_le hlow
        · exact ⟨entry, hentry⟩
        · exact ih hfree number hlater (by omega)
      · cases hfree
      · cases hfree

/-- The search for a free sibling ends. -/
theorem freeSibling_isSome (sequence : Nat) :
    (freeSibling process root parentPath name role processId
      (siblingAttempts process root parentPath) sequence).isSome := by
  rw [Option.isSome_iff_ne_none]
  intro hfree
  have htaken := freeSibling_none hfree
  have hpositive : 0 < siblingAttempts process root parentPath := by
    unfold siblingAttempts
    split
    · exact Nat.one_pos
    · split
      · exact Nat.succ_pos _
      · exact Nat.one_pos
  obtain ⟨_, hfirst⟩ := htaken sequence (Nat.le_refl _) (by omega)
  rw [Process.lstat_concat] at hfirst
  obtain ⟨_, hslot, _⟩ := except_bind_eq_ok.mp hfirst
  obtain ⟨parent, hparent, ⟨entries, hentries⟩, _⟩ := Process.slot_concat.mp hslot
  have hattempts : siblingAttempts process root parentPath = entries.length + 1 := by
    simp [siblingAttempts, hparent, hentries]
  rw [hattempts] at htaken
  -- Every name that was tried is an entry of the parent.
  have hlisted : ∀ number ∈ List.range' sequence (entries.length + 1),
      siblingName name role processId number ∈ entries.map Prod.fst := by
    intro number hnumber
    rw [List.mem_range'_1] at hnumber
    obtain ⟨entry, hentry⟩ := htaken number hnumber.1 hnumber.2
    rw [Process.lstat_concat] at hentry
    obtain ⟨place, hplace, hentry⟩ := except_bind_eq_ok.mp hentry
    obtain ⟨found, hfound, _, rfl⟩ := Process.slot_concat.mp hplace
    obtain rfl := Except.ok.inj (hparent.symm.trans hfound)
    rw [okOr_eq_ok, Entry.get?_append, hentries, Option.bind_some, Entry.get?] at hentry
    obtain ⟨value, hlookup, _⟩ := Option.bind_eq_some_iff.mp hentry
    exact List.mem_map_of_mem (mem_of_lookup hlookup)
  have hnodup : ((List.range' sequence (entries.length + 1)).map
      (siblingName name role processId)).Nodup :=
    List.Nodup.map (siblingName_injective name role processId) List.nodup_range'
  -- The names are distinct, and there is one more of them than entries.
  have hlength := (List.subperm_of_subset hnodup (by
    intro sibling hsibling
    obtain ⟨number, hnumber, rfl⟩ := List.mem_map.mp hsibling
    exact hlisted number hnumber)).length_le
  simp only [List.length_map, List.length_range'] at hlength
  omega

end FreeSibling

/-! ## The steps -/

open CfIntegration.Action

variable {env : Environment β} {process : Process OsString}

/-- A unique sibling has a place that is free. -/
theorem uniqueGeneratedSibling_ensures {parentPath : PathBuf} {name : OsString} (role : String)
    (world : World β) :
    Ensures (uniqueGeneratedSibling env process (parentPath ++ [.normal name]) role) world
      fun result final => final.root = world.root ∧ final.log = world.log ∧
        ∀ path, result = .ok path → ∃ number,
          path = parentPath ++ [.normal (siblingName name role env.processId number)] ∧
            process.lstat world.root path = .error .notFound := by
  unfold Ensures Action.run uniqueGeneratedSibling
  rw [List.getLast?_concat, List.dropLast_concat]
  dsimp only
  split
  next result sequence hfree =>
    refine ⟨rfl, rfl, fun path hpath => ?_⟩
    obtain rfl : result = .ok path := hpath
    exact freeSibling_ok hfree
  · exact ⟨rfl, rfl, fun path hpath => by cases hpath⟩

theorem validateGeneratedCheckoutBoundary_ensures (integrationDirectory directory : PathBuf)
    (world : World β) :
    Ensures (validateGeneratedCheckoutBoundary process integrationDirectory directory) world
      fun result final => final = world ∧
        result = ((validateGeneratedCheckoutBoundary process integrationDirectory
          directory).run world).1 := ⟨rfl, rfl⟩

/-- Clones, and renames and removals within one directory, are allowed. -/
structure AllowsSiblings (allowed : Deed → Prop) (parent : RealPath) : Prop where
  clone : ∀ repository site succeeded, allowed (.git (.clone repository) site succeeded)
  rename : ∀ source target succeeded,
    allowed (.rename (parent ++ [source]) (parent ++ [target]) succeeded)
  remove : ∀ name, allowed (.remove (parent ++ [name]))

def Logged (allowed : Deed → Prop) (world : World β) : Prop := ∀ deed ∈ world.log, allowed deed

section Arranged

variable {base : Entry OsString β} {world : World β} {parentPath : PathBuf} {parent : RealPath}
  {listed : OsString → Option (Entry OsString β)} {allowed : Deed → Prop}

/-- If the path of the directory still leads somewhere, it leads to the directory. -/
def Located (process : Process OsString) (root : Entry OsString β) (parentPath : PathBuf)
    (parent : RealPath) : Prop :=
  ∀ place, process.resolve root parentPath = .ok place → place = parent

theorem Located.slot {root : Entry OsString β}
    (hlocated : Located process root parentPath parent) {name : OsString} {place : RealPath}
    (hslot : process.slot root (parentPath ++ [.normal name]) = .ok place) :
    place = parent ++ [name] := by
  obtain ⟨found, hfound, _, rfl⟩ := Process.slot_concat.mp hslot
  rw [hlocated found hfound]

/-- A parent that resolves still resolves in a compatible tree. -/
theorem Located.of_compatible {first second : Entry OsString β}
    (hcompatible : Compatible first second)
    (hresolve : process.resolve first parentPath = .ok parent) :
    Located process second parentPath parent :=
  fun _ hplace => hcompatible.resolve hresolve hplace

theorem listed_of_lstat (harranged : Arranged base world.root parent listed)
    (hresolve : process.resolve world.root parentPath = .ok parent) {name : OsString}
    (hnone : process.lstat world.root (parentPath ++ [.normal name]) = .error .notFound) :
    listed name = none := by
  have hslot : process.slot world.root (parentPath ++ [.normal name]) = .ok (parent ++ [name]) :=
    Process.slot_concat.mpr ⟨parent, hresolve, harranged.parent_directory, rfl⟩
  rw [Process.lstat_concat, hslot] at hnone
  rw [← harranged.get?_listed]
  cases hget : world.root.get? (parent ++ [name]) with
  | none => rfl
  | some entry => simp [bind, Except.bind, hget, okOr] at hnone

/-- A clone beside what exists is made in the directory it names. -/
theorem cloneTarget_sibling (harranged : Arranged base world.root parent listed)
    (hresolve : process.resolve world.root parentPath = .ok parent) {name : OsString}
    (hnone : listed name = none) {place : RealPath} {made : Entry OsString β}
    (htarget : cloneTarget process world.root (parentPath ++ [.normal name]) =
      .ok (place, made)) :
    place = parent ++ [name] ∧
      made = world.root.put (some (.directory [])) (parent ++ [name]) := by
  obtain ⟨left, hwalks⟩ := Process.resolve_eq_ok.mp hresolve
  obtain ⟨entries, hparent⟩ := harranged.parent_directory
  have habsent : world.root.get? (parent ++ [name]) = none := by
    rw [harranged.get?_listed, hnone]
  unfold cloneTarget at htarget
  cases hcanonical : process.canonicalize world.root (parentPath ++ [.normal name]) with
  | ok found =>
      obtain ⟨_, hfound⟩ := Process.canonicalize_eq_ok.mp hcanonical
      obtain ⟨_, hfound⟩ := Process.resolve_eq_ok.mp hfound
      obtain ⟨middle, _, hfront, hback⟩ := Entry.walks_append_iff.mp hfound
      have hmiddle := Compatible.walks (fun _ _ _ h h' => Option.some.inj (h.symm.trans h'))
        hwalks hfront
      cases hmiddle
      obtain ⟨stepped, hstep⟩ := hback.step
      obtain ⟨_, _, hstep⟩ := except_bind_eq_ok.mp hstep
      simp [Entry.kindAt, habsent] at hstep
  | error error =>
      rw [hcanonical, List.getLast?_concat, List.dropLast_concat] at htarget
      obtain ⟨_, hmade, htarget⟩ := except_bind_eq_ok.mp htarget
      cases hmade.symm.trans (createDirectories_of_walks hwalks (Nat.le_refl _) hparent)
      obtain ⟨_, _, htarget⟩ := except_bind_eq_ok.mp htarget
      obtain ⟨_, _, htarget⟩ := except_bind_eq_ok.mp htarget
      dsimp only at htarget
      split at htarget
      · split at htarget
        next heq =>
          cases htarget
          exact ⟨heq, rfl⟩
        · cases htarget
      · cases htarget

/-- A clone beside what exists fills its directory, or leaves there what it will. -/
theorem runClone_ensures (harranged : Arranged base world.root parent listed)
    (hresolve : process.resolve world.root parentPath = .ok parent) {name : OsString}
    (hnone : listed name = none) (hallows : AllowsSiblings allowed parent)
    (hlogged : Logged allowed world) (request : CheckoutRequest) :
    Ensures (runClone env process (cloneCommand request (parentPath ++ [.normal name]))) world
      fun result final => Logged allowed final ∧ match result with
        | .ok () => Arranged base final.root parent
            (Function.update listed name (some (.directory (env.cloned world.log))))
        | .error _ => final.root = world.root ∨ ∃ entry,
            Arranged base final.root parent (Function.update listed name (some entry)) := by
  unfold Ensures Action.run runClone cloneCommand
  dsimp only
  cases htarget : cloneTarget process world.root (parentPath ++ [.normal name]) with
  | error error => exact ⟨List.forall_mem_cons.mpr ⟨hallows.clone _ _ _, hlogged⟩, Or.inl rfl⟩
  | ok target =>
      obtain ⟨place, made⟩ := target
      obtain ⟨rfl, rfl⟩ := cloneTarget_sibling harranged hresolve hnone htarget
      have hmade := harranged.put name (some (.directory []))
      have hput : ∀ value, Arranged base ((world.root.put (some (.directory []))
          (parent ++ [name])).put value (parent ++ [name])) parent
            (Function.update listed name value) := fun value => by
        have hagain := hmade.put name value
        rwa [Function.update_idem] at hagain
      dsimp only
      cases env.command world.log ⟨parentPath ++ [.normal name], .clone request.repository⟩ with
      | none => exact ⟨List.forall_mem_cons.mpr ⟨hallows.clone _ _ _, hlogged⟩, hput _⟩
      | some reason =>
          refine ⟨List.forall_mem_cons.mpr ⟨hallows.clone _ _ _, hlogged⟩, ?_⟩
          cases env.leftover world.log with
          | none => exact Or.inl rfl
          | some entry => exact Or.inr ⟨entry, hput _⟩

/-- A rename that succeeds moves the whole entry. -/
theorem renameEntry_eq_ok {fault : Option String} {root renamed : Entry OsString β}
    {source target : RealPath} (hrenamed : renameEntry fault root source target = .ok renamed) :
    ∃ entry, root.get? source = some entry ∧ root.get? target = none ∧
      renamed = (root.put none source).put (some entry) target := by
  unfold renameEntry at hrenamed
  split at hrenamed
  · cases hrenamed
  · cases hrenamed
  · cases hrenamed
  next entry hsource htarget =>
    split at hrenamed
    · cases hrenamed
    · cases hrenamed
      exact ⟨entry, hsource, htarget, rfl⟩

/-- A rename moves an entry within the directory, or changes nothing. -/
theorem rename_ensures (harranged : Arranged base world.root parent listed)
    (hlocated : Located process world.root parentPath parent)
    (hallows : AllowsSiblings allowed parent) (hlogged : Logged allowed world)
    {source target : OsString} :
    Ensures (rename env process (parentPath ++ [.normal source]) (parentPath ++ [.normal target]))
      world fun result final => Logged allowed final ∧ match result with
        | .ok () => process.resolve world.root parentPath = .ok parent ∧ ∃ entry,
            listed source = some entry ∧ listed target = none ∧
            Arranged base final.root parent
              (Function.update (Function.update listed source none) target (some entry))
        | .error _ => final.root = world.root := by
  unfold Ensures Action.run rename
  cases hsource : process.slot world.root (parentPath ++ [.normal source]) with
  | error error => exact ⟨hlogged, rfl⟩
  | ok sourcePlace =>
      cases htarget : process.slot world.root (parentPath ++ [.normal target]) with
      | error error => exact ⟨hlogged, rfl⟩
      | ok targetPlace =>
          obtain ⟨found, hfound, _, _⟩ := Process.slot_concat.mp hsource
          obtain rfl := hlocated found hfound
          obtain rfl := hlocated.slot hsource
          obtain rfl := hlocated.slot htarget
          dsimp only
          cases hrename : renameEntry (env.rename world.log) world.root (found ++ [source])
              (found ++ [target]) with
          | error error =>
              exact ⟨List.forall_mem_cons.mpr ⟨hallows.rename _ _ _, hlogged⟩, rfl⟩
          | ok renamed =>
              obtain ⟨entry, hentry, hnone, rfl⟩ := renameEntry_eq_ok hrename
              rw [harranged.get?_listed] at hentry hnone
              exact ⟨List.forall_mem_cons.mpr ⟨hallows.rename _ _ _, hlogged⟩, hfound, entry,
                hentry, hnone, (harranged.put source none).put target _⟩

/-- A removal leaves nothing, or reports the path where it leaves something. -/
theorem cleanUp_ensures (harranged : Arranged base world.root parent listed)
    (hlocated : Located process world.root parentPath parent)
    (hallows : AllowsSiblings allowed parent) (hlogged : Logged allowed world)
    (message : String) (name : OsString) :
    Ensures (cleanUp env process message (parentPath ++ [.normal name])) world
      fun result final => Logged allowed final ∧ match result with
        | .ok () => Arranged base final.root parent (Function.update listed name none) ∨
            final.root = world.root ∧
              process.lstat world.root (parentPath ++ [.normal name]) = .error .notFound
        | .error error => error.names (parentPath ++ [.normal name]) ∧
            (final.root = world.root ∨ ∃ leftover,
              Arranged base final.root parent (Function.update listed name leftover)) := by
  have hnames : ∀ error : InfrastructureError,
      InfrastructureError.names ([.text message, .path (parentPath ++ [.normal name])] :: error)
        (parentPath ++ [.normal name]) :=
    fun error => ⟨_, List.mem_cons_self, List.mem_cons_of_mem _ List.mem_cons_self⟩
  refine ensures_mapError.mpr ?_
  unfold Ensures Action.run removePathIfPresent
  cases hslot : process.slot world.root (parentPath ++ [.normal name]) with
  | error error =>
      have hlstat : process.lstat world.root (parentPath ++ [.normal name]) = .error error := by
        rw [Process.lstat_concat, hslot]
        rfl
      rw [hlstat]
      cases error
      · exact ⟨hlogged, Or.inr ⟨rfl, rfl⟩⟩
      all_goals exact ⟨hlogged, hnames _, Or.inl rfl⟩
  | ok place =>
      obtain rfl := hlocated.slot hslot
      have hlstat : process.lstat world.root (parentPath ++ [.normal name]) =
          okOr (world.root.get? (parent ++ [name])) .notFound := by
        rw [Process.lstat_concat, hslot]
        rfl
      cases hget : world.root.get? (parent ++ [name]) with
      | none =>
          rw [hget] at hlstat
          rw [hlstat]
          exact ⟨hlogged, Or.inr ⟨rfl, rfl⟩⟩
      | some entry =>
          rw [hget] at hlstat
          rw [hlstat]
          dsimp only [okOr]
          have hremoved : ∀ deed ∈ .remove (parent ++ [name]) :: world.log, allowed deed :=
            List.forall_mem_cons.mpr ⟨hallows.remove _, hlogged⟩
          -- The removal succeeds, or it leaves what it could not remove.
          rcases env.removal world.log with _ | ⟨reason, leftover⟩
          · exact ⟨hremoved, Or.inl (harranged.put name none)⟩
          · exact ⟨hremoved, hnames _, Or.inr ⟨leftover, harranged.put name leftover⟩⟩

end Arranged

/-! ## What a replacement leaves -/

/-- The directory at `home` holds the previous or the fresh checkout, or the error names
the sibling that holds the previous one; where the directory holds a checkout, every
sibling that is not as before is named by the error. -/
structure Recoverable (directory : PathBuf) (home : RealPath) (fresh : Entry OsString β)
    (before after : Entry OsString β) (result : Except InfrastructureError Unit) : Prop where
  complete : after.get? home = before.get? home ∨ after.get? home = some fresh ∨
    ∃ backup error, result = .error error ∧
      error.names (directory.dropLast ++ [.normal backup]) ∧
      before.get? (home.dropLast ++ [backup]) = none ∧
      after.get? (home.dropLast ++ [backup]) = before.get? home
  cleaned : ∀ error, result = .error error →
    after.get? home = before.get? home ∨ after.get? home = some fresh →
    ∀ sibling, home.dropLast ++ [sibling] ≠ home →
      after.get? (home.dropLast ++ [sibling]) = before.get? (home.dropLast ++ [sibling]) ∨
        error.names (directory.dropLast ++ [.normal sibling])

/-- Beside the recovery, only allowed deeds are logged, and a replaced directory is the
fresh one and the one that its path leads to. -/
structure Replaced (process : Process OsString) (allowed : Deed → Prop) (directory : PathBuf)
    (home : RealPath) (fresh : Entry OsString β) (before : Entry OsString β)
    (result : Except InfrastructureError Unit) (final : World β) : Prop where
  recoverable : Recoverable directory home fresh before final.root result
  logged : Logged allowed final
  installed : result = .ok () → final.root.get? home = some fresh
  located : result = .ok () →
    ∀ place, process.resolve final.root directory = .ok place → place = home

section Replacement

variable {base : Entry OsString β} {world : World β} {parentPath : PathBuf} {parent : RealPath}
  {name : OsString} {fresh : Entry OsString β} {listed : OsString → Option (Entry OsString β)}
  {result : Except InfrastructureError Unit} {allowed : Deed → Prop}

/-- The outcome when the directory ends up with one of the two checkouts. -/
theorem Recoverable.of_arranged {after : Entry OsString β}
    (harranged : Arranged base after parent listed)
    (hhome : listed name = base.get? (parent ++ [name]) ∨ listed name = some fresh)
    (hsiblings : ∀ error, result = .error error → ∀ sibling, sibling ≠ name →
      listed sibling = base.get? (parent ++ [sibling]) ∨
        error.names (parentPath ++ [.normal sibling])) :
    Recoverable (parentPath ++ [.normal name]) (parent ++ [name]) fresh base after result where
  complete := by
    rw [harranged.get?_listed]
    exact hhome.imp_right Or.inl
  cleaned := by
    intro error herror _ sibling hne
    rw [List.dropLast_concat] at hne ⊢
    rw [List.dropLast_concat, harranged.get?_listed]
    exact hsiblings error herror sibling fun heq => hne (heq ▸ rfl)

/-- The outcome when nothing changed. -/
theorem Recoverable.of_unchanged (directory : PathBuf) (home : RealPath) :
    Recoverable directory home fresh base base result :=
  ⟨Or.inl rfl, fun _ _ _ _ _ => Or.inl rfl⟩

/-- Before the old checkout is moved, or after it was moved back, a failure removes the
staged clone or reports that it could not. -/
theorem cleanUp_staging_ensures {staging : OsString} (hallows : AllowsSiblings allowed parent)
    (hlogged : Logged allowed world) (hparent : process.resolve base parentPath = .ok parent)
    (hbase : ∃ entries, base.get? parent = some (.directory entries))
    (hstaging : base.get? (parent ++ [staging]) = none) (hne : staging ≠ name)
    (harranged : Arranged base world.root parent listed)
    (hlisted : ∀ other, other ≠ staging → listed other = base.get? (parent ++ [other]))
    (message : String) (error : InfrastructureError) :
    Ensures (do
        cleanUp env process message (parentPath ++ [.normal staging])
        Action.fail error) world fun result final =>
      Replaced process allowed (parentPath ++ [.normal name]) (parent ++ [name]) fresh base
        result final := by
  -- Beside the staging directory nothing has changed, so the parent is found as before.
  have hextends : Extends base world.root := by
    refine (Arranged.refl hbase).extends harranged fun other entry hentry => ?_
    by_cases hother : other = staging
    · rw [hother, hstaging] at hentry
      cases hentry
    · rw [hlisted other hother, hentry]
  have hresolve := hextends.resolve hparent
  have hlocated : Located process world.root parentPath parent := fun place hplace =>
    Except.ok.inj (hplace.symm.trans hresolve)
  have hupdate : ∀ value other, other ≠ staging →
      Function.update listed staging value other = base.get? (parent ++ [other]) :=
    fun value other hother => by rw [Function.update_of_ne hother, hlisted other hother]
  refine Ensures.bind (cleanUp_ensures harranged hlocated hallows hlogged message staging) ?_ ?_
  · rintro ⟨⟩ final ⟨hfinal, hremoved | ⟨hroot, hnone⟩⟩
    · refine ⟨?_, hfinal, nofun, nofun⟩
      refine Recoverable.of_arranged hremoved (Or.inl (hupdate _ _ hne.symm)) ?_
      intro _ _ sibling _
      by_cases hsibling : sibling = staging
      · rw [hsibling, Function.update_self, hstaging]
        exact Or.inl rfl
      · exact Or.inl (hupdate _ _ hsibling)
    · rw [← hroot] at harranged
      refine ⟨?_, hfinal, nofun, nofun⟩
      refine Recoverable.of_arranged harranged (Or.inl (hlisted _ hne.symm)) ?_
      intro _ _ sibling _
      by_cases hsibling : sibling = staging
      · rw [hsibling, hstaging]
        rw [hroot] at harranged
        exact Or.inl (listed_of_lstat harranged hresolve hnone)
      · exact Or.inl (hlisted _ hsibling)
  -- A staging directory that is left is named by the error.
  · rintro failure final ⟨hfinal, hnames, hroot | ⟨leftover, hremoved⟩⟩
    · rw [← hroot] at harranged
      refine ⟨?_, hfinal, nofun, nofun⟩
      refine Recoverable.of_arranged harranged (Or.inl (hlisted _ hne.symm)) ?_
      rintro _ ⟨⟩ sibling _
      by_cases hsibling : sibling = staging
      · exact Or.inr (hsibling ▸ hnames)
      · exact Or.inl (hlisted _ hsibling)
    · refine ⟨?_, hfinal, nofun, nofun⟩
      refine Recoverable.of_arranged hremoved (Or.inl (hupdate _ _ hne.symm)) ?_
      rintro _ ⟨⟩ sibling _
      by_cases hsibling : sibling = staging
      · exact Or.inr (hsibling ▸ hnames)
      · exact Or.inl (hupdate _ _ hsibling)

/-- Where a path leads when the last name of it is a directory. -/
theorem Located.resolve {root : Entry OsString β}
    (hlocated : Located process root parentPath parent)
    {entries : List (OsString × Entry OsString β)}
    (hhome : root.get? (parent ++ [name]) = some (.directory entries)) {place : RealPath}
    (hplace : process.resolve root (parentPath ++ [.normal name]) = .ok place) :
    place = parent ++ [name] := by
  obtain ⟨_, hwalks⟩ := Process.resolve_eq_ok.mp hplace
  obtain ⟨middle, left, hfront, hback⟩ := Entry.walks_append_iff.mp hwalks
  obtain rfl := hlocated middle (Process.resolve_eq_ok.mpr ⟨left, hfront⟩)
  cases hback with
  | arrive hstep hrest =>
      obtain ⟨_, _, hstep⟩ := except_bind_eq_ok.mp hstep
      cases hrest
      simp only [Entry.kindAt, hhome, Option.map_some, Entry.kind] at hstep
      cases hstep
      rfl
  | follow hstep _ =>
      obtain ⟨_, _, hstep⟩ := except_bind_eq_ok.mp hstep
      simp only [Entry.kindAt, hhome, Option.map_some, Entry.kind] at hstep
      cases hstep

/-- After the fresh clone took its place, the old checkout is removed from its backup. -/
theorem cleanUp_backup_ensures {backup : OsString}
    {moved : Entry OsString β} {vacant : OsString → Option (Entry OsString β)}
    {contents : List (OsString × Entry OsString β)} (hallows : AllowsSiblings allowed parent)
    (hlogged : Logged allowed world) (hne : backup ≠ name)
    (hmoved : Arranged base moved parent vacant)
    (hresolve : process.resolve moved parentPath = .ok parent)
    (harranged : Arranged base world.root parent listed)
    (hhome : listed name = some (.directory contents)) (hvacant : vacant name = none)
    (hlisted : ∀ other entry found, other ≠ name → vacant other = some entry →
      listed other = some found → entry = found)
    (hothers : ∀ other, other ≠ backup → other ≠ name →
      listed other = base.get? (parent ++ [other])) (message : String) :
    Ensures (cleanUp env process message (parentPath ++ [.normal backup])) world
      fun result final => Replaced process allowed (parentPath ++ [.normal name])
        (parent ++ [name]) (.directory contents) base result final := by
  have hkept : ∀ value, Function.update listed backup value name = some (.directory contents) :=
    fun value => by rw [Function.update_of_ne hne.symm, hhome]
  -- A link in the parent path cannot lead through the entry that was vacant.
  have hlocated : Located process world.root parentPath parent := by
    refine Located.of_compatible (hmoved.compatible harranged ?_) hresolve
    intro other entry found hentry hfound
    by_cases hother : other = name
    · rw [hother, hvacant] at hentry
      cases hentry
    · exact hlisted other entry found hother hentry hfound
  refine (cleanUp_ensures harranged hlocated hallows hlogged message backup).mono
    fun result final hpost => ?_
  -- The fresh checkout is in place, whether the backup is gone or not.
  cases result with
  | ok value =>
      obtain ⟨hfinal, hremoved | ⟨hroot, _⟩⟩ := hpost
      · have hinstalled := (hremoved.get?_listed name).trans (hkept _)
        refine ⟨Recoverable.of_arranged hremoved (Or.inr (hkept _)) nofun, hfinal,
          fun _ => hinstalled, ?_⟩
        have hlocatedRemoved : Located process final.root parentPath parent := by
          refine Located.of_compatible (hmoved.compatible hremoved ?_) hresolve
          intro other entry found hentry hfound
          by_cases hother : other = name
          · rw [hother, hvacant] at hentry
            cases hentry
          by_cases hbackup : other = backup
          · rw [hbackup, Function.update_self] at hfound
            cases hfound
          · rw [Function.update_of_ne hbackup] at hfound
            exact hlisted other entry found hother hentry hfound
        intro _ place hplace
        exact hlocatedRemoved.resolve hinstalled hplace
      · rw [← hroot] at harranged hlocated
        have hinstalled := (harranged.get?_listed name).trans hhome
        refine ⟨Recoverable.of_arranged harranged (Or.inr hhome) nofun, hfinal,
          fun _ => hinstalled, ?_⟩
        intro _ place hplace
        exact hlocated.resolve hinstalled hplace
  | error error =>
      obtain ⟨hfinal, hnames, hroot | ⟨leftover, hremoved⟩⟩ := hpost
      · rw [← hroot] at harranged
        refine ⟨?_, hfinal, nofun, nofun⟩
        refine Recoverable.of_arranged harranged (Or.inr hhome) ?_
        rintro _ ⟨⟩ sibling hsibling
        by_cases hbackup : sibling = backup
        · exact Or.inr (hbackup ▸ hnames)
        · exact Or.inl (hothers _ hbackup hsibling)
      · refine ⟨?_, hfinal, nofun, nofun⟩
        refine Recoverable.of_arranged hremoved (Or.inr (hkept _)) ?_
        rintro _ ⟨⟩ sibling hsibling
        by_cases hbackup : sibling = backup
        · exact Or.inr (hbackup ▸ hnames)
        · rw [Function.update_of_ne hbackup]
          exact Or.inl (hothers _ hbackup hsibling)

/-- Once the fresh clone is staged, the old checkout gives way to it or stays. -/
theorem installFreshCheckout_ensures {env : Environment β} {process : Process OsString}
    {staging backup : OsString} {contents : List (OsString × Entry OsString β)}
    (request : CheckoutRequest) (hallows : AllowsSiblings allowed parent)
    (hlogged : Logged allowed world)
    (hrequest : request.directory = parentPath ++ [.normal name])
    (hparent : process.resolve base parentPath = .ok parent)
    (hbase : ∃ entries, base.get? parent = some (.directory entries))
    (hstaging : base.get? (parent ++ [staging]) = none)
    (hbackup : base.get? (parent ++ [backup]) = none)
    (hne : staging ≠ name ∧ backup ≠ name ∧ staging ≠ backup)
    (harranged : Arranged base world.root parent
      (Function.update (fun other => base.get? (parent ++ [other])) staging
        (some (.directory contents)))) :
    Ensures (installFreshCheckout env process request (parentPath ++ [.normal staging])
        (parentPath ++ [.normal backup])) world fun result final =>
      Replaced process allowed (parentPath ++ [.normal name]) (parent ++ [name])
        (.directory contents) base result final := by
  unfold installFreshCheckout
  obtain ⟨hstagingName, hbackupName, hdistinct⟩ := hne
  rw [hrequest]
  have hstaged : ∀ other, other ≠ staging →
      Function.update (fun other => base.get? (parent ++ [other])) staging
        (some (.directory contents)) other = base.get? (parent ++ [other]) :=
    fun other hother => Function.update_of_ne hother _ _
  have hfirst : Extends base world.root := by
    refine (Arranged.refl hbase).extends harranged fun other entry hentry => ?_
    by_cases hother : other = staging
    · rw [hother, hstaging] at hentry
      cases hentry
    · rw [hstaged other hother, hentry]
  have hresolve := hfirst.resolve hparent
  have hlocated : Located process world.root parentPath parent := fun place hplace =>
    Except.ok.inj (hplace.symm.trans hresolve)
  refine Ensures.attempt (rename_ensures harranged hlocated hallows hlogged) ?_
  rintro (preserveError | ⟨⟩) preserved ⟨hpreservedLog, hpreserved⟩
  · have hroot : preserved.root = world.root := hpreserved
    rw [← hroot] at harranged
    exact cleanUp_staging_ensures hallows hpreservedLog hparent hbase hstaging hstagingName
      harranged hstaged _ _
  -- The old checkout is in the backup, and nothing is in the directory.
  obtain ⟨_, old, hold, _, hmoved⟩ := hpreserved
  rw [hstaged name hstagingName.symm] at hold
  have hlocatedMoved : Located process preserved.root parentPath parent := by
    refine Located.of_compatible (harranged.compatible hmoved ?_) hresolve
    intro other entry found hentry hfound
    simp only [Function.update_apply] at hentry hfound
    grind
  refine Ensures.attempt (rename_ensures hmoved hlocatedMoved hallows hpreservedLog) ?_
  rintro (replaceError | ⟨⟩) replaced ⟨hreplacedLog, hreplaced⟩
  · have hroot : replaced.root = preserved.root := hreplaced
    rw [← hroot] at hmoved hlocatedMoved
    refine Ensures.attempt (rename_ensures hmoved hlocatedMoved hallows hreplacedLog) ?_
    rintro (restoreError | ⟨⟩) restored ⟨hrestoredLog, hrestored⟩
    · have hroot : restored.root = replaced.root := hrestored
      rw [← hroot] at hmoved
      refine ensures_fail.mpr ⟨⟨Or.inr (Or.inr ⟨backup, _, rfl, ?_, ?_, ?_⟩), ?_⟩,
        hrestoredLog, nofun, nofun⟩
      · rw [List.dropLast_concat]
        refine ⟨_, List.mem_cons_self, ?_⟩
        simp
      · rw [List.dropLast_concat, hbackup]
      · rw [List.dropLast_concat, hmoved.get?_listed, Function.update_self, hold]
      · rintro _ _ hhome
        rw [hmoved.get?_listed, Function.update_of_ne hbackupName.symm, Function.update_self,
          hold] at hhome
        obtain hhome | hhome := hhome <;> cases hhome
    · obtain ⟨_, entry, hentry, _, hback⟩ := hrestored
      rw [Function.update_self] at hentry
      refine cleanUp_staging_ensures hallows hrestoredLog hparent hbase hstaging hstagingName
        hback ?_ _ _
      intro other hother
      simp only [Function.update_apply]
      grind
  · obtain ⟨hresolveMoved, entry, hentry, _, hinstalled⟩ := hreplaced
    have hentry : entry = .directory contents := by
      simp only [Function.update_apply] at hentry
      grind
    subst hentry
    refine cleanUp_backup_ensures hallows hreplacedLog hbackupName hmoved hresolveMoved hinstalled
      (Function.update_self ..) ?_ ?_ ?_ _
    · rw [Function.update_of_ne hbackupName.symm, Function.update_self]
    · intro other old found hother hold hfound
      simp only [Function.update_apply] at hold hfound
      grind
    · intro other hother hname
      simp only [Function.update_apply]
      grind

end Replacement

section Whole

variable {allowed : Deed → Prop} {integrationDirectory parentPath : PathBuf}
  {request : CheckoutRequest} {world : World β} {parent : RealPath} {name : OsString}

/-- What a replacement does, when the deeds within the parent are allowed once both
siblings passed the boundary check. -/
theorem replaceGeneratedCheckout_ensures {env : Environment β} {process : Process OsString}
    (hdirectory : request.directory = parentPath ++ [.normal name])
    (hparent : process.resolve world.root parentPath = .ok parent)
    (hbase : ∃ entries, world.root.get? parent = some (.directory entries))
    (hlogged : Logged allowed world)
    (hallows : ∀ sibling start, start.root = world.root →
      process.lstat world.root (parentPath ++ [.normal sibling]) = .error .notFound →
      ((validateGeneratedCheckoutBoundary process integrationDirectory
        (parentPath ++ [.normal sibling])).run start).1 = .ok () →
      AllowsSiblings allowed parent) :
    Ensures (replaceGeneratedCheckout env process integrationDirectory request) world
      fun result final => Replaced process allowed request.directory (parent ++ [name])
          (.directory (env.cloned world.log)) world.root result final ∧
        (result = .ok () → AllowsSiblings allowed parent) := by
  unfold replaceGeneratedCheckout
  rw [hdirectory]
  -- Every failure before the clone leaves the file system as it was.
  have hunchanged : ∀ {error : InfrastructureError} {final : World β},
      final.root = world.root → final.log = world.log →
      Replaced process allowed (parentPath ++ [.normal name]) (parent ++ [name])
          (.directory (env.cloned world.log)) world.root (.error error) final ∧
        ((.error error : Except InfrastructureError Unit) = .ok () →
          AllowsSiblings allowed parent) :=
    fun hroot hlog => ⟨⟨hroot ▸ Recoverable.of_unchanged _ _,
      fun deed hdeed => hlogged deed (hlog ▸ hdeed), nofun, nofun⟩, nofun⟩
  refine Ensures.bind (uniqueGeneratedSibling_ensures "replacement" world) ?_
    fun _ _ hpost => hunchanged hpost.1 hpost.2.1
  rintro staging first ⟨hfirst, hfirstLog, hstaging⟩
  obtain ⟨stagingNumber, rfl, hstaging⟩ := hstaging staging rfl
  refine Ensures.bind (uniqueGeneratedSibling_ensures "previous" first) ?_
    fun _ _ hpost => hunchanged (hpost.1.trans hfirst) (hpost.2.1.trans hfirstLog)
  rintro backup second ⟨hsecond, hsecondLog, hbackup⟩
  obtain ⟨backupNumber, rfl, hbackup⟩ := hbackup backup rfl
  rw [hfirst] at hbackup hsecond
  rw [hfirstLog] at hsecondLog
  refine Ensures.bind (validateGeneratedCheckoutBoundary_ensures _ _ second) ?_
    fun _ _ hpost => hunchanged (hpost.1 ▸ hsecond) (hpost.1 ▸ hsecondLog)
  rintro ⟨⟩ _ ⟨rfl, hvalid⟩
  have hallows := hallows _ _ hsecond hstaging hvalid.symm
  refine Ensures.bind (validateGeneratedCheckoutBoundary_ensures _ _ _) ?_
    fun _ _ hpost => hunchanged (hpost.1 ▸ hsecond) (hpost.1 ▸ hsecondLog)
  rintro ⟨⟩ third ⟨rfl, _⟩
  have hlogged : Logged allowed third := fun deed hdeed => hlogged deed (hsecondLog ▸ hdeed)
  rw [← hsecond] at hbase hparent hstaging hbackup
  rw [← hsecond, ← hsecondLog]
  have harranged := Arranged.refl hbase
  have hnoStaging := listed_of_lstat harranged hparent hstaging
  have hnoBackup := listed_of_lstat harranged hparent hbackup
  refine Ensures.and ?_ fun _ => hallows
  -- A clone that fails may leave a part of itself in the staging directory.
  refine Ensures.attempt (runClone_ensures harranged hparent hnoStaging hallows hlogged request) ?_
  rintro (cloneError | ⟨⟩) cloned ⟨hclonedLog, hcloned⟩
  · obtain hroot | ⟨entry, hleft⟩ := hcloned
    · have hsame : Arranged third.root cloned.root parent fun other =>
          third.root.get? (parent ++ [other]) := by
        rw [hroot]
        exact harranged
      exact cleanUp_staging_ensures hallows hclonedLog hparent hbase hnoStaging
        (siblingName_ne _ _ _ _) hsame (fun _ _ => rfl) _ _
    · exact cleanUp_staging_ensures hallows hclonedLog hparent hbase hnoStaging
        (siblingName_ne _ _ _ _) hleft (fun other hother => Function.update_of_ne hother _ _) _ _
  · exact installFreshCheckout_ensures request hallows hclonedLog hdirectory hparent hbase
      hnoStaging hnoBackup ⟨siblingName_ne _ _ _ _, siblingName_ne _ _ _ _,
        siblingName_replacement_ne_previous _ _ _ _⟩ hcloned

end Whole

/-- After a replacement the directory holds the old checkout or the fresh one, or the
error names the backup with the old one; and where it holds one of them, an error leaves
no sibling behind that it does not name. -/
theorem replaceGeneratedCheckout_recoverable (env : Environment β) (process : Process OsString)
    (integrationDirectory : PathBuf) (request : CheckoutRequest) (world : World β)
    {home : RealPath} (hhome : process.slot world.root request.directory = .ok home) :
    Recoverable request.directory home (.directory (env.cloned world.log)) world.root
      ((replaceGeneratedCheckout env process integrationDirectory request).run world).2.root
      ((replaceGeneratedCheckout env process integrationDirectory request).run world).1 := by
  obtain ⟨name, parent, hdirectory, hparent, hbase, rfl⟩ := Process.slot_eq_ok.mp hhome
  have hreplaced : Ensures (replaceGeneratedCheckout env process integrationDirectory request)
      world fun result final => Replaced process (fun _ => True) request.directory
          (parent ++ [name]) (.directory (env.cloned world.log)) world.root result final ∧
        (result = .ok () → AllowsSiblings (fun _ => True) parent) :=
    replaceGeneratedCheckout_ensures hdirectory hparent hbase (fun _ _ => trivial)
      fun _ _ _ _ _ => ⟨fun _ _ _ => trivial, fun _ _ _ => trivial, fun _ => trivial⟩
  exact hreplaced.1.recoverable

/-! ### A fresh clone that cannot be installed -/

/-- What tells a git directory from any other. -/
def isGitDirectory : Entry OsString β → Bool
  | .directory entries =>
      match entries.lookup (osString "HEAD"), entries.lookup (osString "objects"),
        entries.lookup (osString "refs") with
      | some (.file _), some (.directory _), some (.directory _) => true
      | _, _, _ => false
  | .file _ | .symlink _ => false

/-- The directory has a git directory for its `.git`. -/
def isWorkTree : Entry OsString β → Bool
  | .directory entries => (entries.lookup (osString ".git")).any isGitDirectory
  | .file _ | .symlink _ => false

/-- Look for a work tree in the place, given backwards, and in what is above it. -/
def nearestRepository (root : Entry OsString β) : RealPath → Option Repository
  | [] => if isWorkTree root then some (.own []) else none
  | name :: above =>
      if (root.get? (name :: above).reverse).any isWorkTree then
        some (.own (name :: above).reverse)
      else nearestRepository root above

theorem nearestRepository_of_isWorkTree {root entry : Entry OsString β} {place : RealPath}
    (hplace : root.get? place = some entry) (htree : isWorkTree entry = true) :
    nearestRepository root place.reverse = some (.own place) := by
  obtain ⟨reversed, rfl⟩ : ∃ reversed, place = List.reverse reversed :=
    ⟨place.reverse, (List.reverse_reverse place).symm⟩
  rw [List.reverse_reverse]
  cases reversed with
  | nil =>
      cases hplace
      rw [nearestRepository, if_pos htree]
      rfl
  | cons name above =>
      rw [nearestRepository, hplace, Option.any_some, if_pos htree]

def clonedRepository : List (OsString × Entry OsString Unit) :=
  [(osString ".git", .directory [(osString "HEAD", .file ()), (osString "objects", .directory []),
    (osString "refs", .directory [])]), (osString "fetched", .file ())]

/-- A git that goes up from its directory to the nearest one with a git directory. -/
def searchingGit : Git Unit where
  discover root place := nearestRepository root place.reverse
  IsClone contents := isWorkTree (.directory contents) = true
  discover_clone _ _ _ hplace htree := nearestRepository_of_isWorkTree hplace htree
  clonable := ⟨clonedRepository, rfl⟩

def staleTree : Entry OsString Unit := .directory [(osString "work", .directory
  [(osString "checkout", .directory [(osString "tracked", .file ())])])]

def staleRequest : CheckoutRequest where
  kind := .controlplane
  directory := [.rootDir, .normal (osString "work"), .normal (osString "checkout")]
  repository := osString "upstream"
  reference := osString "main"

/-- Every rename after the first one fails. -/
def stuckEnvironment : Environment Unit where
  git := searchingGit
  processId := 7
  createIntegration := none
  command _ _ := none
  cloned _ := clonedRepository
  isClone _ := rfl
  leftover _ := none
  rename log := if log.length ≤ 1 then none else some "Permission denied"
  removal _ := none

theorem replaceGeneratedCheckout_recoverable_stuck :
    Recoverable staleRequest.directory [osString "work", osString "checkout"]
      (.directory clonedRepository) staleTree
      ((replaceGeneratedCheckout stuckEnvironment ⟨[], 40⟩ [.rootDir, .normal (osString "work")]
        staleRequest).run ⟨staleTree, 0, []⟩).2.root
      ((replaceGeneratedCheckout stuckEnvironment ⟨[], 40⟩ [.rootDir, .normal (osString "work")]
        staleRequest).run ⟨staleTree, 0, []⟩).1 :=
  replaceGeneratedCheckout_recoverable stuckEnvironment ⟨[], 40⟩
    [.rootDir, .normal (osString "work")]
    staleRequest ⟨staleTree, 0, []⟩ rfl

end CfIntegration.Infrastructure.Checkout
