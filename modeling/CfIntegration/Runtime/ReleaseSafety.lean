import CfIntegration.Runtime.Release

/-! # Safety of releases

A published version keeps its releases and tags at every failure, an unpublished one
leaves nothing when its preparation succeeds, and the selected tag is a verified one
unless release-plz reports it.
-/

namespace CfIntegration.Runtime.Release

/-! ## Published releases are kept -/

/-- A release carries the tag and is not a draft. -/
def HasPublishedRelease (world : World) (tag : List Char) : Prop :=
  ∃ release ∈ world.releases.flatten, release.tagName = tag ∧ release.draft = false

section
variable (env : Environment) (version : Version) (world : World)

theorem removeStaleRelease_published (repository : List Char) {tag : List Char}
    (hpublished : HasPublishedRelease world tag) :
    (removeStaleRelease env repository tag).Ensures world fun result after =>
      Untouched world after ∧ ∃ error, result = .error error := by
  apply Action.Ensures.bind (captureReleases_answers repository)
  · intro pages after hcaptured
    obtain ⟨huntouched, -, hpages⟩ := hcaptured
    rw [hpages pages rfl]
    obtain ⟨release, hrelease, htag, hdraft⟩ := hpublished
    have hany : (world.releases.flatten.filter (·.tagName = tag)).any (!·.draft) = true := by
      rw [List.any_eq_true]
      exact ⟨release, List.mem_filter.mpr ⟨hrelease, by simpa using htag⟩, by simp [hdraft]⟩
    dsimp only
    rw [if_pos hany]
    exact ⟨huntouched, _, rfl⟩
  · intro error after hcaptured
    exact ⟨hcaptured.1, _, rfl⟩

/-- Nothing is removed when the version or a release of it is published. -/
theorem prepareReleaseState_kept
    (hkept : version.text ∈ world.published ∨ HasPublishedRelease world version.tag) :
    (prepareReleaseState env version).Ensures world fun _ after => Untouched world after := by
  apply Action.Ensures.bind (requiredCiEnvironment_answers "GITHUB_REPOSITORY")
  · intro repository first hfirst
    apply Action.Ensures.bind (crateIsPublished_answers version.text)
    · intro published second hsecond
      have huntouched := hfirst.1.trans hsecond.1
      have hanswer := hsecond.2.2 published rfl
      rw [hfirst.1.published] at hanswer
      cases published with
      | true =>
          apply (writeGithubOutput_ensures _ _).mono
          intro result after hwritten
          exact huntouched.trans hwritten.1
      | false =>
          have hrelease : HasPublishedRelease second version.tag := by
            unfold HasPublishedRelease
            rw [huntouched.releases]
            exact hkept.resolve_left fun hmem => by simpa using hanswer.mpr hmem
          apply Action.Ensures.bind (removeStaleRelease_published env second repository hrelease)
          · intro value third hthird
            obtain ⟨-, error, herror⟩ := hthird
            cases herror
          · intro error third hthird
            exact huntouched.trans hthird.1
    · intro error second hsecond
      exact hfirst.1.trans hsecond.1
  · intro error first hfirst
    exact hfirst.1

end

/-! ## Nothing stale remains -/

/-- Releases and tags may be gone, and none has been added. -/
structure Shrinks (before after : World) : Prop where
  releases : after.releases.flatten ⊆ before.releases.flatten
  remoteTags : after.remoteTags ⊆ before.remoteTags
  localTags : after.localTags ⊆ before.localTags

theorem Shrinks.refl (world : World) : Shrinks world world :=
  ⟨List.Subset.refl _, List.Subset.refl _, List.Subset.refl _⟩

theorem Shrinks.trans {first second third : World} (hfirst : Shrinks first second)
    (hsecond : Shrinks second third) : Shrinks first third :=
  ⟨List.Subset.trans hsecond.releases hfirst.releases,
    List.Subset.trans hsecond.remoteTags hfirst.remoteTags,
    List.Subset.trans hsecond.localTags hfirst.localTags⟩

theorem Untouched.shrinks {before after : World} (huntouched : Untouched before after) :
    Shrinks before after := by
  constructor
  · rw [huntouched.releases]
    exact List.Subset.refl _
  · rw [huntouched.remoteTags]
    exact List.Subset.refl _
  · rw [huntouched.localTags]
    exact List.Subset.refl _

def NoRelease (tag : List Char) (world : World) : Prop :=
  ∀ release ∈ world.releases.flatten, release.tagName ≠ tag

def NoRemoteTag (tag : List Char) (world : World) : Prop :=
  ∀ found ∈ world.remoteTags, found.name ≠ tag

def NoLocalTag (tag : List Char) (world : World) : Prop :=
  ∀ found ∈ world.localTags, found.name ≠ tag

section
variable {tag : List Char} {before after : World}

theorem NoRelease.shrinks (hnone : NoRelease tag before) (hshrinks : Shrinks before after) :
    NoRelease tag after :=
  fun release hrelease => hnone release (hshrinks.releases hrelease)

theorem NoRemoteTag.shrinks (hnone : NoRemoteTag tag before) (hshrinks : Shrinks before after) :
    NoRemoteTag tag after :=
  fun found hfound => hnone found (hshrinks.remoteTags hfound)

theorem NoLocalTag.shrinks (hnone : NoLocalTag tag before) (hshrinks : Shrinks before after) :
    NoLocalTag tag after :=
  fun found hfound => hnone found (hshrinks.localTags hfound)

end

section
variable {env : Environment} {world : World} {command : Command}

theorem apply_deletes (hdeletes : command.deletes = true) :
    Shrinks world (command.apply env world).2 := by
  cases command with
  | deleteRelease repository id =>
      rw [Command.apply]
      split
      next =>
        refine ⟨?_, List.Subset.refl _, List.Subset.refl _⟩
        intro release hrelease
        obtain ⟨page, hpage, hmem⟩ := List.mem_flatten.mp hrelease
        obtain ⟨whole, hwhole, rfl⟩ := List.mem_map.mp hpage
        exact List.mem_flatten.mpr ⟨whole, hwhole, (List.mem_filter.mp hmem).1⟩
      next => exact Shrinks.refl world
  | deleteReference repository tag =>
      rw [Command.apply]
      split
      next => exact ⟨List.Subset.refl _, List.filter_sublist.subset, List.Subset.refl _⟩
      next => exact Shrinks.refl world
  | deleteTag tag =>
      rw [Command.apply]
      split
      next => exact ⟨List.Subset.refl _, List.Subset.refl _, List.filter_sublist.subset⟩
      next => exact Shrinks.refl world
  | _ => cases hdeletes

/-- A removal that succeeds has taken effect. -/
theorem perform_deletes (hdeletes : command.deletes = true) :
    (perform env command).Ensures world fun result after => Shrinks world after ∧
      ∀ reply, result = .ok reply → ∃ started answer,
        command.apply env started = (.ok answer, after) := by
  have hstart : Shrinks world (world.start command) :=
    ⟨List.Subset.refl _, List.Subset.refl _, List.Subset.refl _⟩
  have happly := hstart.trans (@apply_deletes env (world.start command) command hdeletes)
  apply (perform_cases env command world).mono
  intro result after hperformed
  cases hperformed with
  | failed error after hafter =>
      rcases hafter with rfl | rfl
      · exact ⟨hstart, fun _ heq => by cases heq⟩
      · exact ⟨happly, fun _ heq => by cases heq⟩
  | answered reply hreply =>
      exact ⟨happly, fun _ _ => ⟨_, reply, Prod.ext hreply rfl⟩⟩
  | garbled reply hreply =>
      exact ⟨happly, fun _ _ => ⟨_, reply, Prod.ext hreply rfl⟩⟩
  | status other version hcommand =>
      rw [hcommand] at hdeletes
      cases hdeletes

theorem perform_deleteRelease (repository : List Char) (id : Nat) :
    (perform env (.deleteRelease repository id)).Ensures world fun result after =>
      Shrinks world after ∧ ∀ reply, result = .ok reply →
        ∀ release ∈ after.releases.flatten, release.id ≠ id := by
  apply (perform_deletes rfl).mono
  intro result after hperformed
  refine ⟨hperformed.1, ?_⟩
  intro reply hresult release hrelease
  obtain ⟨started, answer, happly⟩ := hperformed.2 reply hresult
  rw [Command.apply] at happly
  split at happly
  next =>
    cases happly
    obtain ⟨page, hpage, hmem⟩ := List.mem_flatten.mp hrelease
    obtain ⟨whole, -, rfl⟩ := List.mem_map.mp hpage
    simpa using (List.mem_filter.mp hmem).2
  next => cases happly

theorem perform_deleteReference (repository tag : List Char) :
    (perform env (.deleteReference repository tag)).Ensures world fun result after =>
      Shrinks world after ∧ ∀ reply, result = .ok reply → NoRemoteTag tag after := by
  apply (perform_deletes rfl).mono
  intro result after hperformed
  refine ⟨hperformed.1, ?_⟩
  intro reply hresult found hfound
  obtain ⟨started, answer, happly⟩ := hperformed.2 reply hresult
  rw [Command.apply] at happly
  split at happly
  next =>
    cases happly
    simpa using (List.mem_filter.mp hfound).2
  next => cases happly

theorem perform_deleteTag (tag : List Char) :
    (perform env (.deleteTag tag)).Ensures world fun result after =>
      Shrinks world after ∧ ∀ reply, result = .ok reply → NoLocalTag tag after := by
  apply (perform_deletes rfl).mono
  intro result after hperformed
  refine ⟨hperformed.1, ?_⟩
  intro reply hresult found hfound
  obtain ⟨started, answer, happly⟩ := hperformed.2 reply hresult
  rw [Command.apply] at happly
  split at happly
  next =>
    cases happly
    simpa using (List.mem_filter.mp hfound).2
  next => cases happly

theorem deleteReleases_ensures (repository : List Char) (found : List GitHubRelease) :
    (deleteReleases env repository found).Ensures world fun result after =>
      Shrinks world after ∧ (result = .ok () → ∀ stale ∈ found,
        ∀ release ∈ after.releases.flatten, release.id ≠ stale.id) := by
  induction found generalizing world with
  | nil => exact ⟨Shrinks.refl world, fun _ _ hmem => absurd hmem List.not_mem_nil⟩
  | cons first rest ih =>
      apply Action.Ensures.bind (perform_deleteRelease repository first.id)
      · intro reply second hdeleted
        apply ih.mono
        intro result after hrest
        refine ⟨hdeleted.1.trans hrest.1, ?_⟩
        intro hok stale hstale release hrelease
        rcases List.mem_cons.mp hstale with rfl | hstale
        · exact hdeleted.2 reply rfl release (hrest.1.releases hrelease)
        · exact hrest.2 hok stale hstale release hrelease
      · intro error second hdeleted
        exact ⟨hdeleted.1, fun heq => by cases heq⟩

theorem removeRemoteTag_ensures (repository tag : List Char) :
    (removeRemoteTag env repository tag).Ensures world fun result after =>
      Shrinks world after ∧ (result = .ok () → NoRemoteTag tag after) := by
  apply Action.Ensures.bind (captureReferences_answers repository tag)
  · intro references first hfirst
    have hreferences := hfirst.2.2 references rfl
    split
    next =>
      apply Action.Ensures.bind (perform_deleteReference repository tag)
      · intro reply second hsecond
        exact ⟨hfirst.1.shrinks.trans hsecond.1, fun _ => hsecond.2 reply rfl⟩
      · intro error second hsecond
        exact ⟨hfirst.1.shrinks.trans hsecond.1, fun heq => by cases heq⟩
    next hnone =>
      refine ⟨hfirst.1.shrinks, ?_⟩
      intro _ found hfound hname
      change found ∈ first.remoteTags at hfound
      rw [hfirst.1.remoteTags] at hfound
      apply hnone
      exact List.any_eq_true.mpr ⟨_, hreferences.mpr ⟨found, hfound, hname⟩, decide_eq_true rfl⟩
  · intro error first hfirst
    exact ⟨hfirst.1.shrinks, fun heq => by cases heq⟩

theorem removeLocalTag_ensures (version : Version) :
    (removeLocalTag env version.tag).Ensures world fun result after =>
      Shrinks world after ∧ (result = .ok () → NoLocalTag version.tag after) := by
  apply Action.Ensures.bind (listTags_answers version)
  · intro shown first hfirst
    have hshown := hfirst.2.2 shown rfl
    split
    next =>
      apply Action.Ensures.bind (perform_deleteTag version.tag)
      · intro reply second hsecond
        exact ⟨hfirst.1.shrinks.trans hsecond.1, fun _ => hsecond.2 reply rfl⟩
      · intro error second hsecond
        exact ⟨hfirst.1.shrinks.trans hsecond.1, fun heq => by cases heq⟩
    next hnone =>
      refine ⟨hfirst.1.shrinks, ?_⟩
      intro _ found hfound hname
      change found ∈ first.localTags at hfound
      rw [hfirst.1.localTags] at hfound
      apply hnone
      exact List.any_eq_true.mpr ⟨_, hshown ⟨found, hfound, hname⟩, decide_eq_true rfl⟩
  · intro error first hfirst
    exact ⟨hfirst.1.shrinks, fun heq => by cases heq⟩

theorem removeStaleRelease_removed (repository : List Char) (version : Version) :
    (removeStaleRelease env repository version.tag).Ensures world fun result after =>
      result = .ok () → NoRelease version.tag after ∧ NoRemoteTag version.tag after ∧
        NoLocalTag version.tag after := by
  apply Action.Ensures.bind (captureReleases_answers repository)
  · intro pages first hfirst
    have hpages := hfirst.2.2 pages rfl
    subst hpages
    dsimp only
    split
    next => exact fun heq => by cases heq
    next =>
      apply Action.Ensures.bind (deleteReleases_ensures repository _)
      · intro _ second hsecond
        have hnone : NoRelease version.tag second := by
          intro release hrelease htag
          have hmem := hsecond.1.releases hrelease
          rw [hfirst.1.releases] at hmem
          exact hsecond.2 rfl release
            (List.mem_filter.mpr ⟨hmem, by simpa using htag⟩) release hrelease rfl
        apply Action.Ensures.bind (removeRemoteTag_ensures repository version.tag)
        · intro _ third hthird
          apply (removeLocalTag_ensures version).mono
          intro result after hafter hok
          exact ⟨hnone.shrinks (hthird.1.trans hafter.1), (hthird.2 rfl).shrinks hafter.1,
            hafter.2 hok⟩
        · intro error third hthird
          exact fun heq => by cases heq
      · intro error second hsecond
        exact fun heq => by cases heq
  · intro error first hfirst
    exact fun heq => by cases heq

/-- A preparation that succeeds for a version that is not published leaves nothing of it. -/
theorem prepareReleaseState_removed {version : Version}
    (hunpublished : version.text ∉ world.published) :
    (prepareReleaseState env version).Ensures world fun result after =>
      result = .ok () → NoRelease version.tag after ∧ NoRemoteTag version.tag after ∧
        NoLocalTag version.tag after := by
  apply Action.Ensures.bind (requiredCiEnvironment_answers "GITHUB_REPOSITORY")
  · intro repository first hfirst
    apply Action.Ensures.bind (crateIsPublished_answers version.text)
    · intro published second hsecond
      have hanswer := hsecond.2.2 published rfl
      rw [hfirst.1.published] at hanswer
      cases published with
      | true => exact absurd (hanswer.mp rfl) hunpublished
      | false =>
          apply Action.Ensures.bind (removeStaleRelease_removed repository version)
          · intro _ third hthird
            obtain ⟨hrelease, hremote, hlocal⟩ := hthird rfl
            apply (writeGithubOutput_ensures _ _).mono
            intro result after hwritten _
            exact ⟨hrelease.shrinks hwritten.1.shrinks, hremote.shrinks hwritten.1.shrinks,
              hlocal.shrinks hwritten.1.shrinks⟩
          · intro error third _
            exact fun heq => by cases heq
    · intro error second _
      exact fun heq => by cases heq
  · intro error first _
    exact fun heq => by cases heq

end

/-! ## The selected tag -/

/-- A tag is written for the later steps. -/
def Names (before after : World) (tag : List Char) : Prop :=
  after.output = before.output ++ [("tag".toList, tag)]

/-- The tag stands for the commit that is built, and its version is published. -/
def Verified (env : Environment) (world : World) (tag : List Char) : Prop :=
  ∃ version commit, tag = 'v' :: version ∧
    world.remoteTags.find? (·.name = tag) = some ⟨tag, commit⟩ ∧
    env.text "GITHUB_SHA" = some commit.text ∧ version ∈ world.published

section
variable {env : Environment} {world : World}

theorem Names.unique {before after : World} {first second : List Char}
    (hfirst : Names before after first) (hsecond : Names before after second) :
    first = second := by
  have heq := hfirst.symm.trans hsecond
  simpa using heq

theorem not_names_self (before : World) (tag : List Char) : ¬ Names before before tag := by
  intro hnames
  have hlength := congrArg List.length hnames
  simp at hlength

/-- A fetch that succeeds leaves the tag as it is in the remote repository. -/
theorem perform_fetchTag (tag : List Char) :
    (perform env (.fetchTag tag)).Ensures world fun result after =>
      after.output = world.output ∧ after.published = world.published ∧
        ∀ reply, result = .ok reply → ∃ commit,
          world.remoteTags.find? (·.name = tag) = some ⟨tag, commit⟩ ∧
          after.localTags.find? (·.name = tag) = some ⟨tag, commit⟩ := by
  have hpublished : ∀ started : World,
      ((Command.fetchTag tag).apply env started).2.published = started.published := by
    intro started
    rw [Command.apply]
    split <;> rfl
  have hfetched : ∀ reply,
      ((Command.fetchTag tag).apply env (world.start (.fetchTag tag))).1 = .ok reply → ∃ commit,
        world.remoteTags.find? (·.name = tag) = some ⟨tag, commit⟩ ∧
        ((Command.fetchTag tag).apply env
          (world.start (.fetchTag tag))).2.localTags.find? (·.name = tag) = some ⟨tag, commit⟩ := by
    intro reply hreply
    rw [Command.apply] at hreply ⊢
    split at hreply
    next found hfound =>
      have hname : found.name = tag := by simpa using List.find?_some hfound
      subst hname
      refine ⟨found.commit, hfound, ?_⟩
      exact List.find?_cons_of_pos (decide_eq_true rfl)
    next => cases hreply
  apply (perform_cases env (.fetchTag tag) world).mono
  intro result after hperformed
  cases hperformed with
  | failed error after hafter =>
      rcases hafter with rfl | rfl
      · exact ⟨rfl, rfl, fun _ heq => by cases heq⟩
      · exact ⟨apply_output, hpublished _, fun _ heq => by cases heq⟩
  | answered reply hreply => exact ⟨apply_output, hpublished _, fun _ _ => hfetched reply hreply⟩
  | garbled reply hreply => exact ⟨apply_output, hpublished _, fun _ _ => hfetched reply hreply⟩
  | status other version hcommand => cases hcommand

/-- The revision of a local tag is its commit. -/
theorem revList_answers {tag : List Char} {commit : CommitId}
    (hlocal : world.localTags.find? (·.name = tag) = some ⟨tag, commit⟩) :
    Answers (captureText env (.revList tag)) world fun revision => revision = commit.text := by
  apply (captureText_answers rfl).mono
  intro result after hcaptured
  obtain ⟨huntouched, houtput, hanswer⟩ := hcaptured
  refine ⟨huntouched, houtput, ?_⟩
  intro revision hresult
  obtain ⟨text, hreply, rfl⟩ := hanswer revision hresult
  rcases hreply with hunreadable | hshown | ⟨_, _, hcommand, _⟩
  · cases hunreadable
  · rw [Command.apply, hlocal] at hshown
    cases hshown
    exact trim_line_commit commit
  · cases hcommand

/-- A tag other than the empty one is only named where it is the candidate and verified. -/
def NamesVerified (env : Environment) (world after : World) : Prop :=
  ∀ tag, tag ≠ [] → Names world after tag →
    env.text "CANDIDATE_TAG" = some tag ∧ Verified env world tag

/-- Whatever leaves the output as it was names no tag. -/
theorem NamesVerified.quiet {after : World} (houtput : after.output = world.output) :
    NamesVerified env world after := by
  intro tag _ hnames
  refine absurd ?_ (not_names_self world tag)
  rwa [Names, houtput] at hnames

/-- The empty tag is a name too, and the only one written where a check fails. -/
theorem writeGithubOutput_empty {first : World} (houtput : first.output = world.output) :
    (writeGithubOutput env "tag".toList []).Ensures first fun _ after =>
      NamesVerified env world after := by
  apply (writeGithubOutput_ensures _ _).mono
  intro result after hwritten
  rw [houtput] at hwritten
  cases result with
  | error error => exact .quiet (hwritten.2.trans (List.append_nil _))
  | ok value =>
      intro tag hne hnames
      exact absurd (Names.unique hnames hwritten.2) hne

/-- The last step names the candidate where the registry has its version. -/
theorem writeGithubOutput_candidate {first : World} {candidate : List Char} {published : Bool}
    (houtput : first.output = world.output)
    (hcandidate : env.text "CANDIDATE_TAG" = some candidate)
    (hverified : published = true → Verified env world candidate) :
    (writeGithubOutput env "tag".toList (if published then candidate else [])).Ensures first
      fun _ after => NamesVerified env world after := by
  cases published with
  | false => exact writeGithubOutput_empty houtput
  | true =>
      apply (writeGithubOutput_ensures _ _).mono
      intro result after hwritten
      rw [houtput] at hwritten
      cases result with
      | error error => exact .quiet (hwritten.2.trans (List.append_nil _))
      | ok value =>
          intro tag _ hnames
          obtain rfl := Names.unique hnames hwritten.2
          exact ⟨hcandidate, hverified rfl⟩

/-- What has been established of a candidate once its tag was fetched and read. -/
structure Fetched (world after : World) (candidate revision : List Char) : Prop where
  output : after.output = world.output
  published : after.published = world.published
  tagged : ∃ commit, world.remoteTags.find? (·.name = candidate) = some ⟨candidate, commit⟩ ∧
    revision = commit.text

/-- The checks of a fetched candidate: its commit is the one that is built, and the registry has
its version. -/
theorem checkCandidate_verified {candidate revision : List Char} {fetched : World}
    (hcandidate : env.text "CANDIDATE_TAG" = some candidate)
    (hfetched : Fetched world fetched candidate revision) :
    Action.Ensures (do
      let sha ← requiredCiEnvironment env "GITHUB_SHA"
      if revision ≠ sha then writeGithubOutput env "tag".toList []
      else match Text.stripPrefix ['v'] candidate with
        | none => Action.fail "candidate release tag must start with v"
        | some version =>
            let published ← crateIsPublished env version
            writeGithubOutput env "tag".toList (if published then candidate else []))
      fetched fun _ after => NamesVerified env world after := by
  apply Action.Ensures.bind (requiredCiEnvironment_answers "GITHUB_SHA")
  · intro sha first hfirst
    have houtput := hfirst.2.1.trans hfetched.output
    split
    next => exact writeGithubOutput_empty houtput
    next hsame =>
      cases hversion : Text.stripPrefix ['v'] candidate with
      | none => exact NamesVerified.quiet houtput
      | some version =>
          apply Action.Ensures.bind (crateIsPublished_answers version)
          · intro published second hsecond
            refine writeGithubOutput_candidate (hsecond.2.1.trans houtput) hcandidate ?_
            intro hpublished
            obtain ⟨commit, hremote, hrevision⟩ := hfetched.tagged
            have hmem := (hsecond.2.2 published rfl).mp hpublished
            rw [hfirst.1.published, hfetched.published] at hmem
            refine ⟨version, commit, Text.stripPrefix_eq_some.mp hversion, hremote, ?_, hmem⟩
            rw [hfirst.2.2 sha rfl, ← not_not.mp hsame, hrevision]
          · intro error second hsecond
            exact .quiet (hsecond.2.1.trans houtput)
  · intro error first hfirst
    exact .quiet (hfirst.2.1.trans hfetched.output)

/-- The candidate is only named when its tag stands for the commit that is built and its
version is published. -/
theorem selectCandidate_verified (env : Environment) (world : World) :
    (selectCandidate env).Ensures world fun _ after => NamesVerified env world after := by
  apply Action.Ensures.bind (requiredCiEnvironment_answers "CANDIDATE_TAG")
  · intro candidate first hfirst
    have hcandidate := hfirst.2.2 candidate rfl
    apply Action.Ensures.bind (captureText_answers rfl)
    · intro remote second hsecond
      have houtput := hsecond.2.1.trans hfirst.2.1
      have huntouched := hfirst.1.trans hsecond.1
      split
      next => exact writeGithubOutput_empty houtput
      next =>
        -- From here on the local tag is the remote one.
        apply Action.Ensures.bind (perform_fetchTag candidate)
        · intro reply third hthird
          obtain ⟨commit, hremote, hlocal⟩ := hthird.2.2 reply rfl
          apply Action.Ensures.bind (revList_answers hlocal)
          · intro revision fourth hfourth
            refine checkCandidate_verified hcandidate
              ⟨(hfourth.2.1.trans hthird.1).trans houtput, ?_, commit, ?_, ?_⟩
            · rw [hfourth.1.published, hthird.2.1, huntouched.published]
            · rw [← huntouched.remoteTags]
              exact hremote
            · exact hfourth.2.2 revision rfl
          · intro error fourth hfourth
            exact .quiet ((hfourth.2.1.trans hthird.1).trans houtput)
        · intro error third hthird
          exact .quiet (hthird.1.trans houtput)
    · intro error second hsecond
      exact .quiet (hsecond.2.1.trans hfirst.2.1)
  · intro error first hfirst
    exact .quiet hfirst.2.1

/-- What release-plz reports is named as it is, and named where the selection succeeds. -/
theorem selectReleaseTag_reported {release : ReleasePlzRelease}
    (hreported : reportedRelease env = .ok (some release)) :
    (selectReleaseTag env).Ensures world fun result after =>
      (∀ tag, Names world after tag → tag = release.tag) ∧
        (result = .ok () → Names world after release.tag) := by
  apply Action.Ensures.ofExcept
  · intro reported hvalue
    rw [hreported] at hvalue
    cases hvalue
    apply (writeGithubOutput_ensures _ _).mono
    intro result after hwritten
    cases result with
    | error error =>
        refine ⟨fun tag hnames => ?_, fun heq => by cases heq⟩
        rw [Names, hwritten.2, List.append_nil] at hnames
        exact absurd hnames (not_names_self world tag)
    | ok value => exact ⟨fun tag hnames => Names.unique hnames hwritten.2, fun _ => hwritten.2⟩
  · intro error hvalue
    rw [hreported] at hvalue
    cases hvalue

/-- Without a report of release-plz a tag is only named after it was verified. -/
theorem selectReleaseTag_verified (hreported : ∀ release,
      reportedRelease env ≠ .ok (some release)) :
    (selectReleaseTag env).Ensures world fun _ after => ∀ tag, tag ≠ [] → Names world after tag →
      env.text "CANDIDATE_TAG" = some tag ∧ Verified env world tag := by
  apply Action.Ensures.ofExcept
  · intro reported hvalue
    cases reported with
    | none => exact selectCandidate_verified env world
    | some release => exact absurd hvalue (hreported release)
  · intro error _ tag _ hnames
    exact absurd hnames (not_names_self world tag)

end

/-- A preparation keeps every release and tag of a published version and leaves nothing of
one that is not published; a tag is only selected as verified or as release-plz reports it. -/
theorem release_safe (env : Environment) (world : World) :
    (∀ version : Version, version.text ∈ world.published ∨ HasPublishedRelease world version.tag →
      (prepareReleaseState env version).Ensures world fun _ after => Untouched world after) ∧
    (∀ version : Version, version.text ∉ world.published →
      (prepareReleaseState env version).Ensures world fun result after => result = .ok () →
        NoRelease version.tag after ∧ NoRemoteTag version.tag after ∧
          NoLocalTag version.tag after) ∧
    (∀ release, reportedRelease env = .ok (some release) →
      (selectReleaseTag env).Ensures world fun result after =>
        (∀ tag, Names world after tag → tag = release.tag) ∧
          (result = .ok () → Names world after release.tag)) ∧
    ((∀ release, reportedRelease env ≠ .ok (some release)) →
      (selectReleaseTag env).Ensures world fun _ after => ∀ tag, tag ≠ [] →
        Names world after tag → env.text "CANDIDATE_TAG" = some tag ∧ Verified env world tag) := by
  refine ⟨?_, ?_, ?_, selectReleaseTag_verified⟩
  · intro version hkept
    exact prepareReleaseState_kept env version world hkept
  · intro version hunpublished
    exact prepareReleaseState_removed hunpublished
  · intro release hreported
    exact selectReleaseTag_reported hreported

/-! ## A stale draft, and a tag that release-plz reports -/

def sampleTag : List Char := "v0.6.1".toList

/-- The candidate is the tag that release-plz reports. -/
def reportedEnvironment : Environment where
  text key :=
    if key = "RELEASES" then
      some "[\x7b\"package_name\":\"cf-integration\",\"tag\":\"v0.6.1\"\x7d]".toList
    else if key = "CANDIDATE_TAG" then some sampleTag
    else if key = "GITHUB_OUTPUT" then some "/tmp/output".toList
    else if key = "GITHUB_SHA" then some "c0ffee".toList
    else none
  fault _ := none
  outputError := none
  glob pattern name := pattern = name
  glob_plain _ _ _ := by simp [eq_comm]
  advertised pattern name := pattern = name
  revision _ := none
  releasePlz _ := .ok [⟨"cf-integration".toList, sampleTag⟩]

theorem sampleVersion_plain :
    ∀ char ∈ "0.6.1".toList, char.isAlphanum = true ∨ char ∈ ['.', '-', '+'] := by
  simp

def sampleVersion : Version := ⟨"0.6.1".toList, sampleVersion_plain⟩

theorem sampleCommit_hexadecimal : ∀ char ∈ "c0ffee".toList, char.isAlphanum = true := by
  simp

def sampleCommit : CommitId := ⟨"c0ffee".toList, sampleCommit_hexadecimal⟩

/-- Release-plz has just made the tag and a draft; the registry does not show the version yet. -/
def unpublishedWorld : World where
  published := []
  releases := [[⟨8, sampleTag, true⟩]]
  remoteTags := [⟨sampleTag, sampleCommit⟩]
  localTags := []
  output := []
  commands := []

/-- An earlier run has left a draft and both tags. -/
def staleWorld : World where
  published := []
  releases := [[⟨7, sampleTag, true⟩]]
  remoteTags := [⟨sampleTag, sampleCommit⟩]
  localTags := [⟨sampleTag, sampleCommit⟩]
  output := []
  commands := []

/-- The version was published before the draft was cleared. -/
def publishedWorld : World := { staleWorld with published := [sampleVersion.text] }

/-- Nothing is left for release-plz to release. -/
def unreportedEnvironment : Environment :=
  { reportedEnvironment with
    text := fun key =>
      if key = "GITHUB_REPOSITORY" then some "owner/repository".toList
      else reportedEnvironment.text key
    releasePlz := fun _ => .ok [] }

theorem release_safe_stale :
    Untouched publishedWorld
      ((prepareReleaseState unreportedEnvironment sampleVersion).run publishedWorld).2 ∧
    (let after := ((prepareReleaseState unreportedEnvironment sampleVersion).run staleWorld).2
     NoRelease sampleTag after ∧ NoRemoteTag sampleTag after ∧ NoLocalTag sampleTag after) ∧
    (let after := ((selectReleaseTag reportedEnvironment).run unpublishedWorld).2
     (∀ tag, Names unpublishedWorld after tag → tag = sampleTag) ∧
       Names unpublishedWorld after sampleTag) ∧
    Verified unreportedEnvironment publishedWorld sampleTag := by
  refine ⟨?_, ?_, ?_, ?_⟩
  · exact (release_safe unreportedEnvironment publishedWorld).1 sampleVersion (.inl (by decide))
  · exact (release_safe unreportedEnvironment staleWorld).2.1 sampleVersion (by decide) rfl
  · have hrun := (release_safe reportedEnvironment unpublishedWorld).2.2.1 _ rfl
    exact ⟨hrun.1, hrun.2 rfl⟩
  · have hreported : reportedRelease unreportedEnvironment = .ok none := rfl
    have hnames : Names publishedWorld
        ((selectReleaseTag unreportedEnvironment).run publishedWorld).2 sampleTag := by
      unfold Names
      rfl
    apply And.right
    apply (release_safe unreportedEnvironment publishedWorld).2.2.2 _ sampleTag (by decide) hnames
    intro release heq
    rw [hreported] at heq
    cases heq

theorem selectReleaseTag_unverified :
    ¬ ∀ env world, (selectReleaseTag env).Ensures world fun _ after => ∀ tag, tag ≠ [] →
      env.text "CANDIDATE_TAG" = some tag → Names world after tag → Verified env world tag := by
  intro hverified
  have hrun := hverified reportedEnvironment unpublishedWorld sampleTag (by decide) rfl rfl
  obtain ⟨_, _, _, _, _, hpublished⟩ := hrun
  exact absurd hpublished List.not_mem_nil

end CfIntegration.Runtime.Release
