import CfIntegration.Fyre.ComparisonCommands

/-! # The preparation and the phases of a comparison

A lane that was prepared is ready to be measured, and a phase keeps it so. A phase puts its
load on the lane at most once and leaves no monitor that could be handled.
-/

namespace CfIntegration.Fyre.FixedComparison

open CfIntegration.Action History

section
variable {env : Environment} {config : CampaignConfig} {inventory : Inventory} {target : Machine}

@[simp] theorem withFile_projects (hosts : Hosts) (host path : String) (contents : Option String) :
    (hosts.withFile host path contents).projects = hosts.projects := rfl

@[simp] theorem withProject_files (hosts : Hosts) (host : String) (lane : Lane)
    (project : Option Project) : (hosts.withProject host lane project).files = hosts.files := rfl

@[simp] theorem withFile_files (hosts : Hosts) (host path other : String)
    (contents : Option String) : (hosts.withFile host path contents).files (host, other) =
      if other = path then contents else hosts.files (host, other) := by
  simp [Hosts.withFile, Function.update_apply]

@[simp] theorem withProject_projects (hosts : Hosts) (host : String) (lane other : Lane)
    (project : Option Project) : (hosts.withProject host lane project).projects (host, other) =
      if other = lane then project else hosts.projects (host, other) := by
  simp [Hosts.withProject, Function.update_apply]

/-- A refusal on record stays on record. -/
theorem Refused.mono {before after : List Entry} {host : String} {lane : Lane}
    (hrefused : Refused before host lane) (hlog : before <+: after) : Refused after host lane := by
  obtain ⟨entry, hentry, hrest⟩ := hrefused
  exact ⟨entry, hlog.subset hentry, hrest⟩

/-- A token once granted stays in the record. -/
theorem Granted.mono {before after : List Entry} {token : String} {tools : List String}
    {lane : Lane} (hgranted : Granted env config inventory target before token tools lane)
    (hlog : before <+: after) : Granted env config inventory target after token tools lane := by
  cases lane with
  | rust =>
      obtain ⟨htools, entry, hentry, hrest⟩ := hgranted
      exact ⟨htools, entry, hlog.subset hentry, hrest⟩
  | builtin =>
      obtain ⟨entry, hentry, hrest⟩ := hgranted
      exact ⟨entry, hlog.subset hentry, hrest⟩

/-- Only the projects and the files of the hosts count. -/
theorem Ready.congr {before after : List Entry} {hosts other : Hosts} {lane : Lane}
    (hready : Ready env config inventory target before hosts lane) (hlog : before <+: after)
    (hprojects : other.projects = hosts.projects) (hfiles : other.files = hosts.files) :
    Ready env config inventory target after other lane := by
  obtain ⟨hup, halone, token, tools, hgranted, htoken, henvironment⟩ := hready
  refine ⟨hprojects ▸ hup, ?_, token, tools, hgranted.mono hlog, hfiles ▸ htoken,
    hfiles ▸ henvironment⟩
  rw [Down, hprojects]
  exact halone.imp_right fun hrefused => hrefused.mono hlog

/-- A file that is written reads back as written. -/
theorem writeRemoteFile_returns (host contents path : String) (world : World) :
    (writeRemoteFile env host contents path).Returns world fun _ after =>
      after.hosts = world.hosts.withFile host path (some contents) ∧ world.log <+: after.log := by
  refine (remote_returns world).bind ?_
  rintro answer middle ⟨copied, -, -, -, -, hhosts, hlog⟩
  refine (remote_returns middle).bind ?_
  rintro answer after ⟨changed, -, -, -, -, hafter, hlater⟩
  refine returns_pure ⟨hafter.trans hhosts, ?_⟩
  rw [hlater, hlog, List.append_assoc]
  exact List.prefix_append _ _

theorem pullImages_returns (host : String) (lane : Lane) (delays : List Nat) (world : World) :
    (pullImages env host lane delays).Returns world fun _ after =>
      after.hosts = world.hosts ∧ world.log <+: after.log := by
  refine (keeps_pullImages delays ?_).returns ⟨rfl, List.prefix_rfl⟩
  refine keeps_remote fun middle ⟨hhosts, hlog⟩ => ⟨?_, hlog.trans (List.prefix_append _ _)⟩
  unfold issued nextHosts
  split <;> exact hhosts

/-- An up that returns leaves a project with the environment on disk. -/
theorem composeUp_returns (host : String) (lane : Lane) (world : World) :
    (composeUp env host lane).Returns world fun _ after => (∃ backend, after.hosts =
      world.hosts.withProject host lane
        (some ⟨world.hosts.files (host, "cf-fyre/benchmark.env"), backend⟩)) ∧
      world.log <+: after.log := by
  refine (pullImages_returns host lane _ world).bind ?_
  rintro ⟨⟩ middle ⟨hhosts, hlog⟩
  refine (remote_returns middle).bind ?_
  rintro answer after ⟨entry, -, -, -, -, hafter, hlater⟩
  refine returns_pure ⟨⟨backendOf (world.hosts.projects (host, lane)), ?_⟩,
    hlater ▸ hlog.trans (List.prefix_append _ _)⟩
  rw [hafter, hhosts]
  rfl

/-- A down leaves no project, or the record shows that Docker refused it. -/
theorem composeDown_returns (host : String) (lane : Lane) (world : World) :
    (composeDown env host lane).Returns world fun _ after =>
      (after.hosts.projects (host, lane) = none ∨ Refused after.log host lane) ∧
        (∀ other, world.hosts.projects (host, other) = none →
          after.hosts.projects (host, other) = none) ∧ world.log <+: after.log := by
  refine Returns.bind (?_ : Returns _ _ fun _ after => _) fun _ _ hafter => returns_pure hafter
  refine (remote_ensures world).mono ?_
  rintro result after ⟨rfl, hreturned⟩ answer rfl
  refine ⟨?_, fun other hnone => ?_, List.prefix_append _ _⟩
  · cases hsucceeded : (env.fate world.log.length).succeeded with
    | true =>
        left
        simp [issued, nextHosts, Fate.carried_of_succeeded hsucceeded, Hosts.apply]
    | false =>
        exact .inr ⟨nextEntry env world host _, List.mem_append_right _ (List.mem_singleton_self _),
          rfl, rfl, hsucceeded⟩
  · unfold issued nextHosts
    split
    · simp [Hosts.apply, hnone]
    · exact hnone

/-- A reset that returns left a project only where a `down` of it failed. -/
theorem resetComparisonTarget_returns (world : World) :
    (resetComparisonTarget env target).Returns world fun _ after =>
      (∀ lane, Down target after.log after.hosts lane) ∧ world.log <+: after.log := by
  have hprojects : (forEach (composeDown env target.publicIp) [.rust, .builtin]).Returns world
      fun _ after => (∀ lane, Down target after.log after.hosts lane) ∧
        world.log <+: after.log := by
    refine (composeDown_returns target.publicIp .rust world).bind ?_
    rintro ⟨⟩ first ⟨hrust, -, hfirst⟩
    refine (composeDown_returns target.publicIp .builtin first).bind ?_
    rintro ⟨⟩ second ⟨hbuiltin, hnone, hsecond⟩
    refine returns_pure ⟨fun lane => ?_, hfirst.trans hsecond⟩
    cases lane with
    | rust => exact hrust.imp (hnone .rust) fun hrefused => hrefused.mono hsecond
    | builtin => exact hbuiltin
  refine hprojects.bind ?_
  rintro ⟨⟩ middle ⟨hdown, hmiddle⟩
  refine (remote_returns middle).bind ?_
  rintro answer after ⟨entry, -, -, -, -, hafter, hlater⟩
  have hlog : middle.log <+: after.log := hlater ▸ List.prefix_append _ _
  refine returns_pure ⟨fun lane => ?_, hmiddle.trans hlog⟩
  rw [Down, hafter]
  exact (hdown lane).imp_right fun hrefused => hrefused.mono hlog

theorem writeLaneEnvironment_returns (token protocolVersion stackMode baseUrl : String)
    (toolNames : List String) (destination : String) (world : World) :
    (writeLaneEnvironment env inventory token protocolVersion stackMode baseUrl toolNames
      destination).Returns world fun _ after => after.hosts =
        (world.hosts.withFile inventory.locust.publicIp ("cf-fyre/" ++ destination)
          (some (laneEnvironment token protocolVersion stackMode baseUrl toolNames))).withFile
            inventory.locust.publicIp "cf-fyre/state/token" (some token) ∧
      world.log <+: after.log := by
  refine (writeRemoteFile_returns _ _ _ world).bind ?_
  rintro ⟨⟩ middle ⟨hmiddle, hlog⟩
  refine (writeRemoteFile_returns _ _ _ middle).mono ?_
  rintro ⟨⟩ after ⟨hafter, hlater⟩
  exact ⟨hmiddle ▸ hafter, hlog.trans hlater⟩

/-- A lane whose project is up and whose credentials were issued is ready with its files. -/
theorem ready_of_written {lane : Lane} {log later : List Entry} {hosts : Hosts}
    {contents token : String} {tools : List String}
    (hcontents : TargetEnvironment config target contents lane)
    (hup : hosts.projects (target.publicIp, lane) =
      some ⟨some contents, some (backendUrl inventory)⟩)
    (hdown : Down target log hosts lane.other) (hlog : log <+: later)
    (hgranted : Granted env config inventory target later token tools lane) :
    Ready env config inventory target later
      ((hosts.withFile inventory.locust.publicIp ("cf-fyre/" ++ lane.environmentFile)
        (some (loadEnvironment config target token tools lane))).withFile
          inventory.locust.publicIp "cf-fyre/state/token" (some token)) lane where
  up := ⟨contents, hcontents, hup⟩
  alone := hdown.imp_right fun hrefused => hrefused.mono hlog
  credentials := by
    refine ⟨token, tools, hgranted, by simp, ?_⟩
    rw [withFile_files, if_neg (by cases lane <;> decide), withFile_files, if_pos rfl]

/-- The Rust lane is ready once it has been prepared. -/
theorem prepareRustComparison_returns (world : World) :
    (prepareRustComparison env config inventory target).Returns world fun _ after =>
      Ready env config inventory target after.log after.hosts .rust := by
  refine (resetComparisonTarget_returns world).bind ?_
  rintro ⟨⟩ reset ⟨hdown, -⟩
  refine (writeRemoteFile_returns _ _ _ reset).bind ?_
  rintro ⟨⟩ written ⟨hwritten, hlog₁⟩
  refine (composeUp_returns _ _ written).bind ?_
  rintro ⟨⟩ up ⟨⟨backend, hup⟩, hlog₂⟩
  refine (remote_returns up).bind ?_
  rintro ⟨code, stdout⟩ minted ⟨entry, hhost, hcommand, hsucceeded, hstdout, hminted, hlog₃⟩
  dsimp only
  split
  · exact returns_fail _ _ _
  refine (writeRemoteFile_returns _ _ _ minted).bind ?_
  rintro ⟨⟩ stored ⟨hstored, hlog₄⟩
  refine (remote_returns stored).bind ?_
  rintro answer published ⟨_, -, -, -, -, hpublished, hlog₅⟩
  refine (writeLaneEnvironment_returns _ _ _ _ _ _ published).bind ?_
  rintro ⟨⟩ after ⟨hafter, hlog₆⟩
  have hlater : up.log <+: published.log :=
    (hlog₃ ▸ List.prefix_append _ _ : up.log <+: minted.log).trans
      (hlog₄.trans (hlog₅ ▸ List.prefix_append _ _))
  refine returns_pure (hafter ▸ @ready_of_written env config inventory target .rust published.log
    after.log published.hosts (rustEnvironment config target) _ _ rfl ?_ ?_ hlog₆ ⟨rfl, entry, ?_,
      hhost, hcommand, hsucceeded, by rw [hstdout]⟩)
  · simp [hpublished, hstored, hminted, hup, hwritten, Hosts.apply]
  · have hkept : published.hosts.projects (target.publicIp, Lane.rust.other) =
        reset.hosts.projects (target.publicIp, Lane.rust.other) := by
      simp [hpublished, hstored, hminted, hup, hwritten, Hosts.apply, Lane.other]
    rw [Down, hkept]
    exact (hdown _).imp_right fun hrefused =>
      hrefused.mono (hlog₁.trans (hlog₂.trans hlater))
  · refine (hlog₄.trans ((hlog₅ ▸ List.prefix_append _ _ : stored.log <+: published.log).trans
      hlog₆)).subset ?_
    rw [hlog₃]
    exact List.mem_append_right _ (List.mem_singleton_self _)

/-- The built-in lane is ready once it has been prepared. -/
theorem prepareBuiltinComparison_returns (world : World) :
    (prepareBuiltinComparison env config inventory target).Returns world fun _ after =>
      Ready env config inventory target after.log after.hosts .builtin := by
  refine (resetComparisonTarget_returns world).bind ?_
  rintro ⟨⟩ reset ⟨hdown, -⟩
  refine Returns.bind (show commandNumber.Returns reset fun _ after => after = reset from
    fun _ _ => rfl) ?_
  rintro number _ rfl
  refine (writeRemoteFile_returns _ _ _ _).bind ?_
  rintro ⟨⟩ written ⟨hwritten, hlog₁⟩
  refine (composeUp_returns _ _ written).bind ?_
  rintro ⟨⟩ up ⟨⟨backend, hup⟩, hlog₂⟩
  refine (remote_returns up).bind ?_
  rintro ⟨code, stdout⟩ registered ⟨entry, hhost, hcommand, hsucceeded, hstdout, hregistered, hlog₃⟩
  refine Returns.ofExcept fun registration hread => ?_
  refine (writeLaneEnvironment_returns _ _ _ _ _ _ _).bind ?_
  rintro ⟨⟩ after ⟨hafter, hlog₄⟩
  refine returns_pure (hafter ▸ @ready_of_written env config inventory target .builtin _ after.log _
    (builtinEnvironment config target (env.tokenHex number)) _ _ ⟨_, rfl⟩ ?_ ?_ hlog₄
    ⟨entry, hlog₄.subset ?_, hhost, hcommand, hsucceeded, hstdout ▸ hread⟩)
  · simp [hregistered, hup, hwritten, Hosts.apply]
  · rw [Down, hregistered]
    refine (hdown _).imp (fun hnone => ?_) fun hrefused =>
      hrefused.mono (hlog₁.trans (hlog₂.trans (hlog₃ ▸ List.prefix_append _ _)))
    rw [← hnone]
    simp [hup, hwritten, Hosts.apply, Lane.other]
  · rw [hlog₃]
    exact List.mem_append_right _ (List.mem_singleton_self _)

/-- Each lane is ready once it has been prepared. -/
theorem prepare_returns (lane : Lane) (world : World) :
    (prepare env config inventory target lane).Returns world fun _ after =>
      Ready env config inventory target after.log after.hosts lane := by
  cases lane with
  | rust => exact prepareRustComparison_returns world
  | builtin => exact prepareBuiltinComparison_returns world

end

section
variable {env : Environment} {config : CampaignConfig} {inventory : Inventory} {target : Machine}
  {world : World} {host : String} {command : Command}

theorem loadOf_eq_none (hload : command.isLoad = false) :
    loadOf (nextEntry env world host command) = none := by
  unfold loadOf nextEntry
  cases command <;> first | rfl | cases hload

/-- Only a load command adds to the loads on record. -/
theorem loads_issued : loads (issued env world host command).log =
    loads world.log ++ (loadOf (nextEntry env world host command)).toList := by
  unfold loads issued
  rw [List.filterMap_append]
  cases hentry : loadOf (nextEntry env world host command) <;> simp [hentry]

theorem loads_issued_of_not_load (hload : command.isLoad = false) :
    loads (issued env world host command).log = loads world.log := by
  rw [loads_issued, loadOf_eq_none hload]
  exact List.append_nil _

theorem measured_issued (hload : command.isLoad = false)
    (hmeasured : Fits (Measured env config inventory target) world.log) :
    Fits (Measured env config inventory target) (issued env world host command).log := by
  refine hmeasured.concat fun arguments hentry => ?_
  rw [loadOf_eq_none hload] at hentry
  cases hentry

/-- An unattended monitor stays on record. -/
theorem Unattended.mono {before after : List Entry} (hunattended : Unattended env before)
    (hlog : before <+: after) : Unattended env after := by
  obtain ⟨entry, hentry, hwrong⟩ := hunattended
  exact ⟨entry, hlog.subset hentry, hwrong⟩

/-- A command that does not watch leaves the monitors as they were. -/
theorem watched_issued {monitors : List (String × Option Int)} (hwatches : command.watches = false)
    (hwatched : Watched env monitors world) :
    Watched env monitors (issued env world host command) := by
  refine hwatched.imp (fun hsubset => ?_) fun hunattended =>
    hunattended.mono (List.prefix_append _ _)
  have hmonitors : (nextHosts env world host command).monitors = world.hosts.monitors := by
    unfold nextHosts
    split
    · exact apply_monitors _ _ hwatches
    · rfl
  exact (congrArg (· ⊆ monitors) hmonitors).mpr hsubset

/-- What a command of a phase leaves of the hosts. -/
theorem nextHosts_measures (hmeasures : command.measures = true) :
    (nextHosts env world host command).projects = world.hosts.projects ∧
      (nextHosts env world host command).files = world.hosts.files := by
  unfold nextHosts
  split
  · exact apply_measures _ _ hmeasures
  · exact ⟨rfl, rfl⟩

/-- The local files and the result are as they were. -/
structure SameRecord (before after : World) : Prop where
  result : after.result = before.result
  saved : after.saved = before.saved
  writes : after.writes = before.writes
  helperRequest : after.helperRequest = before.helperRequest

theorem keeps_sameRecord (check : Bool) (before : World) :
    Keeps (SameRecord before) (remote env check host command) :=
  keeps_remote fun _ hsame => ⟨hsame.result, hsame.saved, hsame.writes, hsame.helperRequest⟩

end

section
variable {env : Environment} {config : CampaignConfig} {inventory : Inventory} {target : Machine}
  {lane : Lane} {users : Nat} {base : List (String × Option Int)} {world : World}

/-- The hosts stay ready for the lane, and its load is put on it only then. -/
theorem keeps_ready_onePhase :
    Keeps (fun world => Fits (Measured env config inventory target) world.log ∧
      Ready env config inventory target world.log world.hosts lane)
      (onePhase env config inventory lane users) := by
  refine keeps_onePhase fun check host command hmeasures hload => keeps_remote ?_
  rintro world ⟨hmeasured, hready⟩
  obtain ⟨hprojects, hfiles⟩ := @nextHosts_measures env world host command hmeasures
  refine ⟨hmeasured.concat fun arguments hentry => ?_,
    hready.congr (List.prefix_append _ _) hprojects hfiles⟩
  have hcommand : command = .load arguments := by
    unfold loadOf nextEntry at hentry
    cases command <;> cases hentry
    rfl
  obtain ⟨harguments, hhost⟩ := hload arguments hcommand
  exact ⟨lane, users, harguments, hhost, hready⟩

/-- The entries of started monitors. -/
def running (monitors : List (String × Int)) : List (String × Option Int) :=
  monitors.map fun monitor => (monitor.1, some monitor.2)

theorem unattended_start {host role name : String}
    (hfailed : (env.fate world.log.length).succeeded = false ∨
      ∀ pid, env.int (env.fate world.log.length).stdout ≠ .ok pid) :
    Unattended env (issued env world host (.startMonitor role name)).log :=
  ⟨nextEntry env world host _, List.mem_append_right _ (List.mem_singleton_self _),
    .inl ⟨role, name, rfl, hfailed⟩⟩

/-- A started monitor is watched, or the record shows why it is not. -/
theorem startMonitor_ensures (name host role : String) (hwatched : Watched env base world) :
    (startMonitor env name host role).Ensures world fun result after => match result with
      | .ok monitor => Watched env ((monitor.1, some monitor.2) :: base) after
      | .error _ => Unattended env after.log := by
  refine (remote_ensures world).bind ?_ ?_
  · rintro ⟨code, stdout⟩ _ ⟨rfl, hreturned⟩
    cases hreturned with
    | answered hcode hcheck =>
        dsimp only
        refine Ensures.ofExcept (fun pid hpid => ensures_pure.mpr ?_) fun error herror => ?_
        · have hcarried := @Fate.carried_of_succeeded (env.fate world.log.length)
            (by rw [hcode, hcheck rfl]; rfl)
          refine hwatched.imp (fun hsubset => ?_) fun hunattended =>
            hunattended.mono (List.prefix_append _ _)
          simp only [issued, nextHosts, hcarried, if_true, Hosts.apply, hpid, Except.toOption]
          exact List.cons_subset_cons _ hsubset
        · refine unattended_start (.inr fun pid hint => ?_)
          rw [hint] at herror
          cases herror
  · rintro error _ ⟨rfl, hreturned⟩
    cases hreturned with
    | failed hfailed message => exact unattended_start (.inl hfailed)

theorem startMonitors_ensures (name : String) (hosts : List (String × String))
    (hwatched : Watched env base world) :
    (startMonitors env name hosts).Ensures world fun result after => match result with
      | .ok monitors => Watched env (running monitors ++ base) after
      | .error _ => Unattended env after.log := by
  induction hosts generalizing base world with
  | nil => exact ensures_pure.mpr hwatched
  | cons item rest ih =>
      refine (startMonitor_ensures name item.1 item.2 hwatched).bind
        (fun monitor middle hfirst => ?_) fun _ _ hfailed => hfailed
      refine (ih hfirst).bind (fun monitors after hrest => ensures_pure.mpr ?_)
        fun _ _ hfailed => hfailed
      refine hrest.imp_left fun hsubset => List.Subset.trans hsubset ?_
      simp [running]

/-- A monitor that was stopped is no longer among those running. -/
theorem stopMonitor_ensures (monitor : String × Int)
    (hwatched : Watched env ((monitor.1, some monitor.2) :: base) world) :
    (stopMonitor env monitor).Ensures world fun result after => match result with
      | .ok () => Watched env base after
      | .error _ => Unattended env after.log := by
  have hunattended (hfailed : (env.fate world.log.length).succeeded = false) :
      Unattended env (issued env world monitor.1 (.stopMonitor monitor.2)).log :=
    ⟨nextEntry env world monitor.1 _, List.mem_append_right _ (List.mem_singleton_self _),
      .inr ⟨monitor.2, rfl, hfailed⟩⟩
  refine (remote_ensures world).bind ?_ ?_
  · rintro answer _ ⟨rfl, hreturned⟩
    refine ensures_pure.mpr ?_
    cases hsucceeded : (env.fate world.log.length).succeeded with
    | false => exact .inr (hunattended hsucceeded)
    | true =>
        refine hwatched.imp (fun hsubset => ?_) fun hbefore =>
          hbefore.mono (List.prefix_append _ _)
        simp only [issued, nextHosts, Fate.carried_of_succeeded hsucceeded, if_true, Hosts.apply]
        intro other hother
        obtain ⟨hmem, hne⟩ := List.mem_filter.mp hother
        exact (List.mem_cons.mp (hsubset hmem)).resolve_left (of_decide_eq_true hne)
  · rintro error _ ⟨rfl, hreturned⟩
    cases hreturned with
    | failed hfailed message => exact hunattended hfailed

/-- Stopping its monitors leaves those that ran before. -/
theorem stopMonitors_ensures (monitors : List (String × Int))
    (hwatched : Watched env (running monitors ++ base) world) :
    (forEach (stopMonitor env) monitors).Ensures world fun _ after => Watched env base after := by
  refine ensures_forEach (fun rest state => Watched env (running rest ++ base) state) ?_ ?_ hwatched
  · intro monitor rest state hstate
    refine (stopMonitor_ensures monitor hstate).mono fun result after hafter => ?_
    cases result with
    | ok => exact hafter
    | error error => exact .inr hafter
  · exact fun _ hdone => hdone

/-- A phase leaves behind the monitors that were running before it. -/
theorem watched_onePhase (hwatched : Watched env base world) :
    (onePhase env config inventory lane users).Ensures world fun _ after =>
      Watched env base after := by
  unfold onePhase
  split
  · exact hwatched
  refine (startMonitors_ensures _ _ hwatched).bind (fun monitors started hstarted => ?_)
    fun _ _ hfailed => .inr hfailed
  have hload : (tryFinally (remote env false inventory.locust.publicIp
      (.load (loadArguments config lane users)))
      (forEach (stopMonitor env) monitors)).Ensures started
      fun _ after => Watched env base after := by
    refine ensures_tryFinally (keeps_remote (fun _ hwatched => watched_issued rfl hwatched) started
      (show Watched env (running monitors ++ base) started from hstarted))
      fun outcome state hstate => ?_
    refine (stopMonitors_ensures monitors hstate).mono fun result after hafter => ?_
    cases result <;> exact hafter
  refine hload.bind (fun answer after hafter => ?_) fun _ _ hafter => hafter
  exact keeps_collectPhase _ _ (fun host command _ hwatches _ => keeps_remote fun _ hwatched =>
    watched_issued hwatches hwatched) after hafter

/-- The load of a phase is put on the lane at most once, and before the phase returns. -/
theorem loads_onePhase : (onePhase env config inventory lane users).Ensures world
    fun result after => (loads after.log = loads world.log ∧ ∀ report, result ≠ .ok report) ∨
      loads after.log = loads world.log ++ [loadArguments config lane users] := by
  have hquiet (expected : List LoadArguments) (check : Bool) (host : String) (command : Command)
      (hload : command.isLoad = false) :
      Keeps (fun world => loads world.log = expected) (remote env check host command) :=
    keeps_remote fun _ hbefore => (loads_issued_of_not_load hload).trans hbefore
  unfold onePhase
  split
  · exact .inl ⟨rfl, nofun⟩
  have hstart := keeps_startMonitors (label lane users) (monitorHosts inventory)
    (fun host role => hquiet (loads world.log) true host (.startMonitor role _) rfl) world rfl
  refine hstart.bind (fun monitors started hstarted => ?_)
    fun error _ hfailed => .inl ⟨hfailed, nofun⟩
  have hload : (tryFinally (remote env false inventory.locust.publicIp
      (.load (loadArguments config lane users)))
      (forEach (stopMonitor env) monitors)).Ensures started
      fun _ after => loads after.log = loads world.log ++ [loadArguments config lane users] := by
    have hissued : (remote env false inventory.locust.publicIp
        (.load (loadArguments config lane users))).Ensures started fun _ after =>
          loads after.log = loads world.log ++ [loadArguments config lane users] := by
      refine (remote_ensures started).mono ?_
      rintro result _ ⟨rfl, -⟩
      rw [loads_issued, hstarted]
      rfl
    refine ensures_tryFinally hissued fun outcome state hstate => ?_
    refine (keeps_forEach (fun monitor _ => keeps_ignore (hquiet _ _ _ _ rfl)) state hstate).mono
      fun result after hafter => ?_
    cases result <;> exact hafter
  refine hload.bind (fun answer after hafter => ?_) fun _ _ hafter => .inr hafter
  refine (keeps_collectPhase _ _ (fun host command _ _ hisload => hquiet _ _ _ _ hisload) after
    hafter).mono fun _ _ hcollected => .inr hcollected

/-- A report is what is made of the files that the phase left. -/
theorem onePhase_returns : (onePhase env config inventory lane users).Returns world
    fun report _ => ∃ number code,
      Fyre.onePhase users { env.evidence number with returncode := code } = .ok report := by
  have hany {α : Type} (action : RemoteAction α) (state : World) :
      action.Returns state fun _ _ => True := fun _ _ => trivial
  unfold onePhase
  split
  · exact returns_fail _ _ _
  refine (hany _ world).bind fun monitors started _ => (hany _ started).bind ?_
  rintro ⟨code, stdout⟩ loaded -
  refine (hany _ loaded).bind fun _ copied _ => (hany _ copied).bind fun number counted _ => ?_
  dsimp only
  split
  · exact returns_fail _ _ _
  refine (hany _ counted).bind fun _ fetched _ => ?_
  refine returns_ofExcept fun report hreport => ⟨number, code, ?_⟩
  cases hphase : Fyre.onePhase users { env.evidence number with returncode := code } <;>
    rw [hphase] at hreport <;> cases hreport
  rfl

/-- What a phase leaves of the world. -/
structure Phased (env : Environment) (config : CampaignConfig) (inventory : Inventory)
    (target : Machine) (base : List (String × Option Int)) (item : Lane × Nat) (before : World)
    (result : Except String Report) (after : World) : Prop where
  measured : Fits (Measured env config inventory target) after.log
  ready : Ready env config inventory target after.log after.hosts item.1
  watched : Watched env base after
  same : SameRecord before after
  loads : (loads after.log = loads before.log ∧ ∀ report, result ≠ .ok report) ∨
    loads after.log = loads before.log ++ [scheduled config item]
  report : ∀ report, result = .ok report → ∃ number code,
    Fyre.onePhase item.2 { env.evidence number with returncode := code } = .ok report

/-- A phase loads its lane once and takes its own monitors down. -/
theorem onePhase_ensures (hmeasured : Fits (Measured env config inventory target) world.log)
    (hready : Ready env config inventory target world.log world.hosts lane)
    (hwatched : Watched env base world) :
    (onePhase env config inventory lane users).Ensures world
      (Phased env config inventory target base (lane, users) world) := by
  have hsame : Keeps (SameRecord world) (onePhase env config inventory lane users) :=
    keeps_onePhase fun check _ _ _ _ => keeps_sameRecord check world
  have hlog := @keeps_ready_onePhase env config inventory target lane users world
    ⟨hmeasured, hready⟩
  exact ⟨hlog.1, hlog.2, watched_onePhase hwatched, hsame world ⟨rfl, rfl, rfl, rfl⟩,
    loads_onePhase, onePhase_returns⟩

end

end CfIntegration.Fyre.FixedComparison
