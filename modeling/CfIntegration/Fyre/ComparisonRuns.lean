import CfIntegration.Fyre.ComparisonPhases

/-! # The runs of a comparison

The levels are measured in the order of the schedule, up to the first one that stops the
comparison. How the comparison ended is told by the result, whatever was raised on the way.
-/

namespace CfIntegration.Fyre.FixedComparison

open CfIntegration.Action History

/-! ## A level -/

section
variable (env : Environment) (config : CampaignConfig) (inventory : Inventory) (target : Machine)

/-- Every level so far was measured in full, and the result says so. -/
structure Progress (base : List (String × Option Int)) (lane : Lane) (done : List (Lane × Nat))
    (world : World) : Prop where
  measured : Fits (Measured env config inventory target) world.log
  watched : Watched env base world
  loads : loads world.log = done.map (scheduled config)
  runs : List.Forall₂ (Good env config) done world.result.all
  filed : Filed world.result
  running : world.result.status = .running
  saved : world.saved = .result world.result
  /-- Runs of the rust lane are recorded before those of the other one. -/
  order : lane = .rust → world.result.runs .builtin = []

/-- A level was measured and its run recorded. -/
structure Recorded (base : List (String × Option Int)) (done : List (Lane × Nat))
    (item : Lane × Nat) (run : Run) (world : World) : Prop where
  measured : Fits (Measured env config inventory target) world.log
  watched : Watched env base world
  loads : loads world.log = (done ++ [item]).map (scheduled config)
  runs : ∃ earlier, world.result.all = earlier ++ [run] ∧
    List.Forall₂ (Good env config) done earlier
  filed : Filed world.result
  judged : Judged env item run

/-- How a part of the comparison ends. -/
def Ended (base : List (String × Option Int)) (continued : World → Prop)
    (result : Except Stop Bool) (after : World) : Prop :=
  match result with
  | .ok true => continued after
  | .ok false => ∃ done current, Trace env config inventory target base done current after ∧
      Verdict env config done current after (.ok after.result)
  | .error stop => ∃ done current, Trace env config inventory target base done current after ∧
      (stop = .saturated → Verdict env config done current after (.error .saturated))

end

section
variable {env : Environment} {config : CampaignConfig} {inventory : Inventory} {target : Machine}
  {base : List (String × Option Int)} {lane : Lane} {done : List (Lane × Nat)}
  {item : Lane × Nat} {run : Run} {world : World}

theorem Progress.trace (hprogress : Progress env config inventory target base lane done world)
    {current : Option (Lane × Nat)} (horder : done ++ current.toList <+: schedule config) :
    Trace env config inventory target base done current world where
  measured := hprogress.measured
  watched := hprogress.watched
  order := horder
  loads := .inl hprogress.loads
  runs := ⟨world.result.all, [], (List.append_nil _).symm, hprogress.runs, .inl rfl⟩
  filed := hprogress.filed
  saved := .inl hprogress.saved

theorem Recorded.trace (hrecorded : Recorded env config inventory target base done item run world)
    (horder : done ++ [item] <+: schedule config)
    (hsaved : world.saved = .result world.result ∨ WriteFailed env world) :
    Trace env config inventory target base done (some item) world where
  measured := hrecorded.measured
  watched := hrecorded.watched
  order := horder
  loads := .inr hrecorded.loads
  runs := by
    obtain ⟨earlier, hall, hgood⟩ := hrecorded.runs
    exact ⟨earlier, [run], hall, hgood, .inr (.cons hrecorded.judged .nil)⟩
  filed := hrecorded.filed
  saved := hsaved

/-- Only the log, the monitors and the runs count, apart from what is saved. -/
theorem Trace.congr {current : Option (Lane × Nat)} {after : World}
    (htrace : Trace env config inventory target base done current world)
    (hlog : after.log = world.log) (hhosts : after.hosts = world.hosts)
    (hruns : after.result.runs = world.result.runs)
    (hsaved : after.saved = .result after.result ∨ WriteFailed env after) :
    Trace env config inventory target base done current after where
  measured := hlog ▸ htrace.measured
  watched := by
    rw [Watched, hlog, hhosts]
    exact htrace.watched
  order := htrace.order
  loads := hlog ▸ htrace.loads
  runs := by
    rw [Result.all, hruns]
    exact htrace.runs
  filed := by
    rw [Filed, hruns]
    exact htrace.filed
  saved := hsaved

theorem keptByPreparing_progress :
    KeptByPreparing env (Progress env config inventory target base lane done) := by
  refine fun check host command hwatches hload => keeps_remote fun world hprogress => ?_
  exact { hprogress with
    measured := measured_issued hload hprogress.measured
    watched := watched_issued hwatches hprogress.watched
    loads := (loads_issued_of_not_load hload).trans hprogress.loads }

theorem keptByPreparing_trace {current : Option (Lane × Nat)} :
    KeptByPreparing env (Trace env config inventory target base done current) := by
  refine fun check host command hwatches hload => keeps_remote fun world htrace => ?_
  exact { htrace with
    measured := measured_issued hload htrace.measured
    watched := watched_issued hwatches htrace.watched
    loads := htrace.loads.imp (loads_issued_of_not_load hload).trans
      (loads_issued_of_not_load hload).trans }

/-- What a write of the result leaves. -/
structure SaveLeft (env : Environment) (before : World) (outcome : Except String Unit)
    (after : World) : Prop where
  result : after.result = before.result
  hosts : after.hosts = before.hosts
  log : after.log = before.log
  helperRequest : after.helperRequest = before.helperRequest
  write : match outcome with
    | .ok () => env.write before.writes = .written
    | .error message => ∃ left, env.write before.writes = .raised message left
  saved : match outcome with
    | .ok () => after.saved = .result after.result
    | .error _ => WriteFailed env after

/-- A save replaces the file or fails and leaves the one before. -/
theorem save_ensures (world : World) : (save env).Ensures world (SaveLeft env world) := by
  unfold Ensures Action.run save
  cases hwrite : env.write world.writes with
  | written => exact ⟨rfl, rfl, rfl, rfl, hwrite, rfl⟩
  | raised message left =>
      refine ⟨rfl, rfl, rfl, rfl, ⟨left, hwrite⟩, world.writes, Nat.lt_succ_self _, ?_⟩
      rw [hwrite]
      exact WriteFate.noConfusion

theorem all_record {result : Result} {run : Run}
    (horder : run.lane = .rust → result.runs .builtin = []) :
    (result.record run).all = result.all ++ [run] := by
  unfold Result.all Result.record
  cases hlane : run.lane with
  | rust => simp [horder hlane]
  | builtin => simp

/-- A run is filed under the lane it measured. -/
theorem Filed.record {result : Result} {run : Run} (hfiled : Filed result) :
    Filed (result.record run) := by
  intro lane other hother
  dsimp only [Result.record] at hother
  by_cases hlane : lane = run.lane
  · subst hlane
    rw [Function.update_self, List.mem_append, List.mem_singleton] at hother
    exact hother.elim (hfiled run.lane other) fun heq => heq ▸ rfl
  · rw [Function.update_of_ne hlane] at hother
    exact hfiled lane other hother

theorem ensures_update {α : Type} {change : Result → Result} {next : Unit → CampaignAction α}
    {post : Except Stop α → World → Prop} :
    (update change >>= next).Ensures world post ↔
      (next ()).Ensures { world with result := change world.result } post := Iff.rfl

/-- A recorded run stays recorded while the result is changed otherwise and saved. -/
theorem Recorded.congr {after : World}
    (hrecorded : Recorded env config inventory target base done item run world)
    (hlog : after.log = world.log) (hhosts : after.hosts = world.hosts)
    (hruns : after.result.runs = world.result.runs) :
    Recorded env config inventory target base done item run after where
  measured := hlog ▸ hrecorded.measured
  watched := by
    rw [Watched, hlog, hhosts]
    exact hrecorded.watched
  loads := hlog ▸ hrecorded.loads
  runs := by
    rw [Result.all, hruns]
    exact hrecorded.runs
  filed := by
    rw [Filed, hruns]
    exact hrecorded.filed
  judged := hrecorded.judged

/-- The verdict on a run that is recorded is saved. -/
theorem conclude_ensures {status : Status} {reason : String} {next : CampaignAction Bool}
    {continued : World → Prop}
    (hrecorded : Recorded env config inventory target base done item run world)
    (horder : done ++ [item] <+: schedule config)
    (hnext : ∀ after, Recorded env config inventory target base done item run after →
      StoppedAt env item run status reason after → after.saved = .result after.result →
      next.Ensures after (Ended env config inventory target base continued)) :
    (do conclude status reason
        raising (save env)
        next).Ensures world (Ended env config inventory target base continued) := by
  refine ensures_update.mpr (Ensures.mapError (save_ensures _) (fun _ after hleft => ?_)
    fun message after hleft => ?_)
  · have hstays : Recorded env config inventory target base done item run after :=
      hrecorded.congr hleft.log hleft.hosts (by rw [hleft.result])
    obtain ⟨earlier, hall, -⟩ := hstays.runs
    refine hnext after hstays ⟨?_, hstays.judged, ?_, ?_⟩ hleft.saved
    · rw [hall, List.getLast?_concat]
    · rw [hleft.result]
    · rw [hleft.result]
  · have hstays : Recorded env config inventory target base done item run after :=
      hrecorded.congr hleft.log hleft.hosts (by rw [hleft.result])
    exact ⟨done, some item, hstays.trace horder (.inr hleft.saved), nofun⟩

/-- Asking for a larger helper touches neither the result nor the hosts. -/
theorem writeHelperRequest_ensures (role : HelperRole) (world : World) :
    (writeHelperRequest env role).Ensures world fun result after => after.result = world.result ∧
      after.hosts = world.hosts ∧ after.log = world.log ∧ after.saved = world.saved ∧
        (result = .ok () → after.helperRequest = some role) := by
  unfold Ensures Action.run writeHelperRequest
  cases env.write world.writes with
  | written => exact ⟨rfl, rfl, rfl, rfl, fun _ => rfl⟩
  | raised message left => exact ⟨rfl, rfl, rfl, rfl, nofun⟩

/-- A smoke test changes nothing that counts. -/
theorem keeps_smoke {urls tools : List String} :
    Keeps (fun world => Progress env config inventory target base lane done world ∧
      Ready env config inventory target world.log world.hosts lane)
      (smoke env config inventory urls tools) := by
  refine keeps_ignore (keeps_remote fun world ⟨hprogress, hready⟩ => ⟨?_, ?_⟩)
  · exact { hprogress with
      measured := measured_issued rfl hprogress.measured
      watched := watched_issued rfl hprogress.watched
      loads := (loads_issued_of_not_load rfl).trans hprogress.loads }
  · obtain ⟨hprojects, hfiles⟩ := @nextHosts_measures env world inventory.locust.publicIp
      (.smoke config.images.locust urls _) rfl
    exact hready.congr (List.prefix_append _ _) hprojects hfiles

/-- The phase of a report is the one of the level asked for. -/
theorem onePhase_level {users level : Nat} {evidence : PhaseEvidence Pressure} {stats : Stats}
    {passed : Bool} {pressures : List (String × Pressure)}
    (hreport : Fyre.onePhase users evidence = .ok (.measured stats passed pressures level)) :
    level = users := by
  unfold Fyre.onePhase at hreport
  split at hreport
  · cases hreport
  · cases hreport
  · cases hreport
  · split at hreport
    · cases hreport
    · split at hreport
      · cases hreport
      · obtain ⟨read, -, hreport⟩ := except_bind_eq_ok.mp hreport
        cases hreport
        rfl

/-- A phase that stopped on the way left no run. -/
theorem Phased.trace {after : World} {message : String}
    (hphased : Phased env config inventory target base item world (.error message) after)
    (hprogress : Progress env config inventory target base lane done world)
    (horder : done ++ [item] <+: schedule config) :
    Trace env config inventory target base done (some item) after where
  measured := hphased.measured
  watched := hphased.watched
  order := horder
  loads := by
    refine hphased.loads.imp (fun hloads => hloads.1.trans hprogress.loads) fun hloads => ?_
    rw [hloads, hprogress.loads]
    simp
  runs := ⟨world.result.all, [], by rw [hphased.same.result, List.append_nil], hprogress.runs,
    .inl rfl⟩
  filed := by
    rw [hphased.same.result]
    exact hprogress.filed
  saved := by
    rw [hphased.same.saved, hphased.same.result]
    exact .inl hprogress.saved

/-- The run of a phase that returned is recorded. -/
theorem Phased.recorded {after : World} {users : Nat} {report : Report}
    (hphased : Phased env config inventory target base (lane, users) world (.ok report) after)
    (hprogress : Progress env config inventory target base lane done world) :
    Recorded env config inventory target base done (lane, users) ⟨lane, report⟩
      { after with result := after.result.record ⟨lane, report⟩ } where
  measured := hphased.measured
  watched := hphased.watched
  loads := by
    refine (hphased.loads.resolve_left fun hnone => hnone.2 report rfl).trans ?_
    rw [hprogress.loads]
    simp
  runs := by
    refine ⟨world.result.all, ?_, hprogress.runs⟩
    rw [hphased.same.result]
    exact all_record hprogress.order
  filed := by
    rw [hphased.same.result]
    exact hprogress.filed.record
  judged := ⟨rfl, hphased.report report rfl⟩

/-- A run that is no good one ends the campaign with the run on record. -/
theorem judge_ensures {users : Nat} {report : Report} {continued : World → Prop}
    (hrecorded : Recorded env config inventory target base done (lane, users) ⟨lane, report⟩ world)
    (horder : done ++ [(lane, users)] <+: schedule config)
    (hcontinued : Good env config (lane, users) ⟨lane, report⟩ → continued world) :
    (judge env config lane users report).Ensures world
      (Ended env config inventory target base continued) := by
  unfold judge
  split
  next role hsaturated =>
    refine conclude_ensures hrecorded horder fun after hafter hstopped hsaved => ?_
    have htrace {final : World} (hresult : final.result = after.result)
        (hhosts : final.hosts = after.hosts) (hlog : final.log = after.log)
        (hfile : final.saved = after.saved) :
        Trace env config inventory target base done (some (lane, users)) final :=
      (hafter.congr hlog hhosts (congrArg Result.runs hresult)).trace horder
        (.inl (by rw [hfile, hsaved, hresult]))
    refine Ensures.mapError (writeHelperRequest_ensures role after) ?_ ?_
    · rintro ⟨⟩ final ⟨hresult, hhosts, hlog, hfile, hrequest⟩
      refine ensures_fail.mpr ⟨done, some (lane, users), htrace hresult hhosts hlog hfile, fun _ =>
        .saturated rfl ⟨hresult ▸ hstopped.last, hstopped.judged, hresult ▸ hstopped.status,
          hresult ▸ hstopped.reason⟩ hsaturated (hrequest rfl)⟩
    · rintro message final ⟨hresult, hhosts, hlog, hfile, -⟩
      exact ⟨done, some (lane, users), htrace hresult hhosts hlog hfile, nofun⟩
  next hunsaturated =>
    split
    next hpassed =>
      exact ensures_pure.mpr (hcontinued ⟨hrecorded.judged, hpassed, hunsaturated⟩)
    next hpassed =>
      refine conclude_ensures hrecorded horder fun after hafter hstopped hsaved => ?_
      exact ensures_pure.mpr ⟨done, some (lane, users), hafter.trace horder (.inl hsaved),
        .failed rfl hstopped (by simpa using hpassed) hunsaturated⟩

/-- A level of a lane adds one run to the record or ends the campaign. -/
theorem level_ensures {prepared : Prepared} {users : Nat}
    (hprogress : Progress env config inventory target base lane done world)
    (hready : Ready env config inventory target world.log world.hosts lane)
    (horder : done ++ [(lane, users)] <+: schedule config) :
    (level env config inventory lane prepared users).Ensures world
      (Ended env config inventory target base fun after =>
        Progress env config inventory target base lane (done ++ [(lane, users)]) after ∧
          Ready env config inventory target after.log after.hosts lane) := by
  refine Ensures.mapError (keeps_smoke world ⟨hprogress, hready⟩) ?_ fun message after hafter =>
    ⟨done, none, hafter.1.trace ?_, nofun⟩
  · rintro ⟨⟩ smoked ⟨hsmoked, hstill⟩
    refine Ensures.mapError (onePhase_ensures hsmoked.measured hstill hsmoked.watched) ?_
      fun message after hphased => ⟨done, some (lane, users), hphased.trace hsmoked horder, nofun⟩
    intro report phased hphased
    have hrecorded := hphased.recorded hsmoked
    refine ensures_update.mpr (Ensures.mapError (save_ensures _) (fun _ saved hleft => ?_)
      fun message saved hleft => ?_)
    · have hstays := hrecorded.congr hleft.log hleft.hosts (congrArg Result.runs hleft.result)
      refine judge_ensures hstays horder fun hgood => ⟨?_, ?_⟩
      · obtain ⟨earlier, hall, hearlier⟩ := hstays.runs
        exact {
          measured := hstays.measured
          watched := hstays.watched
          loads := hstays.loads
          runs := hall ▸ List.rel_append hearlier (.cons hgood .nil)
          filed := hstays.filed
          running := by
            rw [hleft.result]
            exact (congrArg Result.status hphased.same.result).trans hsmoked.running
          saved := hleft.saved
          order := fun hlane => by
            rw [hleft.result, hphased.same.result]
            simp [Result.record, hlane, hsmoked.order hlane] }
      · rw [hleft.log, hleft.hosts]
        exact hphased.ready
    · exact ⟨done, some (lane, users), Recorded.trace (hrecorded.congr hleft.log hleft.hosts
        (congrArg Result.runs hleft.result)) horder (.inr hleft.saved), nofun⟩
  · simpa using (List.prefix_append done [(lane, users)]).trans horder

/-- The levels of a lane, up to the first one that stops the comparison. -/
theorem levels_ensures {prepared : Prepared} (rest : List Nat)
    (hprogress : Progress env config inventory target base lane done world)
    (hready : Ready env config inventory target world.log world.hosts lane)
    (horder : done ++ rest.map (lane, ·) <+: schedule config) :
    (levels env config inventory lane prepared rest).Ensures world
      (Ended env config inventory target base
        (Progress env config inventory target base lane (done ++ rest.map (lane, ·)))) := by
  induction rest generalizing done world with
  | nil =>
      rw [List.map_nil, List.append_nil]
      exact ensures_pure.mpr hprogress
  | cons users rest ih =>
      have hsplit : done ++ (users :: rest).map (lane, ·) =
          (done ++ [(lane, users)]) ++ rest.map (lane, ·) := by simp
      rw [hsplit] at horder ⊢
      refine (level_ensures hprogress hready ((List.prefix_append _ _).trans horder)).bind ?_
        fun _ _ hafter => hafter
      rintro (_ | _) after hafter
      · exact ensures_pure.mpr hafter
      · exact ih hafter.1 hafter.2 horder

/-- A lane goes through its levels in order, and the next lane starts where it ended. -/
theorem lanes_cons_ensures {rest : List Lane} {continued : World → Prop}
    (hprogress : Progress env config inventory target base lane done world)
    (horder : done ++ (userLevels config).map (lane, ·) <+: schedule config)
    (hrest : ∀ after, Progress env config inventory target base lane
        (done ++ (userLevels config).map (lane, ·)) after →
      (lanes env config inventory target rest).Ensures after
        (Ended env config inventory target base continued)) :
    (lanes env config inventory target (lane :: rest)).Ensures world
      (Ended env config inventory target base continued) := by
  have hprepare := (keeps_prepare keptByPreparing_progress lane world hprogress).and
    (@prepare_returns env config inventory target lane world)
  refine Ensures.mapError hprepare (fun prepared ready hprepared => ?_) fun message after hafter =>
    ⟨done, none, hafter.1.trace ?_, nofun⟩
  · refine (levels_ensures _ hprepared.1 (hprepared.2 prepared rfl) horder).bind ?_
      fun _ _ hafter => hafter
    rintro (_ | _) measured hmeasured
    · exact ensures_pure.mpr hmeasured
    · refine Ensures.mapError (keeps_resetComparisonTarget keptByPreparing_progress measured
        hmeasured) (fun _ after hafter => hrest after hafter) fun message after hafter =>
          ⟨_, none, hafter.trace ?_, nofun⟩
      simpa using horder
  · simpa using (List.prefix_append done _).trans horder

/-- The comparison measures the Rust lane first and the built-in one after it. -/
theorem lanes_ensures
    (hprogress : Progress env config inventory target base .rust [] world) :
    (lanes env config inventory target [.rust, .builtin]).Ensures world
      (Ended env config inventory target base
        (Progress env config inventory target base .builtin (schedule config))) := by
  have hschedule : schedule config = (userLevels config).map (Lane.rust, ·) ++
      (userLevels config).map (Lane.builtin, ·) := by simp [schedule]
  refine lanes_cons_ensures hprogress ?_ fun middle hmiddle => ?_
  · rw [hschedule]
    exact List.prefix_append _ _
  · refine lanes_cons_ensures { hmiddle with order := nofun } ?_ fun after hafter =>
      ensures_pure.mpr ?_
    · rw [hschedule]
      exact List.prefix_rfl
    · rw [hschedule]
      exact hafter

/-! ## The end -/

/-- How the comparison ends while what it raised is not noted yet. -/
theorem compareLanes_ensures
    (hprogress : Progress env config inventory target base .rust [] world) :
    (compareLanes env config inventory target).Ensures world fun result after =>
      ∃ done current, Trace env config inventory target base done current after ∧
        ((∃ message, result = .error (.raised message)) ∨
          Verdict env config done current after result) := by
  refine (lanes_ensures hprogress).bind ?_ ?_
  · rintro (_ | _) measured hmeasured
    · obtain ⟨done, current, htrace, hverdict⟩ := hmeasured
      exact ⟨done, current, htrace, .inr hverdict⟩
    · have hkept {after : World} {outcome : Except String Unit} (hleft : SaveLeft env
          { measured with result := { measured.result with status := .confirmed } } outcome after) :
          after.result.runs = measured.result.runs := by
        rw [hleft.result]
      have htrace := hmeasured.trace (show schedule config ++ none.toList <+: _ by simp)
      refine ensures_update.mpr (Ensures.mapError (save_ensures _) (fun _ after hleft => ?_)
        fun message after hleft => ?_)
      · have hruns : List.Forall₂ (Good env config) (schedule config) after.result.all := by
          rw [Result.all, hkept hleft]
          exact hmeasured.runs
        exact ⟨_, none, htrace.congr hleft.log hleft.hosts (hkept hleft) (.inl hleft.saved),
          .inr (.confirmed (congrArg Result.status hleft.result) rfl hruns)⟩
      · exact ⟨_, none, htrace.congr hleft.log hleft.hosts (hkept hleft) (.inr hleft.saved),
          .inl ⟨message, rfl⟩⟩
  · rintro (_ | message) after ⟨done, current, htrace, hverdict⟩
    · cases hverdict rfl with
      | saturated hcurrent hstopped hsaturated hrequest =>
          exact ⟨done, current, htrace, .inr (.saturated hcurrent hstopped hsaturated hrequest)⟩
    · exact ⟨done, current, htrace, .inl ⟨message, rfl⟩⟩

/-- A failure is written into the result before it is raised again. -/
theorem noteFailure_ensures
    (hprogress : Progress env config inventory target base .rust [] world) :
    (noteFailure env (compareLanes env config inventory target)).Ensures world fun result after =>
      ∃ done current, Trace env config inventory target base done current after ∧
        Verdict env config done current after result := by
  refine Ensures.attempt (compareLanes_ensures hprogress) ?_
  rintro outcome middle ⟨done, current, htrace, hverdict⟩
  have hdone (hreturned : ∀ message, outcome ≠ .error (.raised message)) :
      Verdict env config done current middle outcome :=
    hverdict.resolve_left fun ⟨message, hraised⟩ => hreturned message hraised
  match outcome with
  | .ok value => exact ensures_pure.mpr ⟨done, current, htrace, hdone nofun⟩
  | .error .saturated => exact ensures_fail.mpr ⟨done, current, htrace, hdone nofun⟩
  | .error (.raised message) =>
      have hnoted {after : World} {outcome : Except String Unit} (hleft : SaveLeft env
          { middle with result := { middle.result with status := .failed, reason := some message } }
          outcome after) (hsaved : after.saved = .result after.result ∨ WriteFailed env after)
          (shown : String) (hmessage : shown = message ∨ WriteFailed env after) :
          ∃ done current, Trace env config inventory target base done current after ∧
            Verdict env config done current after (.error (.raised shown)) :=
        ⟨done, current, htrace.congr hleft.log hleft.hosts (by rw [hleft.result]) hsaved,
          .raised (by rw [hleft.result]) (by rw [hleft.result]) hmessage⟩
      refine ensures_update.mpr (Ensures.mapError (save_ensures _) (fun _ after hleft => ?_)
        fun failure after hleft => ?_)
      · exact ensures_fail.mpr (hnoted hleft (.inl hleft.saved) message (.inl rfl))
      · exact hnoted hleft (.inr hleft.saved) failure (.inr hleft.saved)

/-- The verdict depends only on what the record says. -/
theorem Verdict.congr {current : Option (Lane × Nat)} {after : World}
    {outcome : Except Stop Result} (hverdict : Verdict env config done current world outcome)
    (hsame : SameRecord world after) : Verdict env config done current after outcome := by
  have hresult := hsame.result
  cases hverdict with
  | confirmed hstatus hdone hruns =>
      rw [← hresult] at hstatus hruns ⊢
      exact .confirmed hstatus hdone hruns
  | failed hcurrent hstopped hpassed hunsaturated =>
      rw [← hresult]
      refine .failed hcurrent ⟨?_, hstopped.judged, ?_, ?_⟩ hpassed hunsaturated
      · exact hresult ▸ hstopped.last
      · exact hresult ▸ hstopped.status
      · exact hresult ▸ hstopped.reason
  | saturated hcurrent hstopped hsaturated hrequest =>
      refine .saturated hcurrent ⟨?_, hstopped.judged, ?_, ?_⟩ hsaturated
        (hsame.helperRequest.trans hrequest)
      · exact hresult ▸ hstopped.last
      · exact hresult ▸ hstopped.status
      · exact hresult ▸ hstopped.reason
  | raised hstatus hreason hmessage =>
      refine .raised (hresult ▸ hstatus) (hresult ▸ hreason) (hmessage.imp_right ?_)
      rw [WriteFailed, WriteFailed, hsame.writes]
      exact id

theorem composeDown_ensures (host : String) (world : World) :
    (composeDown env host lane).Ensures world fun result after =>
      after = issued env world host (.composeDown lane) ∧
        (match result with
          | .ok _ => (nextEntry env world host (.composeDown lane)).stops env = none
          | .error message =>
              (nextEntry env world host (.composeDown lane)).stops env = some message) :=
  (remote_answers world rfl).bind (fun _ _ hafter => ensures_pure.mpr hafter)
    fun _ _ hafter => hafter

/-- What a reset issued and what it left. -/
structure ResetLeft (env : Environment) (target : Machine) (before : World)
    (answer : Except String Unit) (after : World) (reset : List Entry) : Prop where
  log : after.log = before.log ++ reset
  commands : reset.map Entry.command <+: resetCommands
  complete : resetAnswer env reset = .ok () → reset.map Entry.command = resetCommands
  stopped : ∀ entry ∈ reset.dropLast, entry.stops env = none
  onTarget : ∀ entry ∈ reset, entry.host = target.publicIp
  cleared : (∀ entry ∈ reset, entry.fate.succeeded = true) →
    (∀ lane, after.hosts.projects (target.publicIp, lane) = none) ∧
      after.hosts.files (target.publicIp, "cf-fyre/state/token") = none
  answer : answer = resetAnswer env reset

/-- A reset that nothing stopped succeeds. -/
theorem resetAnswer_of_none {reset : List Entry}
    (hnone : ∀ entry ∈ reset, entry.stops env = none) : resetAnswer env reset = .ok () := by
  unfold resetAnswer
  rw [List.findSome?_eq_none_iff.mpr hnone]

/-- The first command that stops a reset names its error. -/
theorem resetAnswer_of_some {earlier : List Entry} {entry : Entry} {message : String}
    (hnone : ∀ entry ∈ earlier, entry.stops env = none)
    (hstops : entry.stops env = some message) :
    resetAnswer env (earlier ++ [entry]) = .error message := by
  unfold resetAnswer
  rw [List.findSome?_append, List.findSome?_eq_none_iff.mpr hnone]
  simp [hstops]

/-- A reset that was stopped by its last command. -/
theorem ResetLeft.of_stops {before after : World} (earlier : List Entry) {entry : Entry}
    {message : String} (hlog : after.log = before.log ++ (earlier ++ [entry]))
    (hcommands : (earlier ++ [entry]).map Entry.command <+: resetCommands)
    (htarget : ∀ each ∈ earlier ++ [entry], each.host = target.publicIp)
    (hnone : ∀ entry ∈ earlier, entry.stops env = none)
    (hstops : entry.stops env = some message) :
    ResetLeft env target before (.error message) after (earlier ++ [entry]) where
  log := hlog
  commands := hcommands
  complete hanswer := by
    rw [resetAnswer_of_some hnone hstops] at hanswer
    cases hanswer
  stopped := by rwa [List.dropLast_concat]
  onTarget := htarget
  cleared hsucceeded := by
    have hentry := hsucceeded entry List.mem_concat_self
    rw [Entry.failed_of_stops hstops] at hentry
    cases hentry
  answer := (resetAnswer_of_some hnone hstops).symm

/-- The two projects go down, or one of the commands stops the reset. -/
theorem composeDowns_ensures (world : World) :
    (forEach (composeDown env target.publicIp) [.rust, .builtin]).Ensures world
      fun result middle => match result with
        | .ok () => ∃ first, first = issued env world target.publicIp (.composeDown .rust) ∧
            middle = issued env first target.publicIp (.composeDown .builtin) ∧
            (nextEntry env world target.publicIp (.composeDown .rust)).stops env = none ∧
            (nextEntry env first target.publicIp (.composeDown .builtin)).stops env = none
        | .error message => ∃ reset, ResetLeft env target world (.error message) middle reset := by
  refine (composeDown_ensures target.publicIp world).bind ?_ ?_
  · rintro ⟨⟩ first ⟨hfirst, hrust⟩
    refine (composeDown_ensures target.publicIp first).bind ?_ ?_
    · rintro ⟨⟩ second ⟨hsecond, hbuiltin⟩
      exact ensures_pure.mpr ⟨first, hfirst, hsecond, hrust, hbuiltin⟩
    · rintro message second ⟨rfl, hstops⟩
      subst hfirst
      refine ⟨_, .of_stops [nextEntry env world target.publicIp (.composeDown .rust)]
        (List.append_assoc _ _ _) ⟨[.forgetState], rfl⟩ ?_ ?_ hstops⟩
      · simp [nextEntry]
      · simpa using hrust
  · rintro message first ⟨rfl, hstops⟩
    refine ⟨_, .of_stops [] rfl ⟨[.composeDown .builtin, .forgetState], rfl⟩ ?_
      (fun _ hentry => absurd hentry List.not_mem_nil) hstops⟩
    simp [nextEntry]

/-- A reset goes through its commands up to the first that stops it. -/
theorem resetComparisonTarget_ensures (world : World) :
    (resetComparisonTarget env target).Ensures world fun result after =>
      ∃ reset, ResetLeft env target world result after reset := by
  refine (composeDowns_ensures world).bind ?_ fun message middle hstopped => hstopped
  rintro ⟨⟩ second ⟨first, hfirst, hsecond, hrust, hbuiltin⟩
  have hlog : second.log ++ [nextEntry env second target.publicIp .forgetState] =
      world.log ++ ([nextEntry env world target.publicIp (.composeDown .rust),
        nextEntry env first target.publicIp (.composeDown .builtin)] ++
        [nextEntry env second target.publicIp .forgetState]) := by
    subst hsecond hfirst
    simp [issued]
  have hnone : ∀ entry ∈ [nextEntry env world target.publicIp (.composeDown .rust),
      nextEntry env first target.publicIp (.composeDown .builtin)], entry.stops env = none := by
    simp [hrust, hbuiltin]
  refine Ensures.bind (remote_answers second rfl) ?_ ?_
  · rintro answer _ ⟨rfl, hforget⟩
    have hall : resetAnswer env ([nextEntry env world target.publicIp (.composeDown .rust),
        nextEntry env first target.publicIp (.composeDown .builtin)] ++
        [nextEntry env second target.publicIp .forgetState]) = .ok () :=
      resetAnswer_of_none (by simp [hrust, hbuiltin, hforget])
    refine ensures_pure.mpr ⟨_, hlog, List.prefix_rfl, fun _ => rfl, ?_, ?_, fun hsucceeded => ?_,
      hall.symm⟩
    · rwa [List.dropLast_concat]
    · simp [nextEntry]
    · simp only [List.cons_append, List.nil_append, List.mem_cons, List.not_mem_nil, or_false,
        forall_eq_or_imp, forall_eq] at hsucceeded
      obtain ⟨hdown, hdowns, hforgotten⟩ := hsucceeded
      rw [issued_hosts second hforgotten, hsecond, issued_hosts first hdowns, hfirst,
        issued_hosts world hdown]
      refine ⟨fun lane => ?_, ?_⟩
      · cases lane <;> simp [Hosts.apply]
      · simp [Hosts.apply]
  · rintro message _ ⟨rfl, hforget⟩
    refine ⟨_, .of_stops _ hlog List.prefix_rfl ?_ hnone hforget⟩
    simp [nextEntry]

/-- The first save leaves nothing measured. -/
theorem progress_initial {hosts : Hosts} {after : World}
    (hleft : SaveLeft env (initial config inventory hosts) (.ok ()) after) :
    Progress env config inventory target hosts.monitors .rust [] after where
  measured := by
    rw [hleft.log]
    exact fits_nil _
  watched := by
    rw [Watched, hleft.hosts]
    exact .inl (List.Subset.refl _)
  loads := by
    rw [hleft.log]
    rfl
  runs := by
    rw [hleft.result]
    exact .nil
  filed := by
    rw [hleft.result]
    exact fun _ _ hrun => absurd hrun List.not_mem_nil
  running := by
    rw [hleft.result]
    rfl
  saved := hleft.saved
  order := fun _ => by
    rw [hleft.result]
    rfl

/-! ## The result of the campaign -/

/-- What the report reads of a run. -/
def Run.phase (run : Run) : Option ComparisonPhase :=
  match run.report with
  | .measured stats _ _ users => some ⟨users, stats.traffic⟩
  | .unfinished _ _ => none

def Result.comparison (result : Result) : ComparisonResult where
  status := "confirmed"
  rust := (result.runs .rust).filterMap Run.phase
  builtin := (result.runs .builtin).filterMap Run.phase

/-- A good run has traffic without a failure. -/
theorem Good.traffic {item : Lane × Nat} {run : Run} (hgood : Good env config item run) :
    ∃ traffic, run.phase = some ⟨item.2, traffic⟩ ∧ traffic.failures = 0 := by
  obtain ⟨number, code, hreport⟩ := hgood.report
  have hpassed := hgood.passed
  unfold Run.phase
  cases hmeasured : run.report with
  | unfinished reason pressures =>
      rw [hmeasured] at hpassed
      cases hpassed
  | measured stats passed pressures users =>
      rw [hmeasured] at hpassed hreport
      obtain ⟨hflawless, -⟩ := onePhase_measured hreport
      cases onePhase_level hreport
      refine ⟨stats.traffic, rfl, ?_⟩
      exact of_decide_eq_true (hflawless.symm.trans hpassed)

/-- The runs of a lane depend on the traffic of its levels only. -/
theorem laneRuns_congr {first second : Nat → Option Traffic} {levels : List UInt32}
    (hsame : ∀ users ∈ levels, first users.toNat = second users.toNat) :
    laneRuns first levels = laneRuns second levels := by
  induction levels with
  | nil => rfl
  | cons users rest ih =>
      obtain ⟨hfirst, hrest⟩ := List.forall_mem_cons.mp hsame
      rw [laneRuns, laneRuns, hfirst, ih hrest]

/-- Good runs of all levels are a lane of the abstract comparison. -/
theorem laneRuns_of_good {lane : Lane} {levels : List UInt32} {runs : List Run}
    (hgood : List.Forall₂ (Good env config) (levels.map fun users => (lane, users.toNat)) runs)
    (hnodup : (levels.map UInt32.toNat).Nodup) :
    ∃ phases, laneRuns phases levels = some (runs.filterMap Run.phase) := by
  induction levels generalizing runs with
  | nil =>
      cases hgood
      exact ⟨fun _ => none, rfl⟩
  | cons users rest ih =>
      rw [List.map_cons, List.forall₂_cons_left_iff] at hgood
      obtain ⟨run, others, hrun, hothers, rfl⟩ := hgood
      obtain ⟨hnew, hrest⟩ := List.nodup_cons.mp hnodup
      obtain ⟨phases, hphases⟩ := ih hothers hrest
      obtain ⟨traffic, hphase, hflawless⟩ := hrun.traffic
      refine ⟨Function.update phases users.toNat (some traffic), ?_⟩
      have hsame : laneRuns (Function.update phases users.toNat (some traffic)) rest =
          laneRuns phases rest := by
        refine laneRuns_congr fun other hother => Function.update_of_ne (fun heq => ?_) _ _
        exact hnew (heq ▸ List.mem_map_of_mem hother)
      rw [laneRuns, Function.update_self]
      simp only [hflawless, if_true, hsame, hphases, List.filterMap_cons, hphase, Option.map_some]

theorem filter_all {result : Result} (hfiled : Filed result) (lane : Lane) :
    (result.all.filter fun run => run.lane = lane) = result.runs lane := by
  have hown : ((result.runs lane).filter fun run => run.lane = lane) = result.runs lane :=
    List.filter_eq_self.mpr fun run hrun => decide_eq_true (hfiled lane run hrun)
  have hother : ∀ other, other ≠ lane →
      ((result.runs other).filter fun run => run.lane = lane) = [] := fun other hother =>
    List.filter_eq_nil_iff.mpr fun run hrun hlane =>
      hother ((hfiled other run hrun).symm.trans (of_decide_eq_true hlane))
  rw [Result.all, List.filter_append]
  cases lane with
  | rust => rw [hown, hother .builtin Lane.noConfusion, List.append_nil]
  | builtin => rw [hown, hother .rust Lane.noConfusion, List.nil_append]

/-- The schedule of a lane is its user levels in order. -/
theorem filter_schedule (lane : Lane) :
    ((schedule config).filter fun item => item.1 = lane) =
      config.workload.userLevels.map fun users => (lane, users.toNat) := by
  unfold schedule userLevels
  cases lane <;> simp [List.filter_map, Function.comp_def]

/-- The runs of a lane, where all runs are those of the schedule. -/
theorem good_of_schedule {result : Result} (hfiled : Filed result)
    (hruns : List.Forall₂ (Good env config) (schedule config) result.all) (lane : Lane) :
    List.Forall₂ (Good env config)
      (config.workload.userLevels.map fun users => (lane, users.toNat)) (result.runs lane) := by
  rw [← filter_schedule, ← filter_all hfiled]
  refine List.rel_filter (fun item run hgood => ?_) hruns
  change decide (item.1 = lane) = true ↔ decide (run.lane = lane) = true
  rw [hgood.lane]

/-- A confirmed result is one of the abstract comparison that the report starts from. -/
theorem Verdict.comparison {current : Option (Lane × Nat)} {outcome : Except Stop Result}
    {result : Result} (hverdict : Verdict env config done current world outcome)
    (hfiled : Filed world.result) (hconfirmed : outcome = .ok result ∧ result.status = .confirmed)
    (hnodup : (userLevels config).Nodup) : ∃ rust builtin,
      Fyre.fixedComparison rust builtin config.toFyreConfig = some result.comparison := by
  obtain ⟨houtcome, hstatus⟩ := hconfirmed
  cases hverdict with
  | confirmed _ hdone hruns =>
      cases houtcome
      subst hdone
      obtain ⟨rust, hrust⟩ := laneRuns_of_good (good_of_schedule hfiled hruns .rust) hnodup
      obtain ⟨builtin, hbuiltin⟩ := laneRuns_of_good (good_of_schedule hfiled hruns .builtin) hnodup
      refine ⟨rust, builtin, ?_⟩
      rw [Fyre.fixedComparison, hrust, hbuiltin]
      rfl
  | failed _ hstopped =>
      cases houtcome
      rw [hstopped.status] at hstatus
      cases hstatus
  | saturated => cases houtcome
  | raised => cases houtcome

/-- Whatever the commands and the writes do and wherever they are interrupted, a lane is
measured only with its own project up, under its own credentials and after the other project
was told to go down; the runs are those of the schedule, in its order; the saved result is
that of the outcome unless a write failed; no monitor is left behind that could be handled; and
the target is reset last. A confirmed result is one that the report can start from. -/
theorem fixedComparison_conducted (env : Environment) (config : CampaignConfig)
    (inventory : Inventory) (hosts : Hosts) :
    (fixedComparison env config inventory).Ensures (initial config inventory hosts)
      fun outcome after => Conducted env config inventory hosts outcome after ∧
        ∀ result, outcome = .ok result → result.status = .confirmed → (userLevels config).Nodup →
          ∃ rust builtin,
            Fyre.fixedComparison rust builtin config.toFyreConfig = some result.comparison := by
  have hunstarted {outcome : Except Stop Result} {after : World}
      (hwhy : Unstarted env config inventory outcome) (hlog : after.log = [])
      (hresult : after.result = initialResult config inventory) :
      Conducted env config inventory hosts outcome after ∧
        ∀ result, outcome = .ok result → result.status = .confirmed →
          (userLevels config).Nodup → ∃ rust builtin,
            Fyre.fixedComparison rust builtin config.toFyreConfig = some result.comparison :=
    ⟨.inl ⟨hwhy, hlog, hresult⟩, fun _ houtcome => by cases hwhy <;> cases houtcome⟩
  unfold fixedComparison
  split
  next hscenarios => exact hunstarted (.noScenario hscenarios) rfl rfl
  next hscenarios =>
  have hsome : config.scenarios ≠ [] := by simp [hscenarios]
  refine Ensures.mapError (save_ensures _) (fun _ saved hleft => ?_) fun message saved hleft => ?_
  swap
  · obtain ⟨left, hwrite⟩ := hleft.write
    exact hunstarted (.notSaved hsome hwrite) hleft.log hleft.result
  have hwrite : env.write 0 = .written := hleft.write
  split
  next hdataplanes => exact hunstarted (.noTarget hsome hwrite hdataplanes) hleft.log hleft.result
  next target others hinventory =>
    refine ensures_tryFinally (noteFailure_ensures (progress_initial hleft)) ?_
    rintro inner noted ⟨done, current, htrace, hverdict⟩
    have hkept := @keeps_resetComparisonTarget env target _ keptByPreparing_trace noted htrace
    have hsame := @keeps_resetComparisonTarget env target _
      (fun check _ _ _ _ => keeps_sameRecord check noted) noted ⟨rfl, rfl, rfl, rfl⟩
    refine ensures_mapError.mpr (((hkept.and hsame).and
      (resetComparisonTarget_ensures noted)).mono ?_)
    rintro answer after ⟨⟨hafter, hrecord⟩, reset, hreset⟩
    have hafterwards := hverdict.congr hrecord
    have hconducted {outcome : Except Stop Result}
        (houtcome : outcome = match resetAnswer env reset with
          | .ok () => inner
          | .error message => .error (.raised message)) :
        Conducted env config inventory hosts outcome after :=
      .inr ⟨target, others, hsome, hwrite, hinventory, done, current, inner, reset, hafter,
        hafterwards, ⟨noted.log, hreset.log.symm⟩, hreset.commands, hreset.complete,
        hreset.stopped, hreset.onTarget, hreset.cleared, houtcome⟩
    cases answer with
    | ok =>
        refine ⟨hconducted (by rw [← hreset.answer]), ?_⟩
        exact fun result houtcome hstatus hnodup =>
          hafterwards.comparison hafter.filed ⟨houtcome, hstatus⟩ hnodup
    | error message =>
        refine ⟨hconducted (by rw [← hreset.answer]), ?_⟩
        exact fun _ houtcome => by cases houtcome

end

end CfIntegration.Fyre.FixedComparison
