import CfIntegration.Foundation.Action
import CfIntegration.Mcp.EventStream
import CfIntegration.Runtime.Entry
import CfIntegration.Runtime.Failure

/-! # Stopping a stack

`stack down` lets Compose take a project down and then removes what still carries the
project's label. Compose and the docker commands may refuse at any point; the resources
of other projects are not touched.
-/

namespace CfIntegration.Runtime.StackCleanup

open CfIntegration.Action Text Mcp.Protocol

/-! ## Docker -/

inductive Kind where
  | container
  | network
  | volume
  deriving DecidableEq, Repr

/-- What Docker lists as an identifier, or as the name of a volume. -/
structure Identifier where
  text : List Char
  nonempty : text ≠ []
  plain : ∀ char ∈ text, isWhitespace char = false

structure Resource where
  kind : Kind
  id : Identifier
  /-- The label `com.docker.compose.project`. -/
  project : Option String

structure Docker where
  resources : List Resource
  unique : (resources.map fun resource => (resource.kind, resource.id.text)).Nodup

def Docker.keep (docker : Docker) (kept : Resource → Bool) : Docker where
  resources := docker.resources.filter kept
  unique := docker.unique.sublist (List.Sublist.map _ List.filter_sublist)

inductive CleanupKind where
  | down
  | reset
  deriving DecidableEq, Repr

inductive LaneSelection where
  | builtin
  | external
  | all
  deriving DecidableEq, Repr

def selectedTopologies : LaneSelection → List StackMode
  | .builtin => [.controlplane]
  | .external => [.dataplane]
  | .all => [.controlplane, .dataplane]

/-- Configuration, and how Compose and Docker behave. -/
structure Environment where
  project : StackMode → String
  /-- An empty setting is replaced by its default. -/
  named : ∀ mode, project mode ≠ ""
  /-- The checkout of the control plane has a Compose file. -/
  composeFile : Bool
  composeEnvironment : StackMode → AppResult Unit
  standaloneDataplaneEnvironment : AppResult Unit
  /-- The error of a docker command. -/
  docker : List String → Docker → Option InfrastructureError
  /-- The error of a Compose command for a project. -/
  compose : String → List String → Docker → Option InfrastructureError
  /-- What a Compose command for a project does not remove of it. -/
  survives : String → List String → Docker → Resource → Bool

def requiredText (value name : String) : AppResult String :=
  if value ≠ "" then .ok value else .error (.native s!"{name} must be nonempty UTF-8")

def projectFilter (project : String) : String := s!"label=com.docker.compose.project={project}"

def listArguments (project : String) : Kind → List String
  | .container => ["ps", "-aq", "--filter", projectFilter project]
  | .network => ["network", "ls", "-q", "--filter", projectFilter project]
  | .volume => ["volume", "ls", "-q", "--filter", projectFilter project]

def removeArguments (id : List Char) : Kind → List String
  | .container => ["rm", "-f", String.ofList id]
  | .network => ["network", "rm", String.ofList id]
  | .volume => ["volume", "rm", String.ofList id]

def stackCleanupArguments (kind : CleanupKind) : List String :=
  ["down"] ++ (if kind = .reset then ["--volumes"] else []) ++ ["--remove-orphans"]

/-- What Docker prints, one identifier a line. -/
def listing (docker : Docker) (kind : Kind) (project : String) : List Char :=
  ((docker.resources.filter fun resource =>
    resource.kind = kind && resource.project = some project).map fun resource =>
      resource.id.text ++ ['\n']).flatten

section
variable (env : Environment)

def dockerList (kind : Kind) (project : String) : Action Docker AppFailure (List (List Char)) :=
  fun docker => match env.docker (listArguments project kind) docker with
    | some error => (.error (.infrastructure error), docker)
    | none =>
        (.ok (((lines (listing docker kind project)).map (trim isWhitespace)).filter (· ≠ [])),
          docker)

/-- `docker rm -f`, `docker network rm` or `docker volume rm`. -/
def remove (kind : Kind) (id : List Char) : Action Docker AppFailure Unit := fun docker =>
  match env.docker (removeArguments id kind) docker with
  | some error => (.error (.infrastructure error), docker)
  | none => (.ok (), docker.keep fun resource => !(resource.kind = kind && resource.id.text = id))

/-- A network that is still in use stays. -/
def tryRemoveNetwork (id : List Char) : Action Docker AppFailure Unit := do
  let _ ← attempt (remove env .network id)
  return ()

/-- Remove what Docker lists of a project, up to the first refusal. -/
def removeListed (kind : Kind) (project : String) : Action Docker AppFailure Unit := do
  let ids ← dockerList env kind project
  forEach (remove env kind) ids

def tryRemoveNetworks (project : String) : Action Docker AppFailure Unit := do
  let ids ← dockerList env .network project
  forEach (tryRemoveNetwork env) ids

def removeProjectByLabel (project : String) (kind : CleanupKind) :
    Action Docker AppFailure Unit := do
  removeListed env .container project
  tryRemoveNetworks env project
  if kind = .reset then removeListed env .volume project else return ()

/-- Compose stays within its project, and keeps the volumes unless it is told otherwise. -/
def composeDown (project : String) (arguments : List String) (docker : Docker) : Docker :=
  docker.keep fun resource => resource.project ≠ some project ||
    (resource.kind = .volume && "--volumes" ∉ arguments) ||
    env.survives project arguments docker resource

def composeCleanup (project : String) (kind : CleanupKind) : Action Docker AppFailure Unit :=
  fun docker =>
    match env.compose project (stackCleanupArguments kind) docker with
    | some error => (.error (.infrastructure error),
        composeDown env project (stackCleanupArguments kind) docker)
    | none => (.ok (), composeDown env project (stackCleanupArguments kind) docker)

def composeLane (mode : StackMode) (kind : CleanupKind) : Action Docker AppFailure Unit :=
  if env.composeFile then do
    ofExcept (env.composeEnvironment mode)
    composeCleanup env (env.project mode) kind
  else return ()

def cleanupLane (mode : StackMode) (kind : CleanupKind) :
    Action Docker AppFailure (List AppFailure) := do
  let composed ← attempt (composeLane env mode kind)
  let removed ← attempt (do
    let project ← ofExcept (requiredText (env.project mode) "Compose project name")
    removeProjectByLabel env project kind)
  return (err composed).toList ++ (err removed).toList

def cleanupLanes (kind : CleanupKind) :
    List StackMode → Action Docker AppFailure (List AppFailure)
  | [] => return []
  | mode :: modes => do
      let failures ← cleanupLane env mode kind
      let others ← cleanupLanes kind modes
      return failures ++ others

def cleanup (selection : LaneSelection) (kind : CleanupKind) : Action Docker AppFailure Unit := do
  let failures ← cleanupLanes env kind (selectedTopologies selection)
  ofExcept (finishWithCleanupFailures none failures)

def cleanupStandaloneDataplane (kind : CleanupKind) : Action Docker AppFailure Unit := do
  ofExcept env.standaloneDataplaneEnvironment
  let primary ← attempt (composeCleanup env (env.project .dataplane) kind)
  let project ← ofExcept (requiredText (env.project .dataplane) "CF_INTEGRATION_PROJECT")
  let removed ← attempt (removeProjectByLabel env project kind)
  ofExcept (finishWithCleanup (err primary) removed)

end

structure Down where
  lane : LaneSelection
  volumes : Bool
  standalone : Bool

def Down.kind (down : Down) : CleanupKind := if down.volumes then .reset else .down

/-- `stack down`. -/
def executeDown (env : Environment) (down : Down) : Action Docker AppFailure Unit :=
  if down.standalone then cleanupStandaloneDataplane env down.kind
  else cleanup env down.lane down.kind

/-! ## What is removed -/

/-- Only resources that may be touched are missing afterwards, and nothing is new. -/
structure Trims (touched : Resource → Prop) (before after : Docker) : Prop where
  fewer : ∀ resource ∈ after.resources, resource ∈ before.resources
  spared : ∀ resource ∈ before.resources, ¬ touched resource → resource ∈ after.resources

def Touched (project : String) (kind : CleanupKind) (resource : Resource) : Prop :=
  resource.project = some project ∧ (kind = .down → resource.kind ≠ .volume)

namespace Trims

variable {touched : Resource → Prop} {before middle after : Docker}

theorem refl (docker : Docker) : Trims touched docker docker :=
  ⟨fun _ hmem => hmem, fun _ hmem _ => hmem⟩

theorem trans (hfirst : Trims touched before middle) (hsecond : Trims touched middle after) :
    Trims touched before after :=
  ⟨fun resource hmem => hfirst.fewer resource (hsecond.fewer resource hmem),
    fun resource hmem hout => hsecond.spared resource (hfirst.spared resource hmem hout) hout⟩

theorem mono {other : Resource → Prop} (htrims : Trims touched before after)
    (hother : ∀ resource, touched resource → other resource) : Trims other before after :=
  ⟨htrims.fewer, fun resource hmem hout =>
    htrims.spared resource hmem fun htouched => hout (hother resource htouched)⟩

theorem keep {kept : Resource → Bool}
    (htouched : ∀ resource ∈ before.resources, kept resource = false → touched resource) :
    Trims touched before (before.keep kept) := by
  refine ⟨fun resource hmem => (List.mem_filter.mp hmem).1, fun resource hmem hout => ?_⟩
  refine List.mem_filter.mpr ⟨hmem, ?_⟩
  by_contra hkept
  exact hout (htouched resource hmem (by simpa using hkept))

end Trims

/-- Kind and identifier determine the resource. -/
theorem Docker.eq_of_id {docker : Docker} {first second : Resource}
    (hfirst : first ∈ docker.resources) (hsecond : second ∈ docker.resources)
    (hkind : first.kind = second.kind) (hid : first.id.text = second.id.text) : first = second :=
  List.inj_on_of_nodup_map docker.unique hfirst hsecond (Prod.ext hkind hid)

/-! ## Listings -/

theorem Identifier.trim_text (id : Identifier) : trim isWhitespace id.text = id.text := by
  have hdrop : id.text.dropWhile isWhitespace = id.text := by
    rw [List.dropWhile_eq_self_iff]
    intro hlength
    simp [id.plain _ (List.getElem_mem hlength)]
  rw [trim, hdrop, List.rdropWhile_eq_self_iff]
  intro hne
  simp [id.plain _ (List.getLast_mem hne)]

theorem Identifier.not_mem (id : Identifier) {char : Char} (hspace : isWhitespace char = true) :
    char ∉ id.text := fun hmem => by
  have hplain := id.plain char hmem
  rw [hspace] at hplain
  cases hplain

/-- Docker's identifiers are read back as they were printed. -/
theorem read_listing (ids : List Identifier) :
    ((lines (ids.map fun id => id.text ++ ['\n']).flatten).map (trim isWhitespace)).filter (· ≠ [])
      = ids.map Identifier.text := by
  induction ids with
  | nil => rfl
  | cons id ids ih =>
      rw [List.map_cons, List.flatten_cons, List.append_assoc, List.singleton_append,
        lines_append (id.not_mem (by decide)) (id.not_mem (by decide)), List.map_cons,
        id.trim_text, List.filter_cons_of_pos (by simpa using id.nonempty), ih, List.map_cons]

section
variable {env : Environment}

/-- Docker refused a command. -/
def Refused (env : Environment) (failure : AppFailure) : Prop :=
  ∃ arguments docker error, env.docker arguments docker = some error ∧
    failure = .infrastructure error

theorem dockerList_spec (kind : Kind) (project : String) (docker : Docker) :
    Ensures (dockerList env kind project) docker fun result after => after = docker ∧
      match result with
      | .ok ids => ∀ id, id ∈ ids ↔ ∃ resource ∈ docker.resources, resource.kind = kind ∧
          resource.project = some project ∧ resource.id.text = id
      | .error failure => Refused env failure := by
  cases hdocker : env.docker (listArguments project kind) docker with
  | some error =>
      have hrun : dockerList env kind project docker =
          (.error (.infrastructure error), docker) := by
        unfold dockerList
        rw [hdocker]
      exact ensures_of_eq hrun ⟨rfl, _, _, error, hdocker, rfl⟩
  | none =>
      refine ensures_of_eq (by unfold dockerList; rw [hdocker]) ⟨rfl, fun id => ?_⟩
      have hread := read_listing ((docker.resources.filter fun resource =>
        resource.kind = kind && resource.project = some project).map Resource.id)
      rw [List.map_map, List.map_map] at hread
      unfold listing
      rw [show (fun resource : Resource => resource.id.text ++ ['\n']) =
        (fun id : Identifier => id.text ++ ['\n']) ∘ Resource.id from rfl, hread]
      simp [and_assoc]

theorem remove_spec (kind : Kind) (id : List Char) (docker : Docker) :
    Ensures (remove env kind id) docker fun result after => match result with
      | .ok () => after = docker.keep fun resource =>
          !(resource.kind = kind && resource.id.text = id)
      | .error failure => after = docker ∧ Refused env failure ∧
          env.docker (removeArguments id kind) docker ≠ none := by
  cases hdocker : env.docker (removeArguments id kind) docker with
  | some error =>
      have hrun : remove env kind id docker = (.error (.infrastructure error), docker) := by
        unfold remove
        rw [hdocker]
      exact ensures_of_eq hrun ⟨rfl, ⟨_, _, error, hdocker, rfl⟩, nofun⟩
  | none =>
      have hrun : remove env kind id docker = (.ok (), docker.keep fun resource =>
          !(resource.kind = kind && resource.id.text = id)) := by
        unfold remove
        rw [hdocker]
      exact ensures_of_eq hrun rfl

/-- A removal only touches what has the identifier. -/
theorem keeps_remove {touched : Resource → Prop} {before : Docker} {kind : Kind} {id : List Char}
    (hid : ∀ resource ∈ before.resources, resource.kind = kind → resource.id.text = id →
      touched resource) : Keeps (Trims touched before) (remove env kind id) := by
  intro state hstate
  refine (remove_spec kind id state).mono fun result after hafter => ?_
  cases result with
  | ok =>
      cases hafter
      refine hstate.trans (Trims.keep fun resource hmem hremoved => ?_)
      simp only [Bool.not_eq_false', Bool.and_eq_true, decide_eq_true_eq] at hremoved
      exact hid resource (hstate.fewer resource hmem) hremoved.1 hremoved.2
  | error failure => exact hafter.1 ▸ hstate

/-! ## The sweep by label -/

/-- Docker refused to remove a network. -/
def NetworkRefused (env : Environment) (resource : Resource) : Prop :=
  ∃ state, env.docker (removeArguments resource.id.text .network) state ≠ none

/-- What is left of a project: networks that Docker refused to remove, and volumes unless
they were to go. -/
structure Cleaned (env : Environment) (project : String) (kind : CleanupKind)
    (docker : Docker) : Prop where
  containers : ∀ resource ∈ docker.resources, resource.project = some project →
    resource.kind ≠ .container
  networks : ∀ resource ∈ docker.resources, resource.project = some project →
    resource.kind = .network → NetworkRefused env resource
  volumes : kind = .reset → ∀ resource ∈ docker.resources, resource.project = some project →
    resource.kind ≠ .volume

theorem Cleaned.anti {project : String} {kind : CleanupKind} {touched : Resource → Prop}
    {before after : Docker} (hcleaned : Cleaned env project kind before)
    (htrims : Trims touched before after) : Cleaned env project kind after where
  containers resource hmem := hcleaned.containers resource (htrims.fewer resource hmem)
  networks resource hmem := hcleaned.networks resource (htrims.fewer resource hmem)
  volumes hkind resource hmem := hcleaned.volumes hkind resource (htrims.fewer resource hmem)

/-- The resources of a kind that a project still has are among those to come, or are excused. -/
def Pending (kind : Kind) (project : String) (excused : Resource → Prop) (ids : List (List Char))
    (docker : Docker) : Prop :=
  ∀ resource ∈ docker.resources, resource.project = some project → resource.kind = kind →
    resource.id.text ∈ ids ∨ excused resource

theorem Pending.step {kind : Kind} {project : String} {excused : Resource → Prop}
    {id : List Char} {ids : List (List Char)} {docker : Docker}
    (hpending : Pending kind project excused (id :: ids) docker) :
    Pending kind project excused ids
      (docker.keep fun resource => !(resource.kind = kind && resource.id.text = id)) := by
  intro resource hmem hproject hkind
  obtain ⟨hmem, hkept⟩ := List.mem_filter.mp hmem
  refine (hpending resource hmem hproject hkind).imp_left fun hid => ?_
  refine (List.mem_cons.mp hid).resolve_left fun heq => ?_
  simp [hkind, heq] at hkept

theorem ensures_removeAll {kind : Kind} {project : String} {ids : List (List Char)}
    {docker : Docker} (hpending : Pending kind project (fun _ => False) ids docker) :
    Ensures (forEach (remove env kind) ids) docker fun result after => match result with
      | .ok () => ∀ resource ∈ after.resources, resource.project = some project →
          resource.kind ≠ kind
      | .error failure => Refused env failure := by
  refine ensures_forEach (Pending kind project fun _ => False) ?_ ?_ hpending
  · intro id rest state hstate
    refine (remove_spec kind id state).mono fun result after hafter => ?_
    cases result with
    | ok => exact hafter ▸ hstate.step
    | error failure => exact hafter.2.1
  · intro state hstate resource hmem hproject hkind
    exact (hstate resource hmem hproject hkind).elim List.not_mem_nil id

theorem ensures_tryRemoveAll {project : String} {ids : List (List Char)} {docker : Docker}
    (hpending : Pending .network project (NetworkRefused env) ids docker) :
    Ensures (forEach (tryRemoveNetwork env) ids) docker fun result after => result = .ok () ∧
      Pending .network project (NetworkRefused env) [] after := by
  refine ensures_forEach (Pending .network project (NetworkRefused env)) ?_
    (fun _ hstate => ⟨rfl, hstate⟩) hpending
  intro id rest state hstate
  refine Ensures.attempt (remove_spec .network id state) fun outcome after hafter => ?_
  cases outcome with
  | ok => exact hafter ▸ hstate.step
  | error failure =>
      obtain ⟨rfl, -, hrefused⟩ := hafter
      intro resource hmem hproject hkind
      rcases hstate resource hmem hproject hkind with hid | hexcused
      · rcases List.mem_cons.mp hid with heq | hlater
        · exact .inr ⟨_, heq ▸ hrefused⟩
        · exact .inl hlater
      · exact .inr hexcused

/-- The identifiers that Docker lists are those of the project, also in an earlier state. -/
theorem keeps_listed {touched : Resource → Prop} {before : Docker} {kind : Kind}
    {project : String} {next : List (List Char) → Action Docker AppFailure Unit}
    (hnext : ∀ ids, (∀ id ∈ ids, ∀ resource ∈ before.resources, resource.kind = kind →
      resource.id.text = id → resource.project = some project) →
        Keeps (Trims touched before) (next ids)) :
    Keeps (Trims touched before) (dockerList env kind project >>= next) := by
  intro state hstate
  refine Ensures.bind (dockerList_spec kind project state) ?_ ?_
  · rintro ids after ⟨rfl, hids⟩
    refine hnext ids (fun id hid resource hmem hkind htext => ?_) after hstate
    obtain ⟨listed, hlisted, hlistedKind, hproject, hlistedText⟩ := (hids id).mp hid
    cases Docker.eq_of_id hmem (hstate.fewer listed hlisted) (hkind.trans hlistedKind.symm)
      (htext.trans hlistedText.symm)
    exact hproject
  · rintro failure after ⟨rfl, -⟩
    exact hstate

theorem keeps_removeListed {touched : Resource → Prop} {before : Docker} {kind : Kind}
    {project : String} (htouched : ∀ resource, resource.project = some project →
      resource.kind = kind → touched resource) :
    Keeps (Trims touched before) (removeListed env kind project) :=
  keeps_listed fun _ hids => keeps_forEach fun id hid =>
    keeps_remove fun resource hmem hkind htext =>
      htouched resource (hids id hid resource hmem hkind htext) hkind

theorem keeps_tryRemoveNetworks {touched : Resource → Prop} {before : Docker}
    {project : String} (htouched : ∀ resource, resource.project = some project →
      resource.kind = .network → touched resource) :
    Keeps (Trims touched before) (tryRemoveNetworks env project) :=
  keeps_listed fun _ hids => keeps_forEach fun id hid =>
    (keeps_remove fun resource hmem hkind htext =>
      htouched resource (hids id hid resource hmem hkind htext) hkind).attempt.bind
        fun _ => keeps_pure ()

theorem keeps_removeProjectByLabel {touched : Resource → Prop} {before : Docker}
    {project : String} {kind : CleanupKind}
    (htouched : ∀ resource, Touched project kind resource → touched resource) :
    Keeps (Trims touched before) (removeProjectByLabel env project kind) := by
  have hof : ∀ of : Kind, (kind = .down → of ≠ .volume) → ∀ resource : Resource,
      resource.project = some project → resource.kind = of → touched resource :=
    fun of hof resource hproject hkind =>
      htouched resource ⟨hproject, fun hdown => hkind ▸ hof hdown⟩
  refine (keeps_removeListed (hof .container nofun)).bind fun _ => ?_
  refine (keeps_tryRemoveNetworks (hof .network nofun)).bind fun _ => ?_
  split
  next hreset =>
    exact keeps_removeListed (hof .volume fun hdown => absurd (hreset.symm.trans hdown) nofun)
  next => exact keeps_pure ()

theorem removeListed_cleans (kind : Kind) (project : String) (docker : Docker) :
    Ensures (removeListed env kind project) docker fun result after =>
      Trims (fun _ => True) docker after ∧ match result with
        | .ok () => ∀ resource ∈ after.resources, resource.project = some project →
            resource.kind ≠ kind
        | .error failure => Refused env failure := by
  refine (keeps_removeListed (fun _ _ _ => trivial) docker (Trims.refl docker)).and ?_
  refine Ensures.bind (dockerList_spec kind project docker) ?_ fun failure after hafter => hafter.2
  rintro ids after ⟨rfl, hids⟩
  exact ensures_removeAll fun resource hmem hproject hkind =>
    .inl ((hids _).mpr ⟨resource, hmem, hkind, hproject, rfl⟩)

theorem tryRemoveNetworks_cleans (project : String) (docker : Docker) :
    Ensures (tryRemoveNetworks env project) docker fun result after =>
      Trims (fun _ => True) docker after ∧ match result with
        | .ok () => Pending .network project (NetworkRefused env) [] after
        | .error failure => Refused env failure := by
  refine (keeps_tryRemoveNetworks (fun _ _ _ => trivial) docker (Trims.refl docker)).and ?_
  refine Ensures.bind (dockerList_spec .network project docker) ?_
    fun failure after hafter => hafter.2
  rintro ids after ⟨rfl, hids⟩
  refine (ensures_tryRemoveAll fun resource hmem hproject hkind =>
    .inl ((hids _).mpr ⟨resource, hmem, hkind, hproject, rfl⟩)).mono ?_
  rintro result final ⟨rfl, hpending⟩
  exact hpending

theorem removeProjectByLabel_cleans (project : String) (kind : CleanupKind) (docker : Docker) :
    Ensures (removeProjectByLabel env project kind) docker fun result after => match result with
      | .ok () => Cleaned env project kind after
      | .error failure => Refused env failure := by
  refine Ensures.bind (removeListed_cleans .container project docker) ?_
    fun failure after hafter => hafter.2
  rintro _ first ⟨-, hcontainers⟩
  refine Ensures.bind (tryRemoveNetworks_cleans project first) ?_
    fun failure after hafter => hafter.2
  rintro _ second ⟨hsecond, hnetworks⟩
  have hnetworks : ∀ resource ∈ second.resources, resource.project = some project →
      resource.kind = .network → NetworkRefused env resource :=
    fun resource hmem hproject hkind =>
      (hnetworks resource hmem hproject hkind).resolve_left List.not_mem_nil
  split
  next hreset =>
    refine (removeListed_cleans .volume project second).mono fun result after hafter => ?_
    obtain ⟨hthird, hvolumes⟩ := hafter
    cases result with
    | error failure => exact hvolumes
    | ok =>
        exact {
          containers := fun resource hmem =>
            hcontainers resource (hsecond.fewer resource (hthird.fewer resource hmem))
          networks := fun resource hmem => hnetworks resource (hthird.fewer resource hmem)
          volumes := fun _ => hvolumes }
  next hdown =>
    exact {
      containers := fun resource hmem => hcontainers resource (hsecond.fewer resource hmem)
      networks := hnetworks
      volumes := fun hreset => absurd hreset hdown }

/-! ## Lanes -/

/-- What a failure of the cleanup can come from. -/
inductive Fault (env : Environment) (failure : AppFailure) : Prop where
  | docker (hrefused : Refused env failure)
  | compose (project : String) (arguments : List String) (state : Docker)
      (error : InfrastructureError) (herror : env.compose project arguments state = some error)
      (hfailure : failure = .infrastructure error)
  | composeEnvironment (mode : StackMode) (herror : env.composeEnvironment mode = .error failure)
  | standalone (herror : env.standaloneDataplaneEnvironment = .error failure)

theorem requiredText_project (mode : StackMode) (name : String) :
    requiredText (env.project mode) name = .ok (env.project mode) :=
  if_pos (env.named mode)

theorem trims_composeDown (project : String) (kind : CleanupKind) (docker : Docker) :
    Trims (Touched project kind) docker
      (composeDown env project (stackCleanupArguments kind) docker) := by
  refine Trims.keep fun resource _ hremoved => ?_
  simp only [ne_eq, decide_not, Bool.or_eq_false_iff, Bool.not_eq_false', decide_eq_true_eq,
    Bool.and_eq_false_iff, decide_eq_false_iff_not] at hremoved
  refine ⟨hremoved.1.1, ?_⟩
  rintro rfl
  exact hremoved.1.2.resolve_right (by decide)

theorem composeCleanup_spec (project : String) (kind : CleanupKind) (docker : Docker) :
    Ensures (composeCleanup env project kind) docker fun result after =>
      Trims (Touched project kind) docker after ∧
        ∀ failure, result = .error failure → Fault env failure := by
  cases herror : env.compose project (stackCleanupArguments kind) docker with
  | none =>
      have hrun : composeCleanup env project kind docker =
          (.ok (), composeDown env project (stackCleanupArguments kind) docker) := by
        unfold composeCleanup
        rw [herror]
      exact ensures_of_eq hrun ⟨trims_composeDown project kind docker, nofun⟩
  | some error =>
      have hrun : composeCleanup env project kind docker = (.error (.infrastructure error),
          composeDown env project (stackCleanupArguments kind) docker) := by
        unfold composeCleanup
        rw [herror]
      refine ensures_of_eq hrun ⟨trims_composeDown project kind docker, fun failure hfailure => ?_⟩
      cases hfailure
      exact .compose _ _ _ error herror rfl

theorem composeLane_spec (mode : StackMode) (kind : CleanupKind) (docker : Docker) :
    Ensures (composeLane env mode kind) docker fun result after =>
      Trims (Touched (env.project mode) kind) docker after ∧
        ∀ failure, result = .error failure → Fault env failure := by
  unfold composeLane
  split
  next =>
    refine Ensures.ofExcept (fun _ _ => composeCleanup_spec _ kind docker) fun error herror => ?_
    refine ⟨Trims.refl docker, fun failure hfailure => ?_⟩
    cases hfailure
    exact .composeEnvironment mode herror
  next => exact ensures_pure.mpr ⟨Trims.refl docker, nofun⟩

theorem removeProjectByLabel_spec (project : String) (kind : CleanupKind) (docker : Docker) :
    Ensures (removeProjectByLabel env project kind) docker fun result after =>
      Trims (Touched project kind) docker after ∧ match result with
        | .ok () => Cleaned env project kind after
        | .error failure => Refused env failure :=
  Ensures.and (keeps_removeProjectByLabel (fun _ htouched => htouched) docker (Trims.refl docker))
    (removeProjectByLabel_cleans project kind docker)

/-- A lane that is not cleaned has a refusal of Docker among its failures. -/
theorem cleanupLane_spec (mode : StackMode) (kind : CleanupKind) (docker : Docker) :
    Ensures (cleanupLane env mode kind) docker fun result after =>
      Trims (Touched (env.project mode) kind) docker after ∧ ∃ failures, result = .ok failures ∧
        (Cleaned env (env.project mode) kind after ∨ ∃ failure ∈ failures, Refused env failure) ∧
          ∀ failure ∈ failures, Fault env failure := by
  refine Ensures.attempt (composeLane_spec mode kind docker) ?_
  rintro composed first ⟨hfirst, hcomposed⟩
  have hlabel : Ensures (do
      let project ← ofExcept (requiredText (env.project mode) "Compose project name")
      removeProjectByLabel env project kind) first _ :=
    Ensures.ofExcept (fun project hproject => by
      rw [requiredText_project] at hproject
      cases hproject
      exact removeProjectByLabel_spec (env.project mode) kind first)
      fun error herror => by
        rw [requiredText_project] at herror
        cases herror
  refine Ensures.attempt hlabel fun removed after hafter => ?_
  obtain ⟨hsecond, hremoved⟩ := hafter
  refine ensures_pure.mpr ⟨hfirst.trans hsecond, _, rfl, ?_, fun failure hmem => ?_⟩
  · cases removed with
    | ok => exact .inl hremoved
    | error failure =>
        exact .inr ⟨failure, List.mem_append_right _ (List.mem_singleton_self failure), hremoved⟩
  · rcases List.mem_append.mp hmem with hmem | hmem
    · cases composed with
      | ok => cases hmem
      | error fault =>
          cases List.mem_singleton.mp hmem
          exact hcomposed failure rfl
    · cases removed with
      | ok => cases hmem
      | error fault =>
          cases List.mem_singleton.mp hmem
          exact .docker hremoved

theorem cleanupLanes_spec (kind : CleanupKind) (modes : List StackMode) (docker : Docker) :
    Ensures (cleanupLanes env kind modes) docker fun result after =>
      Trims (fun resource => ∃ mode ∈ modes, Touched (env.project mode) kind resource) docker
          after ∧
        ∃ failures, result = .ok failures ∧
          (∀ mode ∈ modes, Cleaned env (env.project mode) kind after ∨
            ∃ failure ∈ failures, Refused env failure) ∧
          ∀ failure ∈ failures, Fault env failure := by
  induction modes generalizing docker with
  | nil => exact ensures_pure.mpr ⟨Trims.refl docker, [], rfl, nofun, nofun⟩
  | cons mode modes ih =>
      refine Ensures.bind (cleanupLane_spec mode kind docker) ?_ ?_
      · rintro failures first ⟨hfirst, failures, ⟨⟩, hcleaned, hfaults⟩
        refine Ensures.bind (ih first) ?_ ?_
        · rintro others after ⟨hsecond, others, ⟨⟩, hothers, hotherFaults⟩
          refine ensures_pure.mpr ⟨?_, _, rfl, ?_, ?_⟩
          · refine (hfirst.mono fun resource htouched =>
              ⟨mode, List.mem_cons_self, htouched⟩).trans (hsecond.mono ?_)
            rintro resource ⟨other, hother, htouched⟩
            exact ⟨other, List.mem_cons_of_mem mode hother, htouched⟩
          · intro other hother
            rcases List.mem_cons.mp hother with rfl | hlater
            · refine hcleaned.imp (fun hcleaned => hcleaned.anti hsecond) ?_
              rintro ⟨failure, hmem, hrefused⟩
              exact ⟨failure, List.mem_append_left _ hmem, hrefused⟩
            · refine (hothers other hlater).imp_right ?_
              rintro ⟨failure, hmem, hrefused⟩
              exact ⟨failure, List.mem_append_right _ hmem, hrefused⟩
          · intro failure hmem
            exact (List.mem_append.mp hmem).elim (hfaults failure) (hotherFaults failure)
        · rintro error after ⟨-, others, ⟨⟩, -⟩
      · rintro error after ⟨-, failures, ⟨⟩, -⟩

/-! ## The command -/

/-- The stacks whose projects a `stack down` takes down. -/
def Down.modes (down : Down) : List StackMode :=
  if down.standalone then [.dataplane] else selectedTopologies down.lane

def InScope (env : Environment) (down : Down) (resource : Resource) : Prop :=
  ∃ mode ∈ down.modes, Touched (env.project mode) down.kind resource

/-- What can keep a project from being cleaned. A refusal of Compose is not enough. -/
def Obstacle (env : Environment) (down : Down) (failure : AppFailure) : Prop :=
  Refused env failure ∨
    down.standalone = true ∧ env.standaloneDataplaneEnvironment = .error failure

/-- The result shows a failure. -/
def Reports (result : AppResult Unit) (failure : AppFailure) : Prop :=
  ∃ combined, result = .error combined ∧ failure.display.toList <:+: combined.display.toList

theorem Reports.of_error (failure : AppFailure) : Reports (.error failure) failure :=
  ⟨failure, rfl, List.infix_refl _⟩

theorem reports_cleanup {primary : Option AppFailure} {failures : List AppFailure}
    {failure : AppFailure} (hmem : failure ∈ failures) :
    Reports (finishWithCleanupFailures primary failures) failure :=
  display_of_mem_cleanupFailures hmem

theorem cleanup_spec (selection : LaneSelection) (kind : CleanupKind) (docker : Docker) :
    Ensures (cleanup env selection kind) docker fun result after =>
      Trims (fun resource => ∃ mode ∈ selectedTopologies selection,
        Touched (env.project mode) kind resource) docker after ∧
      (∀ mode ∈ selectedTopologies selection, Cleaned env (env.project mode) kind after ∨
        ∃ failure, Refused env failure ∧ Reports result failure) ∧
      (result = .ok () ∨ ∃ failure, Fault env failure ∧ Reports result failure) := by
  refine Ensures.bind (cleanupLanes_spec kind (selectedTopologies selection) docker) ?_ ?_
  · rintro failures after ⟨htrims, _, ⟨⟩, hcleaned, hfaults⟩
    refine ensures_ofExcept.mpr ⟨htrims, fun mode hmode => ?_, ?_⟩
    · refine (hcleaned mode hmode).imp_right ?_
      rintro ⟨failure, hmem, hrefused⟩
      exact ⟨failure, hrefused, reports_cleanup hmem⟩
    · cases failures with
      | nil => exact .inl rfl
      | cons failure failures =>
          exact .inr ⟨failure, hfaults failure List.mem_cons_self,
            reports_cleanup List.mem_cons_self⟩
  · rintro error after ⟨-, failures, ⟨⟩, -⟩

theorem cleanupStandaloneDataplane_spec (kind : CleanupKind) (docker : Docker) :
    Ensures (cleanupStandaloneDataplane env kind) docker fun result after =>
      Trims (Touched (env.project .dataplane) kind) docker after ∧
      (Cleaned env (env.project .dataplane) kind after ∨ ∃ failure, (Refused env failure ∨
        env.standaloneDataplaneEnvironment = .error failure) ∧ Reports result failure) ∧
      (result = .ok () ∨ ∃ failure, Fault env failure ∧ Reports result failure) := by
  refine Ensures.ofExcept (fun _ _ => ?_) fun failure herror =>
    ⟨Trims.refl docker, .inr ⟨failure, .inr herror, .of_error failure⟩,
      .inr ⟨failure, .standalone herror, .of_error failure⟩⟩
  refine Ensures.attempt (composeCleanup_spec (env.project .dataplane) kind docker) ?_
  rintro primary first ⟨hfirst, hprimary⟩
  refine Ensures.ofExcept (fun project hproject => ?_) fun failure herror => ?_
  · rw [requiredText_project] at hproject
    cases hproject
    refine Ensures.attempt (removeProjectByLabel_spec (env.project .dataplane) kind first) ?_
    rintro removed after ⟨hsecond, hremoved⟩
    refine ensures_ofExcept.mpr ⟨hfirst.trans hsecond, ?_⟩
    cases removed with
    | error failure =>
        have hreports : Reports (finishWithCleanup (err primary) (.error failure)) failure :=
          reports_cleanup (List.mem_singleton_self failure)
        exact ⟨.inr ⟨failure, .inl hremoved, hreports⟩, .inr ⟨failure, .docker hremoved, hreports⟩⟩
    | ok =>
        refine ⟨.inl hremoved, ?_⟩
        cases primary with
        | ok => exact .inl rfl
        | error failure => exact .inr ⟨failure, hprimary failure rfl, .of_error failure⟩
  · rw [requiredText_project] at herror
    cases herror

end

/-- `stack down` only removes resources of the selected projects, and volumes only when it is
asked to. Each selected project is cleaned, whatever happened to the others, or an obstacle
that Docker put up is reported; a failure names what it came from. -/
theorem stackDown_cleans (env : Environment) (down : Down) (docker : Docker) :
    Ensures (executeDown env down) docker fun result after =>
      Trims (InScope env down) docker after ∧
      (∀ mode ∈ down.modes, Cleaned env (env.project mode) down.kind after ∨
        ∃ failure, Obstacle env down failure ∧ Reports result failure) ∧
      (result = .ok () ∨ ∃ failure, Fault env failure ∧ Reports result failure) := by
  unfold executeDown
  split
  next hstandalone =>
    refine (cleanupStandaloneDataplane_spec down.kind docker).mono ?_
    rintro result after ⟨htrims, hcleaned, hresult⟩
    have hmodes : down.modes = [.dataplane] := if_pos hstandalone
    refine ⟨htrims.mono fun resource htouched => ⟨.dataplane, by simp [hmodes], htouched⟩, ?_,
      hresult⟩
    intro mode hmode
    rw [hmodes] at hmode
    cases List.mem_singleton.mp hmode
    refine hcleaned.imp_right ?_
    rintro ⟨failure, hobstacle, hreports⟩
    exact ⟨failure, hobstacle.imp_right fun herror => ⟨hstandalone, herror⟩, hreports⟩
  next hlanes =>
    have hmodes : down.modes = selectedTopologies down.lane := if_neg hlanes
    unfold InScope
    rw [hmodes]
    refine (cleanup_spec down.lane down.kind docker).mono ?_
    rintro result after ⟨htrims, hcleaned, hresult⟩
    refine ⟨htrims, fun mode hmode => (hcleaned mode hmode).imp_right ?_, hresult⟩
    rintro ⟨failure, hrefused, hreports⟩
    exact ⟨failure, .inl hrefused, hreports⟩

end CfIntegration.Runtime.StackCleanup
