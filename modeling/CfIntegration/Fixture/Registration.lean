import CfIntegration.Fixture.ControlPlane
import CfIntegration.Foundation.Action

/-! # Registering the Fast Time workload

One gateway named `fast_time` and one virtual server with everything that the gateway offers.
An attempt may end at any request, and the control plane may have applied that request; the
next attempt goes by what it finds. The virtual server is looked for at a path that its id is
put into as it is.
-/

namespace CfIntegration.Fixture.Registration

open CfIntegration.Action

/-! ## Requests -/

/-- Redirects are not followed, and no error is made of them. -/
abbrev RedirectStatus := { status : Nat // 300 ≤ status ∧ status < 400 }

/-- "Not found" is only said of a record that is missing. -/
abbrev RefusalStatus := { status : Nat // 400 ≤ status ∧ status < 600 ∧ status ≠ 404 }

inductive Fate where
  | answered (readable : Bool)
  | redirected (status : RedirectStatus)
  | refused (applied : Bool) (status : RefusalStatus)
  | lost (applied : Bool)

/-- The plane's side of one request, with the records it discovered since the last one. -/
structure Turn where
  discovered : Catalogs
  newId : String
  fate : Fate

abbrev Network := Nat → Turn

structure World where
  plane : ControlPlane
  requests : Nat

structure Reply (α : Type) where
  status : Nat
  /-- The body, if it could be decoded. -/
  body : Option α

inductive Failure where
  | message (text : String)
  | transport (path : String)
  | status (path : String) (code : Nat)
  | body (path : String)
  deriving DecidableEq, Repr

section Request
variable {α : Type} (network : Network)

def World.reached (world : World) : ControlPlane :=
  world.plane.discover (network world.requests).discovered

/-- Send one request; the plane has no answer for a record that it does not have. -/
def request (path : String) (handle : String → ControlPlane → Option (ControlPlane × α)) :
    Action World Failure (Reply α) := fun world =>
  let turn := network world.requests
  let reached := world.reached network
  let handled := handle turn.newId reached
  let settled := fun (applied : Bool) =>
    if applied then (handled.map Prod.fst).getD reached else reached
  match turn.fate with
  | .answered readable => match handled with
      | some (plane, answer) => (.ok ⟨200, if readable then some answer else none⟩,
          ⟨plane, world.requests + 1⟩)
      | none => (.ok ⟨404, none⟩, ⟨reached, world.requests + 1⟩)
  | .redirected status => (.ok ⟨status, none⟩, ⟨reached, world.requests + 1⟩)
  | .refused applied status => (.ok ⟨status, none⟩, ⟨settled applied, world.requests + 1⟩)
  | .lost applied => (.error (.transport path), ⟨settled applied, world.requests + 1⟩)

def errorForStatus (path : String) (reply : Reply α) : Except Failure (Reply α) :=
  if 400 ≤ reply.status then .error (.status path reply.status) else .ok reply

def json (path : String) (reply : Reply α) : Except Failure α :=
  match reply.body with
  | some value => .ok value
  | none => .error (.body path)

def fetch (path : String) (handle : String → ControlPlane → Option (ControlPlane × α)) :
    Action World Failure α := do
  let reply ← request network path handle
  let reply ← ofExcept (errorForStatus path reply)
  ofExcept (json path reply)

def send (path : String) (handle : String → ControlPlane → Option (ControlPlane × Unit)) :
    Action World Failure Unit := do
  let reply ← request network path handle
  let _ ← ofExcept (errorForStatus path reply)
  return ()

def list (path : String) (records : ControlPlane → α) : Action World Failure α :=
  fetch network path fun _ plane => some (plane, records plane)

end Request

/-! ## Registration -/

structure Settings where
  backend : String
  serverId : String

structure Attempt where
  network : Network
  /-- The answers of the workload's health check. -/
  healthy : Nat → Bool
  /-- The token that the login hands out. -/
  accessToken : Option String
  /-- The gateway that the plane shows has its identifier. -/
  identified : Bool

def gatewayName : String := "fast_time"

def fastTimeGateway (settings : Settings) (id : String) : GatewayRecord :=
  ⟨id, gatewayName, settings.backend, "STREAMABLEHTTP", none⟩

def idsOf (gatewayId : String) (records : List CatalogRecord) : List String :=
  (records.filter (·.gatewayId = some gatewayId)).map CatalogRecord.id

def virtualServer (settings : Settings) (tools resources prompts : List String) :
    VirtualServer where
  id := settings.serverId
  name := "Fast Time Server"
  description := some "Virtual server exposing Fast Time MCP tools, resources, and prompts"
  associatedTools := tools
  associatedResources := resources
  associatedPrompts := prompts

def createGateway (settings : Settings) (id : String) (plane : ControlPlane) :
    Option (ControlPlane × GatewayRecord) :=
  some ({ plane with gateways := plane.gateways.create (fastTimeGateway settings id) },
    fastTimeGateway settings id)

def isServerAt (path : List Char) (server : VirtualServer) : Bool :=
  Collection.servers.addresses path server.id

/-- The path leads to a record of the plane. -/
def leadsTo (path : List Char) (plane : ControlPlane) : Bool :=
  plane.servers.values.any (isServerAt path) ||
    plane.gateways.values.any fun gateway => Collection.gateways.addresses path gateway.id

/-- Store a server at a path. A gateway at the path does not take the body of a server. -/
def replaceServer (path : List Char) (server : VirtualServer) (plane : ControlPlane) :
    Option (ControlPlane × Unit) :=
  if leadsTo path plane then
    some ({ plane with servers := plane.servers.update (isServerAt path) server }, ())
  else none

section
variable (settings : Settings) (attempt : Attempt)

def waitForHealth : Except Failure Unit :=
  if (List.range 30).any attempt.healthy then .ok ()
  else .error (.message "Fast Time health check failed; registration stopped")

def login : Action World Failure Unit := do
  let path := "/v1/auth/email/login"
  let reply ← request attempt.network path fun _ plane => some (plane, attempt.accessToken)
  let reply ← ofExcept ((errorForStatus path reply).mapError fun _ =>
    .message "control-plane login failed")
  let token ← ofExcept (json path reply)
  match token.filter (· ≠ "") with
  | some _ => return ()
  | none => fail (.message "control-plane login returned no access token")

def findGateway : Action World Failure GatewayRecord := do
  let gateways ← list attempt.network "/gateways" fun plane => plane.gateways.values
  match gateways.find? (·.name = gatewayName) with
  | some gateway =>
      if gateway.url = settings.backend then return gateway
      else fail (.message "existing fast_time gateway uses a different backend")
  | none => fetch attempt.network "/gateways" (createGateway settings)

def catalogIds (path : String) (records : Catalogs → List CatalogRecord) (gatewayId : String) :
    Action World Failure (List String) := do
  let items ← list attempt.network path fun plane => records plane.catalogs
  return idsOf gatewayId items

def putServer (server : VirtualServer) : Action World Failure Unit := do
  let path := s!"/servers/{settings.serverId}"
  let place := itemPath .servers settings.serverId
  let existing ← request attempt.network path fun _ plane =>
    if leadsTo place plane then some (plane, ()) else none
  if existing.status = 404 then
    send attempt.network "/servers" fun _ plane => some (plane.createServer server, ())
  else do
    let _ ← ofExcept (errorForStatus path existing)
    send attempt.network path fun _ plane => replaceServer place server plane

def register : Action World Failure Unit := do
  ofExcept (waitForHealth attempt)
  login attempt
  let gateway ← findGateway settings attempt
  if attempt.identified then do
    send attempt.network
      s!"/gateways/{gateway.id}/tools/refresh?include_resources=true&include_prompts=true"
      fun _ plane => some (plane, ())
    let tools ← catalogIds attempt "/tools" Catalogs.tools gateway.id
    if tools = [] then fail (.message "Fast Time registered without tools; setup stopped")
    else do
      let resources ← catalogIds attempt "/resources" Catalogs.resources gateway.id
      let prompts ← catalogIds attempt "/prompts" Catalogs.prompts gateway.id
      putServer settings attempt (virtualServer settings tools resources prompts)
  else fail (.message "gateway registration returned no ID")

end

/-- Attempts one after the other, however each of them ends. -/
def registerAll (settings : Settings) : List Attempt → World → World
  | [], world => world
  | attempt :: attempts, world =>
      registerAll settings attempts ((register settings attempt).run world).2

/-! ## What a request ensures -/

section
variable {α : Type} {network : Network}

/-- What the plane makes of a request if it applies it. -/
def Handled (network : Network) (handle : String → ControlPlane → Option (ControlPlane × α))
    (start after : World) (answer : α) : Prop :=
  handle (network start.requests).newId (start.reached network) = some (after.plane, answer)

def Redirected (network : Network) (number : Nat) : Prop :=
  ∃ status, (network number).fate = .redirected status

structure Requested (network : Network)
    (handle : String → ControlPlane → Option (ControlPlane × α)) (start : World)
    (result : Except Failure (Reply α)) (after : World) : Prop where
  requests : after.requests = start.requests + 1
  plane : after.plane = start.reached network ∨ ∃ answer, Handled network handle start after answer
  missing : ∀ reply, result = .ok reply → reply.status = 404 →
    after.plane = start.reached network ∧
      handle (network start.requests).newId (start.reached network) = none
  body : ∀ reply answer, result = .ok reply → reply.body = some answer →
    Handled network handle start after answer
  passed : ∀ reply, result = .ok reply → reply.status < 400 →
    (∃ answer, Handled network handle start after answer) ∨ Redirected network start.requests

theorem settled_plane {handled : Option (ControlPlane × α)} (applied : Bool)
    (reached : ControlPlane) :
    (if applied then (handled.map Prod.fst).getD reached else reached) = reached ∨
      ∃ answer, handled = some
        (if applied then (handled.map Prod.fst).getD reached else reached, answer) := by
  cases applied with
  | false => exact .inl rfl
  | true =>
      cases handled with
      | none => exact .inl rfl
      | some handled => exact .inr ⟨handled.2, rfl⟩

/-- A request reaches the plane once and may or may not be applied there. -/
theorem request_spec (path : String)
    (handle : String → ControlPlane → Option (ControlPlane × α)) (start : World) :
    Ensures (request network path handle) start (Requested network handle start) := by
  unfold request Ensures Action.run
  simp only
  cases hfate : (network start.requests).fate with
  | answered readable =>
      cases hhandled : handle (network start.requests).newId (start.reached network) with
      | none =>
          exact {
            requests := rfl
            plane := .inl rfl
            missing := fun _ _ _ => ⟨rfl, hhandled⟩
            body := fun reply answer hreply hbody => by cases hreply; cases hbody
            passed := fun reply hreply hstatus => by cases hreply; simp at hstatus }
      | some handled =>
          exact {
            requests := rfl
            plane := .inr ⟨handled.2, hhandled⟩
            missing := fun reply hreply hstatus => by cases hreply; simp at hstatus
            body := fun reply answer hreply hbody => by
              cases hreply
              cases readable with
              | false => cases hbody
              | true =>
                  cases hbody
                  exact hhandled
            passed := fun _ _ _ => .inl ⟨handled.2, hhandled⟩ }
  | redirected status =>
      exact {
        requests := rfl
        plane := .inl rfl
        missing := fun reply hreply hstatus => by
          cases hreply
          have hlow := status.property.2
          simp only at hstatus
          omega
        body := fun reply answer hreply hbody => by cases hreply; cases hbody
        passed := fun _ _ _ => .inr ⟨status, hfate⟩ }
  | refused applied status =>
      exact {
        requests := rfl
        plane := settled_plane applied _
        missing := fun reply hreply hstatus => by
          cases hreply
          exact absurd hstatus status.property.2.2
        body := fun reply answer hreply hbody => by cases hreply; cases hbody
        passed := fun reply hreply hstatus => by
          cases hreply
          exact absurd status.property.1 (Nat.not_le.mpr hstatus) }
  | lost applied =>
      exact {
        requests := rfl
        plane := settled_plane applied _
        missing := nofun
        body := nofun
        passed := nofun }

theorem errorForStatus_eq_ok {path : String} {reply other : Reply α}
    (hok : errorForStatus path reply = .ok other) : reply = other ∧ reply.status < 400 := by
  unfold errorForStatus at hok
  split at hok
  next => cases hok
  next hlow =>
    cases hok
    exact ⟨rfl, Nat.not_le.mp hlow⟩

theorem json_eq_ok {path : String} {reply : Reply α} {value : α}
    (hok : json path reply = .ok value) : reply.body = some value := by
  unfold json at hok
  cases hbody : reply.body with
  | none => simp [hbody] at hok
  | some body => simpa [hbody] using hok

/-- A fetch that succeeds was applied, and its answer is the one of the plane. -/
theorem fetch_spec (path : String)
    (handle : String → ControlPlane → Option (ControlPlane × α)) (start : World) :
    Ensures (fetch network path handle) start fun result after =>
      (after.plane = start.reached network ∨ ∃ answer, Handled network handle start after answer) ∧
        ∀ answer, result = .ok answer → Handled network handle start after answer := by
  refine (request_spec path handle start).bind (fun reply after hrequested => ?_)
    fun _ _ hrequested => ⟨hrequested.plane, nofun⟩
  refine Ensures.ofExcept (fun other hother => ?_) fun _ _ => ⟨hrequested.plane, nofun⟩
  obtain ⟨rfl, -⟩ := errorForStatus_eq_ok hother
  refine ensures_ofExcept.mpr ⟨hrequested.plane, fun answer hanswer => ?_⟩
  exact hrequested.body reply answer rfl (json_eq_ok hanswer)

/-- A request whose answer is not read counts as done on a success status. -/
theorem send_spec (path : String)
    (handle : String → ControlPlane → Option (ControlPlane × Unit)) (start : World) :
    Ensures (send network path handle) start fun result after =>
      after.requests = start.requests + 1 ∧
      (after.plane = start.reached network ∨ ∃ answer, Handled network handle start after answer) ∧
        (result = .ok () →
          (∃ answer, Handled network handle start after answer) ∨
            Redirected network start.requests) := by
  refine (request_spec path handle start).bind (fun reply after hrequested => ?_)
    fun _ _ hrequested => ⟨hrequested.requests, hrequested.plane, nofun⟩
  refine Ensures.ofExcept (fun other hother => ?_)
    fun _ _ => ⟨hrequested.requests, hrequested.plane, nofun⟩
  obtain ⟨rfl, hlow⟩ := errorForStatus_eq_ok hother
  exact ensures_pure.mpr ⟨hrequested.requests, hrequested.plane,
    fun _ => hrequested.passed reply rfl hlow⟩

/-- The plane changed by discovery at most. -/
def Grown (before after : ControlPlane) : Prop := ∃ discovered, after = before.discover discovered

/-- What only grows keeps its catalogs. -/
theorem Grown.catalogs {before after : ControlPlane} (hgrown : Grown before after) :
    before.catalogs.Kept after.catalogs := by
  obtain ⟨discovered, rfl⟩ := hgrown
  exact (Catalogs.Kept.refl _).add discovered

/-- A plane on its own only grows. -/
theorem grown_reached (world : World) : Grown world.plane (world.reached network) := ⟨_, rfl⟩

/-- A listing returns what the plane holds at that moment. -/
theorem list_spec (path : String) (records : ControlPlane → α) (start : World) :
    Ensures (list network path records) start fun result after =>
      Grown start.plane after.plane ∧
        ∀ answer, result = .ok answer → answer = records after.plane := by
  refine (fetch_spec path _ start).mono fun result after hafter => ?_
  have hplane : after.plane = start.reached network := by
    rcases hafter.1 with hplane | ⟨answer, hhandled⟩
    · exact hplane
    · exact (congrArg Prod.fst (Option.some.inj hhandled)).symm
  refine ⟨hplane ▸ grown_reached start, fun answer hanswer => ?_⟩
  have hrecords : records (start.reached network) = answer :=
    congrArg Prod.snd (Option.some.inj (hafter.2 answer hanswer))
  rw [hplane, hrecords]

end

/-! ## What attempts keep -/

/-- What any number of attempts leaves of an earlier plane. -/
structure Kept (settings : Settings) (start plane : ControlPlane) : Prop where
  gateways : plane.gateways = start.gateways ∨
    (∀ gateway ∈ start.gateways.values, gateway.name ≠ gatewayName) ∧
      ∃ id, plane.gateways = start.gateways.create (fastTimeGateway settings id)
  others : plane.servers.values.filter (·.id ≠ settings.serverId) =
    start.servers.values.filter (·.id ≠ settings.serverId)
  single : (plane.servers.values.filter (·.id = settings.serverId)).length ≤
    max 1 (start.servers.values.filter (·.id = settings.serverId)).length
  catalogs : start.catalogs.Kept plane.catalogs

section
variable {settings : Settings} {start plane : ControlPlane}

theorem Kept.refl (settings : Settings) (plane : ControlPlane) : Kept settings plane plane :=
  ⟨.inl rfl, rfl, Nat.le_max_right 1 _, .refl _⟩

/-- What only grows keeps the promise of the registration. -/
theorem Kept.grown (hkept : Kept settings start plane) {after : ControlPlane}
    (hgrown : Grown plane after) : Kept settings start after := by
  obtain ⟨discovered, rfl⟩ := hgrown
  exact ⟨hkept.gateways, hkept.others, hkept.single, hkept.catalogs.add discovered⟩

/-- Creating the gateway keeps the promise where there was none of its name. -/
theorem Kept.createGateway (hkept : Kept settings start plane) (id : String)
    (hnone : ∀ gateway ∈ plane.gateways.values, gateway.name ≠ gatewayName) :
    Kept settings start
      { plane with gateways := plane.gateways.create (fastTimeGateway settings id) } := by
  refine ⟨.inr ?_, hkept.others, hkept.single, hkept.catalogs⟩
  rcases hkept.gateways with hsame | ⟨_, other, hcreated⟩
  · rw [hsame] at hnone ⊢
    exact ⟨hnone, id, rfl⟩
  · rw [hcreated, Registry.values_create] at hnone
    exact absurd rfl (hnone _ (List.mem_append_right _ (List.mem_singleton_self _)))

/-- Creating the server keeps the promise where there was none of its id. -/
theorem Kept.createServer (hkept : Kept settings start plane) {server : VirtualServer}
    (hid : server.id = settings.serverId)
    (hnone : ∀ former ∈ plane.servers.values, former.id ≠ settings.serverId) :
    Kept settings start (plane.createServer server) := by
  have hempty : plane.servers.values.filter (·.id = settings.serverId) = [] :=
    List.filter_eq_nil_iff.mpr fun former hformer => by simpa using hnone former hformer
  refine ⟨hkept.gateways, ?_, ?_, hkept.catalogs⟩
  · rw [← hkept.others]
    simp [ControlPlane.createServer, hid]
  · refine Nat.le_trans ?_ (Nat.le_max_left 1 _)
    simp [ControlPlane.createServer, hid, hempty]

/-- Records that keep their test keep their place. -/
theorem filter_update {α : Type} {values : List α} {condition kept : α → Bool} {value : α}
    (hout : kept value = false)
    (hformer : ∀ former, condition former = true → kept former = false) :
    (values.map fun former => if condition former then value else former).filter kept =
      values.filter kept := by
  induction values with
  | nil => rfl
  | cons former values ih =>
      rw [List.map_cons]
      split
      next hcondition =>
        rw [List.filter_cons_of_neg (by simp [hout]),
          List.filter_cons_of_neg (by simp [hformer former hcondition]), ih]
      next => rw [List.filter_cons, List.filter_cons, ih]

/-- An addressed id leads to its own server alone. -/
theorem isServerAt_of_addressed {id : String} (haddressed : Addressed .servers id)
    (server : VirtualServer) :
    isServerAt (itemPath .servers id) server = decide (server.id = id) :=
  haddressed.addresses_eq server.id

/-- The path of an addressed server leads to the servers with its id and to no gateway. -/
theorem leadsTo_of_addressed {id : String} (haddressed : Addressed .servers id)
    (plane : ControlPlane) :
    leadsTo (itemPath .servers id) plane =
      plane.servers.values.any fun server => server.id = id := by
  have hgateways : (plane.gateways.values.any fun gateway =>
      Collection.gateways.addresses (itemPath .servers id) gateway.id) = false := by
    refine List.any_eq_false.mpr fun gateway _ hpath => ?_
    cases (haddressed.leadsNowhereElse _ _ hpath).1
  rw [leadsTo, hgateways, Bool.or_false]
  exact congrArg plane.servers.values.any (funext (isServerAt_of_addressed haddressed))

/-- Replacing the server at an addressed id keeps the promise. -/
theorem Kept.replaceServer (hkept : Kept settings start plane)
    (haddressed : Addressed .servers settings.serverId) {server : VirtualServer}
    (hid : server.id = settings.serverId) {after : ControlPlane}
    (hafter : replaceServer (itemPath .servers settings.serverId) server plane =
      some (after, ())) : Kept settings start after := by
  unfold Registration.replaceServer at hafter
  split at hafter
  next =>
    cases hafter
    refine ⟨hkept.gateways, ?_, ?_, hkept.catalogs⟩
    · rw [← hkept.others, Registry.values_update]
      refine filter_update (by simp [hid]) fun former hformer => ?_
      rw [isServerAt_of_addressed haddressed] at hformer
      simpa using hformer
    · refine Nat.le_trans (Nat.le_of_eq ?_) hkept.single
      rw [Registry.values_update, List.filter_map, List.length_map]
      congr 1
      refine List.filter_congr fun former _ => ?_
      simp only [Function.comp_apply, isServerAt_of_addressed haddressed]
      split
      next hformer => simpa [hid] using hformer.symm
      next => rfl
  next => cases hafter

/-! ## The stages of an attempt -/

theorem Handled.grown {α : Type} {network : Network} {before after : World} {answer : α}
    (records : ControlPlane → α)
    (hhandled : Handled network (fun _ plane => some (plane, records plane)) before after answer) :
    Grown before.plane after.plane :=
  ⟨_, (congrArg Prod.fst (Option.some.inj hhandled)).symm⟩

/-- A login changes nothing of the plane. -/
theorem login_spec (attempt : Attempt) (world : World) :
    Ensures (login attempt) world fun _ after => Grown world.plane after.plane := by
  have hrequest := @request_spec _ attempt.network "/v1/auth/email/login"
    (fun _ plane => some (plane, attempt.accessToken)) world
  have hgrown : Ensures _ world fun _ after => Grown world.plane after.plane :=
    hrequest.mono fun _ after hrequested => by
      rcases hrequested.plane with hplane | ⟨answer, hhandled⟩
      · exact hplane ▸ grown_reached world
      · exact hhandled.grown fun _ => attempt.accessToken
  refine hgrown.bind (fun reply after hafter => ?_) fun _ _ hafter => hafter
  refine Ensures.ofExcept (fun other _ => ?_) fun _ _ => hafter
  refine Ensures.ofExcept (fun token _ => ?_) fun _ _ => hafter
  split
  next => exact hafter
  next => exact hafter

theorem refresh_spec {network : Network} (path : String) (world : World) :
    Ensures (send network path fun _ plane => some (plane, ())) world fun _ after =>
      Grown world.plane after.plane := by
  refine (send_spec path _ world).mono fun result after hafter => ?_
  rcases hafter.2.1 with hplane | ⟨answer, hhandled⟩
  · exact hplane ▸ grown_reached world
  · exact hhandled.grown fun _ => ()

/-- A gateway of the plane that stands for the workload. -/
structure IsFastTime (settings : Settings) (plane : ControlPlane) (gateway : GatewayRecord) :
    Prop where
  mem : gateway ∈ plane.gateways.values
  name : gateway.name = gatewayName
  url : gateway.url = settings.backend

theorem IsFastTime.of_eq {gateway : GatewayRecord} (hgateway : IsFastTime settings plane gateway)
    {after : ControlPlane} (hsame : after.gateways = plane.gateways) :
    IsFastTime settings after gateway :=
  ⟨hsame ▸ hgateway.mem, hgateway.name, hgateway.url⟩

theorem IsFastTime.grown {gateway : GatewayRecord} (hgateway : IsFastTime settings plane gateway)
    {after : ControlPlane} (hgrown : Grown plane after) : IsFastTime settings after gateway := by
  obtain ⟨discovered, rfl⟩ := hgrown
  exact hgateway.of_eq rfl

theorem Handled.created {network : Network} {before after : World} {gateway : GatewayRecord}
    (hhandled : Handled network (createGateway settings) before after gateway) :
    after.plane = { before.reached network with
        gateways := (before.reached network).gateways.create
          (fastTimeGateway settings (network before.requests).newId) } ∧
      gateway = fastTimeGateway settings (network before.requests).newId := by
  have hpair := Option.some.inj hhandled
  exact ⟨(congrArg Prod.fst hpair).symm, (congrArg Prod.snd hpair).symm⟩

/-- The gateway is found or created, and is the one that is configured. -/
theorem findGateway_spec (attempt : Attempt) (world : World)
    (hkept : Kept settings start world.plane) :
    Ensures (findGateway settings attempt) world fun result after =>
      Kept settings start after.plane ∧ world.plane.catalogs.Kept after.plane.catalogs ∧
        ∀ gateway, result = .ok gateway → IsFastTime settings after.plane gateway := by
  refine (list_spec "/gateways" _ world).bind (fun gateways after hafter => ?_)
    fun _ _ hafter => ⟨hkept.grown hafter.1, hafter.1.catalogs, nofun⟩
  have hkept := hkept.grown hafter.1
  have hcatalogs := hafter.1.catalogs
  cases hafter.2 gateways rfl
  split
  next gateway hfound =>
    split
    next hurl =>
      refine ensures_pure.mpr ⟨hkept, hcatalogs, fun found hok => ?_⟩
      cases hok
      exact ⟨List.mem_of_find?_eq_some hfound, by simpa using List.find?_some hfound, hurl⟩
    next => exact ensures_fail.mpr ⟨hkept, hcatalogs, nofun⟩
  next hnone =>
    have hnone : ∀ gateway ∈ after.plane.gateways.values, gateway.name ≠ gatewayName := by
      simpa using hnone
    refine (fetch_spec "/gateways" (createGateway settings) after).mono
      fun result final hfinal => ⟨?_, ?_, fun gateway hok => ?_⟩
    · rcases hfinal.1 with hplane | ⟨answer, hhandled⟩
      · exact hkept.grown (hplane ▸ grown_reached after)
      · rw [hhandled.created.1]
        exact (hkept.grown (grown_reached after)).createGateway _ hnone
    · have hreached := hcatalogs.trans (@grown_reached attempt.network after).catalogs
      rcases hfinal.1 with hplane | ⟨answer, hhandled⟩
      · exact hplane ▸ hreached
      · exact hhandled.created.1 ▸ hreached
    · obtain ⟨hplane, rfl⟩ := (hfinal.2 gateway hok).created
      refine ⟨?_, rfl, rfl⟩
      simp [hplane]

/-- The ids that a catalog lists for the gateway. -/
theorem catalogIds_spec (attempt : Attempt) (path : String)
    (records : Catalogs → List CatalogRecord) (gatewayId : String) (world : World) :
    Ensures (catalogIds attempt path records gatewayId) world fun result after =>
      Grown world.plane after.plane ∧
        ∀ ids, result = .ok ids → ids = idsOf gatewayId (records after.plane.catalogs) := by
  refine (list_spec path _ world).bind (fun items after hafter => ?_)
    fun _ _ hafter => ⟨hafter.1, nofun⟩
  refine ensures_pure.mpr ⟨hafter.1, fun ids hok => ?_⟩
  cases hok
  rw [hafter.2 items rfl]

/-- What storing a virtual server has changed, and that it is there unless the last answer
was a redirect. -/
structure Stored (settings : Settings) (network : Network) (start : ControlPlane)
    (server : VirtualServer) (before : ControlPlane) (result : Except Failure Unit)
    (after : World) : Prop where
  kept : Kept settings start after.plane
  gateways : after.plane.gateways = before.gateways
  catalogs : before.catalogs.Kept after.plane.catalogs
  stored : result = .ok () →
    server ∈ after.plane.servers.values ∨ Redirected network (after.requests - 1)

theorem Stored.of_grown {network : Network} {server : VirtualServer} {before : ControlPlane}
    {error : Failure} {after : World} (hkept : Kept settings start before)
    (hgrown : Grown before after.plane) :
    Stored settings network start server before (.error error) after := by
  refine ⟨hkept.grown hgrown, ?_, ?_, nofun⟩
  · obtain ⟨discovered, hplane⟩ := hgrown
    exact hplane ▸ rfl
  · obtain ⟨discovered, hplane⟩ := hgrown
    exact hplane ▸ (Catalogs.Kept.refl _).add discovered

/-- A request that stores the server. -/
structure Stores (settings : Settings) (start : ControlPlane) (server : VirtualServer)
    (plane after : ControlPlane) : Prop where
  kept : Kept settings start after
  gateways : after.gateways = plane.gateways
  catalogs : after.catalogs = plane.catalogs
  mem : server ∈ after.servers.values

/-- A request that stores the server either stored it or left the plane as it was. -/
theorem stored_of_send {network : Network} {server : VirtualServer} {before : ControlPlane}
    {handle : String → ControlPlane → Option (ControlPlane × Unit)} {path : String} {world : World}
    (hkept : Kept settings start before) (hgrown : Grown before world.plane)
    (hstores : ∀ id plane after, Grown world.plane plane → handle id plane = some (after, ()) →
      Stores settings start server plane after) :
    Ensures (send network path handle) world (Stored settings network start server before) := by
  obtain ⟨first, hfirst⟩ := hgrown
  refine (send_spec path handle world).mono fun result after hafter => ?_
  obtain ⟨hrequests, hplane, hok⟩ := hafter
  have hhandled : ∀ answer, Handled network handle world after answer →
      Stores settings start server (world.reached network) after.plane :=
    fun answer hhandled => hstores _ _ _ (grown_reached world) hhandled
  have hreached : (world.reached network).gateways = before.gateways ∧
      before.catalogs.Kept (world.reached network).catalogs := by
    unfold World.reached
    rw [hfirst]
    exact ⟨rfl, ((Catalogs.Kept.refl _).add first).add _⟩
  have hstored : result = .ok () →
      server ∈ after.plane.servers.values ∨ Redirected network (after.requests - 1) := by
    intro hresult
    refine (hok hresult).imp (fun ⟨answer, hanswer⟩ => (hhandled answer hanswer).mem) ?_
    intro hredirected
    rwa [hrequests, Nat.add_sub_cancel]
  rcases hplane with hplane | ⟨answer, hanswer⟩
  · refine ⟨?_, hplane ▸ hreached.1, hplane ▸ hreached.2, hstored⟩
    exact (hkept.grown ⟨first, hfirst⟩).grown (hplane ▸ grown_reached world)
  · have hafter := hhandled answer hanswer
    exact ⟨hafter.kept, hafter.gateways.trans hreached.1, hafter.catalogs ▸ hreached.2, hstored⟩

/-- The server is replaced where it exists and created where it does not. -/
theorem putServer_spec (attempt : Attempt) (server : VirtualServer) (world : World)
    (haddressed : Addressed .servers settings.serverId) (hid : server.id = settings.serverId)
    (hkept : Kept settings start world.plane) :
    Ensures (putServer settings attempt server) world
      (Stored settings attempt.network start server world.plane) := by
  have hexisting : Ensures (request attempt.network s!"/servers/{settings.serverId}" fun _ plane =>
      if leadsTo (itemPath .servers settings.serverId) plane then some (plane, ()) else none) world
      fun result after => Grown world.plane after.plane ∧
        ∀ reply, result = .ok reply → reply.status = 404 →
          ∀ former ∈ after.plane.servers.values, former.id ≠ settings.serverId := by
    refine (request_spec _ _ world).mono fun result after hrequested => ⟨?_, ?_⟩
    · rcases hrequested.plane with hplane | ⟨answer, hhandled⟩
      · exact hplane ▸ grown_reached world
      · obtain ⟨-, hpair⟩ := Option.ite_none_right_eq_some.mp hhandled
        exact ⟨_, (congrArg Prod.fst (Option.some.inj hpair)).symm⟩
    · intro reply hreply hstatus former hmem
      obtain ⟨hplane, hnone⟩ := hrequested.missing reply hreply hstatus
      rw [leadsTo_of_addressed haddressed] at hnone
      have hmissing : ¬ ∃ other ∈ (world.reached attempt.network).servers.values,
          other.id = settings.serverId := by simpa using hnone
      exact fun hformer => hmissing ⟨former, hplane ▸ hmem, hformer⟩
  refine hexisting.bind (fun existing after hafter => ?_)
    fun _ after hafter => .of_grown hkept hafter.1
  obtain ⟨hgrown, hmissing⟩ := hafter
  split
  next hstatus =>
    have hnone := hmissing existing rfl hstatus
    refine stored_of_send hkept hgrown fun id plane final hplane hhandled => ?_
    obtain ⟨discovered, rfl⟩ := hplane
    cases hhandled
    exact {
      kept := ((hkept.grown hgrown).grown ⟨discovered, rfl⟩).createServer hid hnone
      gateways := rfl
      catalogs := rfl
      mem := by simp [ControlPlane.createServer] }
  next =>
    refine Ensures.ofExcept (fun _ _ => ?_) fun _ _ => .of_grown hkept hgrown
    refine stored_of_send hkept hgrown fun id plane final hplane hhandled => ?_
    have hkept := ((hkept.grown hgrown).grown hplane).replaceServer haddressed hid hhandled
    unfold replaceServer at hhandled
    split at hhandled
    next hleads =>
      cases hhandled
      refine ⟨hkept, rfl, rfl, ?_⟩
      rw [leadsTo_of_addressed haddressed] at hleads
      obtain ⟨former, hformer, hid⟩ := List.any_eq_true.mp hleads
      have hsame := (isServerAt_of_addressed haddressed former).trans hid
      rw [Registry.values_update]
      exact List.mem_map.mpr ⟨former, hformer, if_pos hsame⟩
    next => cases hhandled

/-! ## Attempts -/

/-- The workload is registered: its gateway, and a virtual server with what a listing showed
of the gateway's tools, resources and prompts. -/
structure Registered (settings : Settings) (network : Network) (start : ControlPlane)
    (gateway : GatewayRecord) (listed : Catalogs) (after : World) : Prop where
  workload : IsFastTime settings after.plane gateway
  earlier : start.catalogs.Kept listed
  later : listed.Kept after.plane.catalogs
  tools : idsOf gateway.id listed.tools ≠ []
  server : virtualServer settings (idsOf gateway.id listed.tools)
      (idsOf gateway.id listed.resources) (idsOf gateway.id listed.prompts) ∈
        after.plane.servers.values ∨ Redirected network (after.requests - 1)

/-- An attempt keeps the promise, and one that succeeds has registered the server. -/
theorem register_spec (haddressed : Addressed .servers settings.serverId) (attempt : Attempt)
    (world : World) (hkept : Kept settings start world.plane) :
    Ensures (register settings attempt) world fun result after =>
      Kept settings start after.plane ∧ (result = .ok () → ∃ gateway listed,
        Registered settings attempt.network world.plane gateway listed after) := by
  refine Ensures.ofExcept (fun _ _ => ?_) fun _ _ => ⟨hkept, nofun⟩
  refine (login_spec attempt world).bind (fun _ first hfirst => ?_)
    fun _ _ hfailed => ⟨hkept.grown hfailed, nofun⟩
  have hkept := hkept.grown hfirst
  refine (findGateway_spec attempt first hkept).bind (fun gateway second hsecond => ?_)
    fun _ _ hfailed => ⟨hfailed.1, nofun⟩
  obtain ⟨hkept, hcatalogs, hgateway⟩ := hsecond
  have hgateway := hgateway gateway rfl
  have hcatalogs := hfirst.catalogs.trans hcatalogs
  split
  next =>
    refine (refresh_spec _ second).bind (fun _ third hthird => ?_)
      fun _ _ hfailed => ⟨hkept.grown hfailed, nofun⟩
    have hkept := hkept.grown hthird
    refine (catalogIds_spec attempt "/tools" Catalogs.tools gateway.id third).bind
      (fun tools fourth hfourth => ?_) fun _ _ hfailed => ⟨hkept.grown hfailed.1, nofun⟩
    have hkept := hkept.grown hfourth.1
    split
    next => exact ensures_fail.mpr ⟨hkept, nofun⟩
    next htools =>
      refine (catalogIds_spec attempt "/resources" Catalogs.resources gateway.id fourth).bind
        (fun resources fifth hfifth => ?_) fun _ _ hfailed => ⟨hkept.grown hfailed.1, nofun⟩
      have hkept := hkept.grown hfifth.1
      refine (catalogIds_spec attempt "/prompts" Catalogs.prompts gateway.id fifth).bind
        (fun prompts sixth hsixth => ?_) fun _ _ hfailed => ⟨hkept.grown hfailed.1, nofun⟩
      have hkept := hkept.grown hsixth.1
      have hgateway := ((hgateway.grown hthird).grown hfourth.1).grown hfifth.1 |>.grown hsixth.1
      cases hfourth.2 tools rfl
      cases hfifth.2 resources rfl
      cases hsixth.2 prompts rfl
      have hfourthKept := (hcatalogs.trans hthird.catalogs).trans hfourth.1.catalogs
      have hfifthKept := hfourthKept.trans hfifth.1.catalogs
      refine (putServer_spec attempt _ sixth haddressed rfl hkept).mono
        fun result after hafter => ?_
      refine ⟨hafter.kept, fun hok => ⟨gateway, ⟨fourth.plane.catalogs.tools,
        fifth.plane.catalogs.resources, sixth.plane.catalogs.prompts⟩, ?_⟩⟩
      exact {
        workload := hgateway.of_eq hafter.gateways
        earlier := {
          tools := hfourthKept.tools
          resources := hfifthKept.resources
          prompts := (hfifthKept.trans hsixth.1.catalogs).prompts }
        later := {
          tools := ((hfifth.1.catalogs.trans hsixth.1.catalogs).trans hafter.catalogs).tools
          resources := (hsixth.1.catalogs.trans hafter.catalogs).resources
          prompts := hafter.catalogs.prompts }
        tools := htools
        server := hafter.stored hok }
  next => exact ensures_fail.mpr ⟨hkept, nofun⟩

/-- Any number of attempts keeps the promise. -/
theorem registerAll_kept (haddressed : Addressed .servers settings.serverId)
    (attempts : List Attempt) (world : World) (hkept : Kept settings start world.plane) :
    Kept settings start (registerAll settings attempts world).plane := by
  induction attempts generalizing world with
  | nil => exact hkept
  | cons attempt attempts ih => exact ih _ (register_spec haddressed attempt world hkept).1

end

/-- However often the registration was attempted and wherever each attempt ended, at most one
gateway and one virtual server have been added, and every other record is as it was, if the
path of the server leads to it. After a successful attempt the server has what the plane
listed for the gateway, unless the plane answered the last request with a redirect. -/
theorem register_repeats {settings : Settings} (haddressed : Addressed .servers settings.serverId)
    (attempts : List Attempt) (last : Attempt) (start : World) :
    Ensures (register settings last) (registerAll settings attempts start) fun result after =>
      Kept settings start.plane after.plane ∧ (result = .ok () → ∃ gateway listed,
        Registered settings last.network (registerAll settings attempts start).plane gateway listed
          after) :=
  register_spec haddressed last _
    (registerAll_kept haddressed attempts start (Kept.refl settings start.plane))

/-! ### Two attempts -/

/-- Everything is answered, and the plane discovers the tool of the workload after the
refresh. -/
def answeredAttempt : Attempt where
  network number := ⟨if number = 4 then ⟨[⟨"tool", "time", "", some "gateway"⟩], [], []⟩
    else ⟨[], [], []⟩, "gateway", .answered true⟩
  healthy number := number = 2
  accessToken := some "token"
  identified := true

def emptyWorld : World := ⟨⟨.empty, .empty, ⟨[], [], []⟩⟩, 0⟩

theorem register_repeats_fastTime :
    Ensures (register ⟨"http://fast_time", "9779b6698cbd4b4995ee04a4fab38737"⟩ answeredAttempt)
      (registerAll ⟨"http://fast_time", "9779b6698cbd4b4995ee04a4fab38737"⟩ [answeredAttempt]
        emptyWorld) fun result after =>
          Kept ⟨"http://fast_time", "9779b6698cbd4b4995ee04a4fab38737"⟩ emptyWorld.plane
            after.plane ∧ (result = .ok () → ∃ gateway listed,
              Registered ⟨"http://fast_time", "9779b6698cbd4b4995ee04a4fab38737"⟩
                answeredAttempt.network
                (registerAll ⟨"http://fast_time", "9779b6698cbd4b4995ee04a4fab38737"⟩
                  [answeredAttempt] emptyWorld).plane gateway listed after) :=
  register_repeats (addressed_of_plain .servers (.of_all rfl)) [answeredAttempt]
    answeredAttempt emptyWorld

example : ((register ⟨"http://fast_time", "server"⟩ answeredAttempt).run emptyWorld).1 =
    .ok () := by
  decide

/-- A server whose path leads to another place is created again. -/
example : (registerAll ⟨"http://fast_time", "server#1"⟩ [answeredAttempt, answeredAttempt]
    emptyWorld).plane.servers.values.map VirtualServer.id = ["server#1", "server#1"] := by
  decide

end CfIntegration.Fixture.Registration
