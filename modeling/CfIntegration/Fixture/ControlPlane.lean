import CfIntegration.Foundation.Registry
import CfIntegration.Foundation.UrlReference

/-! # The control plane

What the fixture client can observe of the control plane: the records of its
listings, and what each of its requests does to them. The plane keeps the fields
it was sent and applies a request wholly or not at all.
-/

namespace CfIntegration.Fixture

structure GatewayRecord where
  id : String
  name : String
  url : String
  transport : String
  description : Option String
  deriving DecidableEq, Repr

structure ServerRecord where
  id : String
  name : String
  description : Option String
  deriving DecidableEq, Repr

structure CatalogRecord where
  id : String
  name : String
  uri : String
  gatewayId : Option String
  deriving DecidableEq, Repr

/-- The body that creates a gateway. -/
structure GatewayCreate where
  name : String
  url : String
  transport : String
  authType : String
  authHeaders : List (String × String)
  description : String
  deriving DecidableEq, Repr

/-- A virtual server with its associations. It is also the body that creates one:
the client chooses the id. -/
structure VirtualServer where
  id : String
  name : String
  description : Option String
  associatedTools : List String
  associatedResources : List String
  associatedPrompts : List String
  deriving DecidableEq, Repr

/-- What a listing shows of a virtual server. -/
def VirtualServer.record (server : VirtualServer) : ServerRecord :=
  ⟨server.id, server.name, server.description⟩

structure Catalogs where
  tools : List CatalogRecord
  resources : List CatalogRecord
  prompts : List CatalogRecord
  deriving DecidableEq, Repr

/-- Records only join a catalog: the plane adds what it discovers on a backend. -/
def Catalogs.add (catalogs discovered : Catalogs) : Catalogs where
  tools := catalogs.tools ++ discovered.tools
  resources := catalogs.resources ++ discovered.resources
  prompts := catalogs.prompts ++ discovered.prompts

/-- Every record of a catalog is still in a later one. -/
structure Catalogs.Kept (catalogs later : Catalogs) : Prop where
  tools : catalogs.tools ⊆ later.tools
  resources : catalogs.resources ⊆ later.resources
  prompts : catalogs.prompts ⊆ later.prompts

theorem Catalogs.Kept.refl (catalogs : Catalogs) : Catalogs.Kept catalogs catalogs :=
  ⟨fun _ => id, fun _ => id, fun _ => id⟩

/-- Discovery only adds to the catalogs. -/
theorem Catalogs.Kept.add {catalogs later : Catalogs} (hkept : Catalogs.Kept catalogs later)
    (discovered : Catalogs) : Catalogs.Kept catalogs (later.add discovered) where
  tools _ hrecord := List.mem_append_left _ (hkept.tools hrecord)
  resources _ hrecord := List.mem_append_left _ (hkept.resources hrecord)
  prompts _ hrecord := List.mem_append_left _ (hkept.prompts hrecord)

theorem Catalogs.Kept.trans {first second third : Catalogs} (hfirst : Catalogs.Kept first second)
    (hsecond : Catalogs.Kept second third) : Catalogs.Kept first third where
  tools _ hrecord := hsecond.tools (hfirst.tools hrecord)
  resources _ hrecord := hsecond.resources (hfirst.resources hrecord)
  prompts _ hrecord := hsecond.prompts (hfirst.prompts hrecord)

/-- The collections that items are addressed in by their ids. -/
inductive Collection where
  | gateways
  | servers
  deriving DecidableEq, Repr

def Collection.name : Collection → String
  | .gateways => "gateways"
  | .servers => "servers"

/-- The path of a URL leads to the item of the collection. -/
def Collection.addresses (collection : Collection) (path : List Char) (id : String) : Bool :=
  CfIntegration.addresses path [collection.name] id

/-- The path to which a request for an item is sent. The id is not encoded. -/
def itemPath (collection : Collection) (id : String) : List Char :=
  joinedPath ("/" ++ collection.name ++ "/" ++ id).toList

structure ControlPlane where
  gateways : Registry GatewayRecord
  servers : Registry VirtualServer
  catalogs : Catalogs
  deriving Repr

namespace ControlPlane

def listGateways (plane : ControlPlane) : List GatewayRecord := plane.gateways.values

def listServers (plane : ControlPlane) : List ServerRecord :=
  plane.servers.values.map VirtualServer.record

def discover (plane : ControlPlane) (discovered : Catalogs) : ControlPlane :=
  { plane with catalogs := plane.catalogs.add discovered }

def createdGateway (id : String) (body : GatewayCreate) : GatewayRecord :=
  ⟨id, body.name, body.url, body.transport, some body.description⟩

/-- The plane picks the id of a new gateway. -/
def createGateway (plane : ControlPlane) (id : String) (body : GatewayCreate) : ControlPlane :=
  { plane with gateways := plane.gateways.create (createdGateway id body) }

def createServer (plane : ControlPlane) (server : VirtualServer) : ControlPlane :=
  { plane with servers := plane.servers.create server }

/-- Delete what the path of the request leads to. -/
def delete (plane : ControlPlane) (path : List Char) : ControlPlane :=
  { plane with
    gateways := plane.gateways.remove fun gateway => Collection.gateways.addresses path gateway.id
    servers := plane.servers.remove fun server => Collection.servers.addresses path server.id }

end ControlPlane

/-- A property of the plane that discovery keeps. -/
def DiscoveryStable (property : ControlPlane → Prop) : Prop :=
  ∀ plane discovered, property plane → property (plane.discover discovered)

/-- A property of the plane that neither discovery nor a deletion breaks. -/
structure Stable (property : ControlPlane → Prop) : Prop where
  discover : DiscoveryStable property
  delete : ∀ plane path, property plane → property (plane.delete path)

/-- Whatever the plane holds beyond an earlier one meets the conditions. -/
structure Extends (start : ControlPlane) (gateway : GatewayRecord → Prop)
    (server : VirtualServer → Prop) (plane : ControlPlane) : Prop where
  gateways : start.gateways.Extends gateway plane.gateways
  servers : start.servers.Extends server plane.servers

namespace Extends

variable {start plane : ControlPlane} {gateway : GatewayRecord → Prop}
  {server : VirtualServer → Prop}

theorem refl (plane : ControlPlane) (gateway : GatewayRecord → Prop)
    (server : VirtualServer → Prop) : Extends plane gateway server plane :=
  ⟨.refl _ _, .refl _ _⟩

theorem mono {weakerGateway : GatewayRecord → Prop} {weakerServer : VirtualServer → Prop}
    (hextends : Extends start gateway server plane)
    (hgateway : ∀ record, gateway record → weakerGateway record)
    (hserver : ∀ record, server record → weakerServer record) :
    Extends start weakerGateway weakerServer plane :=
  ⟨hextends.gateways.mono hgateway, hextends.servers.mono hserver⟩

/-- Discovery and deletions keep an extension. -/
theorem stable (start : ControlPlane) (gateway : GatewayRecord → Prop)
    (server : VirtualServer → Prop) : Stable (Extends start gateway server) where
  discover _ _ hextends := ⟨hextends.gateways, hextends.servers⟩
  delete _ path hextends :=
    ⟨hextends.gateways.remove fun gateway => Collection.gateways.addresses path gateway.id,
      hextends.servers.remove fun server => Collection.servers.addresses path server.id⟩

/-- A gateway of the kind that may be new keeps the extension. -/
theorem createGateway (hextends : Extends start gateway server plane) {id : String}
    {body : GatewayCreate} (hgateway : gateway (ControlPlane.createdGateway id body)) :
    Extends start gateway server (plane.createGateway id body) :=
  ⟨hextends.gateways.create hgateway, hextends.servers⟩

/-- A server of the kind that may be new keeps the extension. -/
theorem createServer (hextends : Extends start gateway server plane) {created : VirtualServer}
    (hserver : server created) : Extends start gateway server (plane.createServer created) :=
  ⟨hextends.gateways, hextends.servers.create hserver⟩

end Extends

/-- No virtual server of the plane has the id. -/
def NoServer (id : String) (plane : ControlPlane) : Prop :=
  ∀ server ∈ plane.servers.values, server.id ≠ id

/-- No gateway of the plane meets the condition. -/
def NoGateway (condition : GatewayRecord → Prop) (plane : ControlPlane) : Prop :=
  ∀ gateway ∈ plane.gateways.values, ¬ condition gateway

theorem NoServer.stable (id : String) : Stable (NoServer id) where
  discover _ _ hnone := hnone
  delete plane path hnone server hserver := by
    rw [ControlPlane.delete, Registry.values_remove] at hserver
    exact hnone server (List.mem_of_mem_filter hserver)

/-- No server with an id is left once a path that leads to it was deleted. -/
theorem NoServer.delete (plane : ControlPlane) {path : List Char} {id : String}
    (hpath : Collection.servers.addresses path id = true) : NoServer id (plane.delete path) := by
  intro server hserver hid
  rw [ControlPlane.delete, Registry.values_remove] at hserver
  have hkept := (List.mem_filter.mp hserver).2
  rw [hid, hpath] at hkept
  cases hkept

theorem NoGateway.stable (condition : GatewayRecord → Prop) : Stable (NoGateway condition) where
  discover _ _ hnone := hnone
  delete plane path hnone gateway hgateway := by
    rw [ControlPlane.delete, Registry.values_remove] at hgateway
    exact hnone gateway (List.mem_of_mem_filter hgateway)

/-- No gateway with an id is left once a path that leads to it was deleted. -/
theorem NoGateway.delete (plane : ControlPlane) {path : List Char} {id : String}
    (hpath : Collection.gateways.addresses path id = true) :
    NoGateway (fun gateway => gateway.id = id) (plane.delete path) := by
  intro gateway hgateway hid
  rw [ControlPlane.delete, Registry.values_remove] at hgateway
  have hkept := (List.mem_filter.mp hgateway).2
  rw [hid, hpath] at hkept
  cases hkept

/-- The path of a request for the item leads to the item. -/
def Addressed (collection : Collection) (id : String) : Prop :=
  collection.addresses (itemPath collection id) id = true

instance (collection : Collection) (id : String) : Decidable (Addressed collection id) :=
  inferInstanceAs (Decidable (_ = true))

/-- The path of a request for the item leads to no other item. -/
def LeadsNowhereElse (collection : Collection) (id : String) : Prop :=
  ∀ other otherId, other.addresses (itemPath collection id) otherId = true →
    other = collection ∧ otherId = id

theorem Collection.name_injective : Function.Injective Collection.name := by
  intro first second hname
  cases first <;> cases second <;> first | rfl | exact absurd hname (by decide)

/-- The path of an addressed id leads to nothing else. -/
theorem Addressed.leadsNowhereElse {collection : Collection} {id : String}
    (haddressed : Addressed collection id) : LeadsNowhereElse collection id := by
  intro other otherId hother
  obtain ⟨hname, rfl⟩ := addresses_inj hother haddressed
  exact ⟨Collection.name_injective (List.singleton_inj.mp hname), rfl⟩

/-- The path of an addressed id leads to that id alone. -/
theorem Addressed.addresses_eq {collection : Collection} {id : String}
    (haddressed : Addressed collection id) (other : String) :
    collection.addresses (itemPath collection id) other = decide (other = id) := by
  refine Bool.eq_iff_iff.mpr ⟨fun hother => ?_, fun hid => ?_⟩
  · exact decide_eq_true (haddressed.leadsNowhereElse _ _ hother).2
  · rw [of_decide_eq_true hid]
    exact haddressed

/-- An id of letters, digits, hyphens and underscores is addressed as it is. -/
theorem addressed_of_plain (collection : Collection) {id : String} (hid : PlainName id.toList) :
    Addressed collection id := by
  have hname : ∀ name ∈ [collection.name], PlainName name.toList := by
    intro name hmem
    rw [List.mem_singleton.mp hmem]
    cases collection <;> exact .of_all rfl
  have hpath := addresses_joinedPath hname hid
  unfold Addressed Collection.addresses itemPath
  simpa [List.intercalate_cons_cons] using hpath

end CfIntegration.Fixture
