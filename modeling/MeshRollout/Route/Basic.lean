import MeshRollout.Object.Basic
import MeshRollout.Owner
import MeshRollout.Route.Status
import MeshRollout.Service.Basic

/-!
Routes as objects of the cluster.
-/
set_option autoImplicit false

namespace MeshRollout

structure Route where
  metadata : ObjectMeta
  spec : RouteSpec
  status : Option RouteStatus
  deriving Repr

namespace Route

def group : String := "mesh-manager.meshmanager.com"
def version : String := "v1"
def apiVersion : String := group ++ "/" ++ version
def kind : String := "IstioRoute"

def resource : Resource where
  group := group
  version := version
  kind := kind
  apiVersion := apiVersion
  plural := "istioroutes"

def read : Reading Route :=
  (Route.mk <$> Fields.required "metadata" ObjectMeta.read <*> Fields.required "spec" RouteSpec.read
    <*> Fields.optional "status" RouteStatus.read).read "IstioRoute"

def toValue (r : Route) : Value :=
  .object [
    ("apiVersion", some (.str apiVersion)),
    ("kind", some (.str kind)),
    ("metadata", some r.metadata.toValue),
    ("spec", some r.spec.toValue),
    ("status", r.status.map RouteStatus.toValue)]

def name (r : Route) : String :=
  r.metadata.anyName

def spaceOrEmpty (r : Route) : String :=
  r.metadata.space.getD ""

def uidOrEmpty (r : Route) : String :=
  r.metadata.uid.getD ""

def owner (r : Route) : Owner :=
  ⟨r.name, r.spaceOrEmpty, r.uidOrEmpty⟩

def ownerReference? (r : Route) : Option OwnerReference :=
  match r.metadata.name, r.metadata.uid with
  | some name, some uid => some ⟨apiVersion, kind, name, uid, none, some true⟩
  | _, _ => none

def isLeaving (r : Route) : Bool :=
  r.metadata.deletionTimestamp.isSome

end Route

end MeshRollout
