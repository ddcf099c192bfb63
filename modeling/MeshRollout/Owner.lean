import MeshRollout.Dict

/-!
The mark that every object produced for a route carries: labels with the route's name and namespace,
and an annotation with its identity. Objects in other namespaces are found again by it.
-/
set_option autoImplicit false

namespace MeshRollout

/-- Keeps a route until its objects in other namespaces are gone. -/
def edgeCleanup : String := "mesh-manager.meshmanager.com/edge-cleanup"

structure Owner where
  name : String
  space : String
  uid : String
  deriving DecidableEq, Repr

namespace Owner

def nameLabel : String := "meshmanager.com/owner-name"
def spaceLabel : String := "meshmanager.com/owner-namespace"
def managerLabel : String := "app.kubernetes.io/managed-by"
def managerName : String := "mesh-agent"
def uidKey : String := "meshmanager.com/owner-uid"

def labels (o : Owner) : Dict String :=
  Dict.ofList [(nameLabel, o.name), (spaceLabel, o.space), (managerLabel, managerName)]

def annotations (o : Owner) : Dict String :=
  if o.uid.isEmpty then [] else [(uidKey, o.uid)]

/-- The text that selects the objects of the route in a list call. -/
def selector (o : Owner) : String :=
  nameLabel ++ "=" ++ o.name ++ "," ++ spaceLabel ++ "=" ++ o.space

def owns (o : Owner) (labels : Dict String) : Bool :=
  labels.get nameLabel == some o.name && labels.get spaceLabel == some o.space

def routeOf? (labels : Dict String) : Option (String × String) :=
  match labels.get spaceLabel, labels.get nameLabel with
  | some space, some name => some (space, name)
  | _, _ => none

end Owner

end MeshRollout
