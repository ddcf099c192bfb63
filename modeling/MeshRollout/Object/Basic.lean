import MeshRollout.Failure
import MeshRollout.Object.Meta
import MeshRollout.Resource

/-!
Objects of any kind: the kind if it is known, the metadata, and all other fields as they are.
-/
set_option autoImplicit false

namespace MeshRollout

structure Object where
  /-- Version and kind, given together or not at all. -/
  types : Option (String × String)
  metadata : ObjectMeta
  data : Dict Value
  deriving Repr

namespace Object

def name (o : Object) : String :=
  o.metadata.name.getD ""

def space (o : Object) : String :=
  o.metadata.space.getD ""

def labels (o : Object) : Dict String :=
  o.metadata.labelDict

def annotations (o : Object) : Dict String :=
  o.metadata.annotationDict

def spec (o : Object) : Option Value :=
  o.data.get "spec"

def apiVersion (o : Object) : String :=
  (o.types.map Prod.fst).getD ""

def kind (o : Object) : String :=
  (o.types.map Prod.snd).getD ""

def key (o : Object) : String :=
  o.space ++ "/" ++ o.name

/-- Version and kind if both are texts. If they are not, the fields that were looked at are lost:
looking ends at the first one that is no text. -/
def splitTypes (fields : Dict Value) : Option (String × String) × Dict Value :=
  match fields.get "apiVersion", fields.get "kind" with
  | some (.str v), some (.str k) => (some (v, k), (fields.drop "apiVersion").drop "kind")
  | some (.str _), _ | none, _ => (none, (fields.drop "apiVersion").drop "kind")
  | some _, _ => (none, fields.drop "apiVersion")

def read : Reading Object
  | .record fields => do
    let metadata ←
      match Dict.get "metadata" fields with
      | some v => Reading.part (.field "metadata") (ObjectMeta.read v)
      | none => pure {}
    let (types, data) := splitTypes (Dict.drop "metadata" fields)
    pure { types, metadata, data }
  | v => .error (.wrongType v "struct DynamicObject")

def toValue (o : Object) : Value :=
  let fields := Dict.put "metadata" o.metadata.toValue o.data
  match o.types with
  | some (v, k) => .record (Dict.put "apiVersion" (.str v) (Dict.put "kind" (.str k) fields))
  | none => .record fields

def ofValue (v : Value) : Except Failure Object :=
  (read v).mapError fun m => .serialization m.message none

end Object

structure DocumentMeta where
  name : String
  space : Option String
  resource : Resource
  deriving Repr

namespace DocumentMeta

def spaceOrEmpty (m : DocumentMeta) : String :=
  m.space.getD ""

def filled (v : Option Value) : Option String :=
  (v.bind Value.text?).filter fun s => !s.isEmpty

def ofValue (v : Value) : Except Failure DocumentMeta := do
  let some apiVersion := (v.field "apiVersion").bind Value.text?
    | throw (.serialization "manifest missing apiVersion" none)
  let some kind := (v.field "kind").bind Value.text?
    | throw (.serialization "manifest missing kind" none)
  let metadata := (v.field "metadata").getD .null
  let some name := filled (metadata.field "name")
    | throw (.serialization "manifest missing metadata.name" (some kind))
  return { name, space := filled (metadata.field "namespace"), resource := .named apiVersion kind }

end DocumentMeta

end MeshRollout
