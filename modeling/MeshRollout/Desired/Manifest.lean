import MeshRollout.Object.Basic
import MeshRollout.Yaml.Document

/-!
Manifests: texts of documents, each of which describes an object that should be in the cluster. One
bad document fails the whole manifest, so that no part of it is applied.
-/
set_option autoImplicit false

namespace MeshRollout

structure WantedObject where
  identity : DocumentMeta
  object : Object
  deriving Repr

namespace WantedObject

/-- Whether the object is of a kind, whatever the version. -/
def isOf (r : Resource) (d : WantedObject) : Bool :=
  d.identity.resource.group == r.group && d.identity.resource.kind == r.kind

def ofDocument (i : Nat) (v : Value) : Except Failure WantedObject := do
  let located (f : Failure) : Failure := .decode i f.message
  let identity ← (DocumentMeta.ofValue v).mapError located
  let object ← (Object.ofValue v).mapError located
  pure { identity, object }

end WantedObject

namespace Manifest

def objectsFrom (i : Nat) : List Value → Except Failure (List WantedObject)
  | [] => .ok []
  | v :: vs => do
    let d ← WantedObject.ofDocument i v
    let ds ← objectsFrom (i + 1) vs
    pure (d :: ds)

def read (text : String) : Except Failure (List WantedObject) := do
  objectsFrom 0 (← Yaml.decode text)

def managed (r : Resource) (ds : List WantedObject) : List Object :=
  (ds.filter (WantedObject.isOf r)).map WantedObject.object

/-- All other objects, with what identifies them. -/
def others (r : Resource) (ds : List WantedObject) : List WantedObject :=
  ds.filter fun d => !d.isOf r

end Manifest

end MeshRollout
