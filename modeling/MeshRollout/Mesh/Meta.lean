import MeshRollout.Object.Meta
import MeshRollout.Owner

/-!
Objects of the mesh as they are produced: a kind, metadata that always has a name and a namespace,
and a specification. Empty parts of the metadata are not written.
-/
set_option autoImplicit false

namespace MeshRollout

structure MeshMeta where
  name : String
  space : String
  labels : Dict String := []
  annotations : Dict String := []
  ownerReferences : List OwnerReference := []
  deriving DecidableEq, Repr

namespace MeshMeta

def fields : Fields MeshMeta :=
  MeshMeta.mk <$> Fields.required "name" .text <*> Fields.required "namespace" .text
    <*> Fields.defaulted "labels" (.map .text) [] <*> Fields.defaulted "annotations" (.map .text) []
    <*> Fields.defaulted "ownerReferences" (.list OwnerReference.read) []

def read : Reading MeshMeta :=
  fields.read "ObjectMeta"

/-- A part that is written only if it holds something. -/
def unlessEmpty {α : Type} (write : List α → Value) (l : List α) : Option Value :=
  if l.isEmpty then none else some (write l)

def toValue (m : MeshMeta) : Value :=
  .object [
    ("annotations", unlessEmpty .ofTexts m.annotations),
    ("labels", unlessEmpty .ofTexts m.labels),
    ("name", some (.str m.name)),
    ("namespace", some (.str m.space)),
    ("ownerReferences",
      unlessEmpty (fun l => .list (l.map OwnerReference.toValue)) m.ownerReferences)]

def mark (o : Owner) (m : MeshMeta) : MeshMeta :=
  { m with
    labels := m.labels.putAll o.labels
    annotations := m.annotations.putAll o.annotations }

end MeshMeta

structure MeshKind where
  apiVersion : String
  kind : String
  deriving DecidableEq, Repr

structure MeshObject (σ : Type) where
  apiVersion : String
  kind : String
  metadata : MeshMeta
  spec : σ
  deriving Repr

namespace MeshObject
variable {σ : Type}

def new (k : MeshKind) (metadata : MeshMeta) (spec : σ) : MeshObject σ :=
  ⟨k.apiVersion, k.kind, metadata, spec⟩

def fields (k : MeshKind) (spec : Reading σ) : Fields (MeshObject σ) :=
  MeshObject.mk <$> Fields.defaulted "apiVersion" .text k.apiVersion
    <*> Fields.defaulted "kind" .text k.kind <*> Fields.required "metadata" MeshMeta.read
    <*> Fields.required "spec" spec

def read (k : MeshKind) (spec : Reading σ) : Reading (MeshObject σ) :=
  (fields k spec).read k.kind

def toValue (spec : σ → Value) (o : MeshObject σ) : Value :=
  .object [
    ("apiVersion", some (.str o.apiVersion)),
    ("kind", some (.str o.kind)),
    ("metadata", some o.metadata.toValue),
    ("spec", some (spec o.spec))]

end MeshObject

end MeshRollout
