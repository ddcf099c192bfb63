import MeshRollout.Shape.Fields

/-!
Metadata of objects in the cluster. What is absent and what is empty are kept apart; `null` counts
as absent, and keys that metadata does not have are passed over.
-/
set_option autoImplicit false

namespace MeshRollout

structure OwnerReference where
  apiVersion : String
  kind : String
  name : String
  uid : String
  blockOwnerDeletion : Option Bool
  controller : Option Bool
  deriving DecidableEq, Repr

namespace OwnerReference

def fields : Fields OwnerReference :=
  let text (k : String) : Fields String := (fun s => s.getD "") <$> Fields.optional k .text
  OwnerReference.mk <$> text "apiVersion" <*> text "kind" <*> text "name" <*> text "uid"
    <*> Fields.optional "blockOwnerDeletion" .bool <*> Fields.optional "controller" .bool

def read : Reading OwnerReference :=
  fields.readRecord "OwnerReference"

def toValue (r : OwnerReference) : Value :=
  .object [
    ("apiVersion", some (.str r.apiVersion)),
    ("blockOwnerDeletion", r.blockOwnerDeletion.map .bool),
    ("controller", r.controller.map .bool),
    ("kind", some (.str r.kind)),
    ("name", some (.str r.name)),
    ("uid", some (.str r.uid))]

end OwnerReference

structure ManagedFields where
  apiVersion : Option String
  fieldsType : Option String
  fieldsV1 : Option Value
  manager : Option String
  operation : Option String
  subresource : Option String
  time : Option Instant
  deriving Repr

namespace ManagedFields

def fields : Fields ManagedFields :=
  ManagedFields.mk <$> Fields.optional "apiVersion" .text <*> Fields.optional "fieldsType" .text
    <*> Fields.optional "fieldsV1" .any <*> Fields.optional "manager" .text
    <*> Fields.optional "operation" .text <*> Fields.optional "subresource" .text
    <*> Fields.optional "time" .instant

def read : Reading ManagedFields :=
  fields.readRecord "ManagedFieldsEntry"

def toValue (m : ManagedFields) : Value :=
  .object [
    ("apiVersion", m.apiVersion.map .str),
    ("fieldsType", m.fieldsType.map .str),
    ("fieldsV1", m.fieldsV1),
    ("manager", m.manager.map .str),
    ("operation", m.operation.map .str),
    ("subresource", m.subresource.map .str),
    ("time", m.time.map fun t => .str t.secondsText)]

end ManagedFields

structure ObjectMeta where
  annotations : Option (Dict String) := none
  creationTimestamp : Option Instant := none
  deletionGracePeriodSeconds : Option Int := none
  deletionTimestamp : Option Instant := none
  finalizers : Option (List String) := none
  generateName : Option String := none
  generation : Option Int := none
  labels : Option (Dict String) := none
  managedFields : Option (List ManagedFields) := none
  name : Option String := none
  space : Option String := none
  ownerReferences : Option (List OwnerReference) := none
  resourceVersion : Option String := none
  selfLink : Option String := none
  uid : Option String := none
  deriving Repr

namespace ObjectMeta

def fields : Fields ObjectMeta :=
  ObjectMeta.mk <$> Fields.optional "annotations" (.map .text)
    <*> Fields.optional "creationTimestamp" .instant
    <*> Fields.optional "deletionGracePeriodSeconds" .int64
    <*> Fields.optional "deletionTimestamp" .instant
    <*> Fields.optional "finalizers" (.list .text)
    <*> Fields.optional "generateName" .text
    <*> Fields.optional "generation" .int64
    <*> Fields.optional "labels" (.map .text)
    <*> Fields.optional "managedFields" (.list ManagedFields.read)
    <*> Fields.optional "name" .text
    <*> Fields.optional "namespace" .text
    <*> Fields.optional "ownerReferences" (.list OwnerReference.read)
    <*> Fields.optional "resourceVersion" .text
    <*> Fields.optional "selfLink" .text
    <*> Fields.optional "uid" .text

def read : Reading ObjectMeta :=
  fields.readRecord "ObjectMeta"

def toValue (m : ObjectMeta) : Value :=
  .object [
    ("annotations", m.annotations.map .ofTexts),
    ("creationTimestamp", m.creationTimestamp.map fun t => .str t.secondsText),
    ("deletionGracePeriodSeconds", m.deletionGracePeriodSeconds.map .int),
    ("deletionTimestamp", m.deletionTimestamp.map fun t => .str t.secondsText),
    ("finalizers", m.finalizers.map .strings),
    ("generateName", m.generateName.map .str),
    ("generation", m.generation.map .int),
    ("labels", m.labels.map .ofTexts),
    ("managedFields", m.managedFields.map fun l => .list (l.map ManagedFields.toValue)),
    ("name", m.name.map .str),
    ("namespace", m.space.map .str),
    ("ownerReferences", m.ownerReferences.map fun l => .list (l.map OwnerReference.toValue)),
    ("resourceVersion", m.resourceVersion.map .str),
    ("selfLink", m.selfLink.map .str),
    ("uid", m.uid.map .str)]

def labelDict (m : ObjectMeta) : Dict String :=
  m.labels.getD []

def annotationDict (m : ObjectMeta) : Dict String :=
  m.annotations.getD []

/-- The name, or the stem that the server completes to one. -/
def anyName (m : ObjectMeta) : String :=
  (m.name.or m.generateName).getD ""

def isHeldBy (f : String) (m : ObjectMeta) : Bool :=
  (m.finalizers.getD []).contains f

end ObjectMeta

end MeshRollout
