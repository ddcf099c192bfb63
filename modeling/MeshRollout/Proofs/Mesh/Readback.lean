import MeshRollout.Proofs.Shape.Records
import MeshRollout.Traffic.Bundle

/-!
Produced objects survive being written as values: what a reader of cluster objects makes of the
value of a produced object is that object. So nothing that is produced fails on its way to the
cluster.
-/
set_option autoImplicit false

namespace MeshRollout

namespace Reading

variable {α : Type} {r : Reading α}

theorem map_ofTexts (d : Dict String) : Reading.map text (.ofTexts d) = .ok d := by
  have hentries (d : Dict String) :
      entries text (d.map fun p => (p.1, Value.str p.2)) = .ok d := by
    induction d with
    | nil => rfl
    | cons p d ih =>
      rw [List.map_cons, entries, ih]
      rfl
  exact hentries d

theorem nullable_ofTexts (d : Dict String) :
    (Reading.map text).nullable (.ofTexts d) = .ok (some d) := by
  change (Reading.map text (.ofTexts d)).map some = _
  rw [map_ofTexts]
  rfl

theorem nullable_list_map {write : α → Value} {l : List α} (h : ∀ x ∈ l, r (write x) = .ok x) :
    (Reading.list r).nullable (.list (l.map write)) = .ok (some l) := by
  change (Reading.list r (.list (l.map write))).map some = _
  rw [list_map h]
  rfl

end Reading

theorem OwnerReference.read_toValue (r : OwnerReference) : read r.toValue = .ok r := by
  obtain ⟨apiVersion, kind, name, uid, blocks, controls⟩ := r
  cases blocks <;> cases controls <;> rfl

theorem Fields.Yields.optionalUnlessEmpty {α : Type} {name : String} {r : Reading (List α)}
    (write : List α → Value) (l : List α) (h : r.nullable (write l) = .ok (some l)) :
    (Fields.optional name r).Yields [MeshMeta.unlessEmpty write l]
      (if l.isEmpty then none else some l) := by
  cases l with
  | nil => exact .absent
  | cons x l => exact .given h

theorem MeshMeta.read_toValue (m : MeshMeta) : ObjectMeta.read m.toValue = .ok m.toObjectMeta := by
  have howners := Reading.nullable_list_map fun r (_ : r ∈ m.ownerReferences) => r.read_toValue
  refine Fields.ofRecord_of_yields (by decide)
    (.seq (.seq (.seq (.seq (.seq (.seq (.seq (.seq (.seq (.seq (.seq (.seq (.seq (.seq (.map
      (.optionalUnlessEmpty .ofTexts m.annotations (Reading.nullable_ofTexts _)) ObjectMeta.mk)
      .absent) .absent) .absent) .absent) .absent) .absent)
      (.optionalUnlessEmpty .ofTexts m.labels (Reading.nullable_ofTexts _)))
      .absent)
      (.given (Reading.nullable_str m.name)))
      (.given (Reading.nullable_str m.space)))
      (.optionalUnlessEmpty (fun l => .list (l.map OwnerReference.toValue)) _ howners))
      .absent) .absent) .absent) ?_
  change [valuesUnder ["annotations"] _, valuesUnder ["creationTimestamp"] _,
    valuesUnder ["deletionGracePeriodSeconds"] _, valuesUnder ["deletionTimestamp"] _,
    valuesUnder ["finalizers"] _, valuesUnder ["generateName"] _, valuesUnder ["generation"] _,
    valuesUnder ["labels"] _, valuesUnder ["managedFields"] _, valuesUnder ["name"] _,
    valuesUnder ["namespace"] _, valuesUnder ["ownerReferences"] _,
    valuesUnder ["resourceVersion"] _, valuesUnder ["selfLink"] _, valuesUnder ["uid"] _] = _
  simp [valuesUnder_written_cons, -List.filterMap_cons_some]

theorem MeshObject.ofValue_toValue {σ : Type} (spec : σ → Value) (x : MeshObject σ) :
    Object.ofValue (x.toValue spec) = .ok (x.toObject spec) := by
  have hread : Object.read (x.toValue spec)
      = (do
          let metadata ← Reading.part (.field "metadata") (ObjectMeta.read x.metadata.toValue)
          pure ⟨some (x.apiVersion, x.kind), metadata, [("spec", spec x.spec)]⟩) := rfl
  rw [Object.ofValue, hread, MeshMeta.read_toValue]
  rfl

namespace Bundle

theorem item_eq_ok {σ : Type} (k : MeshKind) (spec : σ → Value) (x : MeshObject σ) :
    item k spec x = .ok ⟨k.resource, x.toObject spec⟩ := by
  rw [item, MeshObject.ofValue_toValue]
  rfl

theorem serialized_eq_ok (b : Bundle) : b.serialized = .ok b.objects := by
  simp only [serialized, item_eq_ok, objects]
  cases b.edgeFilter <;> rfl

end Bundle

end MeshRollout
