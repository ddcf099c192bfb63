import Mathlib.Data.List.Basic
import MeshRollout.Proofs.Owner
import MeshRollout.Proofs.Traffic.Synthesis
import MeshRollout.Rollout.Reconciliation

/-!
What a route produces: every route that passes its checks has all its objects, and which objects
these are is told by the names of its services alone.
-/
set_option autoImplicit false

namespace MeshRollout

/-- The objects of all services of a route, marked as the route's, in the order of writing. -/
def RouteSpec.planned (spec : RouteSpec) (o : Owner) (reference : Option OwnerReference)
    (edgeSpace : String) : List PlannedObject :=
  spec.services.flatMap fun s => ((s.bundle edgeSpace).markedFor o reference).objects

def Service.identities (s : Service) (edgeSpace : String) : List Identity :=
  [⟨"VirtualService", s.space, s.name⟩, ⟨"Gateway", s.space, s.gatewayName⟩,
   ⟨"VirtualService", s.space, s.ingressName⟩, ⟨"DestinationRule", s.space, s.name⟩]
    ++ (if s.type.sharesRequests then [⟨"EnvoyFilter", edgeSpace, s.filterName⟩] else [])

namespace Bundle

@[simp] theorem own_name (o : Owner) (reference : Option OwnerReference) (m : MeshMeta) :
    (own o reference m).name = m.name := by
  cases reference with
  | none => rfl
  | some r =>
    by_cases hs : m.space = o.space <;> simp [own, MeshMeta.mark, hs]

@[simp] theorem own_space (o : Owner) (reference : Option OwnerReference) (m : MeshMeta) :
    (own o reference m).space = m.space := by
  cases reference with
  | none => rfl
  | some r =>
    by_cases hs : m.space = o.space <;> simp [own, MeshMeta.mark, hs]

theorem own_labels (o : Owner) (reference : Option OwnerReference) (m : MeshMeta) :
    (own o reference m).labels = m.labels.putAll o.labels := by
  cases reference with
  | none => rfl
  | some r =>
    by_cases hs : m.space = o.space <;> simp [own, MeshMeta.mark, hs]

end Bundle

theorem MeshObject.labels_toObject {σ : Type} (spec : σ → Value) (o : MeshObject σ) :
    (o.toObject spec).labels = o.metadata.labels := by
  simp only [Object.labels, ObjectMeta.labelDict, toObject, MeshMeta.toObjectMeta,
    MeshMeta.nonempty]
  cases o.metadata.labels <;> rfl

/-- Every object of a marked bundle carries the mark. -/
theorem Bundle.owns_markedFor (b : Bundle) (o : Owner) (reference : Option OwnerReference) :
    ∀ x ∈ (b.markedFor o reference).objects, o.owns x.object.labels = true := by
  have of_own {σ : Type} (spec : σ → Value) (x : MeshObject σ) (m : MeshMeta)
      (hx : x.metadata = own o reference m) : o.owns (x.toObject spec).labels = true := by
    rw [MeshObject.labels_toObject, hx, own_labels]
    exact o.owns_putAll m.labels
  intro x hx
  simp only [objects, markedFor, List.mem_append, List.mem_cons, List.not_mem_nil, or_false,
    Option.mem_toList, Option.map_eq_some_iff] at hx
  rcases hx with (rfl | rfl | rfl | rfl) | ⟨f, ⟨f', -, rfl⟩, rfl⟩
  · exact of_own _ _ _ rfl
  · exact of_own _ _ _ rfl
  · exact of_own _ _ _ rfl
  · exact of_own _ _ _ rfl
  · exact of_own _ _ _ rfl

theorem RouteSpec.owns_planned (spec : RouteSpec) (o : Owner) (reference : Option OwnerReference)
    (edgeSpace : String) :
    ∀ b ∈ spec.planned o reference edgeSpace, o.owns b.object.labels = true := by
  intro b hb
  obtain ⟨s, -, hs⟩ := List.mem_flatMap.1 hb
  exact Bundle.owns_markedFor _ o reference b hs

@[simp] theorem MeshKind.resource_kind (k : MeshKind) : k.resource.kind = k.kind := rfl

theorem Identity.of_toObject {σ : Type} (r : Resource) (spec : σ → Value) (o : MeshObject σ) :
    Identity.of r (o.toObject spec) = ⟨r.kind, o.metadata.space, o.metadata.name⟩ := rfl

namespace Service

theorem identities_objects {s : Service} (h : s.Passed) (o : Owner)
    (reference : Option OwnerReference) (edgeSpace : String) :
    Reconciliation.identities ((s.bundle edgeSpace).markedFor o reference).objects
      = s.identities edgeSpace := by
  have hi := scriptInput?_isSome h
  cases hs : s.scriptInput? with
  | none =>
    rw [hs] at hi
    simp [Reconciliation.identities, Bundle.objects, Bundle.markedFor, bundle, Identity.of_toObject,
      hs, identities, ← hi, virtualService, gateway, ingressService, destinationRule,
      MeshObject.new, VirtualServiceSpec.kind, GatewaySpec.kind, DestinationRuleSpec.kind]
  | some i =>
    rw [hs] at hi
    simp [Reconciliation.identities, Bundle.objects, Bundle.markedFor, bundle, Identity.of_toObject,
      hs, identities, ← hi, virtualService, gateway, ingressService, destinationRule, edgeFilter,
      MeshObject.new, VirtualServiceSpec.kind, GatewaySpec.kind, DestinationRuleSpec.kind,
      EnvoyFilterSpec.kind]

end Service

namespace Reconciliation

def produced (o : Owner) (reference : Option OwnerReference) (edgeSpace : String)
    (spec : RouteSpec) : Except Failure (List PlannedObject) := do
  spec.validate
  let bs ← bundles o reference edgeSpace spec.services
  pure (bs.flatMap Bundle.objects)

theorem writeAll_append (as bs : List PlannedObject) :
    writeAll (as ++ bs) = (do writeAll as; writeAll bs) := by
  induction as with
  | nil => rfl
  | cons a as ih => simp [writeAll, ih]

/-- No object fails on its way through its value, so writing the bundles one after another is
writing all their objects. -/
theorem writeBundles_eq (bs : List Bundle) :
    writeBundles bs
      = (do
          writeAll (bs.flatMap Bundle.objects)
          pure (bs.flatMap Bundle.objects)) := by
  induction bs with
  | nil => rfl
  | cons b bs ih =>
    have hb : Pass.ofExcept b.serialized = pure b.objects := by
      rw [b.serialized_eq_ok]
      rfl
    simp [writeBundles, hb, ih, writeAll_append]

/-- A pass that brings a route into place writes what the route produces, as if all of it were there
before the first write. -/
theorem bringIntoPlace_eq_produced (edgeSpace : String) (o : Owner) (r : Route) :
    bringIntoPlace edgeSpace o r
      = (do
          let bs ← Pass.ofExcept (produced o r.ownerReference? edgeSpace r.spec)
          writeAll bs
          let _ ← sweep o (identities bs)) := by
  cases hv : r.spec.validate with
  | error f => simp only [bringIntoPlace, produced, hv]; rfl
  | ok _ =>
    cases hb : bundles o r.ownerReference? edgeSpace r.spec.services with
    | error f => simp only [bringIntoPlace, produced, hv, hb]; rfl
    | ok bs =>
      have hp :
          produced o r.ownerReference? edgeSpace r.spec = .ok (bs.flatMap Bundle.objects) := by
        simp only [produced, hv, hb]; rfl
      have hof {α : Type} (x : α) : Pass.ofExcept (.ok x) = (pure x : Pass α) := rfl
      simp [bringIntoPlace, hp, hv, hb, hof, writeBundles_eq]

theorem bundles_eq_ok (o : Owner) (reference : Option OwnerReference) (edgeSpace : String)
    {ss : List Service} (h : ∀ s ∈ ss, s.Passed) :
    bundles o reference edgeSpace ss
      = .ok (ss.map fun s => (s.bundle edgeSpace).markedFor o reference) := by
  induction ss with
  | nil => rfl
  | cons s ss ih =>
    have hv := (h s List.mem_cons_self).validate
    have hr : s.routing edgeSpace = .ok (s.bundle edgeSpace) := Service.routing_eq_ok hv edgeSpace
    have hi := ih fun t ht => h t (List.mem_cons_of_mem _ ht)
    simp [bundles, hr, hi, bind, Except.bind, pure, Except.pure]

theorem produced_eq_ok {spec : RouteSpec} (h : spec.validate = .ok ()) (o : Owner)
    (reference : Option OwnerReference) (edgeSpace : String) :
    produced o reference edgeSpace spec = .ok (spec.planned o reference edgeSpace) := by
  have hb := bundles_eq_ok o reference edgeSpace (RouteSpec.validate_eq_ok_iff.1 h).1
  simp [produced, h, hb, bind, Except.bind, pure, Except.pure, RouteSpec.planned, List.flatMap_map]

theorem identities_planned {spec : RouteSpec} (h : spec.validate = .ok ()) (o : Owner)
    (reference : Option OwnerReference) (edgeSpace : String) :
    identities (spec.planned o reference edgeSpace)
      = spec.services.flatMap fun s => s.identities edgeSpace := by
  have hp := (RouteSpec.validate_eq_ok_iff.1 h).1
  rw [RouteSpec.planned, identities, List.map_flatMap]
  exact List.flatMap_congr fun s hs => Service.identities_objects (hp s hs) o reference edgeSpace

end Reconciliation

end MeshRollout
