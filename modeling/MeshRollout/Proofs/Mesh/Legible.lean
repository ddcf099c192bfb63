import MeshRollout.Proofs.Mesh.Printable

/-!
Which texts have to stand for themselves so that an object of the mesh reads back from its text.
-/
set_option autoImplicit false

namespace MeshRollout
open Yaml

theorem isLegible_empty : IsLegible "" := fun h => absurd h (by decide)

section Specs

theorem MeshMeta.legible_unlessEmpty {α : Type} (write : List α → Value) (l : List α)
    (hw : Legible (write [])) :
    (∀ v, MeshMeta.unlessEmpty write l = some v → Legible v) ↔ Legible (write l) := by
  cases l with
  | nil => simpa [unlessEmpty] using hw
  | cons x l => simp [unlessEmpty]

theorem StringMatch.legible_iff (m : StringMatch) : Legible m.toValue ↔ IsLegible m.pattern := by
  cases m <;> simp [toValue, pattern]

theorem HeaderMatch.legible_iff (m : HeaderMatch) :
    Legible m.toValue ↔ ∀ p ∈ m.headers, IsLegible p.2.pattern := by
  have hheaders := MeshMeta.legible_unlessEmpty
    (fun d : Dict StringMatch => .record (d.map fun p => (p.1, p.2.toValue))) m.headers (by simp)
  rw [legible_record_map] at hheaders
  rw [toValue, legible_object, List.forall_mem_singleton]
  exact hheaders.trans (by simp only [StringMatch.legible_iff])

theorem WeightedDestination.legible_iff (d : WeightedDestination) :
    Legible d.toValue ↔
      IsLegible d.destination.host ∧ ∀ x ∈ d.destination.subset, IsLegible x := by
  simp [toValue, Destination.toValue]

theorem HttpRule.legible_iff (r : HttpRule) :
    Legible r.toValue ↔ (∀ c ∈ r.conditions, Legible c.toValue) ∧ IsLegible r.name ∧
      ∀ d ∈ r.route, Legible d.toValue := by
  have hname : (∀ v ∈ (if r.name.isEmpty then none else some (Value.str r.name)), Legible v)
      ↔ IsLegible r.name := by
    split
    · rename_i he
      rw [String.isEmpty_iff.1 he]
      simp [isLegible_empty]
    · simp
  have hconditions := MeshMeta.legible_unlessEmpty (fun l => .list (l.map HeaderMatch.toValue))
    r.conditions (by simp)
  rw [toValue, legible_object]
  simp only [List.forall_mem_cons, List.not_mem_nil, false_imp_iff, implies_true, and_true, hname]
  simp [hconditions]

theorem VirtualServiceSpec.legible_iff (s : VirtualServiceSpec) :
    Legible s.toValue ↔ (∀ x ∈ s.gateways, IsLegible x) ∧ (∀ x ∈ s.hosts, IsLegible x) ∧
      ∀ r ∈ s.http, Legible r.toValue := by
  simp [toValue, MeshMeta.legible_unlessEmpty]

theorem GatewaySpec.legible_iff (s : GatewaySpec) :
    Legible s.toValue ↔ (∀ p ∈ s.selector, IsLegible p.2) ∧ ∀ x ∈ s.servers,
      (∀ y ∈ x.hosts, IsLegible y) ∧ IsLegible x.entrance.name ∧ IsLegible x.entrance.protocol := by
  simp [toValue, GatewayServer.toValue, GatewayPort.toValue]

theorem DestinationRuleSpec.legible_iff (s : DestinationRuleSpec) :
    Legible s.toValue ↔ IsLegible s.host ∧
      (∀ x ∈ s.subsets, (∀ p ∈ x.labels, IsLegible p.2) ∧ IsLegible x.name) ∧
      (∀ b ∈ s.trafficPolicy.loadBalancer, IsLegible b.consistentHash.httpHeaderName) ∧
      ∀ p ∈ s.trafficPolicy.outlierDetection,
        IsLegible p.baseEjectionTime ∧ ∀ x ∈ p.interval, IsLegible x := by
  simp [toValue, Subset.toValue, TrafficPolicy.toValue, LoadBalancer.toValue, ConsistentHash.toValue,
    EjectionPolicy.toValue]

theorem EnvoyFilterSpec.legible_iff (s : EnvoyFilterSpec) :
    Legible s.toValue ↔ (∀ p ∈ s.configPatches, IsLegible p.applyTo ∧
      (IsLegible p.place.context ∧ IsLegible p.place.filter.name ∧
        ∀ x ∈ p.place.filter.subFilter, IsLegible x) ∧
      IsLegible p.patch.operation ∧ Legible p.patch.value.toValue) ∧
      ∀ p ∈ s.workloadLabels, IsLegible p.2 := by
  simp [toValue, ConfigPatch.toValue, PatchPlace.toValue, Patch.toValue, FilterPlace.listener,
    FilterPlace.toValue]

end Specs

section Objects

theorem MeshObject.legible_iff {σ : Type} {spec : σ → Value} (o : MeshObject σ)
    (hm : o.metadata.ownerReferences = []) :
    Legible (o.toObject spec).toValue ↔ IsLegible o.apiVersion ∧ IsLegible o.kind ∧
      ((∀ p ∈ o.metadata.annotations, IsLegible p.2) ∧ (∀ p ∈ o.metadata.labels, IsLegible p.2) ∧
        IsLegible o.metadata.name ∧ IsLegible o.metadata.space) ∧ Legible (spec o.spec) := by
  have htexts (d : Dict String) : (∀ v ∈ (MeshMeta.nonempty d).map Value.ofTexts, Legible v)
      ↔ ∀ p ∈ d, IsLegible p.2 := by
    cases d <;> simp [MeshMeta.nonempty]
  have hnone : MeshMeta.nonempty o.metadata.ownerReferences = none := by
    rw [hm]
    rfl
  rw [toValue_toObject]
  simp only [legible_record, MeshMeta.toObjectMeta, ObjectMeta.toValue, legible_object,
    List.forall_mem_cons, htexts, hnone]
  simp

theorem MeshObject.legible_own_iff {σ : Type} {spec : σ → Value} {k : MeshKind} {o : Owner}
    {name space : String} {x : σ} (hk : IsLegible k.apiVersion ∧ IsLegible k.kind) :
    Legible (({ MeshObject.new k { name, space } x with
        metadata := Bundle.own o none { name, space } } : MeshObject σ).toObject spec).toValue ↔
      (IsLegible o.name ∧ IsLegible o.space ∧ IsLegible o.uid) ∧ IsLegible name ∧
        IsLegible space ∧ Legible (spec x) := by
  have hmanager : IsLegible Owner.managerName := isLegible_of_head (c := 'm') rfl (by decide)
  have hlabels : (∀ p ∈ o.labels, IsLegible p.2) ↔ IsLegible o.name ∧ IsLegible o.space := by
    simp [Owner.labels_eq, hmanager]
  have hannotations : (∀ p ∈ o.annotations, IsLegible p.2) ↔ IsLegible o.uid := by
    rw [Owner.annotations]
    split
    · rename_i he
      simp [String.isEmpty_iff.1 he, isLegible_empty]
    · simp
  have hmeta : (Bundle.own o none { name, space }).name = name
      ∧ (Bundle.own o none { name, space }).space = space := ⟨rfl, rfl⟩
  rw [legible_iff _ rfl]
  simp only [Bundle.labels_own, hlabels, Bundle.annotations_own, hannotations, hmeta, new, hk,
    true_and]
  tauto

end Objects

end MeshRollout
