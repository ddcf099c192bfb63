import MeshRollout.Mesh.DestinationRule
import MeshRollout.Mesh.EnvoyFilter
import MeshRollout.Mesh.Gateway
import MeshRollout.Mesh.VirtualService
import MeshRollout.Proofs.Value

/-!
The specifications of the mesh are written without floating-point numbers.
-/
set_option autoImplicit false

namespace MeshRollout

theorem MeshMeta.plain_of_unlessEmpty {α : Type} {write : List α → Value} {l : List α} {v : Value}
    (hw : (write l).Plain) (h : MeshMeta.unlessEmpty write l = some v) : v.Plain := by
  simp only [unlessEmpty] at h
  split at h
  · cases h
  · cases h
    exact hw

theorem StringMatch.plain_toValue (m : StringMatch) : m.toValue.Plain := by
  cases m <;> simp [toValue]

theorem HeaderMatch.plain_toValue (m : HeaderMatch) : m.toValue.Plain := by
  simp only [toValue, Value.plain_object, List.mem_singleton, forall_eq]
  intro v hv
  refine MeshMeta.plain_of_unlessEmpty ?_ hv
  simp only [Value.plain_record, List.mem_map]
  rintro _ ⟨p, -, rfl⟩
  exact p.2.plain_toValue

theorem HttpRule.plain_toValue (r : HttpRule) : r.toValue.Plain := by
  have hd (d : WeightedDestination) : d.toValue.Plain := by
    simp [WeightedDestination.toValue, Destination.toValue]
  simp only [toValue, Value.plain_object, List.mem_cons, List.not_mem_nil, or_false,
    forall_eq_or_imp, forall_eq]
  refine ⟨fun v hv => MeshMeta.plain_of_unlessEmpty ?_ hv, ?_, ?_⟩
  · simp [HeaderMatch.plain_toValue]
  · intro v hv
    split at hv <;> cases hv
    simp
  · simp [hd]

theorem VirtualServiceSpec.plain_toValue (s : VirtualServiceSpec) : s.toValue.Plain := by
  simp only [toValue, Value.plain_object, List.mem_cons, List.not_mem_nil, or_false,
    forall_eq_or_imp, forall_eq]
  refine ⟨fun v hv => MeshMeta.plain_of_unlessEmpty ?_ hv, ?_, ?_⟩
  · simp
  · simp
  · simp [HttpRule.plain_toValue]

theorem GatewaySpec.plain_toValue (s : GatewaySpec) : s.toValue.Plain := by
  simp [toValue, GatewayServer.toValue, GatewayPort.toValue]

theorem DestinationRuleSpec.plain_toValue (s : DestinationRuleSpec) : s.toValue.Plain := by
  simp [toValue, Subset.toValue, TrafficPolicy.toValue, LoadBalancer.toValue,
    ConsistentHash.toValue, EjectionPolicy.toValue]

theorem EnvoyFilterSpec.plain_toValue (s : EnvoyFilterSpec) : s.toValue.Plain := by
  simp [toValue, ConfigPatch.toValue, PatchPlace.toValue, Patch.toValue, FilterPlace.listener,
    FilterPlace.toValue, LuaFilter.toValue, LuaConfig.toValue]

end MeshRollout
