import Mathlib.Data.List.Nodup
import Mathlib.Data.List.Pairwise
import MeshRollout.Proofs.Rollout.Produced
import MeshRollout.Proofs.Traffic.Naming

/-!
When the objects of a route are all different. Labels keep gateways, destination rules and filters
apart; only the rules at the edge of one service can take the name of the rules of another one.
-/
set_option autoImplicit false

namespace MeshRollout

namespace Service

theorem ingressName_ne_name (s : Service) : s.ingressName ≠ s.name := by
  intro h
  have hl := congrArg (fun t : String => t.toList.length) h
  simp [ingressName, String.toList_append] at hl

theorem ingressName_injective {s t : Service} (h : s.ingressName = t.ingressName) :
    s.name = t.name := by
  have hl := congrArg String.toList h
  simp only [ingressName, String.toList_append] at hl
  exact String.toList_injective (List.append_cancel_right hl)

theorem gatewayName_injective {s t : Service} (h : s.gatewayName = t.gatewayName) :
    s.name = t.name := by
  have hl := congrArg String.toList h
  simp only [gatewayName, String.toList_append] at hl
  exact String.toList_injective (List.append_cancel_right hl)

def takesName (s t : Service) : Prop :=
  s.space = t.space ∧ s.ingressName = t.name

theorem identities_nodup (s : Service) (edgeSpace : String) : (s.identities edgeSpace).Nodup := by
  have hn := s.ingressName_ne_name
  cases hs : s.type.sharesRequests <;> simp [identities, hs, hn.symm]

theorem mem_identities {s : Service} {edgeSpace : String} {x : Identity} :
    x ∈ s.identities edgeSpace ↔
      x = ⟨"VirtualService", s.space, s.name⟩ ∨ x = ⟨"Gateway", s.space, s.gatewayName⟩ ∨
        x = ⟨"VirtualService", s.space, s.ingressName⟩ ∨
        x = ⟨"DestinationRule", s.space, s.name⟩ ∨
        (s.type.sharesRequests = true ∧ x = ⟨"EnvoyFilter", edgeSpace, s.filterName⟩) := by
  cases hs : s.type.sharesRequests <;> simp [identities, hs]

theorem not_disjoint_of_takesName {s t : Service} (h : s.takesName t) (edgeSpace : String) :
    ¬ List.Disjoint (s.identities edgeSpace) (t.identities edgeSpace) := by
  intro hd
  have hx : (⟨"VirtualService", t.space, t.name⟩ : Identity) ∈ s.identities edgeSpace := by
    rw [mem_identities, h.1, h.2]
    exact .inr (.inr (.inl rfl))
  exact hd hx (mem_identities.2 (.inl rfl))

/-- Two different services share an object only if one takes the name of the other. -/
theorem takesName_of_shared {s t : Service} (hs : s.Passed) (ht : t.Passed)
    (hne : (s.space, s.name) ≠ (t.space, t.name)) {edgeSpace : String} {x : Identity}
    (hxs : x ∈ s.identities edgeSpace) (hxt : x ∈ t.identities edgeSpace) :
    s.takesName t ∨ t.takesName s := by
  have hsame : s.space = t.space → s.name ≠ t.name := fun hsp hn => hne (by rw [hsp, hn])
  rw [mem_identities] at hxs hxt
  rcases hxs with rfl | rfl | rfl | rfl | ⟨-, rfl⟩ <;>
    simp only [Identity.mk.injEq, String.reduceEq, true_and, false_and, and_false, or_false,
      false_or] at hxt
  · rcases hxt with ⟨hsp, hn⟩ | ⟨hsp, hn⟩
    · exact absurd hn (hsame hsp)
    · exact .inr ⟨hsp.symm, hn.symm⟩
  · exact absurd (gatewayName_injective hxt.2) (hsame hxt.1)
  · rcases hxt with ⟨hsp, hn⟩ | ⟨hsp, hn⟩
    · exact .inl ⟨hsp, hn⟩
    · exact absurd (ingressName_injective hn) (hsame hsp)
  · exact absurd hxt.2 (hsame hxt.1)
  · obtain ⟨hsp, hn⟩ := filterName_injective hs.space ht.space hxt.2
    exact absurd hn (hsame hsp)

end Service

namespace RouteSpec

/-- The objects of a route that passes its checks are all different exactly if no two of its
services stand in one namespace under a name and the same name with the ending of the edge. -/
theorem planned_distinct_iff {spec : RouteSpec} (h : spec.validate = .ok ()) (o : Owner)
    (reference : Option OwnerReference) (edgeSpace : String) :
    ∃ planned, Reconciliation.produced o reference edgeSpace spec = .ok planned ∧
      ((Reconciliation.identities planned).Nodup ↔
        ∀ s ∈ spec.services, ∀ t ∈ spec.services,
          s.space = t.space → t.name ≠ s.name ++ "-ingress") := by
  refine ⟨_, Reconciliation.produced_eq_ok h o reference edgeSpace, ?_⟩
  obtain ⟨hp, hd⟩ := validate_eq_ok_iff.1 h
  rw [Reconciliation.identities_planned h, List.nodup_flatMap]
  constructor
  · rintro ⟨-, hpair⟩ s hs t ht hsp hn
    have hst : s ≠ t := fun he => s.ingressName_ne_name (by rw [Service.ingressName, ← hn, ← he])
    have hsymm :
        Std.Symm (Function.onFun List.Disjoint fun s : Service => s.identities edgeSpace) :=
      ⟨fun _ _ hd x hs ht => hd ht hs⟩
    exact Service.not_disjoint_of_takesName ⟨hsp, hn.symm⟩ edgeSpace (hpair.forall hs ht hst)
  · intro hfree
    refine ⟨fun s _ => s.identities_nodup edgeSpace, ?_⟩
    refine (List.pairwise_map.1 hd).imp_of_mem ?_
    intro s t hs ht hne x hxs hxt
    cases Service.takesName_of_shared (hp s hs) (hp t ht) hne hxs hxt with
    | inl hst => exact hfree s hs t ht hst.1 hst.2.symm
    | inr hts => exact hfree t ht s hs hts.1 hts.2.symm

def shopWithIngress : RouteSpec where
  services := [
    { name := "shop", space := "a", revisions := ["r1"] },
    { name := "shop-ingress", space := "a", revisions := ["r2"] }]

theorem shopWithIngress_distinct_iff :
    shopWithIngress.validate = .ok () ∧
      ∃ planned, Reconciliation.produced ⟨"rollout", "a", ""⟩ none "istio-system" shopWithIngress
          = .ok planned ∧
        ((Reconciliation.identities planned).Nodup ↔
          ∀ s ∈ shopWithIngress.services, ∀ t ∈ shopWithIngress.services,
            s.space = t.space → t.name ≠ s.name ++ "-ingress") :=
  ⟨rfl, planned_distinct_iff rfl ⟨"rollout", "a", ""⟩ none "istio-system"⟩

theorem shopWithIngress_not_distinct :
    ∃ planned, shopWithIngress.validate = .ok () ∧
      Reconciliation.produced ⟨"rollout", "a", ""⟩ none "istio-system" shopWithIngress
        = .ok planned ∧
      ¬ (Reconciliation.identities planned).Nodup := by
  refine ⟨_, rfl, Reconciliation.produced_eq_ok rfl _ _ _, ?_⟩
  rw [Reconciliation.identities_planned rfl]
  decide

end RouteSpec

end MeshRollout
