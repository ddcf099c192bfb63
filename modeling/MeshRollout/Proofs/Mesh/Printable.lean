import MeshRollout.Proofs.Mesh.Plain
import MeshRollout.Proofs.Owner
import MeshRollout.Proofs.Yaml.Printable
import MeshRollout.Traffic.Bundle

/-!
The objects of the mesh can be written: their fields stand in order under names that are texts, and
their numbers have 64 bits. What is left to the texts that are filled in is said for each part.
-/
set_option autoImplicit false

namespace MeshRollout
open Yaml

section VirtualServices

theorem MeshMeta.printable_of_unlessEmpty {α : Type} {write : List α → Value} {l : List α}
    (hw : Printable (write l)) : ∀ v ∈ MeshMeta.unlessEmpty write l, Printable v := by
  intro v hv
  simp only [unlessEmpty] at hv
  split at hv
  · cases hv
  · cases hv
    exact hw

def StringMatch.pattern : StringMatch → String
  | .exact s => s
  | .regex s => s

theorem StringMatch.printable {m : StringMatch} (h : IsPortable m.pattern) : Printable m.toValue := by
  cases m with
  | exact s => exact printable_fields (show AreFieldNames ["exact"] by decide) (by simpa [pattern] using h)
  | regex s => exact printable_fields (show AreFieldNames ["regex"] by decide) (by simpa [pattern] using h)

structure HeaderMatch.Portable (m : HeaderMatch) : Prop where
  sorted : m.headers.Sorted
  headers : ∀ p ∈ m.headers, IsKey p.1 ∧ IsPortable p.2.pattern

theorem HeaderMatch.Portable.printable {m : HeaderMatch} (h : m.Portable) : Printable m.toValue := by
  refine printable_object (show AreFieldNames ["headers"] by decide) ?_
  simp only [List.forall_mem_singleton]
  refine MeshMeta.printable_of_unlessEmpty (printable_record.2 ⟨List.pairwise_map.2 h.sorted, ?_⟩)
  intro f hf
  obtain ⟨p, hp, rfl⟩ := List.mem_map.1 hf
  exact ⟨(h.headers p hp).1, StringMatch.printable (h.headers p hp).2⟩

structure WeightedDestination.Portable (d : WeightedDestination) : Prop where
  host : IsPortable d.destination.host
  subset : ∀ s ∈ d.destination.subset, IsPortable s
  weight : ∀ n ∈ d.weight, n < Nat.pow 2 63

theorem WeightedDestination.Portable.printable {d : WeightedDestination} (h : d.Portable) :
    Printable d.toValue := by
  have hdestination : Printable d.destination.toValue := by
    refine printable_object (show AreFieldNames ["host", "subset"] by decide) ?_
    simpa using ⟨h.host, h.subset⟩
  refine printable_object (show AreFieldNames ["destination", "weight"] by decide) ?_
  simpa using ⟨hdestination, fun n hn => printable_nat (h.weight n hn)⟩

structure HttpRule.Portable (r : HttpRule) : Prop where
  name : IsPortable r.name
  conditions : ∀ c ∈ r.conditions, c.Portable
  route : ∀ d ∈ r.route, d.Portable

theorem HttpRule.Portable.printable {r : HttpRule} (h : r.Portable) : Printable r.toValue := by
  refine printable_object (show AreFieldNames ["match", "name", "route"] by decide) ?_
  simp only [List.forall_mem_cons, List.not_mem_nil, false_imp_iff, implies_true, and_true]
  refine ⟨MeshMeta.printable_of_unlessEmpty ?_, fun v hv => ?_, ?_⟩
  · simpa using fun c hc => (h.conditions c hc).printable
  · split at hv
    · cases hv
    · cases hv
      simpa using h.name
  · simpa using fun d hd => (h.route d hd).printable

theorem VirtualServiceSpec.printable {s : VirtualServiceSpec} (hhosts : ∀ x ∈ s.hosts, IsPortable x)
    (hgateways : ∀ x ∈ s.gateways, IsPortable x) (hhttp : ∀ r ∈ s.http, r.Portable) :
    Printable s.toValue := by
  refine printable_object (show AreFieldNames ["gateways", "hosts", "http"] by decide) ?_
  simp only [List.forall_mem_cons, List.not_mem_nil, false_imp_iff, implies_true, and_true]
  refine ⟨MeshMeta.printable_of_unlessEmpty (printable_strings hgateways), ?_, ?_⟩
  · simpa using printable_strings hhosts
  · simpa using fun r hr => (hhttp r hr).printable

end VirtualServices

section Gateways

theorem GatewayServer.printable {s : GatewayServer} (hhosts : ∀ x ∈ s.hosts, IsPortable x)
    (hname : IsPortable s.entrance.name) (hprotocol : IsPortable s.entrance.protocol)
    (hnumber : s.entrance.number < Nat.pow 2 63) : Printable s.toValue := by
  have hentrance : Printable s.entrance.toValue := by
    refine printable_fields (show AreFieldNames ["name", "number", "protocol"] by decide) ?_
    simpa using ⟨hname, printable_nat hnumber, hprotocol⟩
  refine printable_fields (show AreFieldNames ["hosts", "port"] by decide) ?_
  simpa using ⟨printable_strings hhosts, hentrance⟩

theorem GatewaySpec.printable {s : GatewaySpec} (hselector : AreTexts s.selector)
    (hservers : ∀ x ∈ s.servers, Printable x.toValue) : Printable s.toValue := by
  refine printable_fields (show AreFieldNames ["selector", "servers"] by decide) ?_
  simpa using ⟨hselector.printable, hservers⟩

end Gateways

section DestinationRules

theorem Subset.printable {s : Subset} (hlabels : AreTexts s.labels) (hname : IsPortable s.name) :
    Printable s.toValue := by
  refine printable_fields (show AreFieldNames ["labels", "name"] by decide) ?_
  simpa using ⟨hlabels.printable, hname⟩

theorem LoadBalancer.printable {b : LoadBalancer} (h : IsPortable b.consistentHash.httpHeaderName) :
    Printable b.toValue := by
  have hhash : Printable b.consistentHash.toValue :=
    printable_fields (show AreFieldNames ["httpHeaderName"] by decide) (by simpa using h)
  exact printable_fields (show AreFieldNames ["consistentHash"] by decide) (by simpa using hhash)

structure EjectionPolicy.Portable (p : EjectionPolicy) : Prop where
  serverErrors : ∀ n ∈ p.consecutive5xxErrors, n < Nat.pow 2 63
  gatewayErrors : ∀ n ∈ p.consecutiveGatewayErrors, n < Nat.pow 2 63
  interval : ∀ s ∈ p.interval, IsPortable s
  baseEjectionTime : IsPortable p.baseEjectionTime
  maxEjectionPercent : p.maxEjectionPercent < Nat.pow 2 63
  minHealthPercent : p.minHealthPercent < Nat.pow 2 63

theorem EjectionPolicy.Portable.printable {p : EjectionPolicy} (h : p.Portable) :
    Printable p.toValue := by
  refine printable_object (show AreFieldNames ["baseEjectionTime", "consecutive5xxErrors",
    "consecutiveGatewayErrors", "interval", "maxEjectionPercent", "minHealthPercent"] by decide) ?_
  simpa using ⟨h.baseEjectionTime, fun n hn => printable_nat (h.serverErrors n hn),
    fun n hn => printable_nat (h.gatewayErrors n hn), h.interval,
    printable_nat h.maxEjectionPercent, printable_nat h.minHealthPercent⟩

theorem DestinationRuleSpec.printable {s : DestinationRuleSpec} (hhost : IsPortable s.host)
    (hsubsets : ∀ x ∈ s.subsets, Printable x.toValue)
    (hbalancer : ∀ b ∈ s.trafficPolicy.loadBalancer, Printable b.toValue)
    (hejection : ∀ p ∈ s.trafficPolicy.outlierDetection, p.Portable) : Printable s.toValue := by
  have hpolicy : Printable s.trafficPolicy.toValue := by
    refine printable_object (show AreFieldNames ["loadBalancer", "outlierDetection"] by decide) ?_
    simpa using ⟨hbalancer, fun p hp => (hejection p hp).printable⟩
  refine printable_fields (show AreFieldNames ["host", "subsets", "trafficPolicy"] by decide) ?_
  simpa using ⟨hhost, hsubsets, hpolicy⟩

end DestinationRules

section EnvoyFilters

theorem LuaFilter.printable_inline {code : String} (h : IsPortable code) :
    Printable (LuaFilter.inline code).toValue := by
  have hconfig : Printable (LuaFilter.inline code).typedConfig.toValue := by
    have htype : Unbroken "type.googleapis.com/envoy.extensions.filters.http.lua.v3.Lua" := by decide
    refine printable_fields (show AreFieldNames ["@type", "inline_code"] by decide) ?_
    simpa using ⟨htype.isPortable, h⟩
  have hname : Unbroken "envoy.filters.http.lua" := by decide
  refine printable_fields (show AreFieldNames ["name", "typed_config"] by decide) ?_
  simpa using ⟨hname.isPortable, hconfig⟩

theorem PatchPlace.printable {p : PatchPlace} (hcontext : IsPortable p.context)
    (hname : IsPortable p.filter.name) (hsub : ∀ s ∈ p.filter.subFilter, IsPortable s) :
    Printable p.toValue := by
  have hfilter : Printable p.filter.toValue := by
    have hrecord (s : String) (hs : IsPortable s) : Printable (.record [("name", .str s)]) :=
      printable_fields (show AreFieldNames ["name"] by decide) (by simpa using hs)
    refine printable_object (show AreFieldNames ["name", "subFilter"] by decide) ?_
    simpa using ⟨hname, fun s hs => hrecord s (hsub s hs)⟩
  have hchain : Printable (.record [("filter", p.filter.toValue)]) :=
    printable_fields (show AreFieldNames ["filter"] by decide) (by simpa using hfilter)
  have hlistener : Printable p.filter.listener :=
    printable_fields (show AreFieldNames ["filterChain"] by decide) (by simpa using hchain)
  refine printable_fields (show AreFieldNames ["context", "listener"] by decide) ?_
  simpa using ⟨hcontext, hlistener⟩

theorem ConfigPatch.printable {p : ConfigPatch} (happly : IsPortable p.applyTo)
    (hplace : Printable p.place.toValue) (hoperation : IsPortable p.patch.operation)
    (hvalue : Printable p.patch.value.toValue) : Printable p.toValue := by
  have hpatch : Printable p.patch.toValue := by
    refine printable_fields (show AreFieldNames ["operation", "value"] by decide) ?_
    simpa using ⟨hoperation, hvalue⟩
  refine printable_fields (show AreFieldNames ["applyTo", "match", "patch"] by decide) ?_
  simpa using ⟨happly, hplace, hpatch⟩

theorem EnvoyFilterSpec.printable {s : EnvoyFilterSpec} (hlabels : AreTexts s.workloadLabels)
    (hpatches : ∀ p ∈ s.configPatches, Printable p.toValue) : Printable s.toValue := by
  have hselector : Printable (.record [("labels", .ofTexts s.workloadLabels)]) :=
    printable_fields (show AreFieldNames ["labels"] by decide) (by simpa using hlabels.printable)
  refine printable_fields (show AreFieldNames ["configPatches", "workloadSelector"] by decide) ?_
  simpa using ⟨hpatches, hselector⟩

end EnvoyFilters

section Objects

structure MeshMeta.Portable (m : MeshMeta) : Prop where
  name : IsPortable m.name
  space : IsPortable m.space
  labels : AreTexts m.labels
  annotations : AreTexts m.annotations
  unowned : m.ownerReferences = []

theorem MeshMeta.Portable.printable {m : MeshMeta} (h : m.Portable) :
    Printable m.toObjectMeta.toValue := by
  refine printable_object (show AreFieldNames ["annotations", "creationTimestamp",
    "deletionGracePeriodSeconds", "deletionTimestamp", "finalizers", "generateName", "generation",
    "labels", "managedFields", "name", "namespace", "ownerReferences", "resourceVersion",
    "selfLink", "uid"] by decide) ?_
  simpa [toObjectMeta, h.unowned, nonempty] using
    ⟨fun _ => h.annotations.printable, fun _ => h.labels.printable, h.name, h.space⟩

theorem Bundle.labels_own (o : Owner) (name space : String) :
    (own o none { name, space }).labels = o.labels := by
  have hsorted : Dict.Sorted o.labels := Dict.sorted_ofList _
  exact Dict.ofList_of_sorted hsorted

theorem Bundle.annotations_own (o : Owner) (name space : String) :
    (own o none { name, space }).annotations = o.annotations := by
  have hsorted : Dict.Sorted o.annotations := by
    rw [Owner.annotations]
    split
    · exact .nil
    · exact List.pairwise_singleton _ _
  exact Dict.ofList_of_sorted hsorted

structure Owner.Portable (o : Owner) : Prop where
  name : IsPortable o.name
  space : IsPortable o.space
  uid : IsPortable o.uid

theorem Owner.Portable.own {o : Owner} (h : o.Portable) {name space : String}
    (hname : IsPortable name) (hspace : IsPortable space) :
    (Bundle.own o none { name, space }).Portable where
  name := hname
  space := hspace
  labels := by
    have hkeys : AreFieldNames [Owner.managerLabel, Owner.nameLabel, Owner.spaceLabel] := by decide
    have hmanager : Unbroken Owner.managerName := by decide
    rw [Bundle.labels_own, Owner.labels_eq]
    refine ⟨List.pairwise_map.1 hkeys.1, ?_⟩
    simp only [List.forall_mem_cons, List.not_mem_nil, false_imp_iff, implies_true, and_true]
    exact ⟨⟨isKey_of_fieldName (hkeys.2 _ (by simp)), hmanager.isPortable⟩,
      ⟨isKey_of_fieldName (hkeys.2 _ (by simp)), h.name⟩,
      ⟨isKey_of_fieldName (hkeys.2 _ (by simp)), h.space⟩⟩
  annotations := by
    rw [Bundle.annotations_own, Owner.annotations]
    split
    · exact ⟨.nil, nofun⟩
    · exact areTexts_singleton
        (isKey_of_fieldName (show isFieldName Owner.uidKey = true by decide)) h.uid
  unowned := rfl

theorem MeshObject.toValue_toObject {σ : Type} (spec : σ → Value) (o : MeshObject σ) :
    (o.toObject spec).toValue = .record [
      ("apiVersion", .str o.apiVersion), ("kind", .str o.kind),
      ("metadata", o.metadata.toObjectMeta.toValue), ("spec", spec o.spec)] := by
  have hmetadata : "metadata" < "spec" ∧ "metadata" ≠ "spec" := by decide
  have hkind : "kind" < "metadata" ∧ "kind" ≠ "metadata" := by decide
  have hversion : "apiVersion" < "kind" ∧ "apiVersion" ≠ "kind" := by decide
  simp [Object.toValue, toObject, Dict.put, hmetadata, hkind, hversion]

theorem MeshObject.isDocument {σ : Type} {spec : σ → Value} {o : MeshObject σ}
    (hversion : IsPortable o.apiVersion) (hkind : IsPortable o.kind) (hmeta : o.metadata.Portable)
    (hspec : Printable (spec o.spec)) : IsDocument (o.toObject spec).toValue := by
  rw [toValue_toObject]
  refine ⟨?_, ⟨_, _, rfl⟩, ?_⟩
  · refine printable_fields
      (show AreFieldNames ["apiVersion", "kind", "metadata", "spec"] by decide) ?_
    simpa using ⟨hversion, hkind, hmeta.printable, hspec⟩
  · have hkey : (scalarText 0 "apiVersion").dropLast = "apiVersion".toList := by decide
    have hsimple : isSimpleKey "apiVersion" = true := by decide
    rw [nodeText, fieldsText_cons (by simp), entryText, if_pos hsimple, hkey]
    exact ⟨'a', _, rfl, by decide, by decide⟩

end Objects

end MeshRollout
