import MeshRollout.Proofs.Mesh.Legible
import MeshRollout.Proofs.Traffic.Printable
import MeshRollout.Proofs.Traffic.Priority

/-!
The objects of a checked service read back from their texts exactly if the names and revisions of
the service and the identity of its route stand for themselves: whatever else is written holds a
letter that stands in no number, or is written in quotes or as a block.
-/
set_option autoImplicit false

namespace MeshRollout
open Yaml Numeral

def isWord (s : String) : Bool :=
  s.toList.any fun c => !isNumberChar c

section Words
variable {s t : String}

theorem isLegible_of_word (h : isWord s = true) : IsLegible s := by
  obtain ⟨c, hc, hn⟩ := List.any_eq_true.1 h
  exact isLegible_of_mem hc (by simpa using hn)

theorem isWord_append : isWord (s ++ t) = (isWord s || isWord t) := by
  rw [isWord, String.toList_append, List.any_append]
  rfl

/-- A word at the end makes the whole text legible. -/
theorem isLegible_append_of_word (ht : isWord t = true) : IsLegible (s ++ t) :=
  isLegible_of_word (by rw [isWord_append, ht, Bool.or_true])

theorem isWord_addressRegex (ip : String) : isWord (addressRegex ip) = true := by
  have hhead : isWord "^(.*,\\s*)?" = true := by decide
  simp [addressRegex, isWord_append, hhead]

theorem Duration.isWord_text (d : Duration) : isWord d.text = true := by
  have hmillis : isWord "ms" = true := by decide
  have hseconds : isWord "s" = true := by decide
  rw [Duration.text]
  split <;> simp [isWord_append, hmillis, hseconds]

end Words

theorem ScriptInput.isWord_source (i : ScriptInput) : isWord i.source = true := by
  have htitle : isWord "-- mesh-agent bucketing script for " = true := by decide
  obtain ⟨title, next, rest, hlines, hword⟩ : ∃ title next rest,
      i.lines = title :: next :: rest ∧ isWord title = true :=
    ⟨_, _, _, rfl, by simp [isWord_append, htitle]⟩
  simp [source, hlines, Text.joinWith, isWord_append, hword]

namespace Service
variable {s : Service} {o : Owner} {edgeSpace : String}

def filledTexts (s : Service) (o : Owner) (edgeSpace : String) : List String :=
  [o.name, o.space, o.uid, s.name, s.space] ++ s.subsetNames ++ s.boundDependencies.map Prod.snd
    ++ (if s.type.sharesRequests then [edgeSpace] else [])

theorem isWord_host (s : Service) : isWord s.host = true := by
  have hend : isWord ".svc.cluster.local" = true := by decide
  simp [host, clusterHost, isWord_append, hend]

theorem isWord_ruleName {rule : HttpRule} (h : rule ∈ s.rules) : isWord rule.name = true := by
  have hdark : isWord "dark-" = true := by decide
  have hcanary : isWord "canary-" = true := by decide
  have hdefault : isWord "default" = true := by decide
  have hdependencies : isWord "dependencies" = true := by decide
  rcases rule_cases h with ⟨i, p, -, rfl⟩ | ⟨r, -, rfl | rfl⟩ | rfl
  · simp [darkRule, isWord_append, hdark]
  · simp [canaryRule, isWord_append, hcanary]
  · exact hdefault
  · exact hdependencies

theorem legible_rules (hsubsets : ∀ x ∈ s.subsetNames, IsLegible x)
    (hbound : ∀ q ∈ s.boundDependencies, IsLegible q.2) :
    ∀ rule ∈ s.rules, Legible rule.toValue := by
  have hdependencies : ∀ p ∈ s.dependencyHeaders, IsLegible p.2.pattern := by
    intro p hp
    obtain ⟨q, hq, rfl⟩ := List.mem_map.1 (Dict.mem_of_mem_ofList hp)
    exact hbound q hq
  intro rule hrule
  refine (HttpRule.legible_iff rule).2 ⟨fun c hc => (HeaderMatch.legible_iff c).2 fun p hp => ?_,
    isLegible_of_word (isWord_ruleName hrule), fun d hd => ?_⟩
  · rcases rule_cases hrule with ⟨i, q, -, rfl⟩ | ⟨r, hr, rfl | rfl⟩ | rfl
    · rw [List.mem_singleton.1 hc] at hp
      rw [List.mem_singleton.1 hp]
      exact isLegible_of_word (isWord_addressRegex q.2)
    · rw [List.mem_singleton.1 hc] at hp
      rcases Dict.mem_put hp with rfl | hp
      · exact hsubsets r (mem_subsetNames.2 (.inl hr))
      · exact hdependencies p hp
    · nomatch hc
    · rw [List.mem_singleton.1 hc] at hp
      exact hdependencies p hp
  · obtain ⟨hhost, hsubset⟩ := s.sendsHome_rules rule hrule d hd
    refine (WeightedDestination.legible_iff d).2 ⟨?_, fun x hx => hsubsets x (hsubset x hx)⟩
    rw [hhost]
    exact isLegible_of_word s.isWord_host

theorem Passed.exists_rule_of_bound (h : s.Passed) {q : String × String}
    (hq : q ∈ s.boundDependencies) :
    ∃ rule ∈ s.rules, ∃ c ∈ rule.conditions, (q.1, StringMatch.exact q.2) ∈ c.headers := by
  have hmem : (q.1, StringMatch.exact q.2) ∈ s.dependencyHeaders :=
    h.mem_dependencyHeaders.2 ⟨q, hq, rfl⟩
  have htagged {rule : HttpRule} (hrule : rule ∈ s.taggedRules) : rule ∈ s.rules := by
    rw [rules_eq]
    exact List.mem_append_right _ (List.mem_append_left _ hrule)
  cases hs : s.type.sharesRequests with
  | true =>
    obtain ⟨stable, canary, hr⟩ := h.revisions_eq hs
    refine ⟨s.canaryRule stable, htagged (by simp [taggedRules, hs, hr]), _,
      List.mem_singleton_self _, ?_⟩
    exact (Dict.mem_put_iff s.dependencyHeaders_ne_selector).2 (.inr hmem)
  | false =>
    have hne : s.dependencyHeaders ≠ [] := List.ne_nil_of_mem hmem
    exact ⟨s.dependencyRule, htagged (by simp [taggedRules, hs, hne]), _,
      List.mem_singleton_self _, hmem⟩

section Specs

theorem legible_virtualService_iff {gateways : List String} (hg : ∀ x ∈ gateways, IsLegible x) :
    Legible (VirtualServiceSpec.mk [s.host] gateways s.rules).toValue ↔
      ∀ rule ∈ s.rules, Legible rule.toValue := by
  rw [VirtualServiceSpec.legible_iff]
  exact ⟨fun h => h.2.2, fun h =>
    ⟨hg, List.forall_mem_singleton.2 (isLegible_of_word s.isWord_host), h⟩⟩

theorem legible_gateway (s : Service) : Legible s.gateway.spec.toValue := by
  have hingress : isWord "ingressgateway" = true := by decide
  have hname : isWord "http" = true := by decide
  have hprotocol : isWord "HTTP" = true := by decide
  simp [GatewaySpec.legible_iff, gateway, MeshObject.new, edgeSelector,
    isLegible_of_word s.isWord_host, isLegible_of_word hingress, isLegible_of_word hname,
    isLegible_of_word hprotocol]

theorem legible_destinationRule_iff (s : Service) :
    Legible s.destinationRule.spec.toValue ↔ ∀ x ∈ s.subsetNames, IsLegible x := by
  have hbalancer : ∀ b ∈ s.trafficPolicy.loadBalancer,
      IsLegible b.consistentHash.httpHeaderName := by
    have hsession : isWord Header.session = true := by decide
    intro b hb
    change b ∈ ite _ _ _ at hb
    split at hb
    · cases hb
      exact isLegible_of_word hsession
    · cases hb
  have hejection : ∀ p ∈ s.trafficPolicy.outlierDetection,
      IsLegible p.baseEjectionTime ∧ ∀ x ∈ p.interval, IsLegible x := by
    have hbase : isWord "30s" = true := by decide
    intro p hp
    change p ∈ ite _ _ _ at hp
    split at hp
    · obtain ⟨o, -, rfl⟩ := Option.map_eq_some_iff.1 hp
      refine ⟨isLegible_of_word hbase, fun x hx => ?_⟩
      obtain ⟨t, -, hx⟩ := Option.bind_eq_some_iff.1 hx
      obtain ⟨d, rfl⟩ := Duration.exists_of_normalize hx
      exact isLegible_of_word d.isWord_text
    · cases hp
  have hsubsets : (∀ x ∈ s.subsets, (∀ p ∈ x.labels, IsLegible p.2) ∧ IsLegible x.name) ↔
      ∀ x ∈ s.subsetNames, IsLegible x := by
    simp [subsets]
  rw [DestinationRuleSpec.legible_iff]
  exact ⟨fun h => hsubsets.1 h.2.1, fun h =>
    ⟨isLegible_of_word s.isWord_host, hsubsets.2 h, hbalancer, hejection⟩⟩

theorem legible_edgeFilter (s : Service) (edgeSpace : String) (i : ScriptInput) :
    Legible (s.edgeFilter edgeSpace i).spec.toValue := by
  have hword (t : String) (ht : isWord t = true := by decide) : IsLegible t := isLegible_of_word ht
  have hingress := hword "ingressgateway"
  have hplace := hword "GATEWAY"
  have hfilter := hword "envoy.filters.network.http_connection_manager"
  have hrouter := hword "envoy.filters.http.router"
  have hkind := hword "HTTP_FILTER"
  have hoperation := hword "INSERT_BEFORE"
  have hname := hword "envoy.filters.http.lua"
  have htype := hword "type.googleapis.com/envoy.extensions.filters.http.lua.v3.Lua"
  simp [EnvoyFilterSpec.legible_iff, edgeFilter, MeshObject.new, edgeSelector, scriptPlace,
    LuaFilter.inline, LuaFilter.toValue, LuaConfig.toValue, hingress, hplace, hfilter, hrouter,
    hkind, hoperation, hname, htype, isLegible_of_word i.isWord_source]

end Specs

theorem forall_filledTexts_iff {P : String → Prop} :
    (∀ t ∈ s.filledTexts o edgeSpace, P t) ↔ (P o.name ∧ P o.space ∧ P o.uid ∧ P s.name ∧ P s.space) ∧
      (∀ x ∈ s.subsetNames, P x) ∧ (∀ q ∈ s.boundDependencies, P q.2) ∧
        (s.type.sharesRequests = true → P edgeSpace) := by
  have hedge : (∀ t ∈ (if s.type.sharesRequests then [edgeSpace] else []), P t) ↔
      (s.type.sharesRequests = true → P edgeSpace) := by
    cases s.type.sharesRequests <;> simp
  simp only [filledTexts, List.forall_mem_append, List.forall_mem_map, hedge, List.forall_mem_cons,
    List.not_mem_nil, false_imp_iff, implies_true, and_true, and_assoc]

theorem isLegible_kind (k : MeshKind)
    (hk : isWord k.apiVersion = true ∧ isWord k.kind = true := by decide) :
    IsLegible k.apiVersion ∧ IsLegible k.kind :=
  ⟨isLegible_of_word hk.1, isLegible_of_word hk.2⟩

theorem Passed.legible_filledTexts (h : s.Passed)
    (hobjects : ∀ b ∈ ((s.bundle edgeSpace).markedFor o none).objects, Legible b.object.toValue) :
    ∀ t ∈ s.filledTexts o edgeSpace, IsLegible t := by
  simp only [Bundle.objects, List.forall_mem_append, List.forall_mem_cons, List.not_mem_nil,
    false_imp_iff, implies_true, and_true] at hobjects
  obtain ⟨⟨hservice, -, -, hdestination⟩, hfilter⟩ := hobjects
  obtain ⟨⟨hname, hspace, huid⟩, hn, hs, hrules⟩ :=
    (MeshObject.legible_own_iff (isLegible_kind VirtualServiceSpec.kind)).1 hservice
  obtain ⟨-, -, -, hsubsets⟩ :=
    (MeshObject.legible_own_iff (isLegible_kind DestinationRuleSpec.kind)).1 hdestination
  refine forall_filledTexts_iff.2 ⟨⟨hname, hspace, huid, hn, hs⟩,
    s.legible_destinationRule_iff.1 hsubsets, fun q hq => ?_, fun hshares => ?_⟩
  · obtain ⟨rule, hrule, c, hc, hmem⟩ := h.exists_rule_of_bound hq
    have hrule := (legible_virtualService_iff (by simp)).1 hrules rule hrule
    exact (HeaderMatch.legible_iff c).1 (((HttpRule.legible_iff rule).1 hrule).1 c hc) _ hmem
  · rw [← scriptInput?_isSome h] at hshares
    obtain ⟨i, hi⟩ := Option.isSome_iff_exists.1 hshares
    have hobject := hfilter _ (Option.mem_toList.2 (by
      simp only [Bundle.markedFor, bundle, hi, Option.map_some]
      rfl))
    exact ((MeshObject.legible_own_iff (isLegible_kind EnvoyFilterSpec.kind)).1 hobject).2.2.1

theorem Passed.legible_objects (h : s.Passed)
    (htexts : ∀ t ∈ s.filledTexts o edgeSpace, IsLegible t) :
    ∀ b ∈ ((s.bundle edgeSpace).markedFor o none).objects, Legible b.object.toValue := by
  obtain ⟨⟨hname, hspace, huid, hn, hs⟩, hsubsets, hbound, hedge⟩ := forall_filledTexts_iff.1 htexts
  have hrules := s.legible_rules hsubsets hbound
  have hgatewayName : IsLegible s.gatewayName := isLegible_append_of_word (by decide)
  have hingressName : IsLegible s.ingressName := isLegible_append_of_word (by decide)
  have hfilterName : IsLegible s.filterName := isLegible_append_of_word (by decide)
  simp only [Bundle.objects, List.forall_mem_append, List.forall_mem_cons, List.not_mem_nil,
    false_imp_iff, implies_true, and_true]
  refine ⟨⟨?_, ?_, ?_, ?_⟩, fun b hb => ?_⟩
  · exact (MeshObject.legible_own_iff (isLegible_kind VirtualServiceSpec.kind)).2
      ⟨⟨hname, hspace, huid⟩, hn, hs, (legible_virtualService_iff (by simp)).2 hrules⟩
  · exact (MeshObject.legible_own_iff (isLegible_kind GatewaySpec.kind)).2
      ⟨⟨hname, hspace, huid⟩, hgatewayName, hs, s.legible_gateway⟩
  · exact (MeshObject.legible_own_iff (isLegible_kind VirtualServiceSpec.kind)).2
      ⟨⟨hname, hspace, huid⟩, hingressName, hs, (legible_virtualService_iff
        (List.forall_mem_singleton.2 hgatewayName)).2 hrules⟩
  · exact (MeshObject.legible_own_iff (isLegible_kind DestinationRuleSpec.kind)).2
      ⟨⟨hname, hspace, huid⟩, hn, hs, s.legible_destinationRule_iff.2 hsubsets⟩
  · obtain ⟨f, hf, rfl⟩ := Option.map_eq_some_iff.1 (Option.mem_toList.1 hb)
    obtain ⟨g, hg, rfl⟩ := Option.map_eq_some_iff.1 hf
    obtain ⟨i, hi, rfl⟩ := Option.map_eq_some_iff.1 hg
    have hshares : s.type.sharesRequests = true := by
      rw [← scriptInput?_isSome h, hi]
      rfl
    exact (MeshObject.legible_own_iff (isLegible_kind EnvoyFilterSpec.kind)).2
      ⟨⟨hname, hspace, huid⟩, hfilterName, hedge hshares, s.legible_edgeFilter edgeSpace i⟩

/-- The objects of a checked service show nothing that a reader could mistake, apart from what is
filled in. -/
theorem Passed.legible_objects_iff (h : s.Passed) :
    (∀ b ∈ ((s.bundle edgeSpace).markedFor o none).objects, Legible b.object.toValue) ↔
      ∀ t ∈ s.filledTexts o edgeSpace, IsLegible t :=
  ⟨h.legible_filledTexts, h.legible_objects⟩

end Service

end MeshRollout
