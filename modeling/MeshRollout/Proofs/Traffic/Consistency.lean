import Mathlib.Data.List.Nodup
import MeshRollout.Proofs.Traffic.Subsets
import MeshRollout.Proofs.Traffic.Synthesis

/-!
The objects of one bundle fit together: they are about one host, what one of them refers to is
defined by another one, and nothing in them stands twice under one name.
-/
set_option autoImplicit false

namespace MeshRollout

theorem nodup_foldl_once {l seen : List String} (h : seen.Nodup) :
    (l.foldl (fun seen r => if seen.contains r then seen else seen ++ [r]) seen).Nodup := by
  induction l generalizing seen with
  | nil => exact h
  | cons r l ih =>
    refine ih ?_
    dsimp only
    split
    · exact h
    · rename_i hr
      have hr' : r ∉ seen := by simpa using hr
      exact h.append (List.nodup_singleton r) (List.disjoint_singleton.2 hr')

/-- Behind the last hyphen of a numbered name stands its number, whatever stands before it. -/
theorem number_of_numbered {a b : String} {i j : Nat}
    (h : a ++ "-" ++ toString i = b ++ "-" ++ toString j) : i = j := by
  have hhyphen : "-".toList = ['-'] := by decide
  have hl := congrArg (fun t : String => t.toList.reverse) h
  simp only [String.toList_append, List.reverse_append, hhyphen, List.reverse_singleton,
    List.singleton_append] at hl
  have hnot (n : Nat) : '-' ∉ (toString n).toList.reverse := fun hmem =>
    absurd (isDigit_of_mem_number (List.mem_reverse.1 hmem)) (by decide)
  have hdigits := (append_mark_inj (hnot i) (hnot j) hl).1
  exact number_inj (String.toList_injective (List.reverse_inj.1 hdigits))

namespace Service

variable {s : Service} {x : String}

theorem subsetNames_nodup (s : Service) : s.subsetNames.Nodup :=
  nodup_foldl_once .nil

theorem mem_revisionsKeptDark_iff :
    x ∈ s.revisionsKeptDark ↔ ∃ r ∈ s.darkReleases, r.revision = x := by
  rw [revisionsKeptDark, mem_foldl_dark]
  simp

theorem Passed.revisions_nodup (h : s.Passed) (hs : s.type.sharesRequests = true) :
    s.revisions.Nodup := by
  obtain ⟨stable, canary, hr⟩ := h.revisions_eq hs
  have hne : stable ≠ canary := by
    have hd := h.distinct
    rw [hr, equalRevisions?] at hd
    simpa using hd
  simp [hr, hne]

section RuleNames

def taggedRules (s : Service) : List HttpRule :=
  if s.type.sharesRequests then s.revisions.map s.canaryRule
  else if s.dependencyHeaders.isEmpty then [] else [s.dependencyRule]

def lastRules (s : Service) : List HttpRule :=
  if s.type = .stickyCanary then [] else (s.fallbackRevision.map s.defaultRule).toList

theorem rules_eq (s : Service) :
    s.rules = darkRulesFrom s.host 0 s.darkPairs ++ (s.taggedRules ++ s.lastRules) :=
  List.append_assoc _ _ _

theorem name_of_darkRulesFrom {host : String} {i : Nat} {ps : List (String × String)}
    {rule : HttpRule} (h : rule ∈ darkRulesFrom host i ps) :
    ∃ revision j, i ≤ j ∧ rule.name = "dark-" ++ revision ++ "-" ++ toString j := by
  induction ps generalizing i with
  | nil => nomatch h
  | cons p ps ih =>
    rcases List.mem_cons.1 h with rfl | h
    · exact ⟨p.1, i, Nat.le_refl i, rfl⟩
    · obtain ⟨revision, j, hj, hname⟩ := ih h
      exact ⟨revision, j, Nat.le_of_succ_le hj, hname⟩

theorem name_of_taggedRules {rule : HttpRule} (h : rule ∈ s.taggedRules) :
    (∃ revision, rule.name = "canary-" ++ revision) ∨ rule.name = "dependencies" := by
  rw [taggedRules] at h
  split at h
  · obtain ⟨revision, -, rfl⟩ := List.mem_map.1 h
    exact .inl ⟨revision, rfl⟩
  · split at h
    · nomatch h
    · rw [List.mem_singleton.1 h]
      exact .inr rfl

theorem name_of_lastRules {rule : HttpRule} (h : rule ∈ s.lastRules) : rule.name = "default" := by
  rw [lastRules] at h
  split at h
  · nomatch h
  · obtain ⟨revision, -, rfl⟩ := Option.map_eq_some_iff.1 (Option.mem_toList.1 h)
    rfl

/-- The number at the end tells dark rules apart, also where revisions have hyphens and digits. -/
theorem darkNames_nodup (host : String) (i : Nat) (ps : List (String × String)) :
    ((darkRulesFrom host i ps).map HttpRule.name).Nodup := by
  induction ps generalizing i with
  | nil => exact .nil
  | cons p ps ih =>
    refine List.nodup_cons.2 ⟨fun hmem => ?_, ih (i + 1)⟩
    obtain ⟨rule, hrule, hname⟩ := List.mem_map.1 hmem
    obtain ⟨revision, j, hj, hdark⟩ := name_of_darkRulesFrom hrule
    have hij : j = i := number_of_numbered (hdark.symm.trans hname)
    omega

theorem taggedNames_nodup (h : s.Passed) : (s.taggedRules.map HttpRule.name).Nodup := by
  rw [taggedRules]
  split
  · rename_i hs
    rw [List.map_map]
    refine (h.revisions_nodup hs).map_on fun a _ b _ hab => ?_
    have hl := congrArg String.toList hab
    simp only [Function.comp_apply, canaryRule, String.toList_append] at hl
    exact String.toList_injective (List.append_cancel_left hl)
  · split
    · exact .nil
    · exact List.nodup_singleton _

theorem lastNames_nodup (s : Service) : (s.lastRules.map HttpRule.name).Nodup := by
  rw [lastRules]
  split
  · exact .nil
  · cases s.fallbackRevision with
    | none => exact .nil
    | some revision => exact List.nodup_singleton _

theorem ruleNames_nodup (h : s.Passed) : (s.rules.map HttpRule.name).Nodup := by
  rw [rules_eq, List.map_append, List.map_append]
  refine (darkNames_nodup _ _ _).append
    ((taggedNames_nodup h).append (lastNames_nodup s) ?_) ?_
  · intro name htagged hlast
    obtain ⟨rule, hrule, rfl⟩ := List.mem_map.1 htagged
    obtain ⟨rule', hrule', hname⟩ := List.mem_map.1 hlast
    rw [name_of_lastRules hrule'] at hname
    obtain ⟨revision, hcanary⟩ | hdependencies := name_of_taggedRules hrule
    · have hl := congrArg String.toList (hname.trans hcanary)
      simp [String.toList_append] at hl
    · nomatch hname.trans hdependencies
  · intro name hdark hmem
    obtain ⟨rule, hrule, rfl⟩ := List.mem_map.1 hdark
    obtain ⟨revision, j, -, hname⟩ := name_of_darkRulesFrom hrule
    rw [← List.map_append] at hmem
    obtain ⟨rule', hrule', hname'⟩ := List.mem_map.1 hmem
    rw [hname] at hname'
    -- the second letter tells dark rules from the others that begin with a d
    rcases List.mem_append.1 hrule' with hrule' | hrule'
    · obtain ⟨revision', hcanary⟩ | hdependencies := name_of_taggedRules hrule'
      · have hl := congrArg String.toList (hname'.symm.trans hcanary)
        simp [String.toList_append] at hl
      · have hl := congrArg String.toList (hname'.symm.trans hdependencies)
        simp [String.toList_append] at hl
    · have hl := congrArg String.toList (hname'.symm.trans (name_of_lastRules hrule'))
      simp [String.toList_append] at hl

end RuleNames

end Service

/-- How the objects of the bundle of a service fit together. -/
structure Bundle.Consistent (s : Service) (b : Bundle) : Prop where
  /-- What a rule sends requests to is defined, inside the mesh and at the edge. -/
  defined : ∀ v ∈ [b.virtualService, b.ingressService], ∀ rule ∈ v.spec.http, ∀ d ∈ rule.route,
    ∀ x, d.destination.subset = some x → x ∈ b.destinationRule.spec.subsets.map Subset.name
  distinctSubsets : (b.destinationRule.spec.subsets.map Subset.name).Nodup
  subsets : ∀ x, x ∈ b.destinationRule.spec.subsets.map Subset.name ↔
    x ∈ s.revisions ∨ ∃ r ∈ s.darkReleases, r.revision = x
  selects : ∀ x ∈ b.destinationRule.spec.subsets, x.labels = [("revision", x.name)]
  host : b.destinationRule.spec.host = clusterHost s.name s.space
  destinations : ∀ v ∈ [b.virtualService, b.ingressService], ∀ rule ∈ v.spec.http,
    ∀ d ∈ rule.route, d.destination.host = b.destinationRule.spec.host
  hosts : ∀ v ∈ [b.virtualService, b.ingressService], v.spec.hosts = [b.destinationRule.spec.host]
  servers : b.gateway.spec.servers.map GatewayServer.hosts = [[b.destinationRule.spec.host]]
  bound : b.ingressService.spec.gateways = [b.gateway.metadata.name] ∧
    b.ingressService.metadata.space = b.gateway.metadata.space
  distinctRules : ∀ v ∈ [b.virtualService, b.ingressService], (v.spec.http.map HttpRule.name).Nodup
  sameRules : b.ingressService.spec.http = b.virtualService.spec.http
  filter : b.edgeFilter.isSome = true ↔ s.type = .canary ∨ s.type = .stickyCanary

namespace Service

/-- Whatever passes the checks is routed, and the objects of its bundle fit together. -/
theorem routing_consistent {s : Service} (h : s.validate = .ok ()) (edgeSpace : String) :
    ∃ b, s.routing edgeSpace = .ok b ∧ b.Consistent s := by
  have hpassed := passed_of_validate h
  have hnames : (s.bundle edgeSpace).destinationRule.spec.subsets.map Subset.name
      = s.subsetNames := by
    simp [bundle, destinationRule, MeshObject.new, subsets, Function.comp_def]
  have hrules (v : VirtualService)
      (hv : v ∈ [(s.bundle edgeSpace).virtualService, (s.bundle edgeSpace).ingressService]) :
      v.spec.http = s.rules ∧ v.spec.hosts = [s.host] := by
    rcases List.mem_cons.1 hv with rfl | hv
    · exact ⟨rfl, rfl⟩
    · rw [List.mem_singleton.1 hv]
      exact ⟨rfl, rfl⟩
  refine ⟨s.bundle edgeSpace, routing_eq_ok h edgeSpace, ?_⟩
  exact {
    defined := fun v hv rule hrule d hd x hx => by
      rw [hnames]
      exact (s.sendsHome_rules rule ((hrules v hv).1 ▸ hrule) d hd).2 x hx
    distinctSubsets := hnames ▸ s.subsetNames_nodup
    subsets := fun x => by rw [hnames, mem_subsetNames, mem_revisionsKeptDark_iff]
    selects := fun x hx => by
      obtain ⟨r, -, rfl⟩ := List.mem_map.1 hx
      rfl
    host := rfl
    destinations := fun v hv rule hrule d hd =>
      (s.sendsHome_rules rule ((hrules v hv).1 ▸ hrule) d hd).1
    hosts := fun v hv => (hrules v hv).2
    servers := rfl
    bound := ⟨rfl, rfl⟩
    distinctRules := fun v hv => (hrules v hv).1 ▸ ruleNames_nodup hpassed
    sameRules := rfl
    filter := by
      rw [← Strategy.sharesRequests_iff, ← scriptInput?_isSome hpassed]
      simp [bundle] }

/-- A service whose revisions end in hyphens and digits, as the names of its dark rules do. -/
def numberedCheckout : Service where
  name := "checkout"
  space := "shop"
  type := .canary
  revisions := ["r", "r-0"]
  ratio := some 30
  darkReleases := [⟨"r-0", ["10.0.0.1"]⟩, ⟨"r", ["10.0.0.2", "10.0.0.3"]⟩, ⟨"r-0", ["10.0.0.4"]⟩]

theorem numberedCheckout_consistent :
    numberedCheckout.validate = .ok () ∧
      numberedCheckout.rules.map HttpRule.name
        = ["dark-r-0-0", "dark-r-1", "dark-r-2", "dark-r-0-3", "canary-r", "canary-r-0",
          "default"] ∧
      ∃ b, numberedCheckout.routing "istio-system" = .ok b ∧ b.Consistent numberedCheckout :=
  have h : numberedCheckout.validate = .ok () := by decide +kernel
  ⟨h, by decide +kernel, routing_consistent h "istio-system"⟩

end Service

end MeshRollout
