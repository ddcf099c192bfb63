import MeshRollout.Proofs.Dict
import MeshRollout.Proofs.Service.Valid
import MeshRollout.Traffic.Bundle

/-!
Names composed of labels. The point in such a name ends the label in front of it, so the name tells
its labels. As no header of a dependency is that of another one, nor one that requests carry for
something else, the conditions on headers hold every bound dependency.
-/
set_option autoImplicit false

namespace MeshRollout

def Header.reserved : List String :=
  [selector, session, credential, forwardedFor]

namespace Dependency

variable {d e : Dependency}

theorem header_toList (d : Dependency) :
    d.header.toList = 'x' :: ("-dep-".toList ++ (d.space ++ "." ++ d.name).toList) := by
  simp [header, Header.dependencyStem, String.toList_append]

theorem header_not_reserved (d : Dependency) : d.header ∉ Header.reserved := by
  have hstem : ∀ k ∈ Header.reserved, ¬ ('x' :: "-dep-".toList) <+: k.toList := by decide
  have hheader : ('x' :: "-dep-".toList) <+: d.header.toList := by
    rw [header_toList]
    exact List.prefix_append _ _
  exact fun h => hstem _ h hheader

theorem header_injective (hd : labelFault? d.space = none) (he : labelFault? e.space = none)
    (h : d.header = e.header) : d.space = e.space ∧ d.name = e.name := by
  simp only [header, String.append_assoc] at h
  exact label_point_inj hd he ((String.append_right_inj _).1 h)

end Dependency

def HttpRule.Asks (rule : HttpRule) (headers : List (String × StringMatch)) : Prop :=
  ∃ d : Dict StringMatch, rule.conditions = [⟨d⟩] ∧ d.Perm headers

namespace Service

variable {s t : Service}

theorem filterName_injective (hs : labelFault? s.space = none) (ht : labelFault? t.space = none)
    (h : s.filterName = t.filterName) : s.space = t.space ∧ s.name = t.name := by
  simp only [filterName, String.append_assoc] at h
  obtain ⟨hspace, hrest⟩ := label_point_inj hs ht h
  exact ⟨hspace, (String.append_left_inj _).1 hrest⟩

theorem host_injective (hs : labelFault? s.name = none) (ht : labelFault? t.name = none)
    (h : s.host = t.host) : s.space = t.space ∧ s.name = t.name := by
  simp only [host, clusterHost, String.append_assoc] at h
  obtain ⟨hname, hrest⟩ := label_point_inj hs ht h
  exact ⟨(String.append_left_inj _).1 hrest, hname⟩

theorem boundDependencies_ne {k : String} (hk : k ∈ Header.reserved) :
    ∀ p ∈ s.boundDependencies, p.1 ≠ k := by
  rintro p hp rfl
  obtain ⟨d, -, hd⟩ := List.mem_filterMap.1 hp
  obtain ⟨r, -, rfl⟩ := Option.map_eq_some_iff.1 hd
  exact d.header_not_reserved hk

/-- No two dependencies share a header, so binding one never hides that another is bound. -/
theorem Passed.boundDependencies_nodup (h : s.Passed) :
    (s.boundDependencies.map Prod.fst).Nodup := by
  have hspace {d : Dependency} (hd : d ∈ s.dependencies) : labelFault? d.space = none :=
    (dependency_of_passed h.dependencies hd).2.1
  have hdifferent := List.pairwise_map.1 (dependencies_nodup h.dependencies).1
  refine List.pairwise_map.2 (List.pairwise_filterMap.2 (hdifferent.imp_of_mem ?_))
  intro d e hd he hne p hp q hq hheader
  obtain ⟨_, -, rfl⟩ := Option.map_eq_some_iff.1 hp
  obtain ⟨_, -, rfl⟩ := Option.map_eq_some_iff.1 hq
  obtain ⟨hs, hn⟩ := Dependency.header_injective (hspace hd) (hspace he) hheader
  exact hne (by rw [hs, hn])

def bindings (s : Service) : List (String × StringMatch) :=
  s.dependencies.filterMap fun d => d.boundRevision.map fun r => (d.header, .exact r)

theorem bindings_eq (s : Service) :
    s.bindings = s.boundDependencies.map fun q => (q.1, .exact q.2) := by
  simp [bindings, boundDependencies, List.map_filterMap, Function.comp_def]

theorem Passed.dependencyHeaders_perm (h : s.Passed) : s.dependencyHeaders.Perm s.bindings := by
  rw [bindings_eq]
  refine Dict.ofList_perm ?_
  rw [List.map_map]
  exact h.boundDependencies_nodup

theorem dependencyHeaders_ne_selector (s : Service) :
    ∀ p ∈ s.dependencyHeaders, p.1 ≠ Header.selector := by
  intro p hp
  obtain ⟨q, hq, rfl⟩ := List.mem_map.1 (Dict.mem_of_mem_ofList hp)
  exact boundDependencies_ne (by decide) q hq

/-- The rules for revisions ask for every bound dependency besides the revision. -/
theorem Passed.canaryRule_asks (h : s.Passed) (revision : String) :
    (s.canaryRule revision).Asks ((Header.selector, .exact revision) :: s.bindings) := by
  have hput := Dict.put_perm s.dependencyHeaders_ne_selector (.exact revision)
  exact ⟨_, rfl, hput.trans (h.dependencyHeaders_perm.cons _)⟩

/-- Dependencies with one header are one, services with one filter or one host are one, and no
header of a dependency is one that requests carry for something else. So the rules of a checked
service ask for every bound dependency, and the condition on the revision replaces none of them. -/
theorem composed_names_tell_labels :
    (∀ d e : Dependency, labelFault? d.space = none → labelFault? e.space = none →
        d.header = e.header → d.space = e.space ∧ d.name = e.name) ∧
      (∀ s t : Service, labelFault? s.space = none → labelFault? t.space = none →
        s.filterName = t.filterName → s.space = t.space ∧ s.name = t.name) ∧
      (∀ s t : Service, labelFault? s.name = none → labelFault? t.name = none →
        s.host = t.host → s.space = t.space ∧ s.name = t.name) ∧
      (∀ d : Dependency, d.header ∉ Header.reserved) ∧
      ∀ s : Service, s.validate = .ok () →
        s.dependencyHeaders.Perm s.bindings ∧
          ∀ revision, (s.canaryRule revision).Asks
            ((Header.selector, .exact revision) :: s.bindings) := by
  refine ⟨fun d e => Dependency.header_injective, fun s t => filterName_injective,
    fun s t => host_injective, Dependency.header_not_reserved, fun s hv => ?_⟩
  have h := passed_of_validate hv
  exact ⟨h.dependencyHeaders_perm, h.canaryRule_asks⟩

def boundCart : Dependency :=
  ⟨"b-c", "a", ["p7"]⟩

def freeCart : Dependency :=
  { boundCart with revisions := [] }

/-- Without the point, the names of its bound dependencies would be the same. -/
def hyphenCheckout : Service where
  name := "check-out"
  space := "shop"
  type := .stickyCanary
  revisions := ["r1", "r2"]
  ratio := some 10
  dependencies := [boundCart, ⟨"c", "a-b", ["q8", "q9"]⟩, ⟨"b", "a", []⟩]

def raisedCheckout : Service :=
  { hyphenCheckout with ratio := some 90 }

/-- A dependency that is set free keeps its header, a service at another ratio keeps its names. -/
theorem hyphenCheckout_names_tell_labels :
    (labelFault? "a" = none ∧ boundCart.header = freeCart.header ∧
        boundCart.space = freeCart.space ∧ boundCart.name = freeCart.name) ∧
      (labelFault? "shop" = none ∧ hyphenCheckout.filterName = raisedCheckout.filterName ∧
        hyphenCheckout.space = raisedCheckout.space ∧
        hyphenCheckout.name = raisedCheckout.name) ∧
      (labelFault? "check-out" = none ∧ hyphenCheckout.host = raisedCheckout.host ∧
        hyphenCheckout.space = raisedCheckout.space ∧
        hyphenCheckout.name = raisedCheckout.name) ∧
      boundCart.header ∉ Header.reserved ∧ hyphenCheckout.validate = .ok () ∧
      (hyphenCheckout.canaryRule "r2").Asks [(Header.selector, .exact "r2"),
        ("x-dep-a.b-c", .exact "p7"), ("x-dep-a-b.c", .exact "q8")] := by
  obtain ⟨hheader, hfilter, hhost, hreserved, hconditions⟩ := composed_names_tell_labels
  have ha : labelFault? "a" = none := by decide
  have hspace : labelFault? "shop" = none := by decide
  have hname : labelFault? "check-out" = none := by decide
  have hv : hyphenCheckout.validate = .ok () := rfl
  refine ⟨⟨ha, rfl, hheader boundCart freeCart ha ha rfl⟩,
    ⟨hspace, rfl, hfilter hyphenCheckout raisedCheckout hspace hspace rfl⟩,
    ⟨hname, rfl, hhost hyphenCheckout raisedCheckout hname hname rfl⟩, hreserved boundCart, hv, ?_⟩
  exact (hconditions hyphenCheckout hv).2 "r2"

end Service

end MeshRollout
