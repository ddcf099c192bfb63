import MeshRollout.Proofs.Cluster.StoreView
import MeshRollout.Proofs.Traffic.Naming

/-!
Which subsets the rules of a service name, and which ones its destination rule defines. Both are
read from the objects as they are written.
-/
set_option autoImplicit false

namespace MeshRollout

namespace Value

def itemsOf (k : String) (v : Value) : List Value :=
  match v.field k with
  | some (.list items) => items
  | _ => []

def textOf (k : String) (v : Value) : Option String :=
  (v.field k).bind Value.text?

end Value

def subsetOf (host : String) (target : Value) : Option String := do
  let d ← target.field "destination"
  if d.textOf "host" = some host then d.textOf "subset" else none

namespace Object

def specOrNull (o : Object) : Value :=
  o.spec.getD .null

def namedSubsets (host : String) (o : Object) : List String :=
  (o.specOrNull.itemsOf "http").flatMap fun rule =>
    (rule.itemsOf "route").filterMap (subsetOf host)

def definedSubsets (host : String) (o : Object) : List String :=
  if o.specOrNull.textOf "host" = some host then
    (o.specOrNull.itemsOf "subsets").filterMap (Value.textOf "name")
  else []

end Object

theorem subsetOf_toValue (host : String) (d : WeightedDestination) :
    subsetOf host d.toValue = if d.destination.host = host then d.destination.subset else none := by
  obtain ⟨⟨h, subset⟩, weight⟩ := d
  cases subset with
  | none =>
    simp [subsetOf, WeightedDestination.toValue, Destination.toValue, Value.object, Value.field,
      Dict.get, Value.textOf, Value.text?]
  | some x =>
    simp [subsetOf, WeightedDestination.toValue, Destination.toValue, Value.object, Value.field,
      Dict.get, Value.textOf, Value.text?]

theorem HttpRule.itemsOf_route (r : HttpRule) :
    r.toValue.itemsOf "route" = r.route.map WeightedDestination.toValue := by
  cases hm : MeshMeta.unlessEmpty (fun l => Value.list (l.map HeaderMatch.toValue)) r.conditions <;>
    cases hn : r.name.isEmpty <;>
      simp [HttpRule.toValue, hm, hn, Value.object, Value.itemsOf, Value.field, Dict.get]

theorem VirtualServiceSpec.itemsOf_http (s : VirtualServiceSpec) :
    s.toValue.itemsOf "http" = s.http.map HttpRule.toValue := by
  cases hg : MeshMeta.unlessEmpty Value.strings s.gateways <;>
    simp [VirtualServiceSpec.toValue, hg, Value.object, Value.itemsOf, Value.field, Dict.get]

theorem namedSubsets_toObject (host : String) (v : VirtualService) :
    (v.toObject VirtualServiceSpec.toValue).namedSubsets host =
      v.spec.http.flatMap fun rule => rule.route.filterMap fun d =>
        if d.destination.host = host then d.destination.subset else none := by
  have hspec : (v.toObject VirtualServiceSpec.toValue).specOrNull = v.spec.toValue := rfl
  have hsubset : subsetOf host ∘ WeightedDestination.toValue = fun d =>
      if d.destination.host = host then d.destination.subset else none :=
    funext (subsetOf_toValue host)
  rw [Object.namedSubsets, hspec, VirtualServiceSpec.itemsOf_http, List.flatMap_map]
  simp only [HttpRule.itemsOf_route, List.filterMap_map, hsubset]

theorem mem_namedSubsets {host x : String} {v : VirtualService} :
    x ∈ (v.toObject VirtualServiceSpec.toValue).namedSubsets host ↔
      ∃ rule ∈ v.spec.http, ∃ d ∈ rule.route,
        d.destination.host = host ∧ d.destination.subset = some x := by
  simp [namedSubsets_toObject]

theorem definedSubsets_toObject (host : String) (d : DestinationRule) :
    (d.toObject DestinationRuleSpec.toValue).definedSubsets host =
      if d.spec.host = host then d.spec.subsets.map Subset.name else [] := by
  have hspec : (d.toObject DestinationRuleSpec.toValue).specOrNull = d.spec.toValue := rfl
  have hhost : d.spec.toValue.textOf "host" = some d.spec.host := rfl
  have hitems : d.spec.toValue.itemsOf "subsets" = d.spec.subsets.map Subset.toValue := rfl
  have hname : Value.textOf "name" ∘ Subset.toValue = some ∘ Subset.name := rfl
  rw [Object.definedSubsets, hspec, hhost, hitems, List.filterMap_map, hname,
    List.filterMap_eq_map]
  simp only [Option.some.injEq]

namespace Object

variable {live o : Object}

theorem Carries.namedSubsets (h : live.Carries o) (host : String) :
    live.namedSubsets host = o.namedSubsets host := by
  rw [Object.namedSubsets, specOrNull, h.spec, Object.namedSubsets, specOrNull]

theorem Carries.definedSubsets (h : live.Carries o) (host : String) :
    live.definedSubsets host = o.definedSubsets host := by
  rw [Object.definedSubsets, specOrNull, h.spec, Object.definedSubsets, specOrNull]

end Object

theorem mem_foldl_once {l seen : List String} {x : String} :
    x ∈ l.foldl (fun seen r => if seen.contains r then seen else seen ++ [r]) seen ↔
      x ∈ seen ∨ x ∈ l := by
  induction l generalizing seen with
  | nil => simp
  | cons r l ih =>
    rw [List.foldl_cons, ih]
    by_cases hr : r ∈ seen
    · rw [if_pos (List.contains_iff_mem.2 hr), List.mem_cons]
      constructor
      · rintro (h | h)
        · exact .inl h
        · exact .inr (.inr h)
      · rintro (h | rfl | h)
        · exact .inl h
        · exact .inl hr
        · exact .inr h
    · rw [if_neg (by simpa using hr), List.mem_append, List.mem_singleton, List.mem_cons, or_assoc]

namespace Service

variable {s t : Service} {rule : HttpRule} {x : String}

theorem mem_subsetNames : x ∈ s.subsetNames ↔ x ∈ s.revisions ∨ x ∈ s.revisionsKeptDark := by
  rw [subsetNames, mem_foldl_once, List.mem_append]
  simp

/-- A rule sends requests to its own host, and if to a subset, to one that is defined. -/
def SendsHome (s : Service) (rule : HttpRule) : Prop :=
  ∀ d ∈ rule.route, d.destination.host = s.host ∧
    ∀ x, d.destination.subset = some x → x ∈ s.subsetNames

theorem sendsHome_allTo {subset : Option String} {name : String} {conditions : List HeaderMatch}
    (h : ∀ x, subset = some x → x ∈ s.subsetNames) :
    s.SendsHome ⟨name, conditions, allTo s.host subset⟩ := by
  intro d hd
  rw [List.mem_singleton.1 hd]
  exact ⟨rfl, h⟩

theorem mem_foldl_dark {l : List DarkRelease} {seen : List String} :
    x ∈ l.foldl
        (fun seen r => if seen.contains r.revision then seen else seen ++ [r.revision]) seen ↔
      x ∈ seen ∨ ∃ r ∈ l, r.revision = x := by
  rw [← List.foldl_map (f := DarkRelease.revision)
    (g := fun (seen : List String) r => if seen.contains r then seen else seen ++ [r]),
    mem_foldl_once, List.mem_map]

theorem mem_revisionsKeptDark {p : String × String} (hp : p ∈ s.darkPairs) :
    p.1 ∈ s.revisionsKeptDark := by
  obtain ⟨r, hr, hip⟩ := List.mem_flatMap.1 hp
  obtain ⟨ip, -, rfl⟩ := List.mem_map.1 hip
  exact mem_foldl_dark.2 (.inr ⟨r, hr, rfl⟩)

theorem sendsHome_darkRulesFrom {i : Nat} {ps : List (String × String)}
    (hps : ∀ p ∈ ps, p.1 ∈ s.subsetNames) :
    ∀ rule ∈ darkRulesFrom s.host i ps, s.SendsHome rule := by
  induction ps generalizing i with
  | nil => nofun
  | cons p ps ih =>
    obtain ⟨hp, hps⟩ := List.forall_mem_cons.1 hps
    intro rule hrule
    rcases List.mem_cons.1 hrule with rfl | hrule
    · exact sendsHome_allTo fun x hx => Option.some.inj hx ▸ hp
    · exact ih hps rule hrule

theorem mem_revisions_of_fallback {r : String} (h : s.fallbackRevision = some r) :
    r ∈ s.revisions := by
  rw [fallbackRevision, Option.or_eq_some_iff] at h
  rcases h with h | ⟨-, h⟩
  · exact List.mem_of_find?_eq_some h
  · exact List.mem_of_head? h

theorem sendsHome_rules (s : Service) : ∀ rule ∈ s.rules, s.SendsHome rule := by
  intro rule hrule
  have of_revision {r : String} (hr : r ∈ s.revisions) (x : String) (hx : some r = some x) :
      x ∈ s.subsetNames :=
    mem_subsetNames.2 (.inl (Option.some.inj hx ▸ hr))
  rw [rules, List.mem_append, List.mem_append] at hrule
  rcases hrule with (hdark | hshare) | hdefault
  · refine sendsHome_darkRulesFrom (fun p hp => ?_) rule hdark
    exact mem_subsetNames.2 (.inr (mem_revisionsKeptDark hp))
  · split at hshare
    · obtain ⟨r, hr, rfl⟩ := List.mem_map.1 hshare
      exact sendsHome_allTo (of_revision hr)
    · split at hshare
      · nomatch hshare
      · rw [List.mem_singleton.1 hshare]
        exact sendsHome_allTo nofun
  · split at hdefault
    · nomatch hdefault
    · obtain ⟨r, hr, rfl⟩ := Option.map_eq_some_iff.1 (Option.mem_toList.1 hdefault)
      exact sendsHome_allTo (of_revision (mem_revisions_of_fallback hr))

theorem mem_subsetNames_of_named {v : VirtualService} (hv : v.spec.http = s.rules) {host : String}
    (hx : x ∈ (v.toObject VirtualServiceSpec.toValue).namedSubsets host) :
    host = s.host ∧ x ∈ s.subsetNames := by
  obtain ⟨rule, hrule, d, hd, hhost, hsub⟩ := mem_namedSubsets.1 hx
  obtain ⟨hhome, hnames⟩ := s.sendsHome_rules rule (hv ▸ hrule) d hd
  exact ⟨hhost.symm.trans hhome, hnames x hsub⟩

theorem definedSubsets_destinationRule {d : DestinationRule}
    (hd : d.spec = s.destinationRule.spec) :
    (d.toObject DestinationRuleSpec.toValue).definedSubsets s.host = s.subsetNames := by
  have hnames : s.subsets.map Subset.name = s.subsetNames := by
    simp [subsets, Function.comp_def]
  rw [definedSubsets_toObject, hd]
  exact (if_pos rfl).trans hnames

end Service

end MeshRollout
