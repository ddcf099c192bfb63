import MeshRollout.Proofs.Rollout.Identities
import MeshRollout.Proofs.Rollout.Settled
import MeshRollout.Proofs.Traffic.Subsets

/-!
Live rules that name a subset which is not defined. Writing the objects of one service goes through
stages in which only its own new subsets can dangle, and it ends in a stage in which nothing does.
-/
set_option autoImplicit false

namespace MeshRollout

open StoreKey Rehearsal Sweep Reconciliation

namespace Service

def ruleKeys (s : Service) : List StoreKey :=
  [.of VirtualServiceSpec.kind.resource s.space s.name,
    .of VirtualServiceSpec.kind.resource s.space s.ingressName]

def subsetKey (s : Service) : StoreKey :=
  .of DestinationRuleSpec.kind.resource s.space s.name

def liveNames (s : Service) (store : MemoryStore) : List String :=
  s.ruleKeys.flatMap fun k => ((store.find k).map (Object.namedSubsets s.host)).getD []

def liveSubsets (s : Service) (store : MemoryStore) : List String :=
  ((store.find s.subsetKey).map (Object.definedSubsets s.host)).getD []

/-- The live rules of a service name a subset that its live destination rule does not define. -/
def Dangling (s : Service) (store : MemoryStore) (x : String) : Prop :=
  x ∈ s.liveNames store ∧ x ∉ s.liveSubsets store

instance (s : Service) (store : MemoryStore) (x : String) : Decidable (s.Dangling store x) :=
  inferInstanceAs (Decidable (_ ∧ _))

variable {s t : Service} {store store' : MemoryStore} {x : String}

theorem mem_liveNames :
    x ∈ s.liveNames store ↔
      ∃ k ∈ s.ruleKeys, ∃ live, store.find k = some live ∧ x ∈ live.namedSubsets s.host := by
  refine List.mem_flatMap.trans (exists_congr fun k => and_congr_right fun _ => ?_)
  cases store.find k <;> simp

theorem Dangling.of_fewer_rules
    (hrules : ∀ k ∈ s.ruleKeys, store'.find k = store.find k ∨ store'.find k = none)
    (hsubsets : store'.find s.subsetKey = store.find s.subsetKey) (h : s.Dangling store' x) :
    s.Dangling store x := by
  obtain ⟨hnamed, hundefined⟩ := h
  obtain ⟨k, hk, live, hl, hx⟩ := mem_liveNames.1 hnamed
  refine ⟨mem_liveNames.2 ⟨k, hk, live, ?_, hx⟩, ?_⟩
  · rcases hrules k hk with he | hn
    · rw [← he, hl]
    · cases hn.symm.trans hl
  · rw [liveSubsets, ← hsubsets]
    exact hundefined

def watchedKeys (s : Service) : List StoreKey :=
  s.subsetKey :: s.ruleKeys

theorem Dangling.of_unwatched
    (hsame : ∀ k ∈ s.watchedKeys, store'.find k = store.find k) (h : s.Dangling store' x) :
    s.Dangling store x :=
  h.of_fewer_rules (fun k hk => .inl (hsame k (List.mem_cons_of_mem _ hk)))
    (hsame _ List.mem_cons_self)

theorem resource_of_ruleKeys {k : StoreKey} (hk : k ∈ s.ruleKeys) :
    k.resource = resourceText VirtualServiceSpec.kind.resource := by
  simp only [ruleKeys, List.mem_cons, List.not_mem_nil, or_false] at hk
  rcases hk with rfl | rfl <;> rfl

theorem resource_subsetKey_ne :
    s.subsetKey.resource ≠ resourceText VirtualServiceSpec.kind.resource :=
  resourceText_ne (by simp [producedKinds]) (by simp [producedKinds]) (by decide)

theorem subsetKey_not_mem_ruleKeys : s.subsetKey ∉ t.ruleKeys :=
  fun h => resource_subsetKey_ne (resource_of_ruleKeys h)

theorem subsetKey_injective (h : s.subsetKey = t.subsetKey) :
    (s.space, s.name) = (t.space, t.name) :=
  Prod.ext (congrArg StoreKey.space h) (congrArg StoreKey.name h)

end Service

structure Puts (b : PlannedObject) (store store' : MemoryStore) : Prop where
  elsewhere : ∀ k, k ≠ b.key → store'.find k = store.find k
  there : store'.find b.key = store.find b.key ∨
    ∃ live, store'.find b.key = some live ∧ live.Carries b.object

theorem puts_of_made {b : PlannedObject} {c : StoreCall} {o : Object} {w w' : Rehearsal}
    (ht : c.target? = some b.key) (ho : c.object? = some o) (hc : o.Carries b.object)
    (hm : Made c w w') : Puts b w.store w'.store where
  elsewhere k hk := hm.find_of_ne ht hk
  there := by
    rcases hm.store with hs | hs <;> rw [hs]
    · exact .inl rfl
    · refine (MemoryStore.find_answer_of_object w.store ho ht).imp id ?_
      rintro ⟨live, hl, hcarries⟩
      exact ⟨live, hl, hcarries.labels.trans hc.labels,
        hcarries.annotations.trans hc.annotations, hcarries.spec.trans hc.spec⟩

structure IsRulesOf (s : Service) (b : PlannedObject) : Prop where
  key : b.key ∈ s.ruleKeys
  names : ∀ host x, x ∈ b.object.namedSubsets host → host = s.host ∧ x ∈ s.subsetNames

structure IsSubsetsOf (s : Service) (b : PlannedObject) : Prop where
  key : b.key = s.subsetKey
  defines : b.object.definedSubsets s.host = s.subsetNames

def Unwatched (b : PlannedObject) : Prop :=
  ∀ s : Service, b.key ∉ s.watchedKeys

/-- New rules of one service can leave its own new subsets dangling, and nothing else. -/
theorem Service.Dangling.of_puts_rules {s t : Service} {b : PlannedObject}
    {store store' : MemoryStore} {x : String} (hb : IsRulesOf s b) (hp : Puts b store store')
    (h : t.Dangling store' x) : t.Dangling store x ∨ (t.host = s.host ∧ x ∈ s.subsetNames) := by
  obtain ⟨hnamed, hundefined⟩ := h
  have hsubsets : store'.find t.subsetKey = store.find t.subsetKey :=
    hp.elsewhere _ fun he => Service.subsetKey_not_mem_ruleKeys (he ▸ hb.key)
  have hundefined₀ : x ∉ t.liveSubsets store := by
    rw [liveSubsets, ← hsubsets]
    exact hundefined
  obtain ⟨k, hk, live, hl, hx⟩ := mem_liveNames.1 hnamed
  have hbefore (he : store'.find k = store.find k) : t.Dangling store x :=
    ⟨mem_liveNames.2 ⟨k, hk, live, he ▸ hl, hx⟩, hundefined₀⟩
  by_cases hkey : k = b.key
  · subst hkey
    rcases hp.there with he | ⟨new, hn, hc⟩
    · exact .inl (hbefore he)
    · cases hn.symm.trans hl
      rw [hc.namedSubsets] at hx
      exact .inr (hb.names _ x hx)
  · exact .inl (hbefore (hp.elsewhere k hkey))

/-- At most one service has dangling subsets. They are subsets of its own that are new, and its
destination rule is still the one of the start. -/
def OneAtATime (ss : List Service) (start store : MemoryStore) : Prop :=
  ∀ s ∈ ss, ∀ x, s.Dangling store x → x ∈ s.subsetNames ∧
    store.find s.subsetKey = start.find s.subsetKey ∧ ∀ t ∈ ss, ∀ y, t.Dangling store y → t = s

/-- Nothing dangles, and the destination rules of the services that are left are the old ones. -/
structure AtRest (ss rest : List Service) (start store : MemoryStore) : Prop where
  fine : ∀ t ∈ ss, ∀ x, ¬ t.Dangling store x
  unwritten : ∀ t ∈ rest, store.find t.subsetKey = start.find t.subsetKey

/-- The rules of a service are being written. Under the keys that are done they are the new ones. -/
structure Midway (ss rest : List Service) (s : Service) (done : List StoreKey)
    (start store : MemoryStore) : Prop where
  others : ∀ t ∈ ss, t ≠ s → ∀ x, ¬ t.Dangling store x
  unwritten : ∀ t ∈ s :: rest, store.find t.subsetKey = start.find t.subsetKey
  names : ∀ x, s.Dangling store x → x ∈ s.subsetNames
  renewed : ∀ k ∈ done, ∀ live, store.find k = some live →
    ∀ x ∈ live.namedSubsets s.host, x ∈ s.subsetNames

structure Closing (ss rest : List Service) (s : Service) (start store : MemoryStore) : Prop where
  others : ∀ t ∈ ss, t ≠ s → ∀ x, ¬ t.Dangling store x
  unwritten : ∀ t ∈ rest, store.find t.subsetKey = start.find t.subsetKey
  names : ∀ x ∈ s.liveNames store, x ∈ s.subsetNames
  turn : store.find s.subsetKey = start.find s.subsetKey ∨ s.liveSubsets store = s.subsetNames

section Stages

variable {ss rest : List Service} {s : Service} {done : List StoreKey} {b : PlannedObject}
  {start store store' : MemoryStore}

theorem AtRest.oneAtATime (h : AtRest ss rest start store) : OneAtATime ss start store :=
  fun s hs x hx => absurd hx (h.fine s hs x)

theorem AtRest.of_unwatched (h : AtRest ss rest start store) (hrest : ∀ t ∈ rest, t ∈ ss)
    (hsame : ∀ t ∈ ss, ∀ k ∈ t.watchedKeys, store'.find k = store.find k) :
    AtRest ss rest start store' where
  fine t ht x hx := h.fine t ht x (hx.of_unwatched (hsame t ht))
  unwritten t ht := (hsame t (hrest t ht) _ List.mem_cons_self).trans (h.unwritten t ht)

theorem AtRest.midway (h : AtRest ss (s :: rest) start store) (hs : s ∈ ss) :
    Midway ss rest s [] start store where
  others t ht _ := h.fine t ht
  unwritten := h.unwritten
  names x hx := absurd hx (h.fine s hs x)
  renewed := nofun

theorem only_dangling (h : ∀ t ∈ ss, t ≠ s → ∀ x, ¬ t.Dangling store x) :
    ∀ t ∈ ss, ∀ y, t.Dangling store y → t = s := by
  intro t ht y hy
  by_contra hne
  exact h t ht hne y hy

namespace Midway

theorem oneAtATime (h : Midway ss rest s done start store) : OneAtATime ss start store := by
  have only := only_dangling h.others
  intro t ht x hx
  cases only t ht x hx
  exact ⟨h.names x hx, h.unwritten s List.mem_cons_self, only⟩

theorem of_unwatched (h : Midway ss rest s done start store) (hb : Unwatched b)
    (hdone : ∀ k ∈ done, k ∈ s.ruleKeys) (hp : Puts b store store') :
    Midway ss rest s done start store' := by
  have hsame (t : Service) (k : StoreKey) (hk : k ∈ t.watchedKeys) :
      store'.find k = store.find k :=
    hp.elsewhere k fun he => hb t (he ▸ hk)
  refine ⟨fun t ht hne x hx => h.others t ht hne x (hx.of_unwatched (hsame t)), fun t ht => ?_,
    fun x hx => h.names x (hx.of_unwatched (hsame s)), fun k hk live hl => ?_⟩
  · exact (hsame t _ List.mem_cons_self).trans (h.unwritten t ht)
  · exact h.renewed k hk live ((hsame s k (List.mem_cons_of_mem _ (hdone k hk))) ▸ hl)

theorem of_rules (h : Midway ss rest s done start store)
    (hhost : ∀ t ∈ ss, t.host = s.host → t = s) (hb : IsRulesOf s b) (hp : Puts b store store') :
    Midway ss rest s done start store' where
  others t ht hne x hx := by
    rcases hx.of_puts_rules hb hp with hx | ⟨hsame, -⟩
    · exact h.others t ht hne x hx
    · exact hne (hhost t ht hsame)
  unwritten t ht := by
    have hk : t.subsetKey ≠ b.key := fun he =>
      Service.subsetKey_not_mem_ruleKeys (he ▸ hb.key)
    exact (hp.elsewhere _ hk).trans (h.unwritten t ht)
  names x hx := by
    rcases hx.of_puts_rules hb hp with hx | ⟨-, hx⟩
    · exact h.names x hx
    · exact hx
  renewed k hk live hl x hx := by
    by_cases hkey : k = b.key
    · subst hkey
      rcases hp.there with he | ⟨new, hn, hc⟩
      · exact h.renewed _ hk live (he ▸ hl) x hx
      · cases hn.symm.trans hl
        rw [hc.namedSubsets] at hx
        exact (hb.names _ x hx).2
    · exact h.renewed k hk live (hp.elsewhere k hkey ▸ hl) x hx

theorem renew (h : Midway ss rest s done start store) (hb : IsRulesOf s b)
    (hin : b.InPlace store) : Midway ss rest s (b.key :: done) start store where
  others := h.others
  unwritten := h.unwritten
  names := h.names
  renewed := by
    rw [List.forall_mem_cons]
    refine ⟨fun live hl x hx => ?_, h.renewed⟩
    obtain ⟨live', hl', hc⟩ := hin
    cases hl'.symm.trans hl
    rw [hc.namedSubsets] at hx
    exact (hb.names _ x hx).2

theorem closing (h : Midway ss rest s done start store) (hdone : ∀ k ∈ s.ruleKeys, k ∈ done) :
    Closing ss rest s start store where
  others := h.others
  unwritten t ht := h.unwritten t (List.mem_cons_of_mem _ ht)
  names x hx := by
    obtain ⟨k, hk, live, hl, hx⟩ := Service.mem_liveNames.1 hx
    exact h.renewed k (hdone k hk) live hl x hx
  turn := .inl (h.unwritten s List.mem_cons_self)

end Midway

namespace Closing

theorem oneAtATime (h : Closing ss rest s start store) : OneAtATime ss start store := by
  have only := only_dangling h.others
  intro t ht x hx
  cases only t ht x hx
  have hname := h.names x hx.1
  refine ⟨hname, h.turn.resolve_right fun hnew => ?_, only⟩
  exact hx.2 (hnew ▸ hname)

theorem of_subsets (h : Closing ss rest s start store) (hs : s ∉ rest) (hrest : ∀ t ∈ rest, t ∈ ss)
    (hsubset : ∀ t ∈ ss, t.subsetKey = s.subsetKey → t = s) (hb : IsSubsetsOf s b)
    (hp : Puts b store store') : Closing ss rest s start store' := by
  have hrules (t : Service) (k : StoreKey) (hk : k ∈ t.ruleKeys) :
      store'.find k = store.find k :=
    hp.elsewhere k fun he => Service.subsetKey_not_mem_ruleKeys (hb.key ▸ he ▸ hk)
  have hother {t : Service} (ht : t ∈ ss) (hne : t ≠ s) :
      store'.find t.subsetKey = store.find t.subsetKey :=
    hp.elsewhere _ fun he => hne (hsubset t ht (he.trans hb.key))
  constructor
  · intro t ht hne x hx
    exact h.others t ht hne x
      (hx.of_fewer_rules (fun k hk => .inl (hrules t k hk)) (hother ht hne))
  · intro t ht
    exact (hother (hrest t ht) (fun he => hs (he ▸ ht))).trans (h.unwritten t ht)
  · intro x hx
    obtain ⟨k, hk, live, hl, hx⟩ := Service.mem_liveNames.1 hx
    exact h.names x (Service.mem_liveNames.2 ⟨k, hk, live, hrules s k hk ▸ hl, hx⟩)
  · rcases hb.key ▸ hp.there with he | ⟨live, hl, hc⟩
    · rw [he, Service.liveSubsets, he]
      exact h.turn
    · refine .inr ?_
      rw [Service.liveSubsets, hl]
      exact (hc.definedSubsets s.host).trans hb.defines

theorem atRest (h : Closing ss rest s start store) (hb : IsSubsetsOf s b) (hin : b.InPlace store) :
    AtRest ss rest start store where
  fine t ht x hx := by
    by_cases he : t = s
    · subst he
      obtain ⟨live, hl, hc⟩ := hin
      have hdefined : t.liveSubsets store = t.subsetNames := by
        rw [Service.liveSubsets, ← hb.key, hl]
        exact (hc.definedSubsets t.host).trans hb.defines
      exact hx.2 (hdefined ▸ h.names x hx.1)
    · exact h.others t ht he x hx
  unwritten := h.unwritten

end Closing

end Stages

section Objects

variable (s : Service) (o : Owner) (reference : Option OwnerReference) (edgeSpace : String)

def plannedRules : PlannedObject :=
  ⟨VirtualServiceSpec.kind.resource,
    ((s.bundle edgeSpace).markedFor o reference).virtualService.toObject VirtualServiceSpec.toValue⟩

def plannedIngress : PlannedObject :=
  ⟨VirtualServiceSpec.kind.resource,
    ((s.bundle edgeSpace).markedFor o reference).ingressService.toObject VirtualServiceSpec.toValue⟩

def plannedSubsets : PlannedObject :=
  ⟨DestinationRuleSpec.kind.resource,
    ((s.bundle edgeSpace).markedFor o reference).destinationRule.toObject
      DestinationRuleSpec.toValue⟩

theorem ruleKeys_eq :
    s.ruleKeys = [(plannedRules s o reference edgeSpace).key,
      (plannedIngress s o reference edgeSpace).key] := by
  have hrules : (plannedRules s o reference edgeSpace).key =
      .of VirtualServiceSpec.kind.resource (Bundle.own o reference s.virtualService.metadata).space
        (Bundle.own o reference s.virtualService.metadata).name := rfl
  have hingress : (plannedIngress s o reference edgeSpace).key =
      .of VirtualServiceSpec.kind.resource (Bundle.own o reference s.ingressService.metadata).space
        (Bundle.own o reference s.ingressService.metadata).name := rfl
  rw [hrules, hingress]
  simp only [Bundle.own_space, Bundle.own_name]
  rfl

theorem isRulesOf_plannedRules : IsRulesOf s (plannedRules s o reference edgeSpace) where
  key := ruleKeys_eq s o reference edgeSpace ▸ List.mem_cons_self
  names _ _ hx := Service.mem_subsetNames_of_named rfl hx

theorem isRulesOf_plannedIngress : IsRulesOf s (plannedIngress s o reference edgeSpace) where
  key := ruleKeys_eq s o reference edgeSpace ▸ List.mem_cons_of_mem _ List.mem_cons_self
  names _ _ hx := Service.mem_subsetNames_of_named rfl hx

theorem isSubsetsOf_plannedSubsets : IsSubsetsOf s (plannedSubsets s o reference edgeSpace) where
  key := by
    have hkey : (plannedSubsets s o reference edgeSpace).key =
        .of DestinationRuleSpec.kind.resource
          (Bundle.own o reference s.destinationRule.metadata).space
          (Bundle.own o reference s.destinationRule.metadata).name := rfl
    rw [hkey]
    simp only [Bundle.own_space, Bundle.own_name]
    rfl
  defines := Service.definedSubsets_destinationRule rfl

theorem unwatched_of_kind {r : Resource} (hr : r ∈ producedKinds)
    (hrules : r.kind ≠ VirtualServiceSpec.kind.resource.kind)
    (hsubsets : r.kind ≠ DestinationRuleSpec.kind.resource.kind) (x : Object) :
    Unwatched ⟨r, x⟩ := by
  intro s hb
  rcases List.mem_cons.1 hb with he | hb
  · have hne := resourceText_ne hr (by simp [producedKinds]) hsubsets
    exact hne (congrArg StoreKey.resource he)
  · have hne := resourceText_ne hr (by simp [producedKinds]) hrules
    exact hne (Service.resource_of_ruleKeys hb)

theorem unwatched_gateway (x : Object) : Unwatched ⟨GatewaySpec.kind.resource, x⟩ :=
  unwatched_of_kind (by simp [producedKinds]) (by decide) (by decide) x

theorem unwatched_filter (x : Object) : Unwatched ⟨EnvoyFilterSpec.kind.resource, x⟩ :=
  unwatched_of_kind (by simp [producedKinds]) (by decide) (by decide) x

end Objects

def Fine (ss : List Service) (store : MemoryStore) : Prop :=
  ∀ t ∈ ss, ∀ x, ¬ t.Dangling store x

def NoRules (ss : List Service) (store : MemoryStore) : Prop :=
  ∀ t ∈ ss, ∀ k ∈ t.ruleKeys, store.find k = none

theorem NoRules.fine {ss : List Service} {store : MemoryStore} (h : NoRules ss store) :
    Fine ss store := by
  intro t ht x hx
  obtain ⟨k, hk, live, hl, -⟩ := Service.mem_liveNames.1 hx.1
  cases (h t ht k hk).symm.trans hl

end MeshRollout
