import Mathlib.Order.Defs.LinearOrder
import MeshRollout.Cluster.MemoryStore

/-!
What a store of objects holds, told by what is found under its keys. A call changes what is found
under one key at most, and every object is kept under its own namespace and name.
-/
set_option autoImplicit false

namespace MeshRollout

namespace StoreKey

theorem before_iff {a b : StoreKey} :
    a.before b = true ↔
      a.resource < b.resource ∨
        (a.resource = b.resource ∧
          (a.space < b.space ∨ (a.space = b.space ∧ a.name < b.name))) := by
  simp [before]

theorem before_trans {a b c : StoreKey} (hab : a.before b = true) (hbc : b.before c = true) :
    a.before c = true := by
  rw [before_iff] at *
  rcases hab with h | ⟨hr, h | ⟨hs, h⟩⟩
  · rcases hbc with h' | ⟨hr', -⟩
    · exact .inl (String.lt_trans h h')
    · exact .inl (hr' ▸ h)
  · rcases hbc with h' | ⟨hr', h' | ⟨hs', -⟩⟩
    · exact .inl (hr ▸ h')
    · exact .inr ⟨hr.trans hr', .inl (String.lt_trans h h')⟩
    · exact .inr ⟨hr.trans hr', .inl (hs' ▸ h)⟩
  · rcases hbc with h' | ⟨hr', h' | ⟨hs', h'⟩⟩
    · exact .inl (hr ▸ h')
    · exact .inr ⟨hr.trans hr', .inl (hs ▸ h')⟩
    · exact .inr ⟨hr.trans hr', .inr ⟨hs.trans hs', String.lt_trans h h'⟩⟩

theorem ne_of_before {a b : StoreKey} (h : a.before b = true) : a ≠ b := by
  intro he
  subst he
  rw [before_iff] at h
  rcases h with h | ⟨-, h | ⟨-, h⟩⟩ <;> exact String.lt_irrefl _ h

theorem before_of_not_before {a b : StoreKey} (hne : a ≠ b) (h : ¬ a.before b = true) :
    b.before a = true := by
  have lt_of (x y : String) (hlt : ¬ x < y) (he : x ≠ y) : y < x :=
    Std.lt_of_le_of_ne (String.not_lt.1 hlt) (Ne.symm he)
  rw [before_iff] at *
  simp only [not_or, not_and] at h
  obtain ⟨hr, hs⟩ := h
  by_cases her : a.resource = b.resource
  · obtain ⟨hs, hn⟩ := hs her
    by_cases hes : a.space = b.space
    · have hen : a.name ≠ b.name := fun hen => hne (by cases a; cases b; simp_all)
      exact .inr ⟨her.symm, .inr ⟨hes.symm, lt_of _ _ (hn hes) hen⟩⟩
    · exact .inr ⟨her.symm, .inl (lt_of _ _ hs hes)⟩
  · exact .inl (lt_of _ _ hr her)

end StoreKey

/-- Labels, annotations and specification are those of the other object. -/
structure Object.Carries (live o : Object) : Prop where
  labels : live.labels = o.labels
  annotations : live.annotations = o.annotations
  spec : live.spec = o.spec

namespace MemoryStore

variable {s : MemoryStore} {k : StoreKey} {o : Object}

theorem lookup_put (k k' : StoreKey) (o : Object) (l : List (StoreKey × Object)) :
    (put k o l).lookup k' = if k' = k then some o else l.lookup k' := by
  induction l with
  | nil => by_cases hk : k' = k <;> simp [put, List.lookup_cons, hk, beq_false_of_ne]
  | cons p l ih =>
    obtain ⟨k'', o''⟩ := p
    by_cases hk : k = k''
    · subst hk
      by_cases hk' : k' = k <;> simp [put, List.lookup_cons, hk', beq_false_of_ne]
    · by_cases hb : k.before k'' = true
      · by_cases hk' : k' = k <;> simp [put, List.lookup_cons, hk, hb, hk', beq_false_of_ne]
      · simp only [put, hk, hb, ↓reduceIte, List.lookup_cons, Bool.false_eq_true]
        cases hk' : k' == k'' with
        | true =>
          have he : k' ≠ k := fun he => hk (he ▸ eq_of_beq hk')
          simp [he]
        | false => simpa using ih

theorem mem_put {p : StoreKey × Object} {l : List (StoreKey × Object)} (h : p ∈ put k o l) :
    p = (k, o) ∨ p ∈ l := by
  induction l with
  | nil => simpa [put] using h
  | cons q l ih =>
    obtain ⟨k', o'⟩ := q
    by_cases hk : k = k'
    · simp only [put, hk, ↓reduceIte, List.mem_cons] at h
      exact h.imp (fun he => hk ▸ he) (List.mem_cons_of_mem _)
    · by_cases hb : k.before k' = true
      · simpa [put, hk, hb] using h
      · simp only [put, hk, hb, ↓reduceIte, List.mem_cons, Bool.false_eq_true] at h
        cases h with
        | inl he => exact .inr (he ▸ List.mem_cons_self)
        | inr hm => exact (ih hm).imp id (List.mem_cons_of_mem _)

/-- The keys are in order, and every object is kept under its own namespace and name. -/
structure Sound (s : MemoryStore) : Prop where
  ordered : s.objects.Pairwise fun p q => p.1.before q.1 = true
  keyed : ∀ p ∈ s.objects, p.1.space = p.2.space ∧ p.1.name = p.2.name

theorem pairwise_put {l : List (StoreKey × Object)}
    (h : l.Pairwise fun p q => p.1.before q.1 = true) (k : StoreKey) (o : Object) :
    (put k o l).Pairwise fun p q => p.1.before q.1 = true := by
  induction l with
  | nil => simp [put]
  | cons q l ih =>
    obtain ⟨k', o'⟩ := q
    obtain ⟨hlt, hr⟩ := List.pairwise_cons.1 h
    by_cases hk : k = k'
    · subst hk
      simp only [put, ↓reduceIte]
      exact List.pairwise_cons.2 ⟨hlt, hr⟩
    · by_cases hb : k.before k' = true
      · simp only [put, hk, hb, ↓reduceIte]
        refine List.pairwise_cons.2 ⟨?_, h⟩
        intro p hp
        cases List.mem_cons.1 hp with
        | inl he => exact he ▸ hb
        | inr hm => exact StoreKey.before_trans hb (hlt p hm)
      · simp only [put, hk, hb, ↓reduceIte, Bool.false_eq_true]
        refine List.pairwise_cons.2 ⟨?_, ih hr⟩
        intro p hp
        cases mem_put hp with
        | inl he => exact he ▸ StoreKey.before_of_not_before hk hb
        | inr hm => exact hlt p hm

theorem mem_of_find (h : s.find k = some o) : (k, o) ∈ s.objects := by
  obtain ⟨l₁, l₂, hl, -⟩ := List.lookup_eq_some_iff.1 h
  simp [hl]

theorem Sound.find_of_mem (hs : s.Sound) (h : (k, o) ∈ s.objects) : s.find k = some o := by
  obtain ⟨l₁, l₂, hl⟩ := List.append_of_mem h
  refine List.lookup_eq_some_iff.2 ⟨l₁, l₂, hl, ?_⟩
  intro p hp
  have ho := hs.ordered
  rw [hl, List.pairwise_append] at ho
  have hb := ho.2.2 p hp (k, o) List.mem_cons_self
  simpa using Ne.symm (StoreKey.ne_of_before hb)

theorem Sound.nodup_keys (hs : s.Sound) : (s.objects.map Prod.fst).Nodup :=
  List.pairwise_map.2 (hs.ordered.imp fun h => StoreKey.ne_of_before h)

theorem Sound.key_of_find (hs : s.Sound) (h : s.find k = some o) :
    k.space = o.space ∧ k.name = o.name :=
  hs.keyed _ (mem_of_find h)

theorem Sound.ofObject_eq (hs : s.Sound) {r : Resource} (hk : k.resource = StoreKey.resourceText r)
    (h : s.find k = some o) : .ofObject r o = k := by
  obtain ⟨hsp, hn⟩ := hs.key_of_find h
  cases k
  simp_all [StoreKey.ofObject, StoreKey.of]

/-- A listing gives the objects of a resource, in one namespace or in all, that are selected. -/
theorem Sound.mem_list (hs : s.Sound) {r : Resource} {space selector : Option String} :
    o ∈ s.list r space selector ↔
      s.find (.ofObject r o) = some o ∧ (∀ sp, space = some sp → o.space = sp) ∧
        selected selector o = true := by
  simp only [list, List.mem_map, List.mem_filter, Bool.and_eq_true, beq_iff_eq]
  constructor
  · rintro ⟨⟨k, live⟩, ⟨hm, ⟨hk, hsp⟩, hsel⟩, rfl⟩
    have hf := hs.find_of_mem hm
    refine ⟨by rw [hs.ofObject_eq hk hf]; exact hf, ?_, hsel⟩
    rintro sp rfl
    exact (hs.key_of_find hf).1.symm.trans (beq_iff_eq.1 hsp)
  · rintro ⟨hf, hsp, hsel⟩
    refine ⟨(_, o), ⟨mem_of_find hf, ⟨rfl, ?_⟩, hsel⟩, rfl⟩
    cases space with
    | none => rfl
    | some sp => exact beq_iff_eq.2 (hsp sp rfl)

theorem Sound.nodup_list (hs : s.Sound) (r : Resource) (space selector : Option String) :
    ((s.list r space selector).map (StoreKey.ofObject r)).Nodup := by
  refine hs.nodup_keys.sublist ?_
  rw [list, List.map_map, List.map_congr_left (g := Prod.fst) fun p hp => ?_]
  · exact List.filter_sublist.map _
  · obtain ⟨hm, hp⟩ := List.mem_filter.1 hp
    simp only [Bool.and_eq_true, beq_iff_eq] at hp
    exact hs.ofObject_eq hp.1.1 (hs.find_of_mem hm)

theorem find_remove (s : MemoryStore) (k k' : StoreKey) :
    (s.remove k).find k' = if k' = k then none else s.find k' := by
  rw [remove, find, find]
  induction s.objects with
  | nil => simp
  | cons p l ih =>
    obtain ⟨k'', o⟩ := p
    by_cases hk : k'' = k
    · subst hk
      have hf : ((k'', o) :: l).filter (fun p => p.1 ≠ k'') = l.filter fun p => p.1 ≠ k'' := by
        simp
      rw [hf, ih]
      by_cases hk' : k' = k'' <;> simp [List.lookup_cons, hk', beq_false_of_ne]
    · simp only [List.filter_cons, ne_eq, hk, not_false_eq_true, decide_true, ↓reduceIte,
        List.lookup_cons]
      cases hk' : k' == k'' with
      | true =>
        have he : k' ≠ k := fun he => hk (he ▸ (eq_of_beq hk').symm)
        simp [he]
      | false => simpa using ih

theorem find_write (s : MemoryStore) (verb : String) (r : Resource) (o : Object) (k : StoreKey) :
    (s.write verb r o).2.find k = if k = .ofObject r o then some (s.stamp o) else s.find k :=
  lookup_put (.ofObject r (s.stamp o)) k (s.stamp o) s.objects

theorem Sound.keep (hs : s.Sound) (r : Resource) (o : Object) : (s.keep r o).Sound where
  ordered := pairwise_put hs.ordered _ _
  keyed p hp := by
    cases mem_put hp with
    | inl he => exact he ▸ ⟨rfl, rfl⟩
    | inr hm => exact hs.keyed p hm

theorem Sound.remove (hs : s.Sound) (k : StoreKey) : (s.remove k).Sound where
  ordered := hs.ordered.filter _
  keyed p hp := hs.keyed p (List.mem_filter.1 hp).1

theorem Sound.answer (hs : s.Sound) (c : StoreCall) : (s.answer c).2.Sound := by
  have of_write (verb : String) (r : Resource) (o : Object) : (s.write verb r o).2.Sound :=
    ⟨(hs.keep r o).ordered, (hs.keep r o).keyed⟩
  cases c with
  | get r space name => exact hs
  | list r space selector => exact hs
  | create r o =>
    simp only [MemoryStore.answer, create]
    split
    · exact hs
    · exact of_write ..
  | update r o =>
    simp only [MemoryStore.answer, update]
    split
    · exact hs
    · split
      · exact hs
      · exact of_write ..
  | apply r o manager =>
    simp only [MemoryStore.answer, apply]
    split
    · exact hs
    · exact of_write ..
  | delete r space name =>
    simp only [MemoryStore.answer, delete]
    split
    · exact hs
    · split
      · exact hs
      · exact ⟨(hs.remove _).ordered, (hs.remove _).keyed⟩

inductive Reachable : MemoryStore → Prop where
  | empty : Reachable {}
  | insert {s : MemoryStore} (h : Reachable s) (r : Resource) (o : Object) :
      Reachable (s.insert r o)
  | answer {s : MemoryStore} (h : Reachable s) (c : StoreCall) : Reachable (s.answer c).2
  | refuse {s : MemoryStore} (h : Reachable s) (refusedApplies refusedDeletions : Dict String) :
      Reachable { s with refusedApplies, refusedDeletions }
  | clearWrites {s : MemoryStore} (h : Reachable s) : Reachable { s with writes := [] }

theorem Reachable.sound (h : Reachable s) : s.Sound := by
  induction h with
  | empty => exact ⟨List.Pairwise.nil, by simp⟩
  | insert _ r o ih => exact ih.keep r o
  | answer _ c ih => exact ih.answer c
  | refuse _ _ _ ih => exact ⟨ih.ordered, ih.keyed⟩
  | clearWrites _ ih => exact ⟨ih.ordered, ih.keyed⟩

end MemoryStore

namespace StoreCall

def target? : StoreCall → Option StoreKey
  | .get .. | .list .. => none
  | .create r o | .update r o | .apply r o _ => some (.ofObject r o)
  | .delete r space name => some (.of r (space.getD "") name)

def object? : StoreCall → Option Object
  | .create _ o | .update _ o | .apply _ o _ => some o
  | .get .. | .list .. | .delete .. => none

end StoreCall

namespace MemoryStore

variable {s : MemoryStore} {k : StoreKey} {o : Object}

theorem carries_stamp (s : MemoryStore) (uid : Option String) (o : Object) :
    (s.stamp (withUid uid o)).Carries o :=
  ⟨rfl, rfl, rfl⟩

/-- A refused creation changes nothing, and exactly the free places are taken. -/
theorem create_cases (s : MemoryStore) (r : Resource) (o : Object) :
    (s.find (.ofObject r o) ≠ none ∧ ∃ f, s.create r o = (.error f, s)) ∨
      (s.find (.ofObject r o) = none ∧ ∃ x s', s.create r o = (.ok x, s')) := by
  cases h : s.find (.ofObject r o) with
  | some live => exact .inl ⟨Option.some_ne_none live, _, by rw [create, h]⟩
  | none => exact .inr ⟨rfl, _, _, by rw [create, h]⟩

/-- A refused update changes nothing, and exactly an object of the version that is named is
replaced. -/
theorem update_cases (s : MemoryStore) (r : Resource) (o : Object) :
    ((∀ now, s.find (.ofObject r o) = some now →
        now.metadata.resourceVersion ≠ o.metadata.resourceVersion) ∧
      ∃ f, s.update r o = (.error f, s)) ∨
      ∃ now, s.find (.ofObject r o) = some now ∧
        now.metadata.resourceVersion = o.metadata.resourceVersion ∧
        ∃ x s', s.update r o = (.ok x, s') := by
  cases h : s.find (.ofObject r o) with
  | none => exact .inl ⟨by simp, _, by rw [update, h]⟩
  | some now =>
    by_cases hv : o.metadata.resourceVersion = now.metadata.resourceVersion
    · exact .inr ⟨now, rfl, hv.symm, _, _, by rw [update, h]; exact if_neg (not_not_intro hv)⟩
    · refine .inl ⟨fun live hl => ?_, _, by rw [update, h]; exact if_pos hv⟩
      cases hl
      exact Ne.symm hv

theorem find_create_of_ok {r : Resource} {x : Object} (h : (s.create r o).1 = .ok x) :
    ∃ live, (s.create r o).2.find (.ofObject r o) = some live ∧ live.Carries o := by
  simp only [create] at h ⊢
  split at h
  · cases h
  · refine ⟨_, ?_, carries_stamp s none o⟩
    exact (find_write s "create" r _ _).trans (if_pos rfl)

theorem find_update_of_ok {r : Resource} {x : Object} (h : (s.update r o).1 = .ok x) :
    ∃ live, (s.update r o).2.find (.ofObject r o) = some live ∧ live.Carries o := by
  simp only [update] at h ⊢
  split at h
  · cases h
  · rename_i seen _
    split at h
    · cases h
    · rename_i hv
      rw [if_neg hv]
      refine ⟨_, ?_, carries_stamp s seen.metadata.uid o⟩
      exact (find_write s "update" r _ _).trans (if_pos rfl)

/-- An application is refused by name only. -/
theorem find_apply_of_ok {r : Resource} {x : Object} (h : (s.apply r o).1 = .ok x) :
    s.refusedApplies.get o.name = none ∧
      ∃ live, (s.apply r o).2.find (.ofObject r o) = some live ∧ live.Carries o := by
  simp only [apply] at h ⊢
  split at h
  · cases h
  · rename_i hfree
    rw [hfree]
    refine ⟨rfl, _, ?_, carries_stamp s ((s.find (.ofObject r o)).bind fun l => l.metadata.uid) o⟩
    exact (find_write s "apply" r _ _).trans (if_pos rfl)

theorem refusedApplies_answer (s : MemoryStore) (c : StoreCall) :
    (s.answer c).2.refusedApplies = s.refusedApplies := by
  cases c with
  | get r space name => rfl
  | list r space selector => rfl
  | create r o =>
    simp only [MemoryStore.answer, create]
    split <;> rfl
  | update r o =>
    simp only [MemoryStore.answer, update]
    split
    · rfl
    · split <;> rfl
  | apply r o manager =>
    simp only [MemoryStore.answer, apply]
    split <;> rfl
  | delete r space name =>
    simp only [MemoryStore.answer, delete]
    split
    · rfl
    · split <;> rfl

theorem find_delete_of_ok {r : Resource} {space : Option String} {name : String} {gone : Bool}
    (h : (s.delete r space name).1 = .ok gone) :
    (s.delete r space name).2.find (.of r (space.getD "") name) = none := by
  simp only [delete] at h ⊢
  split at h
  · cases h
  · split
    · assumption
    · exact (find_remove s _ _).trans (if_pos rfl)

def successor (s : MemoryStore) (k : StoreKey) (o : Object) : Object :=
  s.stamp (withUid ((s.find k).bind fun live => live.metadata.uid) o)

inductive Effect (s : MemoryStore) (c : StoreCall) (s' : MemoryStore) : Prop where
  | nothing (same : s' = s)
  | deleted (k : StoreKey) (live : Object) (target : c.target? = some k)
      (found : s.find k = some live)
      (find : ∀ k', s'.find k' = if k' = k then none else s.find k')
      (version : s'.version = s.version)
  | written (k : StoreKey) (o : Object) (target : c.target? = some k) (object : c.object? = some o)
      (find : ∀ k', s'.find k' = if k' = k then some (s.successor k o) else s.find k')
      (version : s'.version = s.version + 1)

theorem effect_answer (s : MemoryStore) (c : StoreCall) : Effect s c (s.answer c).2 := by
  have of_write {c : StoreCall} (verb : String) (r : Resource) (uid : Option String) (o : Object)
      (ht : c.target? = some (.ofObject r o)) (ho : c.object? = some o)
      (hu : ((s.find (.ofObject r o)).bind fun live => live.metadata.uid) = uid) :
      Effect s c (s.write verb r (withUid uid o)).2 := by
    refine .written _ o ht ho (fun k' => ?_) rfl
    rw [successor, hu]
    exact find_write s verb r (withUid uid o) k'
  cases c with
  | get r space name => exact .nothing rfl
  | list r space selector => exact .nothing rfl
  | create r o =>
    simp only [MemoryStore.answer, create]
    split
    · exact .nothing rfl
    · rename_i hf
      exact of_write "create" r none o rfl rfl (by rw [hf]; rfl)
  | update r o =>
    simp only [MemoryStore.answer, update]
    split
    · exact .nothing rfl
    · rename_i seen hf
      split
      · exact .nothing rfl
      · exact of_write "update" r seen.metadata.uid o rfl rfl (by rw [hf]; rfl)
  | apply r o manager =>
    simp only [MemoryStore.answer, apply]
    split
    · exact .nothing rfl
    · exact of_write "apply" r _ o rfl rfl rfl
  | delete r space name =>
    simp only [MemoryStore.answer, delete]
    split
    · exact .nothing rfl
    · split
      · exact .nothing rfl
      · rename_i live hf
        exact .deleted _ live rfl hf (find_remove s _) rfl

/-- What a call may do under a key: nothing, delete the object, or put its own one in place. -/
theorem find_answer (s : MemoryStore) (c : StoreCall) (k : StoreKey) :
    (s.answer c).2.find k = s.find k ∨
      (c.target? = some k ∧
        ((s.answer c).2.find k = none ∨
          ∃ o live, c.object? = some o ∧ (s.answer c).2.find k = some live ∧ live.Carries o)) := by
  cases effect_answer s c with
  | nothing same => exact .inl (by rw [same])
  | deleted k' live target found find version =>
    by_cases hk : k = k'
    · exact .inr ⟨hk ▸ target, .inl ((find k).trans (if_pos hk))⟩
    · exact .inl ((find k).trans (if_neg hk))
  | written k' o target object find version =>
    by_cases hk : k = k'
    · refine .inr ⟨hk ▸ target, .inr ⟨o, _, object, (find k).trans (if_pos hk), ?_⟩⟩
      exact carries_stamp s _ o
    · exact .inl ((find k).trans (if_neg hk))

theorem find_answer_of_object (s : MemoryStore) {c : StoreCall} (ho : c.object? = some o)
    (hk : c.target? = some k) :
    (s.answer c).2.find k = s.find k ∨
      ∃ live, (s.answer c).2.find k = some live ∧ live.Carries o := by
  cases c with
  | get r space name => cases ho
  | list r space selector => cases ho
  | delete r space name => cases ho
  | create r o' =>
    cases ho
    cases hk
    rcases create_cases s r o with ⟨-, f, hr⟩ | ⟨-, x, s', hr⟩
    · exact .inl (by rw [answer, hr])
    · exact .inr (find_create_of_ok (congrArg Prod.fst hr))
  | update r o' =>
    cases ho
    cases hk
    rcases update_cases s r o with ⟨-, f, hr⟩ | ⟨now, -, -, x, s', hr⟩
    · exact .inl (by rw [answer, hr])
    · exact .inr (find_update_of_ok (congrArg Prod.fst hr))
  | apply r o' manager =>
    cases ho
    cases hk
    cases hr : (s.apply r o).1 with
    | ok x => exact .inr (find_apply_of_ok hr).2
    | error f =>
      refine .inl ?_
      simp only [answer, apply] at hr ⊢
      split
      · rfl
      · rename_i hfree
        rw [hfree] at hr
        cases hr

end MemoryStore

end MeshRollout
