import Mathlib.Data.List.Basic
import MeshRollout.Proofs.Cluster.StoreView

/-!
What the objects of a store say, whatever versions they have. A write puts one object in place and
leaves all other entries of the store as they are, and a deletion takes one entry out.
-/
set_option autoImplicit false

namespace MeshRollout

structure Content where
  labels : Dict String
  annotations : Dict String
  spec : Option Value

def Object.content (o : Object) : Content :=
  ⟨o.labels, o.annotations, o.spec⟩

theorem Object.Carries.content {live o : Object} (h : live.Carries o) :
    live.content = o.content := by
  rw [Object.content, h.labels, h.annotations, h.spec, Object.content]

namespace MemoryStore

variable {s s' s'' : MemoryStore} {k : StoreKey} {ks ks' : List StoreKey}

def content (s : MemoryStore) (k : StoreKey) : Option Content :=
  (s.find k).map Object.content

def apart (s : MemoryStore) (ks : List StoreKey) : List (StoreKey × Object) :=
  s.objects.filter fun p => p.1 ∉ ks

theorem lookup_filter_not_mem (h : k ∉ ks) (l : List (StoreKey × Object)) :
    (l.filter fun p => p.1 ∉ ks).lookup k = l.lookup k := by
  induction l with
  | nil => rfl
  | cons p l ih =>
    obtain ⟨k', o⟩ := p
    by_cases hk : k' ∈ ks
    · have hne : (k == k') = false := beq_false_of_ne fun he => h (he ▸ hk)
      simpa [List.lookup_cons, hk, hne] using ih
    · simp only [List.filter_cons, hk, not_false_eq_true, decide_true, ↓reduceIte,
        List.lookup_cons, ih]

theorem find_eq_lookup_apart (h : k ∉ ks) : s.find k = (s.apart ks).lookup k :=
  (lookup_filter_not_mem h s.objects).symm

theorem filter_put {o : Object} {P : StoreKey × Object → Bool} (h : ∀ o, P (k, o) = false)
    (l : List (StoreKey × Object)) : (put k o l).filter P = l.filter P := by
  induction l with
  | nil => simp [put, h]
  | cons p l ih =>
    obtain ⟨k', o'⟩ := p
    by_cases hk : k = k'
    · subst hk
      simp [put, h]
    · by_cases hb : k.before k' = true
      · simp [put, hk, hb, h]
      · simp [put, hk, hb, List.filter_cons, ih]

structure Placed (k : StoreKey) (c : Content) (s s' : MemoryStore) : Prop where
  sound : s'.Sound
  refusals : s'.refusedDeletions = s.refusedDeletions
  apart : ∀ ks, k ∈ ks → s'.apart ks = s.apart ks
  content : ∀ k', s'.content k' = if k' = k then some c else s.content k'

theorem Placed.of_content (hs : s.Sound) {c : Content} (h : s.content k = some c) :
    Placed k c s s where
  sound := hs
  refusals := rfl
  apart _ _ := rfl
  content k' := by
    split
    · rename_i hk
      rw [hk, h]
    · rfl

theorem placed_write (hs : s.Sound) (verb : String) (r : Resource) (uid : Option String)
    (o : Object) :
    Placed (.ofObject r o) o.content s (s.write verb r (withUid uid o)).2 where
  sound := ⟨(hs.keep r _).ordered, (hs.keep r _).keyed⟩
  refusals := rfl
  apart ks hk := filter_put (fun _ => decide_eq_false (not_not_intro hk)) s.objects
  content k' := by
    rw [content, find_write]
    split
    · rename_i hk
      exact (if_pos hk).symm ▸ congrArg some (carries_stamp s uid o).content
    · rename_i hk
      exact (if_neg hk).symm

theorem placed_create (hs : s.Sound) {r : Resource} {o : Object}
    (hfree : s.find (.ofObject r o) = none) :
    ∃ x s', s.create r o = (.ok x, s') ∧ Placed (.ofObject r o) o.content s s' := by
  have hwritten : s.create r o
      = (.ok (s.stamp (withUid none o)), (s.write "create" r (withUid none o)).2) := by
    rw [create, hfree]
    rfl
  exact ⟨_, _, hwritten, placed_write hs "create" r none o⟩

theorem placed_update (hs : s.Sound) {r : Resource} {o live : Object}
    (hlive : s.find (.ofObject r o) = some live)
    (hv : o.metadata.resourceVersion = live.metadata.resourceVersion) :
    ∃ x s', s.update r o = (.ok x, s') ∧ Placed (.ofObject r o) o.content s s' := by
  have hwritten : s.update r o = (.ok (s.stamp (withUid live.metadata.uid o)),
      (s.write "update" r (withUid live.metadata.uid o)).2) := by
    rw [update, hlive]
    exact if_neg (not_not_intro hv)
  exact ⟨_, _, hwritten, placed_write hs "update" r live.metadata.uid o⟩

structure Without (ks : List StoreKey) (s s' : MemoryStore) : Prop where
  objects : s'.objects = s.objects.filter fun p => p.1 ∉ ks
  refusals : s'.refusedDeletions = s.refusedDeletions

namespace Without

theorem refl (s : MemoryStore) : Without [] s s :=
  ⟨(List.filter_eq_self.2 fun _ _ => by simp).symm, rfl⟩

theorem trans (h : Without ks s s') (h' : Without ks' s' s'') : Without (ks ++ ks') s s'' where
  objects := by
    rw [h'.objects, h.objects, List.filter_filter]
    refine List.filter_congr fun p _ => ?_
    simp [Bool.and_comm]
  refusals := h'.refusals.trans h.refusals

theorem sound (h : Without ks s s') (hs : s.Sound) : s'.Sound where
  ordered := h.objects ▸ hs.ordered.filter _
  keyed p hp := by
    rw [h.objects] at hp
    exact hs.keyed p (List.mem_filter.1 hp).1

theorem find_of_not_mem (h : Without ks s s') (hk : k ∉ ks) : s'.find k = s.find k := by
  rw [find, h.objects, lookup_filter_not_mem hk, find]

theorem find_of_mem (h : Without ks s s') (hk : k ∈ ks) : s'.find k = none := by
  cases hf : s'.find k with
  | none => rfl
  | some o =>
    have hm := mem_of_find hf
    rw [h.objects] at hm
    exact absurd hk (of_decide_eq_true (List.mem_filter.1 hm).2)

theorem apart (h : Without ks s s') (others : List StoreKey) :
    s'.apart others = (s.apart others).filter fun p => p.1 ∉ ks := by
  rw [MemoryStore.apart, h.objects, MemoryStore.apart, List.filter_comm]

end Without

def refusal (s : MemoryStore) (k : StoreKey) : Option Failure :=
  (s.refusedDeletions.get k.name).map (apiFailure 500 "InternalError")

theorem refusal_congr (h : s'.refusedDeletions = s.refusedDeletions) : s'.refusal = s.refusal :=
  funext fun _ => by rw [refusal, h, refusal]

theorem delete_cases {r : Resource} {live : Object} (space : Option String)
    (hspace : space.getD "" = live.space) (hlive : s.find (.ofObject r live) ≠ none) :
    (∃ f, s.refusal (.ofObject r live) = some f ∧ s.delete r space live.name = (.error f, s)) ∨
      (s.refusal (.ofObject r live) = none ∧
        ∃ s', s.delete r space live.name = (.ok true, s') ∧ Without [.ofObject r live] s s') := by
  have hname : (StoreKey.ofObject r live).name = live.name := rfl
  have hkey : StoreKey.of r (space.getD "") live.name = .ofObject r live := by rw [hspace]; rfl
  rw [refusal, hname, delete]
  cases hm : s.refusedDeletions.get live.name with
  | some message => exact .inl ⟨_, rfl, rfl⟩
  | none =>
    obtain ⟨x, hx⟩ := Option.ne_none_iff_exists'.1 hlive
    simp only [hkey, hx]
    refine .inr ⟨rfl, _, rfl, ⟨?_, rfl⟩⟩
    exact List.filter_congr fun p _ => by simp

end MemoryStore

end MeshRollout
