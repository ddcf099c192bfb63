import Mathlib.Data.List.Induction
import MeshRollout.Proofs.Cluster.Answers
import MeshRollout.Proofs.Cluster.Versions

/-!
The writes of a store are numbered. Whatever was done to a store that was empty, each object in it
was put under its own key by one operation and has stayed there since, with the number of that write
as its version. No two objects share a number, no number is given twice, and what is refused leaves
no trace.
-/
set_option autoImplicit false

namespace MeshRollout

def StoreCall.resource : StoreCall → Resource
  | .get r .. | .list r .. | .create r _ | .update r _ | .apply r .. | .delete r .. => r

theorem StoreCall.target_of_object {c : StoreCall} {o : Object} (h : c.object? = some o) :
    c.target? = some (.ofObject c.resource o) := by
  cases c <;> cases h <;> rfl

namespace MemoryStore

inductive Operation where
  | insert (r : Resource) (o : Object)
  | call (c : StoreCall)
  | refuse (refusedApplies refusedDeletions : Dict String)
  | clearWrites

namespace Operation

def on : Operation → MemoryStore → MemoryStore
  | insert r o, s => s.insert r o
  | call c, s => (s.answer c).2
  | refuse refusedApplies refusedDeletions, s => { s with refusedApplies, refusedDeletions }
  | clearWrites, s => { s with writes := [] }

def resource? : Operation → Option Resource
  | insert r _ => some r
  | call c => some c.resource
  | refuse .. | clearWrites => none

structure Places (op : Operation) (s : MemoryStore) (k : StoreKey) (o : Object) : Prop where
  absent : s.find k ≠ some o
  found : (op.on s).find k = some o

end Operation

def after (h : List Operation) : MemoryStore :=
  h.foldl (fun s op => op.on s) {}

/-- One operation of the history put the object under the key, which is the object's own, and there
it is found after each operation since. -/
def Originates (h : List Operation) (k : StoreKey) (o : Object) : Prop :=
  ∃ pre op post r, h = pre ++ op :: post ∧ op.resource? = some r ∧ k = .ofObject r o ∧
    op.Places (after pre) k o ∧ ∀ mid, mid <+: post → (after (pre ++ op :: mid)).find k = some o

structure Writes (s : MemoryStore) (verb : String) (r : Resource) (o x : Object)
    (s' : MemoryStore) : Prop where
  version : s'.version = s.version + 1
  log : s'.writes = s.writes ++ [logLine verb r o.space o.name]
  written : x.WrittenAs s'.version
  absent : s.find (.ofObject r o) ≠ some x
  found : s'.find (.ofObject r o) = some x

structure Deletes (s : MemoryStore) (r : Resource) (space name : String) (gone : Bool)
    (s' : MemoryStore) : Prop where
  version : s'.version = s.version
  log : s'.writes = s.writes ++ if gone then [logLine "delete" r space name] else []
  existed : gone = (s.find (.of r space name)).isSome
  same : gone = false → s' = s

structure Outcome {α : Type} (s : MemoryStore) (deed : α → MemoryStore → Prop)
    (x : Except Failure α × MemoryStore) : Prop where
  failed : ∀ f, x.1 = .error f → x.2 = s
  done : ∀ a, x.1 = .ok a → deed a x.2

structure Counted (s : MemoryStore) : Prop where
  inserted : ∀ r o, (s.insert r o).version = s.version + 1 ∧ (s.insert r o).writes = s.writes
  created : ∀ r o, Outcome s (Writes s "create" r o) (s.create r o)
  updated : ∀ r o, Outcome s (Writes s "update" r o) (s.update r o)
  applied : ∀ r o, Outcome s (Writes s "apply" r o) (s.apply r o)
  deleted : ∀ r space name,
    Outcome s (Deletes s r (space.getD "") name) (s.delete r space name)
  failed : ∀ (c : StoreCall) f, (s.answer c).1 = c.failed f → (s.answer c).2 = s

structure Numbered (h : List Operation) : Prop where
  keyed : ∀ k o, (k, o) ∈ (after h).objects → Originates h k o
  stamped : ∀ k o, (k, o) ∈ (after h).objects → (∃ uid, o.metadata.uid = some uid) ∧
    ∃ n, 1 ≤ n ∧ n ≤ (after h).version ∧ o.metadata.resourceVersion = some (toString n)
  distinct : ((after h).objects.map fun p => p.2.metadata.resourceVersion).Nodup
  /-- What a later operation puts in place has another version than what an earlier one did. -/
  unused : ∀ pre op mid op' post k o k' o', h = pre ++ op :: (mid ++ op' :: post) →
    op.Places (after pre) k o → op'.Places (after (pre ++ op :: mid)) k' o' →
    o'.metadata.resourceVersion ≠ o.metadata.resourceVersion
  counted : Counted (after h)

variable {s : MemoryStore} {op : Operation} {h : List Operation} {k : StoreKey} {o : Object}

theorem after_concat (h : List Operation) (op : Operation) :
    after (h ++ [op]) = op.on (after h) := by
  rw [after, List.foldl_append]
  rfl

theorem reachable_after (h : List Operation) : (after h).Reachable := by
  induction h using List.reverseRecOn with
  | nil => exact .empty
  | append_singleton h op ih =>
    rw [after_concat]
    cases op with
    | insert r o => exact ih.insert r o
    | call c => exact ih.answer c
    | refuse as ds => exact ih.refuse as ds
    | clearWrites => exact ih.clearWrites

namespace Operation

theorem on_cases (op : Operation) (s : MemoryStore) :
    ((∀ k o, (op.on s).find k = some o → s.find k = some o) ∧ (op.on s).version = s.version) ∨
      ∃ r o, op.resource? = some r ∧ (op.on s).version = s.version + 1 ∧
        ∀ k, (op.on s).find k = if k = .ofObject r o then some (s.stamp o) else s.find k := by
  cases op with
  | insert r o =>
    exact .inr ⟨r, o, rfl, rfl, fun k => lookup_put (.ofObject r (s.stamp o)) k (s.stamp o) s.objects⟩
  | call c =>
    simp only [on]
    cases effect_answer s c with
    | nothing same => exact .inl ⟨fun k o ho => same ▸ ho, congrArg MemoryStore.version same⟩
    | deleted k' live target found find version =>
      refine .inl ⟨fun k o ho => ?_, version⟩
      rw [find] at ho
      split at ho
      · cases ho
      · exact ho
    | written k' o target object find version =>
      obtain rfl := Option.some.inj (target.symm.trans (StoreCall.target_of_object object))
      exact .inr ⟨c.resource, withUid ((s.find _).bind fun live => live.metadata.uid) o, rfl, version,
        find⟩
  | refuse as ds => exact .inl ⟨fun _ _ ho => ho, rfl⟩
  | clearWrites => exact .inl ⟨fun _ _ ho => ho, rfl⟩

theorem version_le_on (op : Operation) (s : MemoryStore) : s.version ≤ (op.on s).version := by
  rcases op.on_cases s with ⟨-, hv⟩ | ⟨r, o, -, hv, -⟩ <;> omega

theorem Places.spec (hp : op.Places s k o) :
    (∃ r, op.resource? = some r ∧ k = .ofObject r o) ∧ o.WrittenAs (s.version + 1) ∧
      (op.on s).version = s.version + 1 := by
  rcases op.on_cases s with ⟨hnone, -⟩ | ⟨r, o', hr, hv, hfind⟩
  · exact absurd (hnone k o hp.found) hp.absent
  · have hfound := hp.found
    rw [hfind] at hfound
    split at hfound
    · rename_i hk
      cases hfound
      exact ⟨⟨r, hr, hk⟩, writtenAs_stamp s o', hv⟩
    · exact absurd hfound hp.absent

end Operation

theorem version_after_le (h post : List Operation) :
    (after h).version ≤ (after (h ++ post)).version := by
  induction post using List.reverseRecOn with
  | nil => simp
  | append_singleton post op ih =>
    rw [← List.append_assoc, after_concat]
    exact Nat.le_trans ih (op.version_le_on _)

theorem originates_of_find (hf : (after h).find k = some o) : Originates h k o := by
  induction h using List.reverseRecOn with
  | nil => nomatch hf
  | append_singleton h op ih =>
    have hnow := hf
    rw [after_concat] at hnow
    by_cases hold : (after h).find k = some o
    · obtain ⟨pre, op', post, r, rfl, hr, hk, hplaces, hsince⟩ := ih hold
      refine ⟨pre, op', post ++ [op], r, by simp, hr, hk, hplaces, fun mid hmid => ?_⟩
      rcases List.prefix_concat_iff.1 hmid with rfl | hmid
      · simpa using hf
      · exact hsince mid hmid
    · have hplaces : op.Places (after h) k o := ⟨hold, hnow⟩
      obtain ⟨⟨r, hr, hk⟩, -⟩ := hplaces.spec
      refine ⟨h, op, [], r, rfl, hr, hk, hplaces, fun mid hmid => ?_⟩
      rw [List.prefix_nil.1 hmid]
      exact hf

theorem Originates.number (ho : Originates h k o) :
    ∃ n, 1 ≤ n ∧ n ≤ (after h).version ∧ o.WrittenAs n := by
  obtain ⟨pre, op, post, r, rfl, -, -, hplaces, -⟩ := ho
  obtain ⟨-, hw, hv⟩ := hplaces.spec
  have hle := version_after_le (pre ++ [op]) post
  rw [after_concat, hv, List.append_assoc, List.singleton_append] at hle
  exact ⟨_, Nat.le_add_left 1 _, hle, hw⟩

/-- Objects under different keys have different versions. -/
theorem key_of_version {h : List Operation} {k k' : StoreKey} {o o' : Object}
    (ho : (after h).find k = some o) (ho' : (after h).find k' = some o')
    (hv : o.metadata.resourceVersion = o'.metadata.resourceVersion) : k = k' := by
  induction h using List.reverseRecOn generalizing k k' o o' with
  | nil => nomatch ho
  | append_singleton h op ih =>
    rw [after_concat] at ho ho'
    rcases op.on_cases (after h) with ⟨hnone, -⟩ | ⟨r, new, -, -, hfind⟩
    · exact ih (hnone k o ho) (hnone k' o' ho') hv
    · -- the number of the new object is above those of the objects that were there
      have hnew {k : StoreKey} {o : Object} (ho : (after h).find k = some o) :
          o.metadata.resourceVersion ≠ ((after h).stamp new).metadata.resourceVersion := by
        intro he
        obtain ⟨n, hn, hw⟩ := (reachable_after h).stamped.version k o ho
        have hsame : o.WrittenAs ((after h).version + 1) := he.trans (writtenAs_stamp _ _)
        have hnumber := hw.unique hsame
        omega
      rw [hfind] at ho ho'
      split at ho <;> split at ho'
      · rename_i hk hk'
        exact hk.trans hk'.symm
      · cases ho
        exact absurd hv.symm (hnew ho')
      · cases ho'
        exact absurd hv (hnew ho)
      · exact ih ho ho' hv

theorem nodup_versions (h : List Operation) :
    ((after h).objects.map fun p => p.2.metadata.resourceVersion).Nodup := by
  have hs := (reachable_after h).sound
  refine List.pairwise_map.2 (List.Pairwise.imp_of_mem ?_ hs.ordered)
  intro p q hp hq hbefore hv
  have hk := key_of_version (hs.find_of_mem hp) (hs.find_of_mem hq) hv
  exact StoreKey.ne_of_before hbefore hk

theorem writes_write (hs : s.Stamped) (verb : String) (r : Resource) (uid : Option String)
    (o : Object) :
    Writes s verb r o (s.stamp (withUid uid o)) (s.write verb r (withUid uid o)).2 where
  version := rfl
  log := rfl
  written := writtenAs_stamp s _
  absent hf := by
    obtain ⟨n, hn, hw⟩ := hs.version _ _ hf
    have hnumber := hw.unique (writtenAs_stamp s _)
    omega
  found := (find_write s verb r _ _).trans (if_pos rfl)

namespace Outcome

variable {α : Type} {deed : α → MemoryStore → Prop}

theorem of_error (f : Failure) : Outcome s deed (.error f, s) :=
  ⟨fun _ _ => rfl, fun _ h => nomatch h⟩

theorem of_ok {a : α} {s' : MemoryStore} (h : deed a s') : Outcome s deed (.ok a, s') :=
  ⟨fun _ hf => (nomatch hf), fun _ ha => Except.ok.inj ha ▸ h⟩

end Outcome

theorem outcome_create {deed : Object → MemoryStore → Prop} {r : Resource} {o : Object}
    (h : ∀ uid, deed (s.stamp (withUid uid o)) (s.write "create" r (withUid uid o)).2) :
    Outcome s deed (s.create r o) := by
  rw [create]
  split
  · exact .of_error _
  · exact .of_ok (h none)

theorem outcome_update {deed : Object → MemoryStore → Prop} {r : Resource} {o : Object}
    (h : ∀ uid, deed (s.stamp (withUid uid o)) (s.write "update" r (withUid uid o)).2) :
    Outcome s deed (s.update r o) := by
  rw [update]
  split
  · exact .of_error _
  · rename_i live _
    split
    · exact .of_error _
    · exact .of_ok (h live.metadata.uid)

theorem outcome_apply {deed : Object → MemoryStore → Prop} {r : Resource} {o : Object}
    (h : ∀ uid, deed (s.stamp (withUid uid o)) (s.write "apply" r (withUid uid o)).2) :
    Outcome s deed (s.apply r o) := by
  rw [apply]
  split
  · exact .of_error _
  · exact .of_ok (h _)

theorem outcome_delete (s : MemoryStore) (r : Resource) (space : Option String) (name : String) :
    Outcome s (Deletes s r (space.getD "") name) (s.delete r space name) := by
  rw [delete]
  split
  · exact .of_error _
  · dsimp only
    split
    · rename_i hf
      exact .of_ok ⟨rfl, (List.append_nil _).symm, by rw [hf]; rfl, fun _ => rfl⟩
    · rename_i hf
      exact .of_ok ⟨rfl, rfl, by rw [hf]; rfl, fun h => absurd h.symm Bool.false_ne_true⟩

/-- A call that fails leaves the whole store as it was. -/
theorem answer_of_failed {c : StoreCall} {f : Failure} (h : (s.answer c).1 = c.failed f) :
    (s.answer c).2 = s := by
  cases c with
  | get r space name => rfl
  | list r space selector => rfl
  | create r o =>
    have hx : Outcome s (fun _ _ => True) (s.create r o) := outcome_create fun _ => trivial
    exact hx.failed f h
  | update r o =>
    have hx : Outcome s (fun _ _ => True) (s.update r o) := outcome_update fun _ => trivial
    exact hx.failed f h
  | apply r o manager =>
    have hx : Outcome s (fun _ _ => True) (s.apply r o) := outcome_apply fun _ => trivial
    exact hx.failed f h
  | delete r space name => exact (outcome_delete s r space name).failed f h

theorem counted_of_stamped (hs : s.Stamped) : Counted s where
  inserted _ _ := ⟨rfl, rfl⟩
  created r o := outcome_create fun uid => writes_write hs "create" r uid o
  updated r o := outcome_update fun uid => writes_write hs "update" r uid o
  applied r o := outcome_apply fun uid => writes_write hs "apply" r uid o
  deleted := outcome_delete s
  failed _ _ h := answer_of_failed h

/-- Whatever is done to a store that was empty, its objects are numbered by their writes. -/
theorem history_numbered (h : List Operation) : Numbered h where
  keyed k o ho := originates_of_find ((reachable_after h).sound.find_of_mem ho)
  stamped k o ho := by
    have hf := (reachable_after h).sound.find_of_mem ho
    exact ⟨(reachable_after h).stamped.uid k o hf, (originates_of_find hf).number⟩
  distinct := nodup_versions h
  unused pre op mid op' post k o k' o' hh hplaces hplaces' he := by
    obtain ⟨-, hw, hv⟩ := hplaces.spec
    obtain ⟨-, hw', -⟩ := hplaces'.spec
    have hle := version_after_le (pre ++ [op]) mid
    rw [after_concat, hv, List.append_assoc, List.singleton_append] at hle
    have hnumber := Object.WrittenAs.unique (he.symm.trans hw') hw
    omega
  counted := counted_of_stamped (reachable_after h).stamped

end MemoryStore

end MeshRollout
