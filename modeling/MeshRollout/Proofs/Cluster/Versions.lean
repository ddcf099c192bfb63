import MeshRollout.Proofs.Cluster.StoreView
import MeshRollout.Proofs.Name

/-!
Versions of objects. Every write gives the object it puts in place a version that no object had
before. So an object that is found with the version of one that was seen is the very object that was
seen, and one that was replaced or deleted never comes back, also where the key was deleted and
created again.
-/
set_option autoImplicit false

namespace MeshRollout

def Object.WrittenAs (o : Object) (n : Nat) : Prop :=
  o.metadata.resourceVersion = some (toString n)

theorem Object.WrittenAs.unique {o : Object} {m n : Nat} (hm : o.WrittenAs m)
    (hn : o.WrittenAs n) : m = n :=
  number_inj (Option.some.inj (hm.symm.trans hn))

namespace MemoryStore

structure Stamped (s : MemoryStore) : Prop where
  version : ∀ k o, s.find k = some o → ∃ n, n ≤ s.version ∧ o.WrittenAs n
  uid : ∀ k o, s.find k = some o → ∃ uid, o.metadata.uid = some uid

/-- The store went on: under every key is what was there, or nothing, or what was written since. -/
structure Later (s s' : MemoryStore) : Prop where
  version : s.version ≤ s'.version
  find : ∀ k, s'.find k = s.find k ∨
    ∀ o, s'.find k = some o → ∃ n, s.version < n ∧ o.WrittenAs n

variable {s s' s'' : MemoryStore} {k : StoreKey} {o : Object}

theorem writtenAs_stamp (s : MemoryStore) (o : Object) : (s.stamp o).WrittenAs (s.version + 1) :=
  rfl

theorem uid_stamp (s : MemoryStore) (o : Object) :
    ∃ uid, (s.stamp o).metadata.uid = some uid :=
  ⟨_, rfl⟩

namespace Stamped

/-- Whatever is found is what was found before, or a stamped object that this write put in place. -/
theorem of_find (h : s.Stamped) (hv : s.version ≤ s'.version)
    (hf : ∀ k o, s'.find k = some o → s.find k = some o ∨
      (o.WrittenAs s'.version ∧ ∃ uid, o.metadata.uid = some uid)) : s'.Stamped where
  version k o ho := by
    rcases hf k o ho with hs | ⟨hw, -⟩
    · obtain ⟨n, hn, hw⟩ := h.version k o hs
      exact ⟨n, Nat.le_trans hn hv, hw⟩
    · exact ⟨s'.version, Nat.le_refl _, hw⟩
  uid k o ho := by
    rcases hf k o ho with hs | ⟨-, hu⟩
    · exact h.uid k o hs
    · exact hu

theorem answer (h : s.Stamped) (c : StoreCall) : (s.answer c).2.Stamped := by
  cases effect_answer s c with
  | nothing same => rw [same]; exact h
  | deleted k live target found find version =>
    refine h.of_find (Nat.le_of_eq version.symm) fun k' o ho => .inl ?_
    rw [find] at ho
    split at ho
    · cases ho
    · exact ho
  | written k o target object find version =>
    refine h.of_find (by omega) fun k' o' ho => ?_
    rw [find] at ho
    split at ho
    · cases ho
      exact .inr ⟨version ▸ writtenAs_stamp s _, uid_stamp s _⟩
    · exact .inl ho

theorem keep (h : s.Stamped) (r : Resource) (o : Object) : (s.keep r o).Stamped := by
  refine h.of_find (Nat.le_succ _) fun k o' ho => ?_
  have hf : (s.keep r o).find k = if k = .ofObject r o then some (s.stamp o) else s.find k :=
    lookup_put (.ofObject r (s.stamp o)) k (s.stamp o) s.objects
  rw [hf] at ho
  split at ho
  · cases ho
    exact .inr ⟨writtenAs_stamp s o, uid_stamp s o⟩
  · exact .inl ho

end Stamped

theorem Reachable.stamped (h : s.Reachable) : s.Stamped := by
  induction h with
  | empty => exact ⟨fun _ _ ho => (by cases ho), fun _ _ ho => (by cases ho)⟩
  | insert _ r o ih => exact ih.keep r o
  | answer _ c ih => exact ih.answer c
  | refuse _ _ _ ih => exact ⟨ih.version, ih.uid⟩
  | clearWrites _ ih => exact ⟨ih.version, ih.uid⟩

namespace Later

theorem refl (s : MemoryStore) : Later s s :=
  ⟨Nat.le_refl _, fun _ => .inl rfl⟩

theorem trans (h : Later s s') (h' : Later s' s'') : Later s s'' where
  version := Nat.le_trans h.version h'.version
  find k := by
    rcases h'.find k with he | hnew
    · rw [he]
      exact h.find k
    · refine .inr fun o ho => ?_
      obtain ⟨n, hn, hw⟩ := hnew o ho
      exact ⟨n, Nat.lt_of_le_of_lt h.version hn, hw⟩

theorem answer (s : MemoryStore) (c : StoreCall) : Later s (s.answer c).2 := by
  cases effect_answer s c with
  | nothing same => rw [same]; exact refl s
  | deleted k live target found find version =>
    refine ⟨Nat.le_of_eq version.symm, fun k' => ?_⟩
    by_cases hk : k' = k
    · refine .inr fun o ho => ?_
      rw [find, if_pos hk] at ho
      cases ho
    · exact .inl ((find k').trans (if_neg hk))
  | written k o target object find version =>
    refine ⟨by omega, fun k' => ?_⟩
    by_cases hk : k' = k
    · refine .inr fun o' ho => ?_
      rw [find, if_pos hk] at ho
      cases ho
      exact ⟨s.version + 1, Nat.lt_succ_self _, writtenAs_stamp s _⟩
    · exact .inl ((find k').trans (if_neg hk))

theorem not_seen (hs : s.Stamped) (ho : s.find k = some o) {n : Nat} (hn : s.version < n)
    {o' : Object} (hw : o'.WrittenAs n) :
    o'.metadata.resourceVersion ≠ o.metadata.resourceVersion := by
  intro he
  obtain ⟨m, hm, hwm⟩ := hs.version k o ho
  have hsame : o'.WrittenAs m := he.trans hwm
  have hmn := hsame.unique hw
  omega

/-- An object with the version that was seen is the object that was seen. -/
theorem eq_of_version (h : Later s s') (hs : s.Stamped) (ho : s.find k = some o) {live : Object}
    (hl : s'.find k = some live)
    (hv : live.metadata.resourceVersion = o.metadata.resourceVersion) : live = o := by
  rcases h.find k with he | hnew
  · exact Option.some.inj (hl.symm.trans (he.trans ho))
  · obtain ⟨n, hn, hw⟩ := hnew live hl
    exact absurd hv (not_seen hs ho hn hw)

/-- What was seen does not come back once it has gone, whatever is created in its place. -/
theorem gone (h : Later s s') (h' : Later s' s'') (hs : s.Stamped) (ho : s.find k = some o)
    (hne : s'.find k ≠ some o) : s''.find k ≠ some o := by
  intro hback
  rcases h'.find k with he | hnew
  · exact hne (he.symm.trans hback)
  · obtain ⟨n, hn, hw⟩ := hnew o hback
    exact not_seen hs ho (Nat.lt_of_le_of_lt h.version hn) hw rfl

end Later

/-- As long as an object is there, no call gives it another identity. -/
theorem uid_answer (hs : s.Stamped) (c : StoreCall) {live : Object} (ho : s.find k = some o)
    (hl : (s.answer c).2.find k = some live) : live.metadata.uid = o.metadata.uid := by
  cases effect_answer s c with
  | nothing same =>
    rw [same, ho] at hl
    cases hl
    rfl
  | deleted k' _ target found find version =>
    rw [find] at hl
    split at hl
    · cases hl
    · cases ho.symm.trans hl
      rfl
  | written k' o' target object find version =>
    rw [find] at hl
    split at hl
    · rename_i hk
      obtain ⟨uid, hu⟩ := hs.uid k o ho
      cases hl
      rw [successor, ← hk, ho]
      simp [stamp, withUid, hu]
    · cases ho.symm.trans hl
      rfl

end MemoryStore

end MeshRollout
