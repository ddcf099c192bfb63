import MeshRollout.ApiServer.Session
import MeshRollout.Cluster.MemoryStore
import MeshRollout.Proofs.Cluster.Answers

/-!
Failures of the cluster are never faults of the configuration of a route: not those of the store in
memory, and not those that the replies of the API server are told as.
-/
set_option autoImplicit false

namespace MeshRollout

/-- The store in memory never finds fault with a configuration. -/
theorem MemoryStore.answer_ne_failed {f : Failure} (hf : f.isOfConfiguration = true)
    (c : StoreCall) (s : MemoryStore) : (s.answer c).1 ≠ c.failed f := by
  intro h
  cases c with
  | get r space name => cases h
  | list r space selector => cases h
  | create r o =>
    replace h : (s.create r o).1 = .error f := h
    rw [create] at h
    split at h
    · cases h
      cases hf
    · cases h
  | update r o =>
    replace h : (s.update r o).1 = .error f := h
    rw [update] at h
    split at h
    · cases h
      cases hf
    · split at h
      · cases h
        cases hf
      · cases h
  | apply r o manager =>
    replace h : (s.apply r o).1 = .error f := h
    rw [apply] at h
    split at h
    · cases h
      cases hf
    · cases h
  | delete r space name =>
    replace h : (s.delete r space name).1 = .error f := h
    simp only [delete] at h
    split at h
    · cases h
      cases hf
    · split at h <;> cases h

namespace ApiServer

variable {σ α β : Type} {f : Failure}

theorem exists_told (reply : Request → σ → Reply × σ)
    (tell : Except ClusterError α → Except Failure β) (d : Dialogue α) (s : σ) :
    ∃ a, ((told tell d).run reply s).1 = tell a := by
  have hbind (e : Exchange (Except ClusterError α)) (s : σ) :
      ∃ a, ((e.bind fun a => .done (tell a)).run reply s).1 = tell a := by
    induction e generalizing s with
    | done a => exact ⟨a, rfl⟩
    | send q next ih => exact ih (reply q s).1 (reply q s).2
  exact hbind d s

/-- However the API server replies, what it is told as is no fault of a configuration. -/
def Faultless (tell : Except ClusterError α → Except Failure β) : Prop :=
  ∀ a f, tell a = .error f → f.isOfConfiguration = false

theorem faultless_plain : Faultless (plain (α := α)) := by
  intro a f h
  cases a with
  | ok x => nomatch h
  | error e =>
    cases h
    rfl

theorem faultless_written (r : Resource) (o : Object) : Faultless (written (α := α) r o) := by
  intro a f h
  cases a with
  | ok x => nomatch h
  | error e =>
    simp only [written, Except.mapError, Except.error.injEq] at h
    subst h
    split
    · split <;> rfl
    · rfl

theorem faultless_deleted : Faultless deleted := by
  intro a f h
  rw [deleted.eq_def] at h
  split at h
  · nomatch h
  · split at h
    · nomatch h
    · cases h
      rfl
  · cases h
    rfl

theorem Faultless.run_told {tell : Except ClusterError α → Except Failure β}
    (h : Faultless tell) (hf : f.isOfConfiguration = true) (reply : Request → σ → Reply × σ)
    (d : Dialogue α) (s : σ) : ((told tell d).run reply s).1 ≠ .error f := by
  obtain ⟨a, ha⟩ := exists_told reply tell d s
  intro he
  have hnot := h a f (ha.symm.trans he)
  rw [hf] at hnot
  nomatch hnot

theorem run_named_ne_error (hf : f.isOfConfiguration = true) (reply : Request → σ → Reply × σ)
    (r : Resource) (o : Object) {e : Exchange (Except Failure Object)} (s : σ)
    (he : (e.run reply s).1 ≠ .error f) : ((named r o e).run reply s).1 ≠ .error f := by
  rw [named]
  split
  · intro h
    cases h
    nomatch hf
  · exact he

end ApiServer

open ApiServer in
/-- Whatever the replies of the API server are, no call on the cluster finds fault with a
configuration. -/
theorem Session.answer_ne_failed {f : Failure} (hf : f.isOfConfiguration = true) (c : Call)
    (s : Session) : c.failed? f ≠ some (s.answer c).1 := by
  have of_ne {γ : Type} {a b : γ} (h : a ≠ b) : some b ≠ some a :=
    fun he => h (Option.some.inj he).symm
  cases c with
  | store c =>
    refine of_ne ?_
    cases c with
    | get r space name => exact faultless_plain.run_told hf _ _ _
    | list r space selector => exact faultless_plain.run_told hf _ _ _
    | create r o =>
      exact run_named_ne_error hf _ _ _ _ ((faultless_written r o).run_told hf _ _ _)
    | update r o =>
      exact run_named_ne_error hf _ _ _ _ ((faultless_written r o).run_told hf _ _ _)
    | apply r o manager => exact run_named_ne_error hf _ _ _ _ (faultless_plain.run_told hf _ _ _)
    | delete r space name => exact faultless_deleted.run_told hf _ _ _
  | route c =>
    refine of_ne ?_
    cases c with
    | get space name => exact faultless_plain.run_told hf _ _ _
    | hold space name finalizer => exact faultless_plain.run_told hf _ _ _
    | release space name finalizer => exact faultless_plain.run_told hf _ _ _
    | patchStatus space name status => exact faultless_plain.run_told hf _ _ _
  | notify message => nofun
  | cancelled => nofun
  | now => nofun
  | fetch =>
    intro h
    cases h
    nomatch hf

end MeshRollout
