import MeshRollout.Proofs.Desired.Applying

/-!
A pass over one kind deletes first and applies afterwards. What it deletes is told by the store at
the beginning, and it fails there only if the store refuses a deletion.
-/
set_option autoImplicit false

namespace MeshRollout

open MemoryStore (serve)
open Pass (on callsOn)

namespace Convergence

open StoreKey Rehearsal

variable {r : Resource} {desired : List Object} {p p' : Progress} {k : StoreKey}
  {s s' : MemoryStore} {w : Rehearsal}

def tidy (r : Resource) (desired : List Object) : Pass Progress :=
  if desired.isEmpty then do
    pruneAll r {} (← Pass.list r none none)
  else
    pruneSpaces r {} (wanted desired)

theorem tidy_nil : tidy r [] = (do pruneAll r {} (← Pass.list r none none)) := rfl

theorem tidy_of_ne (h : desired ≠ []) : tidy r desired = pruneSpaces r {} (wanted desired) :=
  if_neg (by simpa using h)

/-- What follows the deletions may count on their having rejected nothing. -/
theorem pruneAll_bind_congr {α : Type} {f g : Progress → Pass α} (l : List Object)
    (h : ∀ p', p'.rejection = p.rejection → f p' = g p') :
    (pruneAll r p l >>= f) = (pruneAll r p l >>= g) := by
  induction l generalizing p with
  | nil => simp only [pruneAll, pure_bind, h p rfl]
  | cons live l ih =>
    simp only [pruneAll, prune, bind_assoc]
    refine congrArg _ (funext fun _ => congrArg _ (funext fun gone => ?_))
    cases gone with
    | true => exact ih fun p' hp => h p' hp
    | false => exact ih fun p' hp => h p' hp

theorem converge_eq (manager : String) (hkinds : stray? r desired = none) :
    converge manager r desired = (do
      let p ← tidy r desired
      let p ← applyAll manager r p desired
      Pass.ofExcept p.finish) := by
  by_cases hne : desired = []
  · subst hne
    rw [converge_nil, tidy_nil, bind_assoc]
    refine congrArg _ (funext fun live => pruneAll_bind_congr live fun p hp => ?_)
    rw [applyAll, pure_bind, Progress.finish, hp]
    rfl
  · rw [converge_of_ne manager hkinds hne, tidy_of_ne hne]

def Surplus (r : Resource) (desired : List Object) (k : StoreKey) : Prop :=
  InReach r desired k ∧ ∀ o ∈ desired, .ofObject r o ≠ k

theorem surplus_nil : Surplus r [] k ↔ k.resource = resourceText r := by
  simp [Surplus, InReach]

theorem surplus_of_ne (h : desired ≠ []) :
    Surplus r desired k ↔ Unwanted r (wanted desired) k := by
  simp [Surplus, InReach, unwanted_iff, h, and_assoc]

structure Tidied (r : Resource) (desired : List Object) (s s' : MemoryStore) : Prop where
  gone : ∀ k, Surplus r desired k → s'.find k = none
  elsewhere : ∀ k, ¬ Surplus r desired k → s'.find k = s.find k

theorem yields_tidy (hw : w.Intact) :
    alone.Yields (WritesOnly (InReach r desired)) (tidy r desired)
      (fun p w' => p.rejection = none ∧ Cleared (Surplus r desired) w w') w := by
  by_cases hne : desired = []
  · subst hne
    -- with nothing desired, what is listed is all there is of the kind
    refine (list_all hw).bind fun live w₁ ⟨hlive, h₁⟩ => ?_
    refine (yields_pruneAll {} (fun _ _ => ⟨rfl, .inl rfl⟩) (h₁.intact hw)).mono ?_
    intro p w₂ ⟨hp, h₂⟩
    refine ⟨hp, (h₂.alike_left h₁).congr fun k x hx => ?_⟩
    rw [surplus_nil]
    constructor
    · rintro ⟨y, -, rfl⟩
      rfl
    · intro hk
      have hkey := hw.sound.ofObject_eq hk hx
      exact ⟨x, hlive ▸ hw.sound.mem_list.2 ⟨hkey ▸ hx, by simp, rfl⟩, hkey.symm⟩
  · rw [tidy_of_ne hne]
    refine (yields_pruneSpaces {} inReach_of_wanted hw).mono fun p w₁ ⟨hp, hc⟩ => ⟨hp, ?_⟩
    exact hc.congr fun k _ _ => (surplus_of_ne hne).symm

def Tidies (c : Call) : Prop :=
  (∃ r space selector, c = .store (.list r space selector)) ∨
    (∃ r space name, c = .store (.delete r space name)) ∨
      ∃ kind space name, c = .notify (Notice.deleted kind space name)

theorem Tidies.isLocal {c : Call} (h : Tidies c) : c.isLocal = true := by
  rcases h with ⟨_, _, _, rfl⟩ | ⟨_, _, _, rfl⟩ | ⟨_, _, _, rfl⟩ <;> rfl

theorem uses_prune (live : Object) (p : Progress) : (prune r live p).Uses Tidies := by
  have hsent : (Pass.notify (Notice.deleted r.kind live.space live.name)).Uses Tidies :=
    Pass.Uses.bind ⟨.inr (.inr ⟨_, _, _, rfl⟩), fun _ => trivial⟩ fun _ => Pass.uses_pure ()
  refine hsent.bind fun _ => ?_
  refine Pass.Uses.bind ⟨.inr (.inl ⟨_, _, _, rfl⟩), fun _ => trivial⟩ fun gone => ?_
  cases gone with
  | true => exact Pass.uses_pure _
  | false => exact Pass.uses_pure _

theorem uses_pruneAll (l : List Object) (p : Progress) : (pruneAll r p l).Uses Tidies := by
  induction l generalizing p with
  | nil => exact Pass.uses_pure p
  | cons live l ih => exact (uses_prune live p).bind fun p' => ih p'

theorem uses_pruneSpaces (ws : Dict (List String)) (p : Progress) :
    (pruneSpaces r p ws).Uses Tidies := by
  induction ws generalizing p with
  | nil => exact Pass.uses_pure p
  | cons q ws ih =>
    refine Pass.Uses.bind ⟨.inl ⟨_, _, _, rfl⟩, fun _ => trivial⟩ fun live => ?_
    exact (uses_pruneAll _ p).bind fun p' => ih p'

theorem uses_tidy (r : Resource) (desired : List Object) : (tidy r desired).Uses Tidies := by
  by_cases hne : desired = []
  · subst hne
    exact Pass.Uses.bind ⟨.inl ⟨_, _, _, rfl⟩, fun _ => trivial⟩ fun live => uses_pruneAll live {}
  · rw [tidy_of_ne hne]
    exact uses_pruneSpaces _ {}

theorem deaf_tidy (r : Resource) (desired : List Object) : (tidy r desired).Deaf := by
  by_cases hne : desired = []
  · subst hne
    exact Pass.Deaf.bind (Program.deaf_ask fun _ h => nomatch h) fun live => deaf_pruneAll r live {}
  · rw [tidy_of_ne hne]
    exact deaf_pruneSpaces r _ {}

theorem tidied (hs : s.Sound) (h : on serve (tidy r desired) s = (.ok p, s')) :
    p.rejection = none ∧ Tidied r desired s s' :=
  (deaf_tidy r desired).of_yields ((uses_tidy r desired).mono fun _ => Tidies.isLocal)
    (Q := fun p s' => p.rejection = none ∧ Tidied r desired s s')
    ((yields_tidy ⟨hs, rfl⟩).mono fun _ _ ⟨hp, hc⟩ => ⟨hp, hc.gone, hc.elsewhere⟩) h

section Free

theorem pruneAll_of_free (l : List Object) (p : Progress) (h : s.refusedDeletions = []) :
    ∃ p' s', on serve (pruneAll r p l) s = (.ok p', s') ∧ s'.refusedDeletions = [] := by
  induction l generalizing p s with
  | nil => exact ⟨p, s, rfl, h⟩
  | cons live l ih =>
    have hdelete : ∃ gone s₁, s.delete r live.spaceArg live.name = (.ok gone, s₁) ∧
        s₁.refusedDeletions = [] := by
      rw [MemoryStore.delete, h]
      simp only [Dict.get]
      split
      · exact ⟨_, _, rfl, h⟩
      · exact ⟨_, _, rfl, h⟩
    obtain ⟨gone, s₁, hd, h₁⟩ := hdelete
    simp only [pruneAll, prune, bind_assoc, Pass.on_bind, Pass.on_notify,
      MemoryStore.serve_notify, Pass.on_delete, hd]
    cases gone with
    | true => exact ih _ h₁
    | false => exact ih _ h₁

theorem pruneSpaces_of_free (ws : Dict (List String)) (p : Progress)
    (h : s.refusedDeletions = []) :
    ∃ p' s', on serve (pruneSpaces r p ws) s = (.ok p', s') := by
  induction ws generalizing p s with
  | nil => exact ⟨p, s, rfl⟩
  | cons q ws ih =>
    obtain ⟨space, names⟩ := q
    obtain ⟨p₁, s₁, h₁, hfree⟩ := pruneAll_of_free (r := r)
      ((s.list r (if space.isEmpty then none else some space) none).filter
        (isUnwanted space names)) p h
    simp only [pruneSpaces, Pass.on_bind, Pass.on_list, h₁]
    exact ih p₁ hfree

theorem tidy_of_free (r : Resource) (desired : List Object) (h : s.refusedDeletions = []) :
    ∃ p s', on serve (tidy r desired) s = (.ok p, s') := by
  by_cases hne : desired = []
  · subst hne
    obtain ⟨p, s', hp, -⟩ := pruneAll_of_free (r := r) (s.list r none none) {} h
    exact ⟨p, s', by rw [tidy_nil, Pass.on_bind, Pass.on_list]; exact hp⟩
  · rw [tidy_of_ne hne]
    exact pruneSpaces_of_free _ {} h

end Free

theorem pruneSpaces_idle {ws : Dict (List String)} (p : Progress) (hs : s.Sound)
    (hnone : ∀ k, Unwanted r ws k → s.find k = none) :
    on serve (pruneSpaces r p ws) s = (.ok p, s) ∧
      ∀ c ∈ callsOn serve (pruneSpaces r p ws) s, c.isRead = true := by
  induction ws with
  | nil => exact ⟨rfl, fun _ hc => nomatch hc⟩
  | cons q ws ih =>
    obtain ⟨space, names⟩ := q
    obtain ⟨hrest, hcalls⟩ := ih fun k hk => hnone k hk.cons
    simp only [pruneSpaces, Pass.on_bind, Pass.on_list, Pass.callsOn_bind, Pass.callsOn_list,
      filter_unwanted_eq_nil hs hnone, pruneAll, Pass.on_pure, Pass.callsOn_pure, List.nil_append]
    exact ⟨hrest, List.forall_mem_cons.2 ⟨rfl, hcalls⟩⟩

theorem tidy_idle (hs : s.Sound) (hnone : ∀ k, Surplus r desired k → s.find k = none) :
    on serve (tidy r desired) s = (.ok {}, s) ∧
      ∀ c ∈ callsOn serve (tidy r desired) s, c.isRead = true := by
  by_cases hne : desired = []
  · subst hne
    have hnil := list_eq_nil hs fun k hk => hnone k (surplus_nil.2 hk)
    rw [tidy_nil, Pass.on_bind, Pass.callsOn_bind, Pass.on_list, Pass.callsOn_list, hnil]
    exact ⟨rfl, by simp [pruneAll, Call.isRead]⟩
  · rw [tidy_of_ne hne]
    exact pruneSpaces_idle {} hs fun k hk => hnone k ((surplus_of_ne hne).2 hk)

end Convergence

end MeshRollout
