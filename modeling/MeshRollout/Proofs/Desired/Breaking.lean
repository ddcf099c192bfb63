import MeshRollout.Proofs.Cluster.Numbering
import MeshRollout.Proofs.Desired.Notices

/-!
Where a pass over one kind breaks off. If it fails otherwise than by a rejection, its last call on
the store failed and wrote nothing. All deletions are made before anything is applied, and the
desired objects are visited in their order, so those behind the failing one are left alone.
-/
set_option autoImplicit false

namespace MeshRollout

open Pass (on interactionsOn)
open Rehearsal (answer)

structure Interaction.FailsWith (e : Interaction Rehearsal) (f : Failure) : Prop where
  stored : ∃ c, e.call = .store c
  answered : e.call.failed? f = some e.answer
  kept : e.after.store = e.before.store

namespace Pass

variable {α β : Type} {P : Call → Prop} {w w' : Rehearsal}

/-- The last call on the store, which is as it is said, fails, and only messages follow. -/
def BreaksAt (P : Call → Prop) (es : List (Interaction Rehearsal)) (f : Failure) : Prop :=
  ∃ made e told, es = made ++ e :: told ∧ P e.call ∧ e.FailsWith f ∧
    ∀ x ∈ told, ∃ message, x.call = .notify message

theorem BreaksAt.append_left {es : List (Interaction Rehearsal)} {f : Failure}
    (h : BreaksAt P es f) (es' : List (Interaction Rehearsal)) : BreaksAt P (es' ++ es) f := by
  obtain ⟨made, e, told, rfl, hrest⟩ := h
  exact ⟨es' ++ made, e, told, by rw [List.append_assoc], hrest⟩

def FailsAt (P : Call → Prop) (p : Pass α) : Prop :=
  ∀ w, w.Intact → ∀ f w', on answer p w = (.error f, w') → BreaksAt P (interactionsOn answer p w) f

theorem failsAt_pure (x : α) : FailsAt P (pure x) :=
  fun _ _ _ _ h => nomatch congrArg Prod.fst h

theorem FailsAt.bind {p : Pass α} {k : α → Pass β} (hp : p.FailsAt P) (hk : ∀ x, (k x).FailsAt P) :
    FailsAt P (p >>= k) := by
  intro w hw f w' h
  rw [on_bind] at h
  rw [interactionsOn_bind]
  rcases hx : on answer p w with ⟨e | x, w₁⟩
  · rw [hx] at h
    cases h
    dsimp only
    rw [List.append_nil]
    exact hp w hw f w' hx
  · rw [hx] at h
    exact (hk x w₁ (hw.on hx) f w' h).append_left _

/-- A failed call wrote nothing, whether it was answered by the store or not at all. -/
theorem failsWith_of_answer (hw : w.Intact) {c : StoreCall} {f : Failure}
    (h : (w.answerStore c).1 = c.failed f) : (Interaction.of answer (.store c) w).FailsWith f where
  stored := ⟨c, rfl⟩
  answered := congrArg some h.symm
  kept := by
    obtain ⟨-, -, ⟨-, hs⟩ | ⟨ha, hs⟩⟩ := Rehearsal.answerStore_cases c hw.races
    · exact hs
    · exact hs.trans (MemoryStore.answer_of_failed (ha.symm.trans h))

theorem breaksAt_call (hw : w.Intact) {c : StoreCall} {f : Failure} (hP : P (.store c))
    (h : (w.answerStore c).1 = c.failed f) :
    BreaksAt P [Interaction.of answer (.store c) w] f :=
  ⟨[], _, [], rfl, hP, failsWith_of_answer hw h, fun _ hx => nomatch hx⟩

theorem failsAt_get {r : Resource} {space : Option String} {name : String}
    (hP : P (.store (.get r space name))) : FailsAt P (Pass.get r space name) :=
  fun _ hw _ _ h => breaksAt_call hw hP (congrArg Prod.fst h)

theorem failsAt_list {r : Resource} {space selector : Option String}
    (hP : P (.store (.list r space selector))) : FailsAt P (Pass.list r space selector) :=
  fun _ hw _ _ h => breaksAt_call hw hP (congrArg Prod.fst h)

theorem failsAt_delete {r : Resource} {space : Option String} {name : String}
    (hP : P (.store (.delete r space name))) : FailsAt P (Pass.delete r space name) :=
  fun _ hw _ _ h => breaksAt_call hw hP (congrArg Prod.fst h)

theorem failsAt_notify (message : String) : FailsAt P (notify message) := by
  intro w hw f w' h
  rw [on_notify] at h
  nomatch congrArg Prod.fst h

end Pass

namespace Convergence

variable {manager : String} {r : Resource} {w w' : Rehearsal}

theorem failsAt_prune (live : Object) (p : Progress) : (prune r live p).FailsAt Tidies := by
  refine (Pass.failsAt_notify _).bind fun _ => ?_
  refine (Pass.failsAt_delete (.inr (.inl ⟨_, _, _, rfl⟩))).bind fun gone => ?_
  cases gone with
  | true => exact Pass.failsAt_pure _
  | false => exact Pass.failsAt_pure _

theorem failsAt_pruneAll (l : List Object) (p : Progress) : (pruneAll r p l).FailsAt Tidies := by
  induction l generalizing p with
  | nil => exact Pass.failsAt_pure p
  | cons live l ih => exact (failsAt_prune live p).bind fun p' => ih p'

theorem failsAt_pruneSpaces (ws : Dict (List String)) (p : Progress) :
    (pruneSpaces r p ws).FailsAt Tidies := by
  induction ws generalizing p with
  | nil => exact Pass.failsAt_pure p
  | cons q ws ih =>
    refine (Pass.failsAt_list (.inl ⟨_, _, _, rfl⟩)).bind fun live => ?_
    exact (failsAt_pruneAll _ p).bind fun p' => ih p'

theorem failsAt_tidy (r : Resource) (desired : List Object) : (tidy r desired).FailsAt Tidies := by
  rw [tidy]
  split
  · exact (Pass.failsAt_list (.inl ⟨_, _, _, rfl⟩)).bind fun live => failsAt_pruneAll live {}
  · exact failsAt_pruneSpaces _ {}

def IsAbout (manager : String) (r : Resource) (o : Object) (c : Call) : Prop :=
  c = .store (.get r o.spaceArg o.name) ∨ c = .store (.apply r o manager)

theorem uses_afterApplying (r : Resource) (o : Object) (p : Progress) (x : Except Failure Object) :
    (afterApplying r o p x).Uses fun c => ∃ message, c = .notify message := by
  have hnotify (message : String) :
      (Pass.notify message).Uses fun c => ∃ message, c = .notify message :=
    Pass.uses_notify (fun message => ⟨message, rfl⟩) message
  cases x with
  | ok _ => exact (hnotify _).bind fun _ => Pass.uses_pure _
  | error f =>
    rw [afterApplying]
    split
    · exact Pass.uses_pure _
    · exact (hnotify _).bind fun _ => Pass.uses_throw f

/-- What happens once an object is to be applied: one call, and messages. -/
theorem interactionsOn_applying (manager : String) (r : Resource) (o : Object) (p : Progress)
    (w : Rehearsal) :
    ∃ told, interactionsOn answer ((Pass.apply r o manager).attempt >>= afterApplying r o p) w
        = Interaction.of answer (.store (.apply r o manager)) w :: told ∧
      ∀ x ∈ told, ∃ message, x.call = .notify message := by
  rw [Pass.interactionsOn_bind, Pass.on_attempt, Pass.interactionsOn_attempt]
  exact ⟨_, rfl, (uses_afterApplying r o p _).of_interactions answer _⟩

theorem failsAt_applyUnlessSame (manager : String) (r : Resource)
    (differs : Object → Object → Bool) (o : Object) (p : Progress) :
    (applyUnlessSame manager r differs o p).FailsAt (IsAbout manager r o) := by
  rw [applyUnlessSame_eq]
  refine (Pass.failsAt_get (.inl rfl)).bind fun live => ?_
  split
  · exact Pass.failsAt_pure _
  · intro w hw f w' h
    obtain ⟨told, hes, htold⟩ := interactionsOn_applying manager r o p w
    refine ⟨[], _, told, hes, .inr rfl, Pass.failsWith_of_answer hw ?_, htold⟩
    rw [Pass.on_bind, Pass.on_attempt] at h
    have hon : on answer (afterApplying r o p (w.answerStore (.apply r o manager)).1)
        (w.answerStore (.apply r o manager)).2 = (.error f, w') := h
    generalize w.answerStore (.apply r o manager) = y at hon ⊢
    obtain ⟨x, w₂⟩ := y
    cases x with
    | ok o' => cases hon
    | error g =>
      rw [afterApplying] at hon
      split at hon
      · cases hon
      · cases hon
        rfl

end Convergence

def Call.lookup? : Call → Option (Resource × Option String × String)
  | .store (.get r space name) => some (r, space, name)
  | _ => none

def Call.application? : Call → Option (Resource × Object)
  | .store (.apply r o _) => some (r, o)
  | _ => none

namespace Convergence

variable {manager : String} {r : Resource} {w w' : Rehearsal}

/-- The objects are looked up one after another, none else is, and no other ones are applied. -/
structure Visits (r : Resource) (os : List Object) (es : List (Interaction Rehearsal)) : Prop where
  lookups : es.filterMap (·.call.lookup?) = os.map fun o => (r, o.spaceArg, o.name)
  applications : (es.filterMap (·.call.application?)).Sublist (os.map fun o => (r, o))

theorem Visits.append {os os' : List Object} {es es' : List (Interaction Rehearsal)}
    (h : Visits r os es) (h' : Visits r os' es') : Visits r (os ++ os') (es ++ es') where
  lookups := by rw [List.filterMap_append, h.lookups, h'.lookups, List.map_append]
  applications := by
    rw [List.filterMap_append, List.map_append]
    exact h.applications.append h'.applications

theorem visits_none {es : List (Interaction Rehearsal)}
    (h : ∀ e ∈ es, e.call.lookup? = none ∧ e.call.application? = none) : Visits r [] es where
  lookups := List.filterMap_eq_nil_iff.2 fun e he => (h e he).1
  applications := by
    rw [List.filterMap_eq_nil_iff.2 fun e he => (h e he).2]
    exact List.nil_sublist _

theorem visits_applyUnlessSame (manager : String) (r : Resource)
    (differs : Object → Object → Bool) (o : Object) (p : Progress) (w : Rehearsal) :
    Visits r [o] (interactionsOn answer (applyUnlessSame manager r differs o p) w) := by
  rw [applyUnlessSame_eq, Pass.interactionsOn_bind]
  have hget : interactionsOn answer (Pass.get r o.spaceArg o.name) w
      = [Interaction.of answer (.store (.get r o.spaceArg o.name)) w] := rfl
  rw [hget]
  have hlooked {es : List (Interaction Rehearsal)}
      (hlookup : es.filterMap (·.call.lookup?) = [])
      (happlied : (es.filterMap (·.call.application?)).Sublist [(r, o)]) :
      Visits r [o] ([Interaction.of answer (.store (.get r o.spaceArg o.name)) w] ++ es) :=
    ⟨by rw [List.filterMap_append, hlookup]; rfl, happlied⟩
  split
  · split
    · exact hlooked rfl (List.nil_sublist _)
    · rename_i w₁ _ _
      obtain ⟨told, hes, htold⟩ := interactionsOn_applying manager r o p w₁
      have hnone : Visits r [] told := visits_none fun x hx => by
        obtain ⟨message, hm⟩ := htold x hx
        rw [hm]
        exact ⟨rfl, rfl⟩
      rw [hes]
      exact hlooked hnone.lookups (hnone.applications.cons_cons _)
  · exact hlooked rfl (List.nil_sublist _)

/-- The desired objects are visited in their order, all of them or up to one whose call fails. -/
theorem visits_applyAll (manager : String) (r : Resource) (os : List Object) (p : Progress)
    (hw : w.Intact) :
    (∀ p' w', on answer (applyAll manager r p os) w = (.ok p', w') →
      Visits r os (interactionsOn answer (applyAll manager r p os) w)) ∧
    ∀ f w', on answer (applyAll manager r p os) w = (.error f, w') →
      ∃ pre o post, os = pre ++ o :: post ∧
        Visits r (pre ++ [o]) (interactionsOn answer (applyAll manager r p os) w) ∧
        Pass.BreaksAt (IsAbout manager r o) (interactionsOn answer (applyAll manager r p os) w) f := by
  induction os generalizing p w with
  | nil =>
    refine ⟨fun _ _ _ => visits_none fun _ he => absurd he List.not_mem_nil, fun f w' h => ?_⟩
    cases h
  | cons o os ih =>
    have hvisit := visits_applyUnlessSame manager r Object.isOutdated o p w
    have hbreak := failsAt_applyUnlessSame manager r Object.isOutdated o p w hw
    rw [applyAll, Pass.interactionsOn_bind, Pass.on_bind]
    rcases hon : on answer (applyUnlessSame manager r Object.isOutdated o p) w with ⟨e | p₁, w₁⟩
    · refine ⟨fun p' w' h => ?_, fun f w' h => ?_⟩
      · cases h
      · cases h
        dsimp only
        rw [List.append_nil]
        exact ⟨[], o, os, rfl, hvisit, hbreak _ _ hon⟩
    · obtain ⟨hok, herror⟩ := ih p₁ (hw.on hon)
      refine ⟨fun p' w' h => hvisit.append (hok p' w' h), fun f w' h => ?_⟩
      obtain ⟨pre, x, post, rfl, hpre, hx⟩ := herror f w' h
      exact ⟨o :: pre, x, post, rfl, hvisit.append hpre, hx.append_left _⟩

def Applies (c : Call) : Prop :=
  (∃ r space name, c = .store (.get r space name)) ∨
    (∃ r o manager, c = .store (.apply r o manager)) ∨ ∃ message, c = .notify message

theorem uses_applyAll (os : List Object) (p : Progress) :
    (applyAll manager r p os).Uses Applies := by
  induction os generalizing p with
  | nil => exact Pass.uses_pure p
  | cons o os ih =>
    refine Pass.Uses.bind ?_ fun p' => ih p'
    rw [applyUnlessSame_eq]
    refine Pass.Uses.bind ⟨.inl ⟨_, _, _, rfl⟩, fun _ => trivial⟩ fun live => ?_
    split
    · exact Pass.uses_pure _
    · have happly : (Pass.apply r o manager).Uses Applies :=
        ⟨.inr (.inl ⟨_, _, _, rfl⟩), fun _ => trivial⟩
      refine happly.attempt.bind fun x => ?_
      exact Program.Uses.mono (uses_afterApplying r o p x) fun c hc => .inr (.inr hc)

theorem Tidies.visits_none {c : Call} (h : Tidies c) : c.lookup? = none ∧ c.application? = none := by
  rcases h with ⟨_, _, _, rfl⟩ | ⟨_, _, _, rfl⟩ | ⟨_, _, _, rfl⟩ <;> exact ⟨rfl, rfl⟩

end Convergence

end MeshRollout
