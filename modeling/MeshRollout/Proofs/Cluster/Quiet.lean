import MeshRollout.Proofs.Cluster.Answers

/-!
Passes that come to a good end. Where no call is made to fail and no object changes by itself, a
call gives what the store makes of it. So a pass returns there if the store refuses nothing.
-/
set_option autoImplicit false

namespace MeshRollout

theorem Program.run_bind {α β σ : Type} (answer : (c : Call) → σ → c.Answer × σ) (p : Program α)
    (f : α → Program β) (s : σ) :
    (p.bind f).run answer s = (f (p.run answer s).1).run answer (p.run answer s).2 := by
  induction p generalizing s with
  | done x => rfl
  | call c next ih => exact ih (answer c s).1 (answer c s).2

namespace Rehearsal

/-- No call is made to fail, and no object changes by itself. -/
structure Quiet (w : Rehearsal) : Prop where
  faults : w.faults = []
  races : w.races = []

def Returns {α : Type} (p : Pass α) (Q : α → Rehearsal → Prop) (w : Rehearsal) : Prop :=
  ∃ x w', Rehearsal.run p w = (.ok x, w') ∧ Q x w'

variable {α β : Type} {w : Rehearsal}

namespace Returns

theorem bind {p : Pass α} {f : α → Pass β} {R : α → Rehearsal → Prop} {Q : β → Rehearsal → Prop}
    (h : Returns p R w) (hf : ∀ x w', R x w' → Returns (f x) Q w') : Returns (p >>= f) Q w := by
  obtain ⟨x, w', hx, hR⟩ := h
  obtain ⟨y, w'', hy, hQ⟩ := hf x w' hR
  refine ⟨y, w'', (Program.run_bind (α := Except Failure α) answer p _ w).trans ?_, hQ⟩
  have hp : Program.run (α := Except Failure α) answer p w = (.ok x, w') := hx
  rw [hp]
  exact hy

theorem mono {p : Pass α} {Q R : α → Rehearsal → Prop} (h : Returns p Q w)
    (hQ : ∀ x w', Q x w' → R x w') : Returns p R w := by
  obtain ⟨x, w', hx, h⟩ := h
  exact ⟨x, w', hx, hQ x w' h⟩

theorem attempt {p : Pass α} {Q : α → Rehearsal → Prop} (h : Returns p Q w) :
    Returns p.attempt (fun r w' => ∃ x, r = .ok x ∧ Q x w') w := by
  obtain ⟨x, w', hx, hQ⟩ := h
  refine ⟨.ok x, w', (Program.run_bind (α := Except Failure α) answer p _ w).trans ?_, x, rfl, hQ⟩
  have hp : Program.run (α := Except Failure α) answer p w = (.ok x, w') := hx
  rw [hp]
  rfl

end Returns

theorem returns_pure {x : α} {Q : α → Rehearsal → Prop} (h : Q x w) : Returns (pure x) Q w :=
  ⟨x, w, rfl, h⟩

theorem attempt_of_quiet (h : w.Quiet) (verb kind space name : String)
    (act : Rehearsal → Except Failure α × Rehearsal) :
    w.attempt verb kind space name act = act (w.enter verb kind space name) := by
  simp [Rehearsal.attempt, enter, takeFault, h.faults]

theorem Quiet.enter (h : w.Quiet) (verb kind space name : String) :
    (w.enter verb kind space name).Quiet :=
  ⟨h.faults, h.races⟩

theorem answerStore_of_quiet (h : w.Quiet) (c : StoreCall) :
    (w.answerStore c).1 = (w.store.answer c).1 ∧
      (w.answerStore c).2.store = (w.store.answer c).2 ∧ (w.answerStore c).2.Quiet := by
  cases c with
  | get r space name =>
    rw [answerStore, attempt_of_quiet h, readObject]
    have hrace (found : Option Object) (w' : Rehearsal) (hw : w'.Quiet) :
        w'.race r name found = w' := by
      cases found <;> simp [race, hw.races]
    rw [hrace _ _ (h.enter ..)]
    exact ⟨rfl, rfl, h.faults, h.races⟩
  | list r space selector =>
    rw [answerStore, attempt_of_quiet h]
    exact ⟨rfl, rfl, h.faults, h.races⟩
  | create r o =>
    rw [answerStore, attempt_of_quiet h]
    exact ⟨rfl, rfl, h.faults, h.races⟩
  | update r o =>
    rw [answerStore, attempt_of_quiet h]
    exact ⟨rfl, rfl, h.faults, h.races⟩
  | apply r o manager =>
    rw [answerStore, attempt_of_quiet h]
    exact ⟨rfl, rfl, h.faults, h.races⟩
  | delete r space name =>
    rw [answerStore, attempt_of_quiet h]
    exact ⟨rfl, rfl, h.faults, h.races⟩

section Calls

variable (h : w.Quiet) {r : Resource} {space : Option String}
include h

theorem returns_get (name : String) :
    Returns (Pass.get r space name)
      (fun found w' => found = w.store.find (.of r (space.getD "") name) ∧ w'.store = w.store ∧
        w'.Quiet) w := by
  obtain ⟨hans, hstore, hq⟩ := answerStore_of_quiet h (.get r space name)
  exact ⟨_, _, Prod.ext hans rfl, rfl, hstore, hq⟩

theorem returns_list (selector : Option String) :
    Returns (Pass.list r space selector)
      (fun found w' => found = w.store.list r space selector ∧ w'.store = w.store ∧ w'.Quiet)
      w := by
  obtain ⟨hans, hstore, hq⟩ := answerStore_of_quiet h (.list r space selector)
  exact ⟨_, _, Prod.ext hans rfl, rfl, hstore, hq⟩

theorem returns_apply {o : Object} (manager : String)
    (hfree : w.store.refusedApplies.get o.name = none) :
    Returns (Pass.apply r o manager)
      (fun _ w' => w'.store = (w.store.apply r o).2 ∧ w'.Quiet) w := by
  obtain ⟨hans, hstore, hq⟩ := answerStore_of_quiet h (.apply r o manager)
  obtain ⟨x, hx⟩ : ∃ x, (w.store.apply r o).1 = .ok x := ⟨_, by rw [MemoryStore.apply, hfree]⟩
  exact ⟨x, _, Prod.ext (hans.trans hx) rfl, hstore, hq⟩

theorem returns_notify (message : String) :
    Returns (Pass.notify message) (fun _ w' => w'.store = w.store ∧ w'.Quiet) w := by
  refine ⟨(), (w.notify message).2, rfl, ?_⟩
  -- a message that does not arrive is no failure
  cases hs : w.sink <;> rw [notify, hs] <;> exact ⟨rfl, h.faults, h.races⟩

end Calls

end Rehearsal

end MeshRollout
