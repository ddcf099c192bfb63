import MeshRollout.Proofs.Cluster.Serving

/-!
What passes between a program and the one who answers it: each call with its answer, and with the
states around it. What a pass did and what it told are read off its interactions.
-/
set_option autoImplicit false

namespace MeshRollout

structure Interaction (σ : Type) where
  before : σ
  call : Call
  answer : call.Answer
  after : σ

namespace Interaction

variable {σ : Type}

def of (answer : (c : Call) → σ → c.Answer × σ) (c : Call) (s : σ) : Interaction σ :=
  ⟨s, c, (answer c s).1, (answer c s).2⟩

def message? (e : Interaction σ) : Option String :=
  match e.call with
  | .notify message => some message
  | _ => none

end Interaction

namespace Program

variable {α β σ : Type} (answer : (c : Call) → σ → c.Answer × σ)

def interactions : Program α → σ → List (Interaction σ)
  | .done _, _ => []
  | .call c next, s => .of answer c s :: (next (answer c s).1).interactions (answer c s).2

theorem interactions_bind (p : Program α) (f : α → Program β) (s : σ) :
    (p.bind f).interactions answer s
      = p.interactions answer s
        ++ (f (p.run answer s).1).interactions answer (p.run answer s).2 := by
  induction p generalizing s with
  | done x => rfl
  | call c next ih => exact congrArg (_ :: ·) (ih (answer c s).1 (answer c s).2)

theorem calls_eq_map (p : Program α) (s : σ) :
    p.calls answer s = (p.interactions answer s).map Interaction.call := by
  induction p generalizing s with
  | done x => rfl
  | call c next ih => exact congrArg (c :: ·) (ih (answer c s).1 (answer c s).2)

theorem Uses.of_interactions {allowed : Call → Prop} {p : Program α} (hp : p.Uses allowed) (s : σ) :
    ∀ e ∈ p.interactions answer s, allowed e.call := by
  induction p generalizing s with
  | done x => exact fun e he => nomatch he
  | call c next ih =>
    intro e he
    rcases List.mem_cons.1 he with rfl | he
    · exact hp.1
    · exact ih _ (hp.2 _) _ e he

end Program

namespace Pass

variable {α β σ : Type} (answer : (c : Call) → σ → c.Answer × σ)

def interactionsOn (p : Pass α) (s : σ) : List (Interaction σ) :=
  Program.interactions (α := Except Failure α) answer p s

theorem Uses.of_interactions {allowed : Call → Prop} {p : Pass α} (hp : p.Uses allowed) (s : σ) :
    ∀ e ∈ interactionsOn answer p s, allowed e.call :=
  Program.Uses.of_interactions (α := Except Failure α) answer hp s

variable (s : σ)

theorem callsOn_eq_map (p : Pass α) :
    callsOn answer p s = (interactionsOn answer p s).map Interaction.call :=
  Program.calls_eq_map (α := Except Failure α) answer p s

theorem interactionsOn_bind (p : Pass α) (f : α → Pass β) :
    interactionsOn answer (p >>= f) s
      = interactionsOn answer p s ++ match on answer p s with
        | (.ok x, s') => interactionsOn answer (f x) s'
        | (.error _, _) => [] := by
  have h := Program.interactions_bind (α := Except Failure α) answer p (ExceptT.bindCont f) s
  refine Eq.trans h (congrArg (interactionsOn answer p s ++ ·) ?_)
  simp only [on]
  split
  · rename_i x s' hx
    rw [hx]
    rfl
  · rename_i e s' hx
    rw [hx]
    rfl

theorem on_checkpoint_bind (stage : String) (k : Unit → Pass α) :
    on answer (checkpoint stage >>= k) s
      = match answer .cancelled s with
        | (true, s') => (.error (.cancelled stage), s')
        | (false, s') => on answer (k ()) s' := by
  rw [on_bind, checkpoint_eq]
  simp only [on, Program.run]
  rcases answer .cancelled s with ⟨_ | _, s'⟩ <;> rfl

theorem interactionsOn_checkpoint_bind (stage : String) (k : Unit → Pass α) :
    interactionsOn answer (checkpoint stage >>= k) s
      = match answer .cancelled s with
        | (true, s') => [⟨s, .cancelled, true, s'⟩]
        | (false, s') => ⟨s, .cancelled, false, s'⟩ :: interactionsOn answer (k ()) s' := by
  rw [interactionsOn_bind, checkpoint_eq]
  simp only [interactionsOn, Program.interactions, on, Program.run, Interaction.of]
  rcases answer .cancelled s with ⟨_ | _, s'⟩ <;> rfl

theorem interactionsOn_bind_silent (p : Pass α) {f : α → Pass β}
    (hf : ∀ x s, interactionsOn answer (f x) s = []) :
    interactionsOn answer (p >>= f) s = interactionsOn answer p s := by
  rw [interactionsOn_bind]
  rcases on answer p s with ⟨f | x, s'⟩
  · exact List.append_nil _
  · dsimp only
    rw [hf x s', List.append_nil]

@[simp] theorem interactionsOn_attempt (p : Pass α) :
    interactionsOn answer p.attempt s = interactionsOn answer p s :=
  (Program.interactions_bind (α := Except Failure α) answer p
    (fun r => .done (Except.ok r)) s).trans (List.append_nil _)

end Pass

end MeshRollout
