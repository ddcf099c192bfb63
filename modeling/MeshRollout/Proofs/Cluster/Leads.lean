import MeshRollout.Proofs.Cluster.Answers
import MeshRollout.Proofs.Cluster.Uses

/-!
What may be left of a program after some of its calls, whatever the answers were.
-/
set_option autoImplicit false

namespace MeshRollout

namespace Program

variable {α β σ : Type}

inductive Leads : Program α → Program α → Prop where
  | start (p : Program α) : Leads p p
  | call {c : Call} {next : c.Answer → Program α} {q : Program α} (a : c.Answer)
      (h : Leads (next a) q) : Leads (.call c next) q

theorem leads_call_of_bind {p : Program α} {f : α → Program β} {c : Call}
    {next : c.Answer → Program β} (h : (p.bind f).Leads (.call c next)) :
    (∃ next', p.Leads (.call c next') ∧ next = fun a => (next' a).bind f) ∨
      ∃ x, p.Leads (.done x) ∧ (f x).Leads (.call c next) := by
  induction p with
  | done x => exact .inr ⟨x, .start _, h⟩
  | call c' next' ih =>
    cases h with
    | start => exact .inl ⟨next', .start _, rfl⟩
    | call a h =>
      obtain ⟨next', hp, hn⟩ | ⟨x, hp, hf⟩ := ih a h
      · exact .inl ⟨next', .call a hp, hn⟩
      · exact .inr ⟨x, .call a hp, hf⟩

theorem leads_done_of_bind {p : Program α} {f : α → Program β} {y : β}
    (h : (p.bind f).Leads (.done y)) : ∃ x, p.Leads (.done x) ∧ (f x).Leads (.done y) := by
  induction p with
  | done x => exact ⟨x, .start _, h⟩
  | call c next ih =>
    cases h with
    | call a h =>
      obtain ⟨x, hp, hf⟩ := ih a h
      exact ⟨x, .call a hp, hf⟩

theorem Uses.of_leads {allowed : Call → Prop} {p q : Program α} (hp : p.Uses allowed)
    (h : p.Leads q) : q.Uses allowed := by
  induction h with
  | start => exact hp
  | call a _ ih => exact ih (hp.2 a)

theorem exists_leads_done (p : Program α) : ∃ x, p.Leads (.done x) := by
  induction p with
  | done x => exact ⟨x, .start _⟩
  | call c next ih =>
    have answerable : Nonempty c.Answer :=
      match c with
      | .store c => ⟨c.failed (.store "" "")⟩
      | .route c => ⟨c.failed (.store "" "")⟩
      | .notify _ => ⟨.ok ()⟩
      | .cancelled => ⟨false⟩
      | .now => ⟨(default : Instant)⟩
      | .fetch => ⟨.ok ""⟩
    obtain ⟨a⟩ := answerable
    obtain ⟨x, hx⟩ := ih a
    exact ⟨x, .call a hx⟩

def follow (answer : (c : Call) → σ → c.Answer × σ) : Nat → Program α → σ → Program α
  | 0, p, _ => p
  | _ + 1, .done x, _ => .done x
  | n + 1, .call c next, s =>
    let (a, s) := answer c s
    follow answer n (next a) s

theorem leads_follow (answer : (c : Call) → σ → c.Answer × σ) (n : Nat) (p : Program α) (s : σ) :
    p.Leads (p.follow answer n s) := by
  induction n generalizing p s with
  | zero => exact .start p
  | succ n ih =>
    cases p with
    | done x => exact .start _
    | call c next => exact .call _ (ih _ _)

end Program

namespace Pass

variable {α β : Type}

theorem leads_call_of_bind {p : Pass α} {f : α → Pass β} {c : Call}
    {next : c.Answer → Program (Except Failure β)}
    (h : Program.Leads (p >>= f : Pass β) (.call c next)) :
    (∃ next', Program.Leads p (.call c next') ∧
        next = fun a => Program.bind (next' a) (ExceptT.bindCont f)) ∨
      ∃ x, Program.Leads (f x) (.call c next) := by
  obtain hcall | ⟨x, -, hx⟩ := Program.leads_call_of_bind (f := ExceptT.bindCont f) h
  · exact .inl hcall
  · cases x with
    | ok x => exact .inr ⟨x, hx⟩
    | error f => nomatch hx

end Pass

end MeshRollout
