import MeshRollout.Proofs.Cluster.Ensures

/-!
Which calls a program makes, whatever the answers are.
-/
set_option autoImplicit false

namespace MeshRollout

namespace Program

variable {α β : Type}

def Uses (allowed : Call → Prop) : Program α → Prop
  | .done _ => True
  | .call c next => allowed c ∧ ∀ a, (next a).Uses allowed

theorem Uses.bind {allowed : Call → Prop} {p : Program α} {f : α → Program β}
    (h : p.Uses allowed) (hf : ∀ x, (f x).Uses allowed) : (p.bind f).Uses allowed := by
  induction p with
  | done x => exact hf x
  | call c next ih => exact ⟨h.1, fun a => ih a (h.2 a)⟩

theorem Uses.mono {allowed allowed' : Call → Prop} {p : Program α} (h : p.Uses allowed)
    (hc : ∀ c, allowed c → allowed' c) : p.Uses allowed' := by
  induction p with
  | done x => trivial
  | call c next ih => exact ⟨hc c h.1, fun a => ih a (h.2 a)⟩

theorem uses_ask {allowed : Call → Prop} {c : Call} (h : allowed c) : (ask c).Uses allowed :=
  ⟨h, fun _ => trivial⟩

end Program

namespace Pass

variable {α β : Type} {allowed : Call → Prop}

def Uses (allowed : Call → Prop) (p : Pass α) : Prop :=
  Program.Uses (α := Except Failure α) allowed p

theorem Uses.bind {p : Pass α} {f : α → Pass β} (h : p.Uses allowed)
    (hf : ∀ x, (f x).Uses allowed) : Uses allowed (p >>= f) := by
  refine Program.Uses.bind (α := Except Failure α) h fun r => ?_
  cases r with
  | ok x => exact hf x
  | error f => exact trivial

theorem Uses.attempt {p : Pass α} (h : p.Uses allowed) : p.attempt.Uses allowed :=
  Program.Uses.bind (α := Except Failure α) h fun _ => trivial

theorem uses_pure (x : α) : Uses allowed (pure x) :=
  trivial

theorem uses_throw (f : Failure) : Uses allowed (throw f : Pass α) :=
  trivial

theorem uses_ofExcept (r : Except Failure α) : Uses allowed (ofExcept r) :=
  trivial

theorem checkpoint_eq (stage : String) :
    checkpoint stage
      = Program.call .cancelled fun stop : Bool =>
          bif stop then .done (.error (.cancelled stage)) else .done (.ok ()) := by
  refine congrArg (Program.call .cancelled) (funext fun stop => ?_)
  cases stop <;> rfl

theorem uses_checkpoint (h : allowed .cancelled) (stage : String) :
    (checkpoint stage).Uses allowed := by
  refine Uses.bind (p := cancelled) ⟨h, fun _ => trivial⟩ fun stop => ?_
  cases stop with
  | false => exact uses_pure ()
  | true => exact uses_throw _

theorem uses_notify (h : ∀ message, allowed (.notify message)) (message : String) :
    (notify message).Uses allowed := by
  have hs : Uses (α := Unit) allowed (ofCall (.ask (.notify message))) :=
    Program.uses_ask (h message)
  exact hs.attempt.bind fun _ => uses_pure ()

end Pass

namespace Setting

variable {σ α : Type} {S : Setting σ} {G : Call → σ → σ → Prop} {allowed : Call → Prop}
  {P : σ → Prop}

theorem ensures_of_uses (hrely : ∀ s s', S.rely s s' → P s → P s')
    (hcall : ∀ c s (a : c.Answer) s', allowed c → S.answers c s a s' → P s → P s' ∧ G c s s')
    {p : Program α} (hp : p.Uses allowed) {s : σ} (hs : P s) :
    S.Ensures G p (fun _ s' => P s') s := by
  induction p generalizing s with
  | done x => exact fun s' h' => hrely s s' h' hs
  | call c next ih =>
    intro s₁ h₁ a s₂ ha
    obtain ⟨hs₂, hg⟩ := hcall c s₁ a s₂ hp.1 ha (hrely s s₁ h₁ hs)
    exact ⟨hg, ih a (hp.2 a) hs₂⟩

theorem Ensures.and_uses {Q : α → σ → Prop} {p : Program α} {s : σ} (h : S.Ensures G p Q s)
    (hp : p.Uses allowed) : S.Ensures (fun c s s' => G c s s' ∧ allowed c) p Q s := by
  induction p generalizing s with
  | done x => exact h
  | call c next ih =>
    intro s₁ h₁ a s₂ ha
    obtain ⟨hg, hn⟩ := h s₁ h₁ a s₂ ha
    exact ⟨⟨hg, hp.1⟩, ih a hn (hp.2 a)⟩

end Setting

end MeshRollout
