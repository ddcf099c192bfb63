import MeshRollout.Proofs.Cluster.Answers
import MeshRollout.Proofs.Cluster.Interruption

/-!
What happens between a program and the one who answers it: the calls of a run, and the answers they
get. A fault of the configuration that a pass relays is one that a call was answered with.
-/
set_option autoImplicit false

namespace MeshRollout

namespace Program

variable {α β σ : Type} (answer : (c : Call) → σ → c.Answer × σ)

theorem calls_bind (p : Program α) (f : α → Program β) (s : σ) :
    (p.bind f).calls answer s
      = p.calls answer s ++ (f (p.run answer s).1).calls answer (p.run answer s).2 := by
  induction p generalizing s with
  | done x => rfl
  | call c next ih => exact congrArg (c :: ·) (ih (answer c s).1 (answer c s).2)

def Meets (f : Failure) : Program α → σ → Prop
  | .done _, _ => False
  | .call c next, s =>
    c.failed? f = some (answer c s).1 ∨ (next (answer c s).1).Meets f (answer c s).2

theorem meets_bind {f : Failure} (p : Program α) (k : α → Program β) (s : σ) :
    (p.bind k).Meets answer f s ↔
      p.Meets answer f s ∨ (k (p.run answer s).1).Meets answer f (p.run answer s).2 := by
  induction p generalizing s with
  | done x => exact (false_or _).symm.to_iff
  | call c next ih => simp only [call_bind, Meets, run, ih, or_assoc]

end Program

namespace Pass

variable {α β : Type}

/-- If the pass ends with a fault of the configuration, then a call was answered with it. -/
def Relays (p : Pass α) : Prop :=
  ∀ (σ : Type) (answer : (c : Call) → σ → c.Answer × σ) (s : σ) (f : Failure),
    (Program.run (α := Except Failure α) answer p s).1 = .error f → f.isOfConfiguration = true →
      Program.Meets (α := Except Failure α) answer f p s

/-- The pass ends with a result as it is wanted, with a failure of its own, or with one that a call
was answered with. -/
def Ends (own : Failure → Prop) (P : α → Prop) (p : Pass α) : Prop :=
  ∀ (σ : Type) (answer : (c : Call) → σ → c.Answer × σ) (s : σ),
    (∀ x, (Program.run (α := Except Failure α) answer p s).1 = .ok x → P x) ∧
      ∀ f, (Program.run (α := Except Failure α) answer p s).1 = .error f →
        own f ∨ Program.Meets (α := Except Failure α) answer f p s

section Ends

variable {own : Failure → Prop} {P : α → Prop} {Q : β → Prop}

theorem relays_iff {p : Pass α} :
    p.Relays ↔ p.Ends (fun f => f.isOfConfiguration = false) fun _ => True := by
  constructor
  · intro h σ answer s
    refine ⟨fun _ _ => trivial, fun f hrun => ?_⟩
    cases hf : f.isOfConfiguration with
    | false => exact .inl hf
    | true => exact .inr (h σ answer s f hrun hf)
  · intro h σ answer s f hrun hf
    refine ((h σ answer s).2 f hrun).resolve_left fun hown => ?_
    nomatch hown.symm.trans hf

theorem ends_ofExcept {x : Except Failure α} (hok : ∀ y, x = .ok y → P y)
    (herror : ∀ f, x = .error f → own f) : Ends own P (ofExcept x) :=
  fun _ _ _ => ⟨hok, fun f hf => .inl (herror f hf)⟩

theorem ends_pure {x : α} (h : P x) : Ends own P (pure x) :=
  ends_ofExcept (x := .ok x) (fun _ hy => Except.ok.inj hy ▸ h) fun _ hf => nomatch hf

theorem ends_throw {e : Failure} (h : own e) : Ends own P (throw e : Pass α) :=
  ends_ofExcept (x := .error e) (fun _ hy => nomatch hy) fun _ hf => Except.error.inj hf ▸ h

theorem ends_call {c : Call} {next : c.Answer → Program (Except Failure α)}
    (h : ∀ a, ∃ x, next a = .done x ∧ ∀ f, x = .error f → c.failed? f = some a) :
    Ends (α := α) own (fun _ => True) (.call c next) := by
  intro σ answer s
  refine ⟨fun _ _ => trivial, fun f hrun => ?_⟩
  obtain ⟨x, hx, hfail⟩ := h (answer c s).1
  have hxf : x = .error f := by simpa [Program.run, hx] using hrun
  exact .inr (.inl (hfail f hxf))

namespace Ends

theorem attempt_bind {p : Pass α} {k : Except Failure α → Pass β} (hp : p.Ends own P)
    (hok : ∀ x, P x → (k (.ok x)).Ends own Q)
    (herror : ∀ e, (k (.error e)).Ends (fun f => own f ∨ f = e) Q) :
    Ends own Q (p.attempt >>= k : Pass β) := by
  rw [Pass.attempt_bind]
  intro σ answer s
  have hrun := congrArg Prod.fst (Program.run_bind (α := Except Failure α) answer p k s)
  have hmeets (f : Failure) :=
    Program.meets_bind (α := Except Failure α) answer (f := f) p k s
  obtain ⟨hP, hfail⟩ := hp σ answer s
  cases hx : (Program.run (α := Except Failure α) answer p s).1 with
  | ok x =>
    rw [hx] at hrun hmeets
    obtain ⟨hQ, hown⟩ := hok x (hP x hx) σ answer (Program.run (α := Except Failure α) answer p s).2
    refine ⟨fun y hy => hQ y (hrun.symm.trans hy), fun f hf => ?_⟩
    exact (hown f (hrun.symm.trans hf)).imp_right fun hm => (hmeets f).2 (.inr hm)
  | error e =>
    rw [hx] at hrun hmeets
    obtain ⟨hQ, hown⟩ := herror e σ answer (Program.run (α := Except Failure α) answer p s).2
    refine ⟨fun y hy => hQ y (hrun.symm.trans hy), fun f hf => ?_⟩
    rcases hown f (hrun.symm.trans hf) with (hf | rfl) | hm
    · exact .inl hf
    · exact (hfail f hx).imp_right fun hm => (hmeets f).2 (.inl hm)
    · exact .inr ((hmeets f).2 (.inr hm))

theorem bind {p : Pass α} {k : α → Pass β} (hp : p.Ends own P)
    (hk : ∀ x, P x → (k x).Ends own Q) : Ends own Q (p >>= k) := by
  have h : Ends own Q (p.attempt >>= ExceptT.bindCont k : Pass β) :=
    hp.attempt_bind hk fun e => ends_throw (.inr rfl)
  rw [Pass.attempt_bind] at h
  exact h

end Ends

end Ends

theorem relays_pure (x : α) : Relays (pure x) :=
  relays_iff.2 (ends_pure trivial)

theorem relays_throw {e : Failure} (he : e.isOfConfiguration = false) :
    Relays (throw e : Pass α) :=
  relays_iff.2 (ends_throw he)

theorem relays_call {c : Call} {next : c.Answer → Program (Except Failure α)}
    (h : ∀ a, ∃ x, next a = .done x ∧ ∀ f, x = .error f → c.failed? f = some a) :
    Relays (α := α) (.call c next) :=
  relays_iff.2 (ends_call h)

theorem relays_lift (c : Call) : Relays (α := c.Answer) (ExceptT.lift (.ask c)) := by
  refine relays_call fun a => ⟨.ok a, rfl, fun f h => ?_⟩
  cases h

namespace Relays

theorem bind {p : Pass α} {k : α → Pass β} (hp : p.Relays) (hk : ∀ x, (k x).Relays) :
    Relays (p >>= k) :=
  relays_iff.2 ((relays_iff.1 hp).bind fun x _ => relays_iff.1 (hk x))

theorem attempt_bind {p : Pass α} {k : Except Failure α → Pass β} (hp : p.Relays)
    (hk : ∀ x, (k (.ok x)).Relays)
    (herror : ∀ (σ : Type) (answer : (c : Call) → σ → c.Answer × σ) (s : σ) (e : Failure),
      (Program.run (α := Except Failure β) answer (k (.error e)) s).1 = .error e) :
    Relays (p.attempt >>= k : Pass β) := by
  refine relays_iff.2 ((relays_iff.1 hp).attempt_bind (fun x _ => relays_iff.1 (hk x)) ?_)
  intro e σ answer s
  refine ⟨fun _ _ => trivial, fun f hf => .inl (.inr ?_)⟩
  exact Except.error.inj (hf.symm.trans (herror σ answer s e))

end Relays

end Pass

end MeshRollout
