import Mathlib.Logic.Relation
import MeshRollout.Cluster.Program

/-!
What a program ensures while others change the state between its calls. Every single call keeps a
guarantee, whatever the answers are; so a program that is stopped anywhere has kept it, too. What
holds at the end is said for programs that come to their end.
-/
set_option autoImplicit false

namespace MeshRollout

/-- How calls may be answered, and what others may do to the state between two calls. -/
structure Setting (σ : Type) where
  answers : (c : Call) → σ → c.Answer → σ → Prop
  rely : σ → σ → Prop
  rely_refl : ∀ s, rely s s
  rely_trans : ∀ {s s' s'' : σ}, rely s s' → rely s' s'' → rely s s''

namespace Setting
variable {σ α β : Type}

inductive Step (S : Setting σ) : σ × Program α → σ × Program α → Prop where
  | others {s s' : σ} (p : Program α) (h : S.rely s s') : Step S (s, p) (s', p)
  | call {c : Call} {s s' : σ} {a : c.Answer} (next : c.Answer → Program α)
      (h : S.answers c s a s') : Step S (s, .call c next) (s', next a)

def Reaches (S : Setting σ) : σ × Program α → σ × Program α → Prop :=
  Relation.ReflTransGen S.Step

/-- Every call of the program keeps the guarantee, and `Q` holds where the program is done. -/
def Ensures (S : Setting σ) (G : Call → σ → σ → Prop) :
    Program α → (α → σ → Prop) → σ → Prop
  | .done x, Q, s => ∀ s', S.rely s s' → Q x s'
  | .call c next, Q, s =>
    ∀ s₁, S.rely s s₁ → ∀ a s₂, S.answers c s₁ a s₂ →
      G c s₁ s₂ ∧ S.Ensures G (next a) Q s₂

/-- Every call of the pass keeps the guarantee, and `Q` holds where the pass succeeds. -/
def Yields (S : Setting σ) (G : Call → σ → σ → Prop) (p : Pass α) (Q : α → σ → Prop)
    (s : σ) : Prop :=
  S.Ensures G (α := Except Failure α) p (fun r s => ∀ x, r = .ok x → Q x s) s

variable {S : Setting σ} {G : Call → σ → σ → Prop}

namespace Ensures
variable {p : Program α} {Q R : α → σ → Prop} {s s' : σ}

theorem of_rely (h : S.Ensures G p Q s) (hs : S.rely s s') : S.Ensures G p Q s' := by
  cases p with
  | done x => exact fun s'' h' => h s'' (S.rely_trans hs h')
  | call c next => exact fun s₁ h₁ => h s₁ (S.rely_trans hs h₁)

theorem mono (h : S.Ensures G p Q s) (hQ : ∀ x s, Q x s → R x s) : S.Ensures G p R s := by
  induction p generalizing s with
  | done x => exact fun s' hs => hQ x s' (h s' hs)
  | call c next ih =>
    intro s₁ hs a s₂ ha
    obtain ⟨hg, hn⟩ := h s₁ hs a s₂ ha
    exact ⟨hg, ih a hn⟩

theorem lasting (h : S.Ensures G p Q s) :
    S.Ensures G p (fun x s => ∀ s', S.rely s s' → Q x s') s := by
  induction p generalizing s with
  | done x => exact fun s₁ h₁ s₂ h₂ => h s₂ (S.rely_trans h₁ h₂)
  | call c next ih =>
    intro s₁ hs a s₂ ha
    obtain ⟨hg, hn⟩ := h s₁ hs a s₂ ha
    exact ⟨hg, ih a hn⟩

theorem bind {f : α → Program β} {Q : β → σ → Prop} (h : S.Ensures G p R s)
    (hf : ∀ x s, R x s → S.Ensures G (f x) Q s) : S.Ensures G (p.bind f) Q s := by
  induction p generalizing s with
  | done x => exact hf x s (h s (S.rely_refl s))
  | call c next ih =>
    intro s₁ hs a s₂ ha
    obtain ⟨hg, hn⟩ := h s₁ hs a s₂ ha
    exact ⟨hg, ih a hn⟩

theorem weaken {G' : Call → σ → σ → Prop} (h : S.Ensures G p Q s)
    (hG : ∀ c s s', G c s s' → G' c s s') : S.Ensures G' p Q s := by
  induction p generalizing s with
  | done x => exact h
  | call c next ih =>
    intro s₁ hs a s₂ ha
    obtain ⟨hg, hn⟩ := h s₁ hs a s₂ ha
    exact ⟨hG c s₁ s₂ hg, ih a hn⟩

/-- A relation that others and every guaranteed call keep ties the end to the start. -/
theorem tied {F : σ → σ → Prop} (htrans : ∀ s s' s'', F s s' → F s' s'' → F s s'')
    (hrely : ∀ s s', S.rely s s' → F s s') (hcall : ∀ c s s', G c s s' → F s s')
    (h : S.Ensures G p Q s) : S.Ensures G p (fun x s' => Q x s' ∧ F s s') s := by
  have tie (s₀ : σ) (hs₀ : F s₀ s) : S.Ensures G p (fun x s' => Q x s' ∧ F s₀ s') s := by
    induction p generalizing s with
    | done x => exact fun s' hs => ⟨h s' hs, htrans _ _ _ hs₀ (hrely s s' hs)⟩
    | call c next ih =>
      intro s₁ hs a s₂ ha
      obtain ⟨hg, hn⟩ := h s₁ hs a s₂ ha
      exact ⟨hg, ih a hn (htrans _ _ _ (htrans _ _ _ hs₀ (hrely s s₁ hs)) (hcall c s₁ s₂ hg))⟩
  exact tie s (hrely s s (S.rely_refl s))

theorem step {p' : Program α} (h : S.Ensures G p Q s) (hs : S.Step (s, p) (s', p')) :
    S.Ensures G p' Q s' := by
  cases hs with
  | others _ hr => exact h.of_rely hr
  | call next ha => exact (h s (S.rely_refl s) _ _ ha).2

theorem reaches {p' : Program α} (h : S.Ensures G p Q s) (hs : S.Reaches (s, p) (s', p')) :
    S.Ensures G p' Q s' := by
  generalize hx : (s', p') = x at hs
  induction hs generalizing s' p' with
  | refl =>
    cases hx
    exact h
  | tail _ hlast ih =>
    cases hx
    exact (ih rfl).step hlast

theorem along {F : σ → σ → Prop} (hrefl : ∀ s, F s s)
    (htrans : ∀ s s' s'', F s s' → F s' s'' → F s s'')
    (hrely : ∀ s s', S.rely s s' → F s s') (hcall : ∀ c s s', G c s s' → F s s')
    {p' : Program α} (h : S.Ensures G p Q s) (hs : S.Reaches (s, p) (s', p')) : F s s' := by
  generalize hx : (s', p') = x at hs
  induction hs generalizing s' p' with
  | refl =>
    cases hx
    exact hrefl s
  | @tail y _ hfirst hlast ih =>
    have hy : F s y.1 := ih rfl
    have he : S.Ensures G y.2 Q y.1 := h.reaches hfirst
    cases hx
    cases hlast with
    | others _ hr => exact htrans _ _ _ hy (hrely _ _ hr)
    | call next ha => exact htrans _ _ _ hy (hcall _ _ _ (he _ (S.rely_refl _) _ _ ha).1)

end Ensures

theorem ensures_ask {c : Call} {Q : c.Answer → σ → Prop} {s : σ}
    (h : ∀ s₁, S.rely s s₁ → ∀ a s₂, S.answers c s₁ a s₂ →
      G c s₁ s₂ ∧ ∀ s₃, S.rely s₂ s₃ → Q a s₃) :
    S.Ensures G (.ask c) Q s :=
  h

namespace Yields
variable {p : Pass α} {Q R : α → σ → Prop} {s : σ}

theorem mono (h : S.Yields G p Q s) (hQ : ∀ x s, Q x s → R x s) : S.Yields G p R s :=
  Ensures.mono h fun _ s' hr x hx => hQ x s' (hr x hx)

theorem weaken {G' : Call → σ → σ → Prop} (h : S.Yields G p Q s)
    (hG : ∀ c s s', G c s s' → G' c s s') : S.Yields G' p Q s :=
  Ensures.weaken h hG

theorem tied {F : σ → σ → Prop} (htrans : ∀ s s' s'', F s s' → F s' s'' → F s s'')
    (hrely : ∀ s s', S.rely s s' → F s s') (hcall : ∀ c s s', G c s s' → F s s')
    (h : S.Yields G p Q s) : S.Yields G p (fun x s' => Q x s' ∧ F s s') s := by
  have ht := Ensures.tied htrans hrely hcall h
  exact ht.mono fun _ _ hr x hx => ⟨hr.1 x hx, hr.2⟩

theorem bind {f : α → Pass β} {Q : β → σ → Prop} (h : S.Yields G p R s)
    (hf : ∀ x s, R x s → S.Yields G (f x) Q s) : S.Yields G (p >>= f) Q s := by
  refine Ensures.bind (α := Except Failure α) h ?_
  intro r s₁ hr
  cases r with
  | ok x => exact hf x s₁ (hr x rfl)
  | error e =>
    intro s₂ _ x hx
    cases hx

end Yields

theorem Ensures.attempt {p : Pass α} {R : Except Failure α → σ → Prop} {s : σ}
    (h : S.Ensures G (α := Except Failure α) p R s) : S.Yields G p.attempt R s := by
  refine Ensures.bind (α := Except Failure α) (Ensures.lasting h) ?_
  intro r s₁ hr s₂ hs y hy
  cases hy
  exact hr s₂ hs

theorem yields_pure {x : α} {Q : α → σ → Prop} {s : σ} (h : ∀ s', S.rely s s' → Q x s') :
    S.Yields G (pure x) Q s := by
  intro s' hs y hy
  cases hy
  exact h s' hs

theorem yields_throw {f : Failure} {Q : α → σ → Prop} {s : σ} :
    S.Yields G (throw f) Q s := by
  intro s' _ y hy
  cases hy

end Setting

end MeshRollout
