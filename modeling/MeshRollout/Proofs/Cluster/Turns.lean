import Mathlib.Logic.Function.Basic
import MeshRollout.Proofs.Cluster.Ensures

/-!
Several programs that take turns on one state. Between two calls of one program the other ones may
make any number of theirs, and somebody else may change the state as well. What a program ensures
while others change the state, it also ensures in such a crowd, provided that each program expects
what the other ones do.
-/
set_option autoImplicit false

namespace MeshRollout

def Program.result? {α : Type} : Program α → Option α
  | .done x => some x
  | .call .. => none

theorem Program.eq_done_of_result? {α : Type} {p : Program α} {x : α} (h : p.result? = some x) :
    p = .done x := by
  cases p with
  | done y => exact congrArg Program.done (Option.some.inj h)
  | call c next => cases h

structure Crowd (ι σ α : Type) where
  state : σ
  programs : ι → Program α

/-- One turn: the call of a program that was answered, if it was one, and the state before and
after. -/
structure Moment (ι σ : Type) where
  call? : Option (ι × Call)
  before : σ
  after : σ

def Moment.IsBy {ι σ : Type} (m : Moment ι σ) (i : ι) : Prop :=
  ∃ c, m.call? = some (i, c)

namespace Crowd

variable {ι σ α : Type} [DecidableEq ι] {answers : (c : Call) → σ → c.Answer → σ → Prop}
  {others : σ → σ → Prop} {x y z : Crowd ι σ α} {t : List (Moment ι σ)} {m : Moment ι σ}

inductive Turn (answers : (c : Call) → σ → c.Answer → σ → Prop) (others : σ → σ → Prop)
    (x : Crowd ι σ α) : Moment ι σ → Crowd ι σ α → Prop where
  | call {i : ι} {c : Call} {next : c.Answer → Program α} {a : c.Answer} {s' : σ}
      (hp : x.programs i = .call c next) (h : answers c x.state a s') :
      Turn answers others x ⟨some (i, c), x.state, s'⟩
        ⟨s', Function.update x.programs i (next a)⟩
  | others {s' : σ} (h : others x.state s') :
      Turn answers others x ⟨none, x.state, s'⟩ ⟨s', x.programs⟩

inductive Runs (answers : (c : Call) → σ → c.Answer → σ → Prop) (others : σ → σ → Prop)
    (x : Crowd ι σ α) : List (Moment ι σ) → Crowd ι σ α → Prop where
  | start : Runs answers others x [] x
  | turn {t : List (Moment ι σ)} {m : Moment ι σ} {y z : Crowd ι σ α}
      (h : Runs answers others x t y) (ht : Turn answers others y m z) :
      Runs answers others x (t ++ [m]) z

namespace Turn

theorem before_eq (h : Turn answers others x m y) : m.before = x.state := by
  cases h <;> rfl

theorem after_eq (h : Turn answers others x m y) : m.after = y.state := by
  cases h <;> rfl

end Turn

section Kept

variable {F : σ → σ → Prop} (hcall : ∀ c s (a : c.Answer) s', answers c s a s' → F s s')
  (hothers : ∀ s s', others s s' → F s s')
include hcall hothers

theorem Turn.keeps (h : Turn answers others x m y) : F m.before m.after := by
  cases h with
  | call hp ha => exact hcall _ _ _ _ ha
  | others ho => exact hothers _ _ ho

theorem Runs.each (h : Runs answers others x t y) : ∀ m ∈ t, F m.before m.after := by
  induction h with
  | start => simp
  | turn _ hlast ih =>
    intro m hm
    rcases List.mem_append.1 hm with hold | hnew
    · exact ih m hold
    · cases List.mem_singleton.1 hnew
      exact hlast.keeps hcall hothers

variable (hrefl : ∀ s, F s s) (htrans : ∀ s s' s'', F s s' → F s' s'' → F s s'')
include hrefl htrans

/-- What every turn keeps ties the turns of a run to one another, in their order. -/
theorem Runs.related (h : Runs answers others x t y) :
    F x.state y.state ∧ (∀ m ∈ t, F x.state m.before ∧ F m.after y.state) ∧
      t.Pairwise fun m m' => F m.after m'.before := by
  induction h with
  | start => exact ⟨hrefl _, by simp, .nil⟩
  | @turn t m y z _ hlast ih =>
    obtain ⟨hxy, hmem, hpair⟩ := ih
    have hyz : F y.state z.state := by
      rw [← hlast.before_eq, ← hlast.after_eq]
      exact hlast.keeps hcall hothers
    refine ⟨htrans _ _ _ hxy hyz, fun m' hm' => ?_, ?_⟩
    · rcases List.mem_append.1 hm' with hold | hnew
      · exact ⟨(hmem m' hold).1, htrans _ _ _ (hmem m' hold).2 hyz⟩
      · cases List.mem_singleton.1 hnew
        rw [hlast.before_eq, hlast.after_eq]
        exact ⟨hxy, hrefl _⟩
    · refine List.pairwise_append.2 ⟨hpair, List.pairwise_singleton _ _, fun m' hm' m'' hm'' => ?_⟩
      cases List.mem_singleton.1 hm''
      rw [hlast.before_eq]
      exact (hmem m' hm').2

end Kept

namespace Runs

theorem head (ht : Turn answers others x m y) (h : Runs answers others y t z) :
    Runs answers others x (m :: t) z := by
  induction h with
  | start => exact .turn (t := []) .start ht
  | turn _ hlast ih => exact .turn ih hlast

end Runs

/-- Programs that go well with each other: each of them expects what the other ones guarantee. -/
structure Compatible (answers : (c : Call) → σ → c.Answer → σ → Prop) (others : σ → σ → Prop)
    (S : ι → Setting σ) (G : ι → Call → σ → σ → Prop) : Prop where
  answers : ∀ i c s (a : c.Answer) s', answers c s a s' → (S i).answers c s a s'
  others : ∀ i s s', others s s' → (S i).rely s s'
  peers : ∀ i j c s s', i ≠ j → G i c s s' → (S j).rely s s'

namespace Compatible

variable {S : ι → Setting σ} {G : ι → Call → σ → σ → Prop} {Q : ι → α → σ → Prop}
  (hc : Compatible answers others S G)
include hc

theorem ensures_turn (h : ∀ i, (S i).Ensures (G i) (x.programs i) (Q i) x.state)
    (ht : Turn answers others x m y) :
    ∀ i, (S i).Ensures (G i) (y.programs i) (Q i) y.state := by
  intro j
  cases ht with
  | @call i c next a s' hp ha =>
    have hi := h i
    rw [hp] at hi
    obtain ⟨hg, hnext⟩ := hi x.state ((S i).rely_refl _) a s' (hc.answers i c _ a s' ha)
    by_cases hj : j = i
    · subst hj
      simpa using hnext
    · simpa [hj] using (h j).of_rely (hc.peers i j c _ s' (Ne.symm hj) hg)
  | others ho => exact (h j).of_rely (hc.others j _ _ ho)

theorem ensures (h : ∀ i, (S i).Ensures (G i) (x.programs i) (Q i) x.state)
    (hrun : Runs answers others x t y) :
    ∀ i, (S i).Ensures (G i) (y.programs i) (Q i) y.state := by
  induction hrun with
  | start => exact h
  | turn _ hlast ih => exact hc.ensures_turn ih hlast

/-- What a program ensures at its end holds also after the other ones went on. -/
theorem holds_of_done (h : ∀ i, (S i).Ensures (G i) (x.programs i) (Q i) x.state)
    (hrun : Runs answers others x t y) {i : ι} {v : α} (hdone : y.programs i = .done v) :
    Q i v y.state := by
  have hend := hc.ensures h hrun i
  rw [hdone] at hend
  exact hend y.state ((S i).rely_refl _)

end Compatible

/-- Lets the programs make their calls in the given order. A program that is done, or whose call
nobody answers, misses its turn. -/
def play (answer : (c : Call) → σ → Option (c.Answer × σ)) : List ι → Crowd ι σ α → Crowd ι σ α
  | [], x => x
  | i :: is, x =>
    match x.programs i with
    | .done _ => play answer is x
    | .call c next =>
      match answer c x.state with
      | none => play answer is x
      | some (a, s) => play answer is ⟨s, Function.update x.programs i (next a)⟩

theorem runs_play {answer : (c : Call) → σ → Option (c.Answer × σ)}
    (h : ∀ c s a s', answer c s = some (a, s') → answers c s a s') (is : List ι)
    (x : Crowd ι σ α) : ∃ t, Runs answers others x t (play answer is x) := by
  induction is generalizing x with
  | nil => exact ⟨[], .start⟩
  | cons i is ih =>
    rw [play]
    split
    · exact ih x
    · rename_i c next hp
      split
      · exact ih x
      · rename_i a s hans
        obtain ⟨t, ht⟩ := ih ⟨s, Function.update x.programs i (next a)⟩
        exact ⟨_, ht.head (.call hp (h c _ a s hans))⟩

end Crowd

end MeshRollout
