import MeshRollout.Proofs.Cluster.Quiet
import MeshRollout.Proofs.Cluster.Uses

/-!
Programs that are asked to stop. A program that heeds the wish does what it does when nobody asks
it, up to a check at which it stops. So whatever holds at all checks of the run that nobody stops
holds where a stopped run ends.
-/
set_option autoImplicit false

namespace MeshRollout

namespace Program

variable {α β σ : Type}

def calls (answer : (c : Call) → σ → c.Answer × σ) : Program α → σ → List Call
  | .done _, _ => []
  | .call c next, s => c :: (next (answer c s).1).calls answer (answer c s).2

theorem Uses.of_calls {allowed : Call → Prop} {p : Program α} (hp : p.Uses allowed)
    (answer : (c : Call) → σ → c.Answer × σ) (s : σ) : ∀ c ∈ p.calls answer s, allowed c := by
  induction p generalizing s with
  | done x => simp [calls]
  | call c next ih =>
    intro c' hc
    rcases List.mem_cons.1 hc with rfl | hc
    · exact hp.1
    · exact ih _ (hp.2 _) _ c' hc

/-- The program ends at once when it is asked to stop, and after the last calls it looks no more
whether it is asked to. -/
inductive Heeds (last : Call → Prop) : Program (Except Failure α) → Prop where
  | done (x : Except Failure α) : Heeds last (.done x)
  | check {next : Bool → Program (Except Failure α)} (stage : String)
      (stops : next true = .done (.error (.cancelled stage))) (goesOn : Heeds last (next false)) :
      Heeds last (.call .cancelled next)
  | call {c : Call} {next : c.Answer → Program (Except Failure α)} (hc : c ≠ .cancelled)
      (hlast : last c → ∀ a, (next a).Uses (· ≠ .cancelled)) (h : ∀ a, Heeds last (next a)) :
      Heeds last (.call c next)

namespace Heeds

variable {last : Call → Prop} {p : Program (Except Failure α)}

theorem of_unchecked (h : p.Uses (· ≠ .cancelled)) : p.Heeds last := by
  induction p with
  | done x => exact .done x
  | call c next ih => exact .call h.1 (fun _ => h.2) fun a => ih a (h.2 a)

/-- One program after another: the first one makes no last call, or the second one no check. -/
theorem bind {f : Except Failure α → Program (Except Failure β)} (hp : p.Heeds last)
    (hlast : p.Uses (¬ last ·) ∨ ∀ x, (f x).Uses (· ≠ .cancelled))
    (hstop : ∀ stage, f (.error (.cancelled stage)) = .done (.error (.cancelled stage)))
    (hf : ∀ x, (f x).Heeds last) : (p.bind f).Heeds last := by
  induction hp with
  | done x => exact hf x
  | check stage stops _ ih =>
    refine .check stage ?_ (ih (hlast.imp (fun h => h.2 false) id))
    rw [stops]
    exact hstop stage
  | call hc hl _ ih =>
    refine .call hc (fun hcl a => ?_) fun a => ih a (hlast.imp (fun h => h.2 a) id)
    rcases hlast with hnot | hf'
    · exact absurd hcl hnot.1
    · exact (hl hcl a).bind hf'

end Heeds

end Program

namespace Pass

variable {α β : Type} {last : Call → Prop}

def Heeds (last : Call → Prop) (p : Pass α) : Prop :=
  Program.Heeds (α := α) last p

theorem heeds_checkpoint (last : Call → Prop) (stage : String) :
    (checkpoint stage).Heeds last :=
  .check stage rfl (.done _)

theorem Heeds.of_unchecked {p : Pass α} (h : p.Uses (· ≠ .cancelled)) : p.Heeds last :=
  Program.Heeds.of_unchecked h

theorem Heeds.bind {p : Pass α} {f : α → Pass β} (hp : p.Heeds last) (hlast : p.Uses (¬ last ·))
    (hf : ∀ x, (f x).Heeds last) : Heeds last (p >>= f) := by
  refine Program.Heeds.bind (f := ExceptT.bindCont f) hp (.inl hlast) (fun _ => rfl) fun x => ?_
  cases x with
  | ok x => exact hf x
  | error e => exact .done _

theorem Heeds.bind_unchecked {p : Pass α} {f : α → Pass β} (hp : p.Heeds last)
    (hf : ∀ x, (f x).Uses (· ≠ .cancelled)) : Heeds last (p >>= f) := by
  have hcont (x : Except Failure α) :
      Program.Uses (α := Except Failure β) (· ≠ .cancelled) (ExceptT.bindCont f x) := by
    cases x with
    | ok x => exact hf x
    | error e => trivial
  exact Program.Heeds.bind (f := ExceptT.bindCont f) hp (.inr hcont) (fun _ => rfl)
    fun x => .of_unchecked (hcont x)

theorem Heeds.after_checkpoint {f : Unit → Pass α} (hlast : ¬ last .cancelled) (stage : String)
    (hf : ∀ x, (f x).Heeds last) : Heeds last (checkpoint stage >>= f) :=
  (heeds_checkpoint last stage).bind (uses_checkpoint hlast stage) hf

theorem attempt_bind (p : Pass α) (f : Except Failure α → Pass β) :
    (p.attempt >>= f : Pass β) = Program.bind (α := Except Failure α) p f :=
  let q : Program (Except Failure α) := p
  q.bind_assoc (fun x => .done (Except.ok x)) (ExceptT.bindCont f)

/-- What follows an attempt has to stop as well if the attempt was asked to stop. -/
theorem Heeds.attempt_bind {p : Pass α} {f : Except Failure α → Pass β} (hp : p.Heeds last)
    (hlast : p.Uses (¬ last ·))
    (hstop : ∀ stage, f (.error (.cancelled stage)) = throw (.cancelled stage))
    (hf : ∀ x, (f x).Heeds last) : Heeds last (p.attempt >>= f : Pass β) := by
  rw [Pass.attempt_bind]
  exact Program.Heeds.bind hp (.inl hlast) hstop hf

end Pass

namespace Rehearsal

variable {α β : Type} {w w' : Rehearsal}

structure Undisturbed (w : Rehearsal) : Prop extends Quiet w where
  stopped : w.stopped = false
  countdown : w.countdown = 0

theorem Undisturbed.enter (h : w.Undisturbed) (verb kind space name : String) :
    (w.enter verb kind space name).Undisturbed where
  toQuiet := h.toQuiet.enter verb kind space name
  stopped := by simp [Rehearsal.enter, h.stopped, h.countdown]
  countdown := by simp [Rehearsal.enter, h.countdown]

theorem undisturbed_attempt (h : w.Undisturbed) {verb kind space name : String}
    {act : Rehearsal → Except Failure α × Rehearsal}
    (hact : ∀ w', w'.Undisturbed → (act w').2.Undisturbed) :
    (w.attempt verb kind space name act).2.Undisturbed := by
  rw [attempt_of_quiet h.toQuiet]
  exact hact _ (h.enter verb kind space name)

theorem undisturbed_onStore (h : w.Undisturbed)
    (serve : MemoryStore → Except Failure α × MemoryStore) : (w.onStore serve).2.Undisturbed :=
  ⟨⟨h.faults, h.races⟩, h.stopped, h.countdown⟩

theorem Undisturbed.answer (h : w.Undisturbed) (c : Call) : (w.answer c).2.Undisturbed := by
  have same {w' : Rehearsal} (h' : w'.Undisturbed) {x : Rehearsal} (hf : x.faults = w'.faults)
      (hr : x.races = w'.races) (hs : x.stopped = w'.stopped) (hc : x.countdown = w'.countdown) :
      x.Undisturbed :=
    ⟨⟨hf.trans h'.faults, hr.trans h'.races⟩, hs.trans h'.stopped, hc.trans h'.countdown⟩
  cases c with
  | store c =>
    cases c with
    | get r space name =>
      refine undisturbed_attempt h fun w' h' => ?_
      have hrace (found : Option Object) : w'.race r name found = w' := by
        cases found <;> simp [race, h'.races]
      rw [readObject, hrace]
      exact h'
    | list r space selector => exact undisturbed_attempt h fun _ h' => undisturbed_onStore h' _
    | create r o => exact undisturbed_attempt h fun _ h' => undisturbed_onStore h' _
    | update r o => exact undisturbed_attempt h fun _ h' => undisturbed_onStore h' _
    | apply r o manager => exact undisturbed_attempt h fun _ h' => same h' rfl rfl rfl rfl
    | delete r space name => exact undisturbed_attempt h fun _ h' => undisturbed_onStore h' _
  | route c =>
    cases c <;> exact undisturbed_attempt h fun _ h' => same h' rfl rfl rfl rfl
  | notify message =>
    cases hs : w.sink <;> simp only [Rehearsal.answer, notify, hs] <;>
      exact same h rfl rfl rfl rfl
  | cancelled => exact h
  | now => exact h
  | fetch =>
    cases hm : w.manifests <;> simp only [Rehearsal.answer, fetch, hm] <;>
      exact same h rfl rfl rfl rfl

/-- Answers as before, but lets only a number of checks pass and then asks the program to stop. -/
def stoppedAt (c : Call) (x : Rehearsal × Nat) : c.Answer × (Rehearsal × Nat) :=
  match c with
  | .cancelled => (x.2 == 0, (x.1, x.2 - 1))
  | c => ((x.1.answer c).1, ((x.1.answer c).2, x.2))

theorem stoppedAt_of_ne {c : Call} (hc : c ≠ .cancelled) (w : Rehearsal) (n : Nat) :
    stoppedAt c (w, n) = ((w.answer c).1, ((w.answer c).2, n)) := by
  cases c with
  | cancelled => exact absurd rfl hc
  | store c => rfl
  | route c => rfl
  | notify message => rfl
  | now => rfl
  | fetch => rfl

def runUntil (n : Nat) (p : Pass α) (w : Rehearsal) : Except Failure α × Rehearsal :=
  let x := Program.run (α := Except Failure α) stoppedAt p (w, n)
  (x.1, x.2.1)

def callsUntil (n : Nat) (p : Pass α) (w : Rehearsal) : List Call :=
  Program.calls (α := Except Failure α) stoppedAt p (w, n)

def callsOf (p : Pass α) (w : Rehearsal) : List Call :=
  Program.calls (α := Except Failure α) answer p w

def steady : Setting Rehearsal where
  answers c w a w' := w.answer c = (a, w')
  rely w w' := w' = w
  rely_refl _ := rfl
  rely_trans h h' := h'.trans h

theorem run_of_reaches {p q : Program α} (h : steady.Reaches (w, p) (w', q)) :
    q.run answer w' = p.run answer w := by
  generalize hx : (w', q) = x at h
  induction h generalizing w' q with
  | refl =>
    cases hx
    rfl
  | tail _ hlast ih =>
    cases hx
    cases hlast with
    | others _ hr =>
      cases hr
      exact ih rfl
    | call next ha =>
      rw [← ih rfl, Program.run, ha]

theorem reaches_run (p : Program α) (w : Rehearsal) :
    steady.Reaches (w, p) ((p.run answer w).2, .done (p.run answer w).1) := by
  induction p generalizing w with
  | done x => exact .refl
  | call c next ih => exact .head (.call next rfl) (ih (w.answer c).1 (w.answer c).2)

/-- A run that stopped at a check. Up to there it is the run of a program that nobody stops. -/
structure CutShort (last : Call → Prop) (p : Program α) (w w' : Rehearsal) (made : List Call) :
    Prop where
  reaches : ∃ next : Bool → Program α, steady.Reaches (w, p) (w', .call .cancelled next)
  calls : made <+: p.calls answer w
  early : ∀ c ∈ made, ¬ last c

theorem CutShort.call {last : Call → Prop} {c : Call} {next : c.Answer → Program α}
    {made : List Call} (hc : ¬ last c)
    (h : CutShort last (next (w.answer c).1) (w.answer c).2 w' made) :
    CutShort last (.call c next) w w' (c :: made) where
  reaches := by
    obtain ⟨next', hr⟩ := h.reaches
    exact ⟨next', .head (.call next rfl) hr⟩
  calls := List.cons_prefix_cons.2 ⟨rfl, h.calls⟩
  early := List.forall_mem_cons.2 ⟨hc, h.early⟩

/-- Either the wish to stop comes too late, or the run is cut short and says so. -/
theorem run_stoppedAt {last : Call → Prop} (hlast : ¬ last .cancelled)
    {p : Program (Except Failure α)} (h : p.Heeds last) (hw : w.Undisturbed) (n : Nat) :
    ((p.run stoppedAt (w, n)).1 = (p.run answer w).1 ∧
        (p.run stoppedAt (w, n)).2.1 = (p.run answer w).2 ∧
        p.calls stoppedAt (w, n) = p.calls answer w) ∨
      ((∃ stage, (p.run stoppedAt (w, n)).1 = .error (.cancelled stage)) ∧
        CutShort last p w (p.run stoppedAt (w, n)).2.1 (p.calls stoppedAt (w, n)) ∧
        .cancelled ∈ p.calls stoppedAt (w, n)) := by
  induction h generalizing w n with
  | done x => exact .inl ⟨rfl, rfl, rfl⟩
  | @check next stage stops _ ih =>
    have hgo : w.answer .cancelled = (false, w) := congrArg (·, w) hw.stopped
    cases n with
    | zero =>
      have hrun : (Program.call .cancelled next).run stoppedAt (w, 0)
          = (.error (.cancelled stage), (w, 0)) :=
        congrArg (fun q : Program (Except Failure α) => q.run stoppedAt (w, 0)) stops
      have hcalls : (Program.call .cancelled next).calls stoppedAt (w, 0) = [.cancelled] :=
        congrArg (fun q : Program (Except Failure α) => Call.cancelled :: q.calls stoppedAt (w, 0))
          stops
      rw [hrun, hcalls]
      refine .inr ⟨⟨stage, rfl⟩, ⟨⟨next, .refl⟩, ?_, ?_⟩, List.mem_singleton_self _⟩
      · exact List.cons_prefix_cons.2 ⟨rfl, List.nil_prefix⟩
      · exact fun c hc => List.mem_singleton.1 hc ▸ hlast
    | succ n =>
      simp only [Program.run, Program.calls, hgo]
      rcases ih hw n with ⟨hx, hw', hcalls⟩ | ⟨hstage, hcut, hmem⟩
      · exact .inl ⟨hx, hw', congrArg (Call.cancelled :: ·) hcalls⟩
      · refine .inr ⟨hstage, .call hlast ?_, List.mem_cons_self⟩
        rw [hgo]
        exact hcut
  | @call c next hc hl _ ih =>
    simp only [Program.run, Program.calls, stoppedAt_of_ne hc]
    rcases ih (w.answer c).1 (hw.answer c) n with ⟨hx, hw', hcalls⟩ | ⟨hstage, hcut, hmem⟩
    · exact .inl ⟨hx, hw', congrArg (c :: ·) hcalls⟩
    · -- a check that comes after this call shows that it is not a last one
      have hnot : ¬ last c := fun hcl => (hl hcl _).of_calls _ _ _ hmem rfl
      exact .inr ⟨hstage, .call hnot hcut, List.mem_cons_of_mem _ hmem⟩

end Rehearsal

end MeshRollout
