import MeshRollout.Desired.Alignment
import MeshRollout.Proofs.Cluster.Interruption
import MeshRollout.Proofs.Desired.Converged
import MeshRollout.Proofs.Rollout.Parts

/-!
Messages to people are sent on the side: a pass goes on in the same way whether a message arrives or
not. So two runs that differ only in who delivers the messages make the same calls, ask for the same
messages in the same order, and come to the same end.
-/
set_option autoImplicit false

namespace MeshRollout

/-- Who delivers messages. Every single one may arrive or not, and may change what becomes of the
next ones. -/
abbrev Delivery (τ : Type) : Type :=
  String → τ → Except Failure Unit × τ

namespace Program

variable {α β σ τ τ' : Type}

def withDelivery (answer : (c : Call) → σ → c.Answer × σ) (deliver : Delivery τ) (c : Call)
    (x : σ × τ) : c.Answer × (σ × τ) :=
  match c with
  | .notify message => ((deliver message x.2).1, (x.1, (deliver message x.2).2))
  | c => ((answer c x.1).1, ((answer c x.1).2, x.2))

theorem withDelivery_of_ne {c : Call} (hc : ∀ message, c ≠ .notify message)
    (answer : (c : Call) → σ → c.Answer × σ) (deliver : Delivery τ) (s : σ) (t : τ) :
    withDelivery answer deliver c (s, t) = ((answer c s).1, ((answer c s).2, t)) := by
  cases c with
  | notify message => exact absurd rfl (hc message)
  | store c => rfl
  | route c => rfl
  | cancelled => rfl
  | now => rfl
  | fetch => rfl

/-- What follows a message does not depend on whether the message arrived. -/
inductive Deaf : Program α → Prop where
  | done (x : α) : Deaf (.done x)
  | notify {message : String} {next : Except Failure Unit → Program α}
      (same : ∀ a a', next a = next a') (h : ∀ a, Deaf (next a)) :
      Deaf (.call (.notify message) next)
  | call {c : Call} {next : c.Answer → Program α} (hc : ∀ message, c ≠ .notify message)
      (h : ∀ a, Deaf (next a)) : Deaf (.call c next)

namespace Deaf

variable {p : Program α}

theorem of_uses (h : p.Uses fun c => ∀ message, c ≠ .notify message) : p.Deaf := by
  induction p with
  | done x => exact .done x
  | call c next ih => exact .call h.1 fun a => ih a (h.2 a)

theorem bind {f : α → Program β} (h : p.Deaf) (hf : ∀ x, (f x).Deaf) : (p.bind f).Deaf := by
  induction h with
  | done x => exact hf x
  | notify same _ ih => exact .notify (fun a a' => by rw [same a a']) ih
  | call hc _ ih => exact .call hc ih

theorem run_same (h : p.Deaf) (answer : (c : Call) → σ → c.Answer × σ) (deliver : Delivery τ)
    (deliver' : Delivery τ') (s : σ) (t : τ) (t' : τ') :
    (p.run (withDelivery answer deliver') (s, t')).1
        = (p.run (withDelivery answer deliver) (s, t)).1 ∧
      (p.run (withDelivery answer deliver') (s, t')).2.1
        = (p.run (withDelivery answer deliver) (s, t)).2.1 ∧
      p.calls (withDelivery answer deliver') (s, t')
        = p.calls (withDelivery answer deliver) (s, t) := by
  induction h generalizing s t t' with
  | done x => exact ⟨rfl, rfl, rfl⟩
  | @notify message next same _ ih =>
    obtain ⟨hx, hs, hc⟩ := ih (deliver message t).1 s (deliver message t).2 (deliver' message t').2
    -- one message may have arrived and the other one not, but the rest is the same program
    have hrest : next (deliver' message t').1 = next (deliver message t).1 := same _ _
    simp only [run, calls, withDelivery, hrest]
    exact ⟨hx, hs, by rw [hc]⟩
  | @call c next hc _ ih =>
    obtain ⟨hx, hs, hcalls⟩ := ih (answer c s).1 (answer c s).2 t t'
    simp only [run, calls, withDelivery_of_ne hc]
    exact ⟨hx, hs, by rw [hcalls]⟩

end Deaf

theorem deaf_ask {c : Call} (hc : ∀ message, c ≠ .notify message) : (ask c).Deaf :=
  .call hc fun a => .done a

end Program

namespace Pass

open Program

variable {α β : Type}

def Deaf (p : Pass α) : Prop :=
  Program.Deaf (α := Except Failure α) p

/-- Whoever answers the calls of the pass and whoever delivers its messages: with another delivery
it comes to the same result, leaves the same world and makes the same calls in the same order, the
messages among them. -/
def IgnoresDelivery (p : Pass α) : Prop :=
  ∀ {σ τ τ' : Type} (answer : (c : Call) → σ → c.Answer × σ) (deliver : Delivery τ)
    (deliver' : Delivery τ') (s : σ) (t : τ) (t' : τ'),
    (Program.run (α := Except Failure α) (withDelivery answer deliver') p (s, t')).1
        = (Program.run (α := Except Failure α) (withDelivery answer deliver) p (s, t)).1 ∧
      (Program.run (α := Except Failure α) (withDelivery answer deliver') p (s, t')).2.1
        = (Program.run (α := Except Failure α) (withDelivery answer deliver) p (s, t)).2.1 ∧
      Program.calls (α := Except Failure α) (withDelivery answer deliver') p (s, t')
        = Program.calls (α := Except Failure α) (withDelivery answer deliver) p (s, t)

namespace Deaf

theorem ignoresDelivery {p : Pass α} (h : p.Deaf) : p.IgnoresDelivery :=
  fun answer deliver deliver' s t t' => h.run_same answer deliver deliver' s t t'

theorem of_uses {p : Pass α} (h : p.Uses fun c => ∀ message, c ≠ .notify message) : p.Deaf :=
  Program.Deaf.of_uses h

theorem bind {p : Pass α} {f : α → Pass β} (h : p.Deaf) (hf : ∀ x, (f x).Deaf) :
    Deaf (p >>= f) := by
  refine Program.Deaf.bind (α := Except Failure α) h fun r => ?_
  cases r with
  | ok x => exact hf x
  | error e => exact .done _

theorem attempt {p : Pass α} (h : p.Deaf) : p.attempt.Deaf :=
  Program.Deaf.bind (α := Except Failure α) h fun _ => .done _

end Deaf

theorem deaf_pure (x : α) : Deaf (pure x) :=
  .done _

theorem deaf_throw (e : Failure) : Deaf (throw e : Pass α) :=
  .done _

theorem deaf_ofExcept (r : Except Failure α) : Deaf (ofExcept r) :=
  .done _

theorem deaf_notify (message : String) : (notify message).Deaf :=
  .notify (fun a a' => by cases a <;> cases a' <;> rfl) fun a => by cases a <;> exact .done _

theorem deaf_checkpoint (stage : String) : (checkpoint stage).Deaf :=
  .of_uses (uses_checkpoint (fun _ h => nomatch h) stage)

end Pass

namespace Convergence

open Pass

variable (manager : String) (r : Resource)

theorem deaf_prune (live : Object) (p : Progress) : (prune r live p).Deaf := by
  refine (deaf_notify _).bind fun _ => ?_
  refine Deaf.bind (Program.deaf_ask fun _ h => nomatch h) fun gone => ?_
  cases gone with
  | true => exact deaf_pure _
  | false => exact deaf_pure _

theorem deaf_pruneAll (l : List Object) (p : Progress) : (pruneAll r p l).Deaf := by
  induction l generalizing p with
  | nil => exact deaf_pure p
  | cons live l ih => exact (deaf_prune r live p).bind fun p' => ih p'

theorem deaf_pruneSpaces (ws : Dict (List String)) (p : Progress) : (pruneSpaces r p ws).Deaf := by
  induction ws generalizing p with
  | nil => exact deaf_pure p
  | cons q ws ih =>
    refine Deaf.bind (Program.deaf_ask fun _ h => nomatch h) fun live => ?_
    exact (deaf_pruneAll r _ p).bind fun p' => ih p'

theorem deaf_applyUnlessSame (differs : Object → Object → Bool) (o : Object) (p : Progress) :
    (applyUnlessSame manager r differs o p).Deaf := by
  refine Deaf.bind (Program.deaf_ask fun _ h => nomatch h) fun live => ?_
  split
  · exact deaf_pure _
  · have hattempt : (Pass.apply r o manager).attempt.Deaf :=
      Deaf.attempt (Program.deaf_ask fun _ h => nomatch h)
    refine hattempt.bind fun result => ?_
    cases result with
    | ok x => exact (deaf_notify _).bind fun _ => deaf_pure _
    | error f =>
      simp only
      split
      · exact deaf_pure _
      · exact (deaf_notify _).bind fun _ => deaf_throw f

theorem deaf_applyAll (os : List Object) (p : Progress) : (applyAll manager r p os).Deaf := by
  induction os generalizing p with
  | nil => exact deaf_pure p
  | cons o os ih => exact (deaf_applyUnlessSame manager r _ o p).bind fun p' => ih p'

theorem deaf_converge (desired : List Object) : (converge manager r desired).Deaf := by
  cases hkinds : stray? r desired with
  | some o =>
    rw [converge_of_stray manager hkinds]
    exact deaf_throw _
  | none =>
    by_cases hne : desired = []
    · subst hne
      rw [converge_nil]
      refine Deaf.bind (Program.deaf_ask fun _ h => nomatch h) fun live => ?_
      exact (deaf_pruneAll r live {}).bind fun p => deaf_pure _
    · rw [converge_of_ne manager hkinds hne]
      refine (deaf_pruneSpaces r _ {}).bind fun p => ?_
      exact (deaf_applyAll manager r desired p).bind fun p' => deaf_ofExcept _

theorem deaf_applyEach (ds : List WantedObject) (p : Progress) :
    (applyEach manager p ds).Deaf := by
  induction ds generalizing p with
  | nil => exact deaf_pure p
  | cons d ds ih => exact (deaf_applyUnlessSame manager _ _ _ p).bind fun p' => ih p'

theorem deaf_applyOthers (ds : List WantedObject) : (applyOthers manager ds).Deaf :=
  (deaf_applyEach manager ds {}).bind fun _ => deaf_ofExcept _

end Convergence

namespace Alignment

open Pass

theorem deaf_takingIn {part : Pass Report} (h : part.Deaf) (p : Progress) :
    (takingIn p part).Deaf :=
  h.attempt.bind fun _ => deaf_ofExcept _

theorem deaf_pass (manager : String) : (pass manager).Deaf := by
  refine Deaf.bind (Program.deaf_ask fun _ h => nomatch h) fun text => ?_
  refine (deaf_ofExcept _).bind fun ds => ?_
  refine (deaf_takingIn (Convergence.deaf_converge manager _ _) _).bind fun p => ?_
  exact (deaf_takingIn (Convergence.deaf_applyOthers manager _) p).bind fun _ => deaf_ofExcept _

end Alignment

namespace Reconciliation

open Pass

theorem deaf_record (x : Outcome) (r : Route) : (x.record r).Deaf := by
  simp only [Outcome.record]
  split
  · exact deaf_pure _
  · refine Deaf.bind (p := Pass.now) (.call (by simp) fun t => .done _) fun t => ?_
    refine Deaf.bind (Program.deaf_ask (by simp)) fun _ => ?_
    split
    · exact deaf_notify _
    · exact deaf_pure _

theorem deaf_conclude (r : Route) (result : Except Failure Unit) : (conclude r result).Deaf := by
  rw [conclude.eq_def]
  split
  · exact (deaf_record _ r).bind fun _ => deaf_pure _
  · exact deaf_throw _
  · exact (deaf_record _ r).attempt.bind fun _ => deaf_throw _

theorem deaf_letGo (o : Owner) (r : Route) : (letGo o r).Deaf := by
  have hsweep : (sweep o []).Deaf :=
    .of_uses (Sweep.sweepKinds_uses (fun _ h => nomatch h) (fun _ _ _ h => nomatch h)
      (fun _ _ _ _ h => nomatch h) o [] _)
  exact hsweep.bind fun _ => Program.deaf_ask fun _ h => nomatch h

theorem deaf_bringIntoPlace (edgeSpace : String) (o : Owner) (r : Route) :
    (bringIntoPlace edgeSpace o r).Deaf :=
  .of_uses (bringIntoPlace_uses (fun _ h => nomatch h) (fun _ _ h => nomatch h) edgeSpace o r)

theorem deaf_passOver (edgeSpace : String) (o : Owner) (r : Route) :
    (passOver edgeSpace o r).Deaf := by
  cases hl : r.isLeaving with
  | true =>
    cases hh : r.metadata.isHeldBy edgeCleanup with
    | true =>
      rw [passOver_of_leaving edgeSpace o hl hh]
      exact (deaf_letGo o r).bind fun _ => deaf_pure _
    | false =>
      rw [passOver_of_unheld_leaving edgeSpace o hl hh]
      exact deaf_pure _
  | false =>
    cases hh : r.metadata.isHeldBy edgeCleanup with
    | true =>
      rw [passOver_of_held edgeSpace o hl hh]
      exact (deaf_bringIntoPlace edgeSpace o r).attempt.bind fun result => deaf_conclude r result
    | false =>
      rw [passOver_of_unheld edgeSpace o hl hh]
      refine (deaf_checkpoint _).bind fun _ => ?_
      exact Deaf.bind (Program.deaf_ask fun _ h => nomatch h) fun _ => deaf_pure _

theorem deaf_reconcile (edgeSpace : String) (m : ObjectMeta) : (reconcile edgeSpace m).Deaf := by
  rw [reconcile.eq_def]
  cases m.space with
  | none => exact deaf_pure _
  | some space =>
    refine (deaf_checkpoint _).bind fun _ => ?_
    refine Deaf.bind (Program.deaf_ask fun _ h => nomatch h) fun found => ?_
    cases found with
    | none => exact deaf_pure _
    | some r => exact deaf_passOver edgeSpace _ r

end Reconciliation

/-- Whether messages arrive has no influence on what is brought into the cluster: not when one kind
is brought to what is desired, not when objects are applied, and neither on a pass over a manifest
nor on a pass over a route. -/
theorem delivery_without_influence :
    (∀ manager r desired, (Convergence.converge manager r desired).IgnoresDelivery) ∧
      (∀ manager ds, (Convergence.applyOthers manager ds).IgnoresDelivery) ∧
      (∀ manager, (Alignment.pass manager).IgnoresDelivery) ∧
      ∀ edgeSpace m, (reconcile edgeSpace m).IgnoresDelivery := by
  refine ⟨fun manager r desired => ?_, fun manager ds => ?_, fun manager => ?_,
    fun edgeSpace m => ?_⟩
  · exact (Convergence.deaf_converge manager r desired).ignoresDelivery
  · exact (Convergence.deaf_applyOthers manager ds).ignoresDelivery
  · exact (Alignment.deaf_pass manager).ignoresDelivery
  · exact (Reconciliation.deaf_reconcile edgeSpace m).ignoresDelivery

end MeshRollout
