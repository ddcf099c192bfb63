import Mathlib.Control.Monad.Basic
import MeshRollout.Proofs.Cluster.Leads
import MeshRollout.Proofs.Rollout.Custody

/-!
What a pass makes of a write that fails. The failure goes through the pass as it is: only a store
that knows of missing prerequisites itself makes the pass end in silence and be tried again.
-/
set_option autoImplicit false

namespace MeshRollout

def Call.PutsNothing (c : Call) : Prop :=
  ∀ w, c = .store w → w.object? = none

namespace Pass

variable {α β : Type}

def StopsAtWrites (p : Pass α) : Prop :=
  ∀ (c : StoreCall) (next : c.Answer → Program (Except Failure α)),
    Program.Leads p (.call (.store c) next) → ∀ o, c.object? = some o →
      ∀ f, next (c.failed f) = .done (.error f)

theorem object?_of_putsNothing {p : Pass α} (h : p.Uses Call.PutsNothing) {c : StoreCall}
    {next : c.Answer → Program (Except Failure α)}
    (hleads : Program.Leads p (.call (.store c) next)) : c.object? = none :=
  (Program.Uses.of_leads h hleads).1 c rfl

theorem StopsAtWrites.of_putsNothing {p : Pass α} (h : p.Uses Call.PutsNothing) :
    p.StopsAtWrites := by
  intro c next hleads o ho
  have hnone := object?_of_putsNothing h hleads
  rw [ho] at hnone
  nomatch hnone

theorem StopsAtWrites.bind {p : Pass α} {f : α → Pass β} (hp : p.StopsAtWrites)
    (hf : ∀ x, (f x).StopsAtWrites) : StopsAtWrites (p >>= f) := by
  intro c next h o ho failure
  obtain ⟨next', hleads, rfl⟩ | ⟨x, hleads⟩ := leads_call_of_bind h
  · dsimp only
    rw [hp c next' hleads o ho failure]
    rfl
  · exact hf x c next hleads o ho failure

theorem stopsAtWrites_pure (x : α) : StopsAtWrites (pure x) :=
  .of_putsNothing (uses_pure x)

theorem stopsAtWrites_create (r : Resource) (o : Object) : (create r o).StopsAtWrites := by
  intro c next h o' ho f
  cases h with
  | start => rfl
  | call a h => nomatch h

theorem stopsAtWrites_update (r : Resource) (o : Object) : (update r o).StopsAtWrites := by
  intro c next h o' ho f
  cases h with
  | start => rfl
  | call a h => nomatch h

end Pass

namespace Reconciliation

open Pass

theorem checkpoint_putsNothing (stage : String) : (checkpoint stage).Uses Call.PutsNothing :=
  uses_checkpoint (fun _ h => nomatch h) stage

theorem stopsAtWrites_writeObject (r : Resource) (o : Object) :
    (Convergence.writeObject r o).StopsAtWrites := by
  have hget : (Pass.get r o.spaceArg o.name).Uses Call.PutsNothing :=
    Program.uses_ask fun c hc => by cases hc; rfl
  refine StopsAtWrites.bind (.of_putsNothing hget) fun live => ?_
  cases live with
  | none => exact (stopsAtWrites_create r o).bind fun _ => stopsAtWrites_pure _
  | some live =>
    simp only
    split
    · exact stopsAtWrites_pure _
    · exact (stopsAtWrites_update r _).bind fun _ => stopsAtWrites_pure _

theorem stopsAtWrites_writeAll (bs : List PlannedObject) : (writeAll bs).StopsAtWrites := by
  induction bs with
  | nil => exact stopsAtWrites_pure ()
  | cons b bs ih =>
    refine StopsAtWrites.bind (.of_putsNothing (checkpoint_putsNothing _)) fun _ => ?_
    exact (stopsAtWrites_writeObject b.resource b.object).bind fun _ => ih

theorem sweepKinds_putsNothing (o : Owner) (keep : List Identity) (rs : List Resource) :
    (Sweep.sweepKinds o keep rs).Uses Call.PutsNothing := by
  have hlist (r : Resource) (selector : Option String) :
      Call.PutsNothing (.store (.list r none selector)) := by
    rintro c ⟨⟩
    rfl
  have hdelete (r : Resource) (space : Option String) (name : String) :
      Call.PutsNothing (.store (.delete r space name)) := by
    rintro c ⟨⟩
    rfl
  exact Sweep.sweepKinds_uses (fun _ h => nomatch h) hlist hdelete o keep rs

theorem stopsAtWrites_bringIntoPlace (edgeSpace : String) (o : Owner) (r : Route) :
    (bringIntoPlace edgeSpace o r).StopsAtWrites := by
  rw [bringIntoPlace_eq_produced]
  refine StopsAtWrites.bind (p := Pass.ofExcept _) (.of_putsNothing trivial) fun bs => ?_
  refine (stopsAtWrites_writeAll bs).bind fun _ => ?_
  refine StopsAtWrites.bind (.of_putsNothing (sweepKinds_putsNothing o _ _)) fun _ => ?_
  exact stopsAtWrites_pure ()

def ConcludesFailedWrites (p : Pass Action) : Prop :=
  ∀ (c : StoreCall) (next : c.Answer → Program (Except Failure Action)),
    Program.Leads p (.call (.store c) next) → ∀ o, c.object? = some o →
      ∃ r, ∀ f, next (c.failed f) = conclude r (.error f)

namespace ConcludesFailedWrites

theorem of_putsNothing {p : Pass Action} (h : p.Uses Call.PutsNothing) :
    ConcludesFailedWrites p := by
  intro c next hleads o ho
  have hnone := object?_of_putsNothing h hleads
  rw [ho] at hnone
  nomatch hnone

theorem after_putsNothing {α : Type} {p : Pass α} {f : α → Pass Action}
    (hp : p.Uses Call.PutsNothing) (hf : ∀ x, ConcludesFailedWrites (f x)) :
    ConcludesFailedWrites (p >>= f) := by
  intro c next h o ho
  obtain ⟨next', hleads, -⟩ | ⟨x, hleads⟩ := leads_call_of_bind h
  · have hnone := object?_of_putsNothing hp hleads
    rw [ho] at hnone
    nomatch hnone
  · exact hf x c next hleads o ho

theorem of_attempt {p : Pass Unit} (hp : p.StopsAtWrites) (r : Route) :
    ConcludesFailedWrites (do conclude r (← p.attempt)) := by
  intro c next h o ho
  obtain ⟨next', hleads, rfl⟩ | ⟨x, hleads⟩ := leads_call_of_bind h
  · obtain ⟨inner, hinner, rfl⟩ | ⟨x, -, hx⟩ := Program.leads_call_of_bind hleads
    · refine ⟨r, fun f => ?_⟩
      dsimp only
      rw [hp c inner hinner o ho f]
      rfl
    · nomatch hx
  · have htells := (Program.Uses.of_leads (conclude_tells r x) hleads).1
    nomatch htells

theorem passOver (edgeSpace : String) (o : Owner) (r : Route) :
    ConcludesFailedWrites (passOver edgeSpace o r) := by
  have hroute {c : RouteCall} : Call.PutsNothing (.route c) := fun w hw => nomatch hw
  cases hl : r.isLeaving with
  | true =>
    cases hh : r.metadata.isHeldBy edgeCleanup with
    | true =>
      rw [passOver_of_leaving edgeSpace o hl hh]
      have hletGo : (letGo o r).Uses Call.PutsNothing :=
        (sweepKinds_putsNothing o [] producedKinds).bind fun _ => Program.uses_ask hroute
      exact of_putsNothing (hletGo.bind fun _ => uses_pure _)
    | false =>
      rw [passOver_of_unheld_leaving edgeSpace o hl hh]
      exact of_putsNothing (uses_pure _)
  | false =>
    cases hh : r.metadata.isHeldBy edgeCleanup with
    | true =>
      rw [passOver_of_held edgeSpace o hl hh]
      exact of_attempt (stopsAtWrites_bringIntoPlace edgeSpace o r) r
    | false =>
      rw [passOver_of_unheld edgeSpace o hl hh]
      refine of_putsNothing ((checkpoint_putsNothing _).bind fun _ => ?_)
      exact Uses.bind (Program.uses_ask hroute) fun _ => uses_pure _

end ConcludesFailedWrites

theorem failed_write_concludes (edgeSpace : String) (m : ObjectMeta) :
    ConcludesFailedWrites (reconcile edgeSpace m) := by
  rw [reconcile.eq_def]
  cases m.space with
  | none => exact .of_putsNothing (uses_pure _)
  | some space =>
    refine .after_putsNothing (checkpoint_putsNothing _) fun _ => ?_
    have hget : (Pass.getRoute space m.anyName).Uses Call.PutsNothing :=
      Program.uses_ask fun w hw => nomatch hw
    refine .after_putsNothing hget fun found => ?_
    cases found with
    | none => exact .of_putsNothing (uses_pure _)
    | some r => exact .passOver edgeSpace _ r

/-- What is left of a pass ends in a rejection that was to be expected, so that it is tried again,
and nobody is told of it. -/
structure EndsInExpectedRejection (p : Program (Except Failure Action)) : Prop where
  expected : ∀ x, p.Leads (.done x) → ∃ f, x = .error f ∧ f.awaitsPrerequisite = true
  again : ∀ f, p.Leads (.done (.error f)) → ∃ n, Action.afterFailure f = .requeue n
  silent : p.Uses fun c => ∀ message, c ≠ .notify message

theorem record_silent {x : Outcome} (hx : x.announced = false) (r : Route) :
    (x.record r).Uses fun c => ∀ message, c ≠ .notify message := by
  simp only [Outcome.record, hx]
  split
  · exact uses_pure _
  · have hnow : ∀ message, Call.now ≠ .notify message := by rintro message ⟨⟩
    refine Uses.bind (p := Pass.now) ⟨hnow, fun _ => trivial⟩ fun t => ?_
    have hpatch : ∀ message, Call.route (.patchStatus r.spaceOrEmpty r.name (x.status r t))
        ≠ .notify message := by
      rintro message ⟨⟩
    exact Uses.bind (Program.uses_ask hpatch) fun _ => uses_pure _

theorem leads_conclude {r : Route} {f : Failure} {x : Except Failure Action}
    (h : Program.Leads (conclude r (.error f)) (.done x)) : x = .error f := by
  rw [conclude.eq_def] at h
  split at h
  · rename_i hf
    cases hf
  · rename_i stage hf
    cases h with
    | start => exact congrArg Except.error (Except.error.inj hf).symm
  · rename_i f' _ hf
    obtain ⟨y, hattempt, hy⟩ := Program.leads_done_of_bind h
    obtain ⟨z, -, hz⟩ := Program.leads_done_of_bind hattempt
    cases hz with
    | start =>
      cases hy with
      | start => exact congrArg Except.error (Except.error.inj hf).symm

theorem conclude_silent (r : Route) {f : Failure} (hf : f.awaitsPrerequisite = true) :
    (conclude r (.error f)).Uses fun c => ∀ message, c ≠ .notify message := by
  cases f with
  | notReady kind space name message =>
    exact (record_silent rfl r).attempt.bind fun _ => uses_throw _
  | _ => nomatch hf

theorem endsInExpectedRejection_conclude_iff (r : Route) (f : Failure) :
    EndsInExpectedRejection (conclude r (.error f)) ↔ f.awaitsPrerequisite = true := by
  constructor
  · intro h
    obtain ⟨x, hx⟩ := Program.exists_leads_done (conclude r (.error f))
    obtain ⟨f', rfl, hf'⟩ := h.expected x hx
    cases leads_conclude hx
    exact hf'
  · intro hf
    refine ⟨fun x hx => ⟨f, leads_conclude hx, hf⟩, fun f' hf' => ?_, conclude_silent r hf⟩
    cases leads_conclude hf'
    cases f with
    | notReady kind space name message => exact ⟨retrySeconds, rfl⟩
    | _ => nomatch hf

/-- A pass in which an object cannot be put in place ends with that failure, whatever it is, and
does nothing more than tell it. So it ends in an expected rejection exactly if the store itself says
that a prerequisite is missing; a text that tells so is not enough. -/
theorem failed_write_expected_iff {edgeSpace : String} {m : ObjectMeta} {c : StoreCall} {o : Object}
    {next : c.Answer → Program (Except Failure Action)}
    (h : Program.Leads (reconcile edgeSpace m) (.call (.store c) next)) (ho : c.object? = some o)
    (f : Failure) :
    (∀ x, (next (c.failed f)).Leads (.done x) → x = .error f) ∧
      (next (c.failed f)).Uses (fun c => c.isTelling = true) ∧
      (EndsInExpectedRejection (next (c.failed f)) ↔ f.awaitsPrerequisite = true) := by
  obtain ⟨r, hr⟩ := failed_write_concludes edgeSpace m c next h o ho
  rw [hr f]
  exact ⟨fun x => leads_conclude, conclude_tells r _, endsInExpectedRejection_conclude_iff r f⟩

def putting? {α : Type} : Program α → Option Object
  | .call (.store c) _ => c.object?
  | _ => none

theorem exists_call_of_putting? {α : Type} {p : Program α} (h : (putting? p).isSome = true) :
    ∃ (c : StoreCall) (next : c.Answer → Program α) (o : Object),
      p = .call (.store c) next ∧ c.object? = some o := by
  obtain ⟨o, ho⟩ := Option.isSome_iff_exists.mp h
  cases p with
  | done x => nomatch ho
  | call c next =>
    cases c with
    | store c => exact ⟨c, next, o, rfl, ho⟩
    | _ => nomatch ho

def unconfigured : Failure :=
  .cluster (.api ⟨"Failure", "gateway is unconfigured", "BadRequest", 400⟩)

theorem first_write_not_expected :
    ∃ (c : StoreCall) (next : c.Answer → Program (Except Failure Action)),
      Program.Leads (reconcile "istio-system" heldShop.metadata) (.call (.store c) next) ∧
      c.object?.isSome = true ∧ unconfigured.tellsUnconfigured = true ∧
      ¬ EndsInExpectedRejection (next (c.failed unconfigured)) := by
  obtain ⟨c, next, o, hp, ho⟩ := exists_call_of_putting?
    (p := Program.follow Rehearsal.answer 4 (reconcile "istio-system" heldShop.metadata)
      Custody.heldCluster) (by decide +kernel)
  have hleads : Program.Leads (reconcile "istio-system" heldShop.metadata)
      (.call (.store c) next) :=
    hp ▸ Program.leads_follow Rehearsal.answer 4 _ Custody.heldCluster
  obtain ⟨-, -, hiff⟩ := failed_write_expected_iff hleads ho unconfigured
  refine ⟨c, next, hleads, by rw [ho]; rfl, by decide +kernel, fun h => ?_⟩
  nomatch hiff.mp h

def unconfiguredCluster : Rehearsal :=
  { Custody.heldCluster with faults := [⟨"create", "VirtualService", "", 1, unconfigured⟩] }

def unconfiguredPass : Except Failure Action × Rehearsal :=
  Rehearsal.run (reconcile "istio-system" heldShop.metadata) unconfiguredCluster

/-- The first object is rejected because something is unconfigured. People are told that the route
failed, and the pass is not tried again. -/
theorem unconfigured_rejection_announced :
    unconfigured.tellsUnconfigured = true ∧ unconfigured.awaitsPrerequisite = false ∧
      unconfiguredPass.1 = .error unconfigured ∧ unconfiguredPass.2.notes.length = 1 ∧
      Action.afterFailure unconfigured = .awaitChange := by
  decide +kernel

end Reconciliation

end MeshRollout
