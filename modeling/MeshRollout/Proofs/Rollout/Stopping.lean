import Mathlib.Control.Monad.Basic
import MeshRollout.Proofs.Rollout.Resumption

/-!
A pass that is asked to stop. It stops at the next check and tells nobody anything, and a pass that
is made later comes to the same end as if the first one had not been stopped.
-/
set_option autoImplicit false

namespace MeshRollout

open Rehearsal Reconciliation

def Call.IsFarewell (c : Call) : Prop :=
  c.isTelling = true ∨ c.isRelease = true

namespace Reconciliation

theorem not_isFarewell_cancelled : ¬ Call.IsFarewell .cancelled := by
  simp [Call.IsFarewell, Call.isTelling, Call.isRelease]

theorem not_isFarewell_store (c : StoreCall) : ¬ Call.IsFarewell (.store c) := by
  simp [Call.IsFarewell, Call.isTelling, Call.isRelease]

theorem writeObject_unchecked (r : Resource) (o : Object) :
    (Convergence.writeObject r o).Uses (· ≠ .cancelled) := by
  refine writeObject_uses ?_ ?_ ?_ r o
  · exact fun _ _ _ h => nomatch h
  · exact fun _ _ h => nomatch h
  · exact fun _ _ h => nomatch h

theorem conclude_unchecked (r : Route) (result : Except Failure Unit) :
    (conclude r result).Uses (· ≠ .cancelled) := by
  refine Program.Uses.mono (α := Except Failure Action) (conclude_tells r result) fun c hc he => ?_
  rw [he] at hc
  nomatch hc

theorem heeds_writeAll (bs : List PlannedObject) : (writeAll bs).Heeds Call.IsFarewell := by
  induction bs with
  | nil => exact .of_unchecked (Pass.uses_pure _)
  | cons b bs ih =>
    refine .after_checkpoint not_isFarewell_cancelled _ fun _ => ?_
    refine (Pass.Heeds.of_unchecked (writeObject_unchecked _ _)).bind ?_ fun _ => ih
    exact writeObject_uses (fun _ _ _ => not_isFarewell_store _) (fun _ _ => not_isFarewell_store _)
      (fun _ _ => not_isFarewell_store _) _ _

theorem heeds_deleteAll (r : Resource) (l : List Object) :
    (Sweep.deleteAll r l).Heeds Call.IsFarewell := by
  induction l with
  | nil => exact .of_unchecked (Pass.uses_pure _)
  | cons live l ih =>
    refine .after_checkpoint not_isFarewell_cancelled _ fun _ => ?_
    have hdelete : (Pass.delete r live.spaceArg live.name).Heeds Call.IsFarewell :=
      .of_unchecked (Program.uses_ask fun h => nomatch h)
    refine hdelete.bind (Program.uses_ask (not_isFarewell_store _)) fun _ => ?_
    exact ih.bind_unchecked fun _ => Pass.uses_pure _

theorem heeds_sweepKinds (o : Owner) (keep : List Identity) (rs : List Resource) :
    (Sweep.sweepKinds o keep rs).Heeds Call.IsFarewell := by
  induction rs with
  | nil => exact .of_unchecked (Pass.uses_pure _)
  | cons r rs ih =>
    have hlist : (Pass.list r none (some o.selector)).Heeds Call.IsFarewell :=
      .of_unchecked (Program.uses_ask fun h => nomatch h)
    have hkind : (Sweep.sweepKind o keep r).Heeds Call.IsFarewell := by
      refine .after_checkpoint not_isFarewell_cancelled _ fun _ => ?_
      exact hlist.bind (Program.uses_ask (not_isFarewell_store _)) fun _ => heeds_deleteAll _ _
    refine hkind.bind ?_ fun _ => ih.bind_unchecked fun _ => Pass.uses_pure _
    exact Sweep.sweepKind_uses not_isFarewell_cancelled (fun _ => not_isFarewell_store _)
      (fun _ _ => not_isFarewell_store _) o keep

theorem sweep_works (o : Owner) (keep : List Identity) :
    (sweep o keep).Uses (¬ Call.IsFarewell ·) :=
  Sweep.sweepKinds_uses not_isFarewell_cancelled (fun _ _ => not_isFarewell_store _)
    (fun _ _ _ => not_isFarewell_store _) o keep producedKinds

theorem heeds_bringIntoPlace (edgeSpace : String) (o : Owner) (r : Route) :
    (bringIntoPlace edgeSpace o r).Heeds Call.IsFarewell := by
  have hproduced (x : Except Failure (List PlannedObject)) :
      (Pass.ofExcept x).Heeds Call.IsFarewell :=
    .done x
  rw [bringIntoPlace_eq_produced]
  refine (hproduced _).bind trivial fun bs => (heeds_writeAll bs).bind ?_ fun _ => ?_
  · exact writeAll_uses (fun _ _ _ => not_isFarewell_store _) (fun _ _ => not_isFarewell_store _)
      (fun _ _ => not_isFarewell_store _) not_isFarewell_cancelled bs
  · exact (heeds_sweepKinds o _ _).bind_unchecked fun _ => Pass.uses_pure _

theorem heeds_letGo (o : Owner) (r : Route) : (letGo o r).Heeds Call.IsFarewell := by
  refine (heeds_sweepKinds o [] producedKinds).bind (sweep_works o []) fun _ => ?_
  exact .of_unchecked (Program.uses_ask fun h => nomatch h)

theorem heeds_passOver (edgeSpace : String) (o : Owner) (r : Route) :
    (passOver edgeSpace o r).Heeds Call.IsFarewell := by
  cases hl : r.isLeaving with
  | true =>
    cases hh : r.metadata.isHeldBy edgeCleanup with
    | true =>
      rw [passOver_of_leaving edgeSpace o hl hh]
      exact (heeds_letGo o r).bind_unchecked fun _ => Pass.uses_pure _
    | false =>
      rw [passOver_of_unheld_leaving edgeSpace o hl hh]
      exact .of_unchecked (Pass.uses_pure _)
  | false =>
    cases hh : r.metadata.isHeldBy edgeCleanup with
    | true =>
      rw [passOver_of_held edgeSpace o hl hh]
      refine (heeds_bringIntoPlace edgeSpace o r).attempt_bind ?_ (fun _ => rfl) fun result => ?_
      · exact bringIntoPlace_uses not_isFarewell_cancelled not_isFarewell_store edgeSpace o r
      · exact .of_unchecked (conclude_unchecked r result)
    | false =>
      rw [passOver_of_unheld edgeSpace o hl hh]
      refine .after_checkpoint not_isFarewell_cancelled _ fun _ => ?_
      have hhold : (Pass.hold o.space o.name edgeCleanup).Uses (· ≠ .cancelled) :=
        Program.uses_ask fun h => nomatch h
      exact .of_unchecked (hhold.bind fun _ => Pass.uses_pure _)

end Reconciliation

/-- A pass over a route heeds the wish to stop at every check. -/
theorem heeds_reconcile (edgeSpace : String) (m : ObjectMeta) :
    (reconcile edgeSpace m).Heeds Call.IsFarewell := by
  cases hs : m.space with
  | none =>
    simp only [reconcile, hs]
    exact .of_unchecked (Pass.uses_pure _)
  | some space =>
    simp only [reconcile, hs]
    refine .after_checkpoint not_isFarewell_cancelled _ fun _ => ?_
    have hunchecked : Call.route (.get space m.anyName) ≠ .cancelled := by rintro ⟨⟩
    have hget : (Pass.getRoute space m.anyName).Heeds Call.IsFarewell :=
      .of_unchecked (Program.uses_ask hunchecked)
    have hworks : (Pass.getRoute space m.anyName).Uses (¬ Call.IsFarewell ·) :=
      Program.uses_ask (by simp [Call.IsFarewell, Call.isTelling, Call.isRelease])
    refine hget.bind hworks fun found => ?_
    cases found with
    | none => exact .of_unchecked (Pass.uses_pure _)
    | some r => exact heeds_passOver edgeSpace _ r

section Resuming

variable {space name edgeSpace : String} {m : ObjectMeta} {w : Rehearsal} {r : Route}
  (hs : m.space = some space) (hn : m.anyName = name)
include hs hn

theorem ensures_reconcile {start : MemoryStore} {P Done : MemoryStore → Prop}
    {x : Except Failure Action}
    (h : Restartable (passOver edgeSpace ⟨name, space, r.uidOrEmpty⟩ r) start P x Done)
    (hw : w.Undisturbed) (hr : w.findRoute space name = some r) (hP : P w.store) :
    steady.Ensures (AtChecks P) (reconcile edgeSpace m) (fun y w' => y = x ∧ Done w'.store) w := by
  simp only [reconcile, hs, hn]
  refine Setting.Ensures.bind (ensures_checkpoint hw hP "fetch") ?_
  rintro - w₁ ⟨rfl, rfl⟩
  refine Setting.Ensures.bind (ensures_getRoute space name hw) ?_
  rintro - w₂ ⟨rfl, hw₂⟩
  simp only [hr, ExceptT.bindCont]
  refine (h.steadily _ hP w₂ hw₂).mono ?_
  rintro y w' ⟨s', hs', rfl, hdone⟩
  exact ⟨rfl, hs'.store.symm ▸ hdone⟩

/-- From every store in which a pass may have been stopped, and from the one in which it ends, a
pass over the same route has the same result, and all objects say the same afterwards. -/
theorem run_reconcile_same {start : MemoryStore} {P Done : MemoryStore → Prop}
    {x : Except Failure Action} {w' : Rehearsal}
    (h : Restartable (passOver edgeSpace ⟨name, space, r.uidOrEmpty⟩ r) start P x Done)
    (hw : w.Undisturbed) (hr : w.findRoute space name = some r) (hP : P w.store)
    (hw' : w'.Undisturbed) (hr' : w'.findRoute space name = some r) (hP' : P w'.store) :
    (Rehearsal.run (reconcile edgeSpace m) w').1 = (Rehearsal.run (reconcile edgeSpace m) w).1 ∧
      ∀ k, (Rehearsal.run (reconcile edgeSpace m) w').2.store.content k
        = (Rehearsal.run (reconcile edgeSpace m) w).2.store.content k := by
  have hend {w : Rehearsal} (hw : w.Undisturbed) (hr : w.findRoute space name = some r)
      (hP : P w.store) :=
    (ensures_reconcile hs hn h hw hr hP).reaches (reaches_run (reconcile edgeSpace m) w) _ rfl
  obtain ⟨hx, hdone⟩ := hend hw hr hP
  obtain ⟨hx', hdone'⟩ := hend hw' hr' hP'
  exact ⟨hx'.trans hx.symm, h.same _ _ hdone' hdone⟩

end Resuming

/-- A pass is asked to stop after any number of checks. It makes the first calls of the pass that
nobody stops, and its writes are the first ones of that pass. Where it stops, it has told nobody
anything and has not released the route. A pass over the same route from the store that it leaves
has the result of the pass that nobody stops, and all objects say the same afterwards. -/
theorem stopped_pass_resumes {space name edgeSpace : String} {m : ObjectMeta} {w : Rehearsal}
    {r : Route} (hs : m.space = some space) (hn : m.anyName = name) (hw : w.store.Reachable)
    (hu : w.Undisturbed) (hr : w.findRoute space name = some r) (n : Nat) :
    callsUntil n (reconcile edgeSpace m) w <+: callsOf (reconcile edgeSpace m) w ∧
      (runUntil n (reconcile edgeSpace m) w).2.store.writes
        <+: (Rehearsal.run (reconcile edgeSpace m) w).2.store.writes ∧
      (∀ stage, (runUntil n (reconcile edgeSpace m) w).1 = .error (.cancelled stage) →
        ∀ c ∈ callsUntil n (reconcile edgeSpace m) w, ¬ c.IsFarewell) ∧
      ∀ w', w'.Undisturbed → w'.store = (runUntil n (reconcile edgeSpace m) w).2.store →
        w'.findRoute space name = some r →
        (Rehearsal.run (reconcile edgeSpace m) w').1
            = (Rehearsal.run (reconcile edgeSpace m) w).1 ∧
          ∀ k, (Rehearsal.run (reconcile edgeSpace m) w').2.store.content k
            = (Rehearsal.run (reconcile edgeSpace m) w).2.store.content k := by
  obtain ⟨P, x, Done, hre⟩ :=
    restartable_passOver edgeSpace ⟨name, space, r.uidOrEmpty⟩ r hw.sound
  have hpass := ensures_reconcile hs hn hre hu hr hre.start
  have hsame (w' : Rehearsal) (hw' : w'.Undisturbed) (hr' : w'.findRoute space name = some r)
      (hP' : P w'.store) :=
    run_reconcile_same hs hn hre hu hr hre.start hw' hr' hP'
  rcases run_stoppedAt not_isFarewell_cancelled (heeds_reconcile edgeSpace m) hu n with
    ⟨hx, hend, hcalls⟩ | ⟨-, hcut, -⟩
  · -- the wish to stop came too late
    obtain ⟨hresult, hdone⟩ := hpass.reaches (reaches_run (reconcile edgeSpace m) w) _ rfl
    have hstore : (runUntil n (reconcile edgeSpace m) w).2
        = (Rehearsal.run (reconcile edgeSpace m) w).2 := hend
    have hmade : callsUntil n (reconcile edgeSpace m) w = callsOf (reconcile edgeSpace m) w :=
      hcalls
    refine ⟨hmade ▸ List.prefix_refl _, hstore ▸ List.prefix_refl _, fun stage hstage => ?_,
      fun w' hw' hstore' hr' => hsame w' hw' hr' ?_⟩
    · exact absurd (hresult.symm.trans (hx.symm.trans hstage)) (hre.uncancelled stage)
    · rw [hstore', hstore]
      exact hre.again _ hdone
  · obtain ⟨next, hreaches⟩ := id hcut.reaches
    refine ⟨hcut.calls, hcut.writes (undisturbed_of_reaches hu hreaches), fun _ _ => hcut.early,
      fun w' hw' hstore' hr' => hsame w' hw' hr' ?_⟩
    rw [hstore']
    exact hcut.atCheck hpass

def stoppedShop : Except Failure Action × Rehearsal :=
  runUntil 3 (reconcile "istio-system" heldShop.metadata) leftCluster

def resumedCluster : Rehearsal :=
  { leftCluster with store := stoppedShop.2.store }

theorem stoppedShop_resumes :
    heldShop.metadata.space = some "a" ∧ heldShop.metadata.anyName = "rollout" ∧
    leftCluster.store.Reachable ∧ leftCluster.Undisturbed ∧
    leftCluster.findRoute "a" "rollout" = some heldShop ∧
    stoppedShop.1 = .error (.cancelled "write bundle") ∧ stoppedShop.2.store.writes.length = 2 ∧
    (∀ c ∈ callsUntil 3 (reconcile "istio-system" heldShop.metadata) leftCluster,
      ¬ c.IsFarewell) ∧
    resumedCluster.Undisturbed ∧ resumedCluster.findRoute "a" "rollout" = some heldShop ∧
    (Rehearsal.run (reconcile "istio-system" heldShop.metadata) resumedCluster).1
      = (Rehearsal.run (reconcile "istio-system" heldShop.metadata) leftCluster).1 ∧
    ∀ k, (Rehearsal.run (reconcile "istio-system" heldShop.metadata) resumedCluster).2.store.content
        k = (Rehearsal.run (reconcile "istio-system" heldShop.metadata) leftCluster).2.store.content
        k := by
  have hreach : leftCluster.store.Reachable :=
    MemoryStore.Reachable.empty.insert GatewaySpec.kind.resource leftGateway
  have hu : leftCluster.Undisturbed := ⟨⟨rfl, rfl⟩, rfl, rfl⟩
  have hu' : resumedCluster.Undisturbed := ⟨⟨rfl, rfl⟩, rfl, rfl⟩
  have hstopped : stoppedShop.1 = .error (.cancelled "write bundle") ∧
      stoppedShop.2.store.writes.length = 2 := by
    decide +kernel
  obtain ⟨-, -, hsilent, hresumes⟩ := @stopped_pass_resumes "a" "rollout" "istio-system"
    heldShop.metadata leftCluster heldShop rfl rfl hreach hu rfl 3
  obtain ⟨hresult, hcontent⟩ := hresumes resumedCluster hu' rfl rfl
  exact ⟨rfl, rfl, hreach, hu, rfl, hstopped.1, hstopped.2, hsilent _ hstopped.1, hu', rfl, hresult,
    hcontent⟩

end MeshRollout
