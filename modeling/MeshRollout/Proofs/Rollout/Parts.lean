import MeshRollout.Proofs.Cluster.Uses
import MeshRollout.Proofs.Rollout.Produced

/-!
The parts of a pass: what a pass over a leaving, an unheld and a held route comes to, that only a
pass over a leaving route may release it, and that telling the outcome touches no object.
-/
set_option autoImplicit false

namespace MeshRollout

def Call.isRelease : Call → Bool
  | .route (.release ..) => true
  | _ => false

def Call.isTelling : Call → Bool
  | .now | .notify _ | .route (.patchStatus ..) => true
  | .store _ | .route _ | .cancelled | .fetch => false

def Pass.NeverReleases {α : Type} (p : Pass α) : Prop :=
  p.Uses fun c => c.isRelease = false

def Pass.Tells {α : Type} (p : Pass α) : Prop :=
  p.Uses fun c => c.isTelling = true

theorem Pass.Tells.neverReleases {α : Type} {p : Pass α} (h : p.Tells) : p.NeverReleases := by
  refine Program.Uses.mono (α := Except Failure α) h fun c hc => ?_
  cases c with
  | route c => cases c <;> first | rfl | cases hc
  | store c => cases hc
  | notify message => rfl
  | cancelled => rfl
  | now => rfl
  | fetch => rfl

namespace Reconciliation

theorem passOver_of_unheld_leaving (edgeSpace : String) (o : Owner) {r : Route}
    (hl : r.isLeaving = true) (hh : r.metadata.isHeldBy edgeCleanup = false) :
    passOver edgeSpace o r = pure .awaitChange := by
  simp [passOver, hl, hh]

theorem passOver_of_leaving (edgeSpace : String) (o : Owner) {r : Route}
    (hl : r.isLeaving = true) (hh : r.metadata.isHeldBy edgeCleanup = true) :
    passOver edgeSpace o r = (do letGo o r; pure .awaitChange) := by
  simp [passOver, hl, hh]

theorem passOver_of_unheld (edgeSpace : String) (o : Owner) {r : Route}
    (hl : r.isLeaving = false) (hh : r.metadata.isHeldBy edgeCleanup = false) :
    passOver edgeSpace o r
      = (do
          Pass.checkpoint "add finalizer"
          Pass.hold o.space o.name edgeCleanup
          pure (.requeue 0)) := by
  simp [passOver, hl, hh]

theorem passOver_of_held (edgeSpace : String) (o : Owner) {r : Route}
    (hl : r.isLeaving = false) (hh : r.metadata.isHeldBy edgeCleanup = true) :
    passOver edgeSpace o r = (do conclude r (← (bringIntoPlace edgeSpace o r).attempt)) := by
  simp [passOver, hl, hh]

end Reconciliation

def heldShop : Route where
  metadata := {
    name := some "rollout", space := some "a", uid := some "uid-7",
    finalizers := some [edgeCleanup] }
  spec := ⟨[{ name := "shop", space := "b", revisions := ["r1"] }]⟩
  status := none

open Reconciliation

section Uses

variable {allowed : Call → Prop}
  (hget : ∀ r space name, allowed (.store (.get r space name)))
  (hcreate : ∀ r o, allowed (.store (.create r o)))
  (hupdate : ∀ r o, allowed (.store (.update r o)))
include hget hcreate hupdate

theorem writeObject_uses (r : Resource) (o : Object) :
    (Convergence.writeObject r o).Uses allowed := by
  refine Pass.Uses.bind (Program.uses_ask (hget _ _ _)) fun live => ?_
  cases live with
  | none => exact Pass.Uses.bind (Program.uses_ask (hcreate _ _)) fun _ => Pass.uses_pure _
  | some live =>
    simp only
    split
    · exact Pass.uses_pure _
    · exact Pass.Uses.bind (Program.uses_ask (hupdate _ _)) fun _ => Pass.uses_pure _

theorem writeAll_uses (hc : allowed .cancelled) (bs : List PlannedObject) :
    (writeAll bs).Uses allowed := by
  induction bs with
  | nil => exact Pass.uses_pure _
  | cons b bs ih =>
    refine (Pass.uses_checkpoint hc _).bind fun _ => ?_
    exact (writeObject_uses hget hcreate hupdate _ _).bind fun _ => ih

end Uses

namespace Sweep

section Uses

variable {allowed : Call → Prop} (hc : allowed .cancelled)
include hc

theorem deleteAll_uses {r : Resource}
    (hdelete : ∀ space name, allowed (.store (.delete r space name))) (l : List Object) :
    (deleteAll r l).Uses allowed := by
  induction l with
  | nil => exact Pass.uses_pure _
  | cons live l ih =>
    refine (Pass.uses_checkpoint hc _).bind fun _ => ?_
    refine Pass.Uses.bind (Program.uses_ask (hdelete _ _)) fun _ => ?_
    exact ih.bind fun _ => Pass.uses_pure _

theorem sweepKind_uses {r : Resource} (hlist : ∀ selector, allowed (.store (.list r none selector)))
    (hdelete : ∀ space name, allowed (.store (.delete r space name))) (o : Owner)
    (keep : List Identity) : (sweepKind o keep r).Uses allowed := by
  refine (Pass.uses_checkpoint hc _).bind fun _ => ?_
  exact Pass.Uses.bind (Program.uses_ask (hlist _)) fun _ => deleteAll_uses hc hdelete _

theorem sweepKinds_uses (hlist : ∀ r selector, allowed (.store (.list r none selector)))
    (hdelete : ∀ r space name, allowed (.store (.delete r space name))) (o : Owner)
    (keep : List Identity) (rs : List Resource) : (sweepKinds o keep rs).Uses allowed := by
  induction rs with
  | nil => exact Pass.uses_pure _
  | cons r rs ih =>
    exact (sweepKind_uses hc (hlist r) (hdelete r) o keep).bind fun _ =>
      ih.bind fun _ => Pass.uses_pure _

end Uses

end Sweep

theorem record_tells (x : Outcome) (r : Route) : (x.record r).Tells := by
  simp only [Outcome.record]
  split
  · exact Pass.uses_pure _
  · refine Pass.Uses.bind (p := Pass.now) ⟨rfl, fun _ => trivial⟩ fun t => ?_
    refine Pass.Uses.bind (Program.uses_ask rfl) fun _ => ?_
    split
    · exact Pass.uses_notify (fun _ => rfl) _
    · exact Pass.uses_pure _

theorem conclude_tells (r : Route) (result : Except Failure Unit) : (conclude r result).Tells := by
  rw [conclude.eq_def]
  split
  · exact (record_tells _ _).bind fun _ => Pass.uses_pure _
  · exact Pass.uses_throw _
  · exact (record_tells _ _).attempt.bind fun _ => Pass.uses_throw _

theorem bringIntoPlace_uses {allowed : Call → Prop} (hc : allowed .cancelled)
    (hstore : ∀ sc, allowed (.store sc)) (edgeSpace : String) (o : Owner) (r : Route) :
    (bringIntoPlace edgeSpace o r).Uses allowed := by
  have hproduced (x : Except Failure (List PlannedObject)) : (Pass.ofExcept x).Uses allowed :=
    trivial
  rw [bringIntoPlace_eq_produced]
  refine (hproduced _).bind fun bs => ?_
  refine (writeAll_uses (fun _ _ _ => hstore _) (fun _ _ => hstore _) (fun _ _ => hstore _) hc
    bs).bind fun _ => ?_
  exact (Sweep.sweepKinds_uses hc (fun _ _ => hstore _) (fun _ _ _ => hstore _) o _ _).bind
    fun _ => Pass.uses_pure _

theorem bringIntoPlace_neverReleases (edgeSpace : String) (o : Owner) (r : Route) :
    (bringIntoPlace edgeSpace o r).NeverReleases := by
  refine bringIntoPlace_uses ?_ ?_ edgeSpace o r
  · rfl
  · exact fun _ => rfl

theorem passOver_neverReleases (edgeSpace : String) (o : Owner) {r : Route}
    (hl : r.isLeaving = false) : (passOver edgeSpace o r).NeverReleases := by
  cases hh : r.metadata.isHeldBy edgeCleanup with
  | false =>
    rw [passOver_of_unheld edgeSpace o hl hh]
    have hcheck : Call.cancelled.isRelease = false := rfl
    refine Pass.Uses.bind (Pass.uses_checkpoint hcheck _) fun _ => ?_
    exact Pass.Uses.bind (Program.uses_ask rfl) fun _ => Pass.uses_pure _
  | true =>
    rw [passOver_of_held edgeSpace o hl hh]
    exact (bringIntoPlace_neverReleases edgeSpace o r).attempt.bind fun _ =>
      (conclude_tells r _).neverReleases

end MeshRollout
