import MeshRollout.Proofs.Rollout.Refusal

/-!
How a pass hands over the objects that it is to write. It looks at one after another, and creates,
replaces or keeps it; it goes no further than the first call that fails.
-/
set_option autoImplicit false

namespace MeshRollout

open Pass (on interactionsOn)

def Call.isHandover : Call → Bool
  | .store (.get ..) | .store (.create ..) | .store (.update ..) | .store (.apply ..) => true
  | .store _ | .route _ | .notify _ | .cancelled | .now | .fetch => false

namespace PlannedObject

variable {σ : Type}

def replacing (b : PlannedObject) (live : Object) : Object :=
  { b.object with
    metadata := { b.object.metadata with resourceVersion := live.metadata.resourceVersion } }

/-- What is done about one object, call by call and with the answers, and how it ends. -/
inductive Handled (b : PlannedObject) : List (Interaction σ) → Except Failure Unit → Prop where
  | stopped {s s₁ : σ} :
      Handled b [⟨s, .cancelled, true, s₁⟩] (.error (.cancelled "write bundle"))
  | unread {s s₁ s₂ : σ} {f : Failure} :
      Handled b [⟨s, .cancelled, false, s₁⟩,
        ⟨s₁, .store (.get b.resource b.object.spaceArg b.object.name), .error f, s₂⟩] (.error f)
  | created {s s₁ s₂ s₃ : σ} {x : Except Failure Object} :
      Handled b [⟨s, .cancelled, false, s₁⟩,
        ⟨s₁, .store (.get b.resource b.object.spaceArg b.object.name), .ok none, s₂⟩,
        ⟨s₂, .store (.create b.resource b.object), x, s₃⟩] (x.map fun _ => ())
  | replaced {s s₁ s₂ s₃ : σ} {live : Object} {x : Except Failure Object}
      (houtdated : live.isOutdated b.object = true) :
      Handled b [⟨s, .cancelled, false, s₁⟩,
        ⟨s₁, .store (.get b.resource b.object.spaceArg b.object.name), .ok (some live), s₂⟩,
        ⟨s₂, .store (.update b.resource (b.replacing live)), x, s₃⟩] (x.map fun _ => ())
  | kept {s s₁ s₂ : σ} {live : Object} (hsame : live.isOutdated b.object = false) :
      Handled b [⟨s, .cancelled, false, s₁⟩,
        ⟨s₁, .store (.get b.resource b.object.spaceArg b.object.name), .ok (some live), s₂⟩]
        (.ok ())

end PlannedObject

open PlannedObject

inductive HandedOver {σ : Type} :
    List PlannedObject → List (Interaction σ) → Except Failure Unit → Prop where
  | done : HandedOver [] [] (.ok ())
  | next {b : PlannedObject} {bs : List PlannedObject} {es es' : List (Interaction σ)}
      {x : Except Failure Unit} (hfirst : b.Handled es (.ok ())) (hrest : HandedOver bs es' x) :
      HandedOver (b :: bs) (es ++ es') x
  | last {b : PlannedObject} {bs : List PlannedObject} {es : List (Interaction σ)} {f : Failure}
      (hfirst : b.Handled es (.error f)) : HandedOver (b :: bs) es (.error f)

/-- First the objects are handed over, and then no object is looked at any more. What breaks off at
one of them fails for that, and leaves the store alone from there on. -/
def HandsOver {σ α : Type} (bs : List PlannedObject) (es : List (Interaction σ))
    (result : Except Failure α) : Prop :=
  ∃ handed rest x, es = handed ++ rest ∧ HandedOver bs handed x ∧
    (∀ e ∈ rest, e.call.isHandover = false) ∧
    ∀ f, x = .error f → result = .error f ∧ ∀ e ∈ rest, e.call.Storeless

theorem Call.Storeless.not_isHandover {c : Call} (h : c.Storeless) : c.isHandover = false := by
  cases c with
  | store c => exact absurd rfl (h c)
  | route c => rfl
  | notify message => rfl
  | cancelled => rfl
  | now => rfl
  | fetch => rfl

theorem HandsOver.append {σ α β : Type} {bs : List PlannedObject} {es es' : List (Interaction σ)}
    {y : Except Failure α} {y' : Except Failure β} (h : HandsOver bs es y)
    (hes : ∀ e ∈ es', e.call.Storeless) (hy : ∀ f, y = .error f → y' = .error f) :
    HandsOver bs (es ++ es') y' := by
  obtain ⟨handed, rest, x, rfl, hhanded, hrest, hfail⟩ := h
  refine ⟨handed, rest ++ es', x, List.append_assoc _ _ _, hhanded, ?_, fun f hf => ?_⟩
  · exact List.forall_mem_append.2 ⟨hrest, fun e he => (hes e he).not_isHandover⟩
  · exact ⟨hy f (hfail f hf).1, List.forall_mem_append.2 ⟨(hfail f hf).2, hes⟩⟩

namespace Reconciliation

variable {σ : Type} (answer : (c : Call) → σ → c.Answer × σ)

theorem on_written (p : Pass Object) (x : WriteResult) (s : σ) :
    (on answer (do let _ ← p; return x) s).1.map (fun _ => ())
      = (on answer p s).1.map fun _ => () := by
  rw [Pass.on_bind]
  rcases on answer p s with ⟨f | o, s'⟩ <;> rfl

theorem handled_writeObject (b : PlannedObject) (s s₁ : σ) :
    b.Handled
      (⟨s, .cancelled, false, s₁⟩
        :: interactionsOn answer (Convergence.writeObject b.resource b.object) s₁)
      ((on answer (Convergence.writeObject b.resource b.object) s₁).1.map fun _ => ()) := by
  have hget : on answer (Pass.get b.resource b.object.spaceArg b.object.name) s₁
      = answer (.store (.get b.resource b.object.spaceArg b.object.name)) s₁ := rfl
  have hlook : interactionsOn answer (Pass.get b.resource b.object.spaceArg b.object.name) s₁
      = [.of answer (.store (.get b.resource b.object.spaceArg b.object.name)) s₁] := rfl
  rw [Convergence.writeObject, Pass.interactionsOn_bind, Pass.on_bind, hget, hlook, Interaction.of]
  rcases answer (.store (.get b.resource b.object.spaceArg b.object.name)) s₁
    with ⟨f | _ | live, s₂⟩
  · exact .unread
  · dsimp only
    -- what comes of the write is named without another call
    rw [Pass.interactionsOn_bind_silent answer s₂ _ fun _ _ => rfl, on_written]
    exact .created
  · dsimp only
    cases hout : live.isOutdated b.object with
    | false => exact .kept hout
    | true =>
      simp only [Bool.not_true, Bool.false_eq_true, if_false]
      rw [Pass.interactionsOn_bind_silent answer s₂ _ fun _ _ => rfl, on_written]
      exact .replaced hout

theorem handedOver_writeAll (bs : List PlannedObject) (s : σ) :
    HandedOver bs (interactionsOn answer (writeAll bs) s) (on answer (writeAll bs) s).1 := by
  induction bs generalizing s with
  | nil => exact .done
  | cons b bs ih =>
    rw [writeAll, Pass.interactionsOn_checkpoint_bind, Pass.on_checkpoint_bind]
    rcases answer .cancelled s with ⟨_ | _, s₁⟩
    · dsimp only
      have hfirst := handled_writeObject answer b s s₁
      rw [Pass.interactionsOn_bind, Pass.on_bind]
      rcases hx : on answer (Convergence.writeObject b.resource b.object) s₁ with ⟨f | x, s₂⟩
      · rw [hx] at hfirst
        dsimp only
        rw [List.append_nil]
        exact .last hfirst
      · rw [hx] at hfirst
        exact .next hfirst (ih s₂)
    · exact .last .stopped

theorem sweep_hands_nothing (o : Owner) (keep : List Identity) :
    (sweep o keep).Uses fun c => c.isHandover = false := by
  refine Sweep.sweepKinds_uses ?_ ?_ ?_ o keep producedKinds
  · rfl
  · exact fun _ _ => rfl
  · exact fun _ _ _ => rfl

theorem handsOver_bringIntoPlace {r : Route} (hv : r.spec.validate = .ok ()) (edgeSpace : String)
    (o : Owner) (s : σ) :
    HandsOver (r.spec.planned o r.ownerReference? edgeSpace)
      (interactionsOn answer (bringIntoPlace edgeSpace o r) s)
      (on answer (bringIntoPlace edgeSpace o r) s).1 := by
  have hof (bs : List PlannedObject) : Pass.ofExcept (.ok bs) = (pure bs : Pass _) := rfl
  rw [bringIntoPlace_eq_produced, produced_eq_ok hv, hof, pure_bind, Pass.interactionsOn_bind,
    Pass.on_bind]
  generalize r.spec.planned o r.ownerReference? edgeSpace = bs
  have hhanded := handedOver_writeAll answer bs s
  rcases hx : on answer (writeAll bs) s with ⟨f | u, s'⟩
  · rw [hx] at hhanded
    refine ⟨_, [], _, rfl, hhanded, fun _ he => (nomatch he), fun g hg => ?_⟩
    cases hg
    exact ⟨rfl, fun _ he => nomatch he⟩
  · rw [hx] at hhanded
    refine ⟨_, _, _, rfl, hhanded, ?_, fun f hf => nomatch hf⟩
    -- a sweep lists and deletes, but it looks at no single object
    have hsweep : Pass.Uses (fun c => c.isHandover = false)
        (do let _ ← sweep o (identities bs) : Pass Unit) :=
      (sweep_hands_nothing o _).bind fun _ => Pass.uses_pure _
    exact hsweep.of_interactions answer s'

/-- A pass over a live and held route hands over what the route asks for. -/
theorem handsOver_passOver {r : Route} (hl : r.isLeaving = false)
    (hh : r.metadata.isHeldBy edgeCleanup = true) (hv : r.spec.validate = .ok ())
    (edgeSpace : String) (o : Owner) (s : σ) :
    HandsOver (r.spec.planned o r.ownerReference? edgeSpace)
      (interactionsOn answer (passOver edgeSpace o r) s)
      (on answer (passOver edgeSpace o r) s).1 := by
  rw [passOver_of_held edgeSpace o hl hh, Pass.interactionsOn_bind, Pass.on_bind, Pass.on_attempt,
    Pass.interactionsOn_attempt]
  refine (handsOver_bringIntoPlace answer hv edgeSpace o s).append ?_ fun f hf => ?_
  · exact fun e he => storeless_of_isTelling
      ((conclude_tells r _).of_interactions answer _ e he)
  · rw [hf]
    exact run_conclude_error answer r f _

theorem holds_passOver {r : Route} (hl : r.isLeaving = false)
    (hh : r.metadata.isHeldBy edgeCleanup = false) (edgeSpace : String) (o : Owner) (s : σ) :
    (∀ e ∈ interactionsOn answer (passOver edgeSpace o r) s, e.call.Storeless) ∧
      ∀ action, (on answer (passOver edgeSpace o r) s).1 = .ok action →
        action = .requeue 0 ∧ ∃ e ∈ interactionsOn answer (passOver edgeSpace o r) s,
          e.call = .route (.hold o.space o.name edgeCleanup) := by
  have hhold (s' : σ) : interactionsOn answer (Pass.hold o.space o.name edgeCleanup) s'
      = [.of answer (.route (.hold o.space o.name edgeCleanup)) s'] := rfl
  rw [passOver_of_unheld edgeSpace o hl hh, Pass.interactionsOn_checkpoint_bind,
    Pass.on_checkpoint_bind]
  rcases answer .cancelled s with ⟨_ | _, s₁⟩
  · dsimp only
    rw [Pass.interactionsOn_bind_silent answer s₁ _ fun _ _ => rfl, hhold, Pass.on_bind]
    refine ⟨List.forall_mem_cons.2 ⟨Call.storeless_cancelled, List.forall_mem_singleton.2 ?_⟩, ?_⟩
    · exact Call.storeless_route _
    · intro action haction
      refine ⟨?_, _, List.mem_cons_of_mem _ List.mem_cons_self, rfl⟩
      rcases hx : on answer (Pass.hold o.space o.name edgeCleanup) s₁ with ⟨f | u, s₂⟩
      · rw [hx] at haction
        nomatch haction
      · rw [hx] at haction
        exact (Except.ok.inj haction).symm
  · exact ⟨List.forall_mem_singleton.2 Call.storeless_cancelled, fun _ h => nomatch h⟩

end Reconciliation

end MeshRollout
