import MeshRollout.Proofs.Cluster.Interactions
import MeshRollout.Proofs.Rollout.Parts

/-!
What a pass over a route tells: the status that it tries to store, what it has stored, and the
messages that it sends. Only the end of a pass tells anything, and only if the pass gets to bring
the route into place and is not stopped.
-/
set_option autoImplicit false

namespace MeshRollout

open Pass (on interactionsOn)
open Reconciliation

def Pass.TellsNothing {α : Type} (p : Pass α) : Prop :=
  p.Uses fun c => c.isTelling = false

/-- A status that was stored, and what the clock had shown last. -/
structure StatusEntry where
  time : Option Instant
  status : RouteStatus

namespace Interaction

variable {σ : Type}

def patch? : Interaction σ → Option RouteStatus
  | ⟨_, .route (.patchStatus _ _ s), _, _⟩ => some s
  | _ => none

def stored? : Interaction σ → Option RouteStatus
  | ⟨_, .route (.patchStatus _ _ s), .ok (), _⟩ => some s
  | _ => none

def clock? : Interaction σ → Option Instant
  | ⟨_, .now, t, _⟩ => some t
  | _ => none

def entriesFrom (time : Option Instant) : List (Interaction σ) → List StatusEntry
  | [] => []
  | e :: es =>
    let time := e.clock?.or time
    (e.stored?.map (StatusEntry.mk time)).toList ++ entriesFrom time es

end Interaction

structure Account where
  /-- What was to be stored. -/
  attempts : List RouteStatus
  /-- What was stored. -/
  entries : List StatusEntry
  /-- What people were told, whether or not it arrived. -/
  messages : List String

namespace Account

variable {α β σ : Type}

def idle : Account := ⟨[], [], []⟩

def of (es : List (Interaction σ)) : Account where
  attempts := es.filterMap Interaction.patch?
  entries := Interaction.entriesFrom none es
  messages := es.filterMap Interaction.message?

theorem of_append {es : List (Interaction σ)} (h : ∀ e ∈ es, e.call.isTelling = false)
    (es' : List (Interaction σ)) : of (es ++ es') = of es' := by
  induction es with
  | nil => rfl
  | cons e es ih =>
    have he := h e List.mem_cons_self
    rw [← ih fun e he => h e (List.mem_cons_of_mem _ he)]
    rcases e with ⟨s, c, a, s'⟩
    cases c with
    | store c => rfl
    | route c =>
      cases c with
      | patchStatus space name x => nomatch he
      | _ => rfl
    | cancelled => rfl
    | fetch => rfl
    | notify message => nomatch he
    | now => nomatch he

theorem of_quiet {es : List (Interaction σ)} (h : ∀ e ∈ es, e.call.isTelling = false) :
    of es = idle := by
  rw [← List.append_nil es, of_append h]
  rfl

variable (answer : (c : Call) → σ → c.Answer × σ)

def ofPass (p : Pass α) (s : σ) : Account :=
  of (interactionsOn answer p s)

variable {p : Pass α} (hp : p.TellsNothing) (s : σ)
include hp

theorem ofPass_quiet : ofPass answer p s = idle :=
  of_quiet (Pass.Uses.of_interactions answer hp s)

theorem ofPass_bind (f : α → Pass β) :
    ofPass answer (p >>= f) s
      = match on answer p s with
        | (.ok x, s') => ofPass answer (f x) s'
        | (.error _, _) => idle := by
  have hquiet := Pass.Uses.of_interactions answer hp s
  rw [ofPass, Pass.interactionsOn_bind, of_append hquiet]
  rcases on answer p s with ⟨x | x, s'⟩ <;> rfl

end Account

def RouteStatus.told (s : RouteStatus) : Phase × Option String × Option Int :=
  (s.phase, s.message, s.observedGeneration)

namespace Outcome

variable {σ : Type} {x : Outcome} {r : Route}

def toldFor (x : Outcome) (generation : Option Int) : Phase × Option String × Option Int :=
  (x.phase, some x.message, generation)

theorem isTold_iff :
    x.isTold r = true ↔ r.status.map RouteStatus.told = some (x.toldFor r.metadata.generation) := by
  cases hs : r.status with
  | none => simp [isTold, hs]
  | some s => simp [isTold, hs, isToldBy, RouteStatus.told, toldFor, and_assoc]

inductive Recorded (x : Outcome) (r : Route) : Account → Prop where
  | told (h : x.isTold r = true) : Recorded x r .idle
  | refused (h : x.isTold r = false) (t : Instant) : Recorded x r ⟨[x.status r t], [], []⟩
  | stored (h : x.isTold r = false) (t : Instant) :
    Recorded x r ⟨[x.status r t], [⟨some t, x.status r t⟩],
      if x.announced && (r.status.map RouteStatus.phase) != some x.phase then [x.announcement r]
      else []⟩

theorem recorded (answer : (c : Call) → σ → c.Answer × σ) (x : Outcome) (r : Route) (s : σ) :
    x.Recorded r (.ofPass answer (x.record r) s) := by
  cases h : x.isTold r with
  | true =>
    have hrecord : x.record r = pure () := by simp [record, h]
    rw [hrecord]
    exact .told h
  | false =>
    have hrecord : x.record r = (do
        let t ← Pass.now
        Pass.patchStatus r.spaceOrEmpty r.name (x.status r t)
        if x.announced && (r.status.map RouteStatus.phase) != some x.phase then
          Pass.notify (x.announcement r)) := by
      simp [record, h]
    -- the clock is read, then the status is patched, and the rest hangs on the answer
    let t : Instant := (answer .now s).1
    let patch : Call := .route (.patchStatus r.spaceOrEmpty r.name (x.status r t))
    have hclock {α : Type} (f : Instant → Pass α) :
        interactionsOn answer (do f (← Pass.now)) s
          = .of answer .now s :: interactionsOn answer (f t) (answer .now s).2 := rfl
    have hpatch : interactionsOn answer
        (Pass.patchStatus r.spaceOrEmpty r.name (x.status r t)) (answer .now s).2
          = [.of answer patch (answer .now s).2] := rfl
    have hon : on answer (Pass.patchStatus r.spaceOrEmpty r.name (x.status r t)) (answer .now s).2
        = answer patch (answer .now s).2 := rfl
    rw [Account.ofPass, hrecord, hclock, Pass.interactionsOn_bind, hpatch, hon, Interaction.of,
      Interaction.of]
    rcases answer patch (answer .now s).2 with ⟨f | u, s'⟩
    · exact .refused h t
    · have hstored := Recorded.stored h t
      by_cases hnew : (x.announced && (r.status.map RouteStatus.phase) != some x.phase) = true
      · rw [if_pos hnew] at hstored ⊢
        exact hstored
      · rw [if_neg hnew] at hstored ⊢
        exact hstored

end Outcome

namespace Reconciliation

theorem checkpoint_tellsNothing (stage : String) : (Pass.checkpoint stage).TellsNothing := by
  refine Pass.uses_checkpoint ?_ stage
  rfl

theorem letGo_tellsNothing (o : Owner) (r : Route) : (letGo o r).TellsNothing := by
  have hsweep : (Sweep.sweepKinds o [] producedKinds).TellsNothing := by
    refine Sweep.sweepKinds_uses ?_ ?_ ?_ o [] producedKinds
    · rfl
    · exact fun _ _ => rfl
    · exact fun _ _ _ => rfl
  exact Pass.Uses.bind hsweep fun _ => Program.uses_ask rfl

theorem bringIntoPlace_tellsNothing (edgeSpace : String) (o : Owner) (r : Route) :
    (bringIntoPlace edgeSpace o r).TellsNothing := by
  refine bringIntoPlace_uses ?_ ?_ edgeSpace o r
  · rfl
  · exact fun _ => rfl

end Reconciliation

structure Conclusion where
  route : Route
  result : Except Failure Unit

namespace Conclusion

variable {σ : Type} {c : Conclusion} {x : Outcome}

/-- What there is to tell. A pass that was asked to stop tells nothing. -/
def outcome? (c : Conclusion) : Option Outcome :=
  match c.result with
  | .ok () => some (.success c.route.spec.services.length)
  | .error (.cancelled _) => none
  | .error f => some (.failure f)

def isExpected (c : Conclusion) : Bool :=
  match c.result with
  | .ok () => false
  | .error f => f.awaitsPrerequisite

theorem announced_eq (h : c.outcome? = some x) : x.announced = !c.isExpected := by
  rcases c with ⟨r, result⟩
  cases result with
  | ok u =>
    cases h
    rfl
  | error f =>
    cases f <;> cases h <;> rfl

theorem ofPass_conclude (answer : (c : Call) → σ → c.Answer × σ) (c : Conclusion) (s : σ) :
    Account.ofPass answer (conclude c.route c.result) s
      = match c.outcome? with
        | some x => .ofPass answer (x.record c.route) s
        | none => .idle := by
  rcases c with ⟨r, result⟩
  cases result with
  | ok u => exact congrArg Account.of (Pass.interactionsOn_bind_silent answer s _ fun _ _ => rfl)
  | error f =>
    cases f with
    | cancelled stage => rfl
    | _ =>
      exact congrArg Account.of ((Pass.interactionsOn_bind_silent answer s _ fun _ _ => rfl).trans
        (Pass.interactionsOn_attempt answer s _))

end Conclusion

structure Visit (σ : Type) where
  edgeSpace : String
  metadata : ObjectMeta
  start : σ

namespace Visit

variable {σ : Type} (answer : (c : Call) → σ → c.Answer × σ) (v : Visit σ)

def account : Account :=
  .ofPass answer (reconcile v.edgeSpace v.metadata) v.start

def found? : Option (Route × σ) :=
  v.metadata.space.bind fun space =>
    let fetch : Pass (Option Route) := do
      Pass.checkpoint "fetch"
      Pass.getRoute space v.metadata.anyName
    match on answer fetch v.start with
    | (.ok (some r), s) => some (r, s)
    | _ => none

def conclusion? : Option Conclusion :=
  (v.found? answer).bind fun (r, s) =>
    if r.isLeaving || !r.metadata.isHeldBy edgeCleanup then none
    else
      let o : Owner := ⟨v.metadata.anyName, v.metadata.space.getD "", r.uidOrEmpty⟩
      some ⟨r, (on answer (bringIntoPlace v.edgeSpace o r) s).1⟩

theorem ofPass_passOver (edgeSpace : String) (o : Owner) (r : Route) (s : σ) :
    ((r.isLeaving || !r.metadata.isHeldBy edgeCleanup) = true ∧
        Account.ofPass answer (passOver edgeSpace o r) s = .idle) ∨
      (r.isLeaving || !r.metadata.isHeldBy edgeCleanup) = false ∧
        ∃ s', Account.ofPass answer (passOver edgeSpace o r) s
          = .ofPass answer (conclude r (on answer (bringIntoPlace edgeSpace o r) s).1) s' := by
  cases hl : r.isLeaving with
  | true =>
    refine .inl ⟨rfl, ?_⟩
    cases hh : r.metadata.isHeldBy edgeCleanup with
    | true =>
      rw [passOver_of_leaving edgeSpace o hl hh]
      refine Account.ofPass_quiet answer ?_ s
      exact (letGo_tellsNothing o r).bind fun _ => Pass.uses_pure _
    | false =>
      rw [passOver_of_unheld_leaving edgeSpace o hl hh]
      rfl
  | false =>
    cases hh : r.metadata.isHeldBy edgeCleanup with
    | true =>
      refine .inr ⟨rfl, ?_⟩
      rw [passOver_of_held edgeSpace o hl hh,
        Account.ofPass_bind answer (bringIntoPlace_tellsNothing edgeSpace o r).attempt,
        Pass.on_attempt]
      exact ⟨_, rfl⟩
    | false =>
      refine .inl ⟨rfl, ?_⟩
      rw [passOver_of_unheld edgeSpace o hl hh]
      refine Account.ofPass_quiet answer ?_ s
      refine Pass.Uses.bind (checkpoint_tellsNothing "add finalizer") fun _ => ?_
      exact Pass.Uses.bind (Program.uses_ask rfl) fun _ => Pass.uses_pure _

theorem account_cases :
    (v.conclusion? answer = none ∧ v.account answer = .idle) ∨
      ∃ c s, v.conclusion? answer = some c ∧
        v.account answer = .ofPass answer (conclude c.route c.result) s := by
  rw [account, conclusion?, found?, reconcile.eq_def]
  cases hspace : v.metadata.space with
  | none => exact .inl ⟨rfl, rfl⟩
  | some space =>
    have hfetch : (do Pass.checkpoint "fetch"; Pass.getRoute space v.metadata.anyName
        : Pass (Option Route)).TellsNothing :=
      Pass.Uses.bind (checkpoint_tellsNothing _) fun _ => Program.uses_ask rfl
    simp only [Option.bind_some, Option.getD_some]
    rw [← bind_assoc, Account.ofPass_bind answer hfetch]
    rcases on answer _ v.start with ⟨(f | _ | r), s⟩
    · exact .inl ⟨rfl, rfl⟩
    · exact .inl ⟨rfl, rfl⟩
    · obtain ⟨hkept, hidle⟩ | ⟨hkept, s', hs'⟩ :=
        ofPass_passOver answer v.edgeSpace ⟨v.metadata.anyName, space, r.uidOrEmpty⟩ r s
      · exact .inl ⟨if_pos hkept, hidle⟩
      · exact .inr ⟨_, s', if_neg (Bool.eq_false_iff.1 hkept), hs'⟩

theorem account_step :
    ((v.conclusion? answer).bind Conclusion.outcome? = none ∧ v.account answer = .idle) ∨
      ∃ c x, v.conclusion? answer = some c ∧ c.outcome? = some x ∧
        x.Recorded c.route (v.account answer) := by
  obtain ⟨hnone, hidle⟩ | ⟨c, s, hc, haccount⟩ := v.account_cases answer
  · exact .inl ⟨by rw [hnone]; rfl, hidle⟩
  · rw [Conclusion.ofPass_conclude] at haccount
    cases hx : c.outcome? with
    | none =>
      rw [hx] at haccount
      exact .inl ⟨by rw [hc]; exact hx, haccount⟩
    | some x =>
      rw [hx] at haccount
      exact .inr ⟨c, x, hc, hx, haccount ▸ x.recorded answer c.route s⟩

variable {answer v} in
theorem recorded_of_conclusion? {c : Conclusion} {x : Outcome} (hc : v.conclusion? answer = some c)
    (hx : c.outcome? = some x) : x.Recorded c.route (v.account answer) := by
  obtain ⟨hnone, -⟩ | ⟨c', x', hc', hx', hrecorded⟩ := v.account_step answer
  · rw [hc, Option.bind_some, hx] at hnone
    nomatch hnone
  · cases hc.symm.trans hc'
    cases hx.symm.trans hx'
    exact hrecorded

variable {answer v} in
theorem account_eq_idle (h : (v.conclusion? answer).bind Conclusion.outcome? = none) :
    v.account answer = .idle := by
  obtain ⟨-, hidle⟩ | ⟨c, x, hc, hx, -⟩ := v.account_step answer
  · exact hidle
  · rw [hc, Option.bind_some, hx] at h
    nomatch h

/-- A pass stores nothing, or one status that tells what was not told yet. -/
theorem entries_cases :
    (v.account answer).entries = [] ∨
      ∃ c x t, v.conclusion? answer = some c ∧ c.outcome? = some x ∧ x.isTold c.route = false ∧
        (v.account answer).entries = [⟨some t, x.status c.route t⟩] := by
  obtain ⟨-, hidle⟩ | ⟨c, x, hc, hx, hrecorded⟩ := v.account_step answer
  · exact .inl (by rw [hidle]; rfl)
  · generalize v.account answer = a at hrecorded
    cases hrecorded with
    | told h => exact .inl rfl
    | refused h t => exact .inl rfl
    | stored h t => exact .inr ⟨c, x, t, hc, hx, h, rfl⟩

theorem found?_of_conclusion? {c : Conclusion} (h : v.conclusion? answer = some c) :
    ∃ s, v.found? answer = some (c.route, s) := by
  obtain ⟨⟨r, s⟩, hfound, hc⟩ := Option.bind_eq_some_iff.1 h
  dsimp only at hc
  split at hc
  · nomatch hc
  · cases hc
    exact ⟨s, hfound⟩

end Visit

end MeshRollout
