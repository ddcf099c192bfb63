import MeshRollout.Proofs.ApiServer.Faultless
import MeshRollout.Proofs.Cluster.Interactions
import MeshRollout.Proofs.Cluster.Rules
import MeshRollout.Proofs.Rollout.Parts
import MeshRollout.Proofs.Service.Offence

/-!
Faults of the configuration come before any write. A route whose services are not all in order is
refused for the first of them before an object is looked at; and nothing that passed its checks
fails later on for what it asks, so no route is left half in place because of its configuration.
-/
set_option autoImplicit false

namespace MeshRollout

open Program (Meets)

namespace Pass

variable {α β : Type}

/-- A fault of the configuration that the pass ends with was answered to a call, or no call on
objects was made at all. -/
def FaultsFirst (p : Pass α) : Prop :=
  ∀ (σ : Type) (answer : (c : Call) → σ → c.Answer × σ) (s : σ) (f : Failure),
    (Program.run (α := Except Failure α) answer p s).1 = .error f → f.isOfConfiguration = true →
      Meets (α := Except Failure α) answer f p s ∨
        ∀ c ∈ Program.calls (α := Except Failure α) answer p s, c.Storeless

theorem Relays.faultsFirst {p : Pass α} (h : p.Relays) : p.FaultsFirst :=
  fun σ answer s f hrun hf => .inl (h σ answer s f hrun hf)

theorem FaultsFirst.of_storeless {p : Pass α} (h : p.Uses Call.Storeless) : p.FaultsFirst :=
  fun _ answer s _ _ _ => .inr (h.of_calls answer s)

theorem FaultsFirst.after {p : Pass α} {k : α → Pass β} (hp : p.Relays)
    (hs : p.Uses Call.Storeless) (hk : ∀ x, (k x).FaultsFirst) : FaultsFirst (p >>= k) := by
  intro σ answer s f hrun hf
  have hrun' := (congrArg Prod.fst
    (Program.run_bind (α := Except Failure α) answer p (ExceptT.bindCont k) s)).symm.trans hrun
  have hmeets := Program.meets_bind (f := f) (α := Except Failure α) answer p (ExceptT.bindCont k) s
  have hcalls := Program.calls_bind (α := Except Failure α) answer p (ExceptT.bindCont k) s
  have hfirst := hs.of_calls answer s
  cases hx : (Program.run (α := Except Failure α) answer p s).1 with
  | error e =>
    rw [hx] at hrun'
    cases hrun'
    exact .inl (hmeets.2 (.inl (hp σ answer s f hx hf)))
  | ok x =>
    rw [hx] at hrun' hmeets hcalls
    refine (hk x σ answer _ f hrun' hf).imp (fun h => hmeets.2 (.inr h)) fun h => ?_
    intro c hc
    have hc' := List.mem_append.1 ((congrArg (c ∈ ·) hcalls).mp hc)
    exact hc'.elim (hfirst c) (h c)

theorem relays_checkpoint (stage : String) : (checkpoint stage).Relays := by
  refine Relays.bind (relays_lift .cancelled) fun stop => ?_
  cases stop with
  | false => exact relays_pure ()
  | true => exact relays_throw rfl

theorem relays_notify (message : String) : (notify message).Relays :=
  relays_call fun a => ⟨.ok (), by cases a <;> rfl, nofun⟩

end Pass

def FindsRoute {σ : Type} (answer : (c : Call) → σ → c.Answer × σ) (s : σ) (space name : String)
    (r : Route) : Prop :=
  ∃ s₁ s₂, answer .cancelled s = (false, s₁) ∧
    answer (.route (.get space name)) s₁ = (.ok (some r), s₂)

open Pass

namespace Reconciliation

theorem relays_writeObject (r : Resource) (o : Object) :
    (Convergence.writeObject r o).Relays := by
  have hget (space : Option String) (name : String) : (Pass.get r space name).Relays :=
    relays_call fun a => ⟨a, rfl, fun f h => congrArg some h.symm⟩
  have hcreate (o : Object) : (Pass.create r o).Relays :=
    relays_call fun a => ⟨a, rfl, fun f h => congrArg some h.symm⟩
  have hupdate (o : Object) : (Pass.update r o).Relays :=
    relays_call fun a => ⟨a, rfl, fun f h => congrArg some h.symm⟩
  refine (hget _ _).bind fun live => ?_
  cases live with
  | none => exact (hcreate _).bind fun _ => relays_pure _
  | some live =>
    simp only
    split
    · exact relays_pure _
    · exact (hupdate _).bind fun _ => relays_pure _

theorem relays_writeAll (bs : List PlannedObject) : (writeAll bs).Relays := by
  induction bs with
  | nil => exact relays_pure ()
  | cons b bs ih =>
    refine (relays_checkpoint _).bind fun _ => ?_
    exact (relays_writeObject _ _).bind fun _ => ih

end Reconciliation

namespace Sweep

theorem relays_deleteAll (r : Resource) (l : List Object) : (deleteAll r l).Relays := by
  induction l with
  | nil => exact relays_pure _
  | cons live l ih =>
    have hdelete : (Pass.delete r live.spaceArg live.name).Relays :=
      relays_call fun a => ⟨a, rfl, fun f h => congrArg some h.symm⟩
    refine (relays_checkpoint _).bind fun _ => ?_
    exact hdelete.bind fun _ => ih.bind fun _ => relays_pure _

theorem relays_sweepKinds (o : Owner) (keep : List Identity) (rs : List Resource) :
    (sweepKinds o keep rs).Relays := by
  induction rs with
  | nil => exact relays_pure _
  | cons r rs ih =>
    have hlist (space selector : Option String) : (Pass.list r space selector).Relays :=
      relays_call fun a => ⟨a, rfl, fun f h => congrArg some h.symm⟩
    have hkind : (sweepKind o keep r).Relays := by
      refine (relays_checkpoint _).bind fun _ => ?_
      exact (hlist _ _).bind fun live => relays_deleteAll r _
    exact hkind.bind fun _ => ih.bind fun _ => relays_pure _

end Sweep

namespace Reconciliation

theorem relays_record (x : Outcome) (r : Route) : (x.record r).Relays := by
  simp only [Outcome.record]
  split
  · exact relays_pure _
  · have hpatch (space name : String) (s : RouteStatus) :
        (Pass.patchStatus space name s).Relays :=
      relays_call fun a => ⟨a, rfl, fun f h => congrArg some h.symm⟩
    refine Relays.bind (relays_lift .now) fun t => (hpatch _ _ _).bind fun _ => ?_
    split
    · exact relays_notify _
    · exact relays_pure _

theorem run_conclude_error {σ : Type} (answer : (c : Call) → σ → c.Answer × σ) (r : Route)
    (e : Failure) (s : σ) :
    (Program.run (α := Except Failure Action) answer (conclude r (.error e)) s).1 = .error e := by
  have hthrow {p : Pass Unit} :
      (Program.run (α := Except Failure Action) answer
        (do let _ ← p.attempt; throw e : Pass Action) s).1 = .error e := by
    rw [Pass.attempt_bind]
    exact congrArg Prod.fst (Program.run_bind (α := Except Failure Unit) answer p _ s)
  cases e with
  | cancelled stage => rfl
  | cluster x => exact hthrow
  | validation resource message field => exact hthrow
  | store kind message => exact hthrow
  | conflict kind space name message => exact hthrow
  | notReady kind space name message => exact hthrow
  | decode document message => exact hthrow
  | transport endpoint message => exact hthrow
  | notification message => exact hthrow
  | serialization message kind => exact hthrow
  | internal context message => exact hthrow

theorem storeless_of_isTelling {c : Call} (h : c.isTelling = true) : c.Storeless := by
  rintro sc rfl
  nomatch h

/-- What the configuration can fail on is checked before the first write. -/
theorem relays_bringIntoPlace {r : Route} (hv : r.spec.validate = .ok ()) (edgeSpace : String)
    (o : Owner) : (bringIntoPlace edgeSpace o r).Relays := by
  rw [bringIntoPlace_eq_produced, produced_eq_ok hv]
  refine Relays.bind (relays_pure _) fun bs => ?_
  refine (relays_writeAll bs).bind fun _ => ?_
  exact (Sweep.relays_sweepKinds o _ _).bind fun _ => relays_pure _

/-- A route that is refused is told so, and nothing else happens. -/
theorem passOver_of_refused {r : Route} {f : Failure} (hl : r.isLeaving = false)
    (hh : r.metadata.isHeldBy edgeCleanup = true) (hv : r.spec.validate = .error f)
    (edgeSpace : String) (o : Owner) : passOver edgeSpace o r = conclude r (.error f) := by
  have hbring : bringIntoPlace edgeSpace o r = throw f := by
    simp only [bringIntoPlace, hv]
    rfl
  rw [passOver_of_held edgeSpace o hl hh, hbring]
  rfl

theorem faultsFirst_passOver (edgeSpace : String) (o : Owner) (r : Route) :
    (passOver edgeSpace o r).FaultsFirst := by
  cases hl : r.isLeaving with
  | true =>
    cases hh : r.metadata.isHeldBy edgeCleanup with
    | true =>
      rw [passOver_of_leaving edgeSpace o hl hh]
      have hsweep : (sweep o []).Relays := Sweep.relays_sweepKinds o [] _
      have hrelease : (Pass.release o.space r.name edgeCleanup).Relays :=
        relays_call fun a => ⟨a, rfl, fun f h => congrArg some h.symm⟩
      exact (Relays.bind (hsweep.bind fun _ => hrelease) fun _ => relays_pure _).faultsFirst
    | false =>
      rw [passOver_of_unheld_leaving edgeSpace o hl hh]
      exact (relays_pure _).faultsFirst
  | false =>
    cases hh : r.metadata.isHeldBy edgeCleanup with
    | true =>
      cases hv : r.spec.validate with
      | error f =>
        -- no call was answered with this fault, but then no object is looked at either
        rw [passOver_of_refused hl hh hv]
        refine .of_storeless ?_
        exact Program.Uses.mono (α := Except Failure Action) (conclude_tells r _)
          fun c => storeless_of_isTelling
      | ok _ =>
        rw [passOver_of_held edgeSpace o hl hh]
        have hready : (conclude r (.ok ())).Relays :=
          (relays_record _ r).bind fun _ => relays_pure _
        exact ((relays_bringIntoPlace hv edgeSpace o).attempt_bind (fun _ => hready)
          fun _ answer s e => run_conclude_error answer r e s).faultsFirst
    | false =>
      rw [passOver_of_unheld edgeSpace o hl hh]
      have hhold : (Pass.hold o.space o.name edgeCleanup).Relays :=
        relays_call fun a => ⟨a, rfl, fun f h => congrArg some h.symm⟩
      exact ((relays_checkpoint _).bind fun _ => hhold.bind fun _ => relays_pure _).faultsFirst

theorem storeless_checkpoint (stage : String) : (Pass.checkpoint stage).Uses Call.Storeless :=
  uses_checkpoint Call.storeless_cancelled stage

theorem faultsFirst_reconcile (edgeSpace : String) (m : ObjectMeta) :
    (reconcile edgeSpace m).FaultsFirst := by
  rw [reconcile.eq_def]
  cases m.space with
  | none => exact (relays_pure _).faultsFirst
  | some space =>
    refine FaultsFirst.after (relays_checkpoint _) (storeless_checkpoint _) fun _ => ?_
    have hget : (Pass.getRoute space m.anyName).Relays :=
      relays_call fun a => ⟨a, rfl, fun f h => congrArg some h.symm⟩
    refine FaultsFirst.after hget (Program.uses_ask (Call.storeless_route _)) fun found => ?_
    cases found with
    | none => exact (relays_pure _).faultsFirst
    | some r => exact faultsFirst_passOver edgeSpace _ r

section Found

variable {σ : Type} {answer : (c : Call) → σ → c.Answer × σ} {s : σ} {m : ObjectMeta}
  {space : String} {r : Route}

theorem reconcile_of_answers {s₁ s₂ : σ} (hm : m.space = some space)
    (hstop : answer .cancelled s = (false, s₁))
    (hfound : answer (.route (.get space m.anyName)) s₁ = (.ok (some r), s₂))
    (edgeSpace : String) :
    let p := passOver edgeSpace ⟨m.anyName, space, r.uidOrEmpty⟩ r
    on answer (reconcile edgeSpace m) s = on answer p s₂ ∧
      interactionsOn answer (reconcile edgeSpace m) s
        = ⟨s, .cancelled, false, s₁⟩ :: ⟨s₁, .route (.get space m.anyName), .ok (some r), s₂⟩
          :: interactionsOn answer p s₂ := by
  have hget : on answer (Pass.getRoute space m.anyName) s₁ = (.ok (some r), s₂) := hfound
  have hfetch : interactionsOn answer (Pass.getRoute space m.anyName) s₁
      = [⟨s₁, .route (.get space m.anyName), .ok (some r), s₂⟩] := by
    change [Interaction.of answer (.route (.get space m.anyName)) s₁] = _
    rw [Interaction.of, hfound]
  simp only [reconcile, hm]
  rw [Pass.on_checkpoint_bind, Pass.interactionsOn_checkpoint_bind, hstop]
  dsimp only
  rw [Pass.on_bind, Pass.interactionsOn_bind, hget, hfetch]
  exact ⟨rfl, rfl⟩

theorem run_reconcile_of_refused (hm : m.space = some space)
    (hr : FindsRoute answer s space m.anyName r) (hl : r.isLeaving = false)
    (hh : r.metadata.isHeldBy edgeCleanup = true) {f : Failure} (hv : r.spec.validate = .error f)
    (edgeSpace : String) :
    (Program.run (α := Except Failure Action) answer (reconcile edgeSpace m) s).1 = .error f ∧
      ∀ c ∈ Program.calls (α := Except Failure Action) answer (reconcile edgeSpace m) s,
        c.Storeless := by
  obtain ⟨s₁, s₂, hstop, hfound⟩ := hr
  obtain ⟨hrun, hall⟩ := reconcile_of_answers hm hstop hfound edgeSpace
  rw [passOver_of_refused hl hh hv] at hrun hall
  refine ⟨(congrArg Prod.fst hrun).trans (run_conclude_error answer r f s₂), ?_⟩
  have htells := (conclude_tells r (.error f)).of_interactions answer s₂
  change ∀ c ∈ callsOn answer (reconcile edgeSpace m) s, c.Storeless
  rw [callsOn_eq_map, hall, List.forall_mem_map]
  refine List.forall_mem_cons.2 ⟨?_, List.forall_mem_cons.2 ⟨?_, ?_⟩⟩
  · exact Call.storeless_cancelled
  · exact Call.storeless_route _
  · exact fun e he => storeless_of_isTelling (htells e he)

end Found

end Reconciliation

/-- A route whose configuration is at fault is refused before any call on objects, with the failure
of the first of its services that is at fault. A route that passes its checks has all its objects:
every service is routed, and every object survives being written as a value. So a pass that has
called the store ends with a fault of the configuration only if a call was answered with one, which
neither the store in memory nor the cluster ever does. -/
theorem configuration_faults_come_first (edgeSpace : String) :
    (∀ (σ : Type) (answer : (c : Call) → σ → c.Answer × σ) (s : σ) (m : ObjectMeta) (space : String)
        (r : Route), m.space = some space → FindsRoute answer s space m.anyName r →
      r.isLeaving = false → r.metadata.isHeldBy edgeCleanup = true →
      ((∃ t ∈ r.spec.services, t.validate ≠ .ok ()) ∨
        ¬ (r.spec.services.map fun t => (t.space, t.name)).Nodup) →
      ∃ before t after f, r.spec.services = before ++ t :: after ∧ FirstOffence before t f ∧
        (Program.run (α := Except Failure Action) answer (reconcile edgeSpace m) s).1 = .error f ∧
        ∀ c ∈ Program.calls (α := Except Failure Action) answer (reconcile edgeSpace m) s,
          c.Storeless) ∧
      (∀ spec : RouteSpec, spec.validate = .ok () → ∀ t ∈ spec.services,
        ∃ b, t.routing edgeSpace = .ok b ∧ ∀ o reference,
          (b.markedFor o reference).serialized = .ok (b.markedFor o reference).objects) ∧
      (∀ m, (reconcile edgeSpace m).FaultsFirst) ∧
      ∀ f : Failure, f.isOfConfiguration = true →
        (∀ (c : StoreCall) (s : MemoryStore), (s.answer c).1 ≠ c.failed f) ∧
          ∀ (c : Call) (s : Session), c.failed? f ≠ some (s.answer c).1 := by
  refine ⟨?_, ?_, Reconciliation.faultsFirst_reconcile edgeSpace, fun f hf => ⟨?_, ?_⟩⟩
  · intro σ answer s m space r hm hr hl hh hbad
    obtain ⟨f, hv⟩ := RouteSpec.exists_validate_error hbad
    obtain ⟨before, t, after, hsplit, hoffence⟩ := RouteSpec.firstOffence_of_validate hv
    obtain ⟨hrun, hcalls⟩ := Reconciliation.run_reconcile_of_refused hm hr hl hh hv edgeSpace
    exact ⟨before, t, after, f, hsplit, hoffence, hrun, hcalls⟩
  · intro spec hv t ht
    have hpassed := (RouteSpec.validate_eq_ok_iff.1 hv).1 t ht
    have ht' : t.validate = .ok () :=
      Service.validate_eq_ok_iff.2 (Service.flaw?_eq_none_iff.2 hpassed)
    exact ⟨t.bundle edgeSpace, Service.routing_eq_ok ht' edgeSpace,
      fun o reference => (Bundle.markedFor o reference _).serialized_eq_ok⟩
  · exact MemoryStore.answer_ne_failed hf
  · exact Session.answer_ne_failed hf

def doubledShop : Route :=
  { heldShop with spec := ⟨heldShop.spec.services ++ heldShop.spec.services⟩ }

def doubledCluster : Rehearsal where
  routes := [(("a", "rollout"), doubledShop)]
  clock := default

theorem doubledShop_is_refused :
    let m : ObjectMeta := { name := some "rollout", space := some "a" }
    let f : Failure := .validation "b/shop" "service listed more than once" (some "services[1]")
    FindsRoute Rehearsal.answer doubledCluster "a" m.anyName doubledShop ∧
      ¬ (doubledShop.spec.services.map fun t => (t.space, t.name)).Nodup ∧
      (∃ before t after, doubledShop.spec.services = before ++ t :: after ∧
        FirstOffence before t f) ∧
      (Rehearsal.run (reconcile "istio-system" m) doubledCluster).1 = .error f ∧
      (∀ c ∈ Rehearsal.callsOf (reconcile "istio-system" m) doubledCluster, c.Storeless) ∧
      heldShop.spec.validate = .ok () ∧
      ∀ t ∈ heldShop.spec.services, ∃ b, t.routing "istio-system" = .ok b ∧ ∀ o reference,
        (b.markedFor o reference).serialized = .ok (b.markedFor o reference).objects := by
  intro m f
  obtain ⟨hrefused, hserialized, -, -⟩ := configuration_faults_come_first "istio-system"
  have hfinds : FindsRoute Rehearsal.answer doubledCluster "a" m.anyName doubledShop :=
    ⟨_, _, rfl, rfl⟩
  have hdup : ¬ (doubledShop.spec.services.map fun t => (t.space, t.name)).Nodup := by decide
  have hvalid : heldShop.spec.validate = .ok () := rfl
  have hv : doubledShop.spec.validate = .error f := rfl
  obtain ⟨before, t, after, f', hsplit, hoffence, hrun, hcalls⟩ :=
    hrefused _ _ _ m _ _ rfl hfinds rfl rfl (.inr hdup)
  have hrun' := (Reconciliation.run_reconcile_of_refused rfl hfinds rfl rfl hv "istio-system").1
  cases hrun.symm.trans hrun'
  exact ⟨hfinds, hdup, ⟨before, t, after, hsplit, hoffence⟩, hrun, hcalls, hvalid,
    hserialized _ hvalid⟩

end MeshRollout
