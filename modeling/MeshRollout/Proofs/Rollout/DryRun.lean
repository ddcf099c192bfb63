import MeshRollout.Command.Preview
import MeshRollout.Proofs.Rollout.Handover

/-!
A preview shows what a pass would write. It is refused where the pass fails before it looks at an
object, and else it has the objects of the pass in the same order, which nobody owns yet.
-/
set_option autoImplicit false

namespace MeshRollout

def PlannedObject.unowned (b : PlannedObject) : PlannedObject :=
  let metadata := { b.object.metadata with ownerReferences := none }
  { b with object := { b.object with metadata } }

section Marks
variable {o : Owner} {reference : Option OwnerReference}

theorem MeshMeta.toObjectMeta_own {m : MeshMeta} (hm : m.ownerReferences = []) :
    { (Bundle.own o reference m).toObjectMeta with ownerReferences := none }
      = (Bundle.own o none m).toObjectMeta := by
  have hnone : nonempty m.ownerReferences = none := by simp [hm, nonempty]
  cases reference with
  | none => simp [Bundle.own, mark, toObjectMeta, hnone]
  | some r =>
    by_cases hs : m.space = o.space <;> simp [Bundle.own, mark, toObjectMeta, hs, hnone]

/-- Apart from the owner of its objects, a bundle is marked the same with a reference and without. -/
theorem Bundle.unowned_markedFor {b : Bundle}
    (hv : b.virtualService.metadata.ownerReferences = [])
    (hg : b.gateway.metadata.ownerReferences = [])
    (hi : b.ingressService.metadata.ownerReferences = [])
    (hd : b.destinationRule.metadata.ownerReferences = [])
    (he : ∀ f ∈ b.edgeFilter, f.metadata.ownerReferences = []) :
    (b.markedFor o reference).objects.map PlannedObject.unowned
      = (b.markedFor o none).objects := by
  have hobject {σ : Type} (spec : σ → Value) {x : MeshObject σ}
      (hx : x.metadata.ownerReferences = []) (r : Resource) :
      PlannedObject.unowned
          ⟨r, { x with metadata := own o reference x.metadata }.toObject spec⟩
        = ⟨r, { x with metadata := own o none x.metadata }.toObject spec⟩ := by
    simp only [PlannedObject.unowned, MeshObject.toObject, MeshMeta.toObjectMeta_own hx]
  simp only [objects, markedFor, List.map_append, List.map_cons, List.map_nil, hobject _ hv,
    hobject _ hg, hobject _ hi, hobject _ hd]
  cases hf : b.edgeFilter with
  | none => rfl
  | some f => simp only [Option.map_some, Option.toList_some, List.map_cons, List.map_nil,
      hobject _ (he f hf)]

theorem Service.unowned_bundle (s : Service) (edgeSpace : String) :
    ((s.bundle edgeSpace).markedFor o reference).objects.map PlannedObject.unowned
      = ((s.bundle edgeSpace).markedFor o none).objects := by
  refine Bundle.unowned_markedFor rfl rfl rfl rfl fun f hf => ?_
  obtain ⟨i, -, rfl⟩ := Option.map_eq_some_iff.1 hf
  rfl

theorem RouteSpec.unowned_planned (spec : RouteSpec) (edgeSpace : String) :
    (spec.planned o reference edgeSpace).map PlannedObject.unowned
      = spec.planned o none edgeSpace := by
  simp only [planned, List.map_flatMap, Service.unowned_bundle]

end Marks

namespace Preview

theorem serviceObjects_eq_ok (o : Owner) (edgeSpace : String) {ss : List Service}
    (h : ∀ s ∈ ss, s.Passed) :
    serviceObjects o edgeSpace ss
      = .ok (ss.flatMap fun s => ((s.bundle edgeSpace).markedFor o none).objects) := by
  induction ss with
  | nil => rfl
  | cons s ss ih =>
    have hv := (h s List.mem_cons_self).validate
    have hi := ih fun t ht => h t (List.mem_cons_of_mem _ ht)
    simp [serviceObjects, Service.routing_eq_ok hv, Bundle.serialized_eq_ok, hi, bind, Except.bind,
      pure, Except.pure]

theorem routeObjects_eq (edgeSpace : String) (r : Route) :
    routeObjects edgeSpace r
      = r.spec.validate.map fun _ => r.spec.planned (owner r) none edgeSpace := by
  cases hv : r.spec.validate with
  | error f => simp [routeObjects, hv, bind, Except.bind, Except.map]
  | ok _ =>
    have hp := (RouteSpec.validate_eq_ok_iff.1 hv).1
    simp [routeObjects, hv, serviceObjects_eq_ok _ _ hp, bind, Except.bind, Except.map,
      RouteSpec.planned]

/-- What a document adds to a preview: a route its objects, any other document nothing. -/
def Adds (edgeSpace : String) (v : Value) (os : List PlannedObject) : Prop :=
  if (v.field "kind").bind Value.text? = some Route.kind then
    ∃ r, Route.read v = .ok r ∧ routeObjects edgeSpace r = .ok os
  else os = []

variable {edgeSpace : String} {os : List PlannedObject}

theorem documentObjects_eq_ok_iff {i : Nat} {v : Value} :
    documentObjects edgeSpace i v = .ok os ↔ Adds edgeSpace v os := by
  rw [documentObjects, Adds]
  split
  · cases Route.read v with
    | error m => simp [Except.mapError, bind, Except.bind]
    | ok r => simp [Except.mapError, bind, Except.bind]
  · simp [pure, Except.pure, eq_comm]

theorem objectsFrom_eq_ok_iff {i : Nat} {docs : List Value} :
    objectsFrom edgeSpace i docs = .ok os ↔
      ∃ parts, List.Forall₂ (Adds edgeSpace) docs parts ∧ os = parts.flatten := by
  induction docs generalizing i os with
  | nil => simp [objectsFrom, eq_comm]
  | cons v docs ih =>
    constructor
    · intro h
      simp only [objectsFrom, bind, Except.bind, pure, Except.pure] at h
      split at h
      · nomatch h
      · rename_i first hfirst
        split at h
        · nomatch h
        · rename_i rest hrest
          cases h
          obtain ⟨parts, hparts, rfl⟩ := ih.1 hrest
          exact ⟨first :: parts, .cons (documentObjects_eq_ok_iff.1 hfirst) hparts, rfl⟩
    · rintro ⟨parts, hparts, rfl⟩
      cases hparts with
      | cons hfirst hrest =>
        have hrest := (ih (i := i + 1)).2 ⟨_, hrest, rfl⟩
        simp [objectsFrom, documentObjects_eq_ok_iff.2 hfirst, hrest, bind, Except.bind, pure,
          Except.pure]

theorem manifest_eq_ok_iff {text out : String} :
    manifest edgeSpace text = .ok out ↔
      ∃ docs parts, Yaml.decode text = .ok docs ∧ List.Forall₂ (Adds edgeSpace) docs parts ∧
        out = Text.joinWith "---\n" (parts.flatten.map fun b => Yaml.text b.object.toValue) := by
  cases hd : Yaml.decode text with
  | error f => simp [manifest, objects, hd, bind, Except.bind, Except.map]
  | ok docs =>
    have hobjects : objects edgeSpace text = objectsFrom edgeSpace 0 docs := by
      simp [objects, hd, bind, Except.bind]
    rw [manifest, hobjects]
    constructor
    · intro h
      cases ho : objectsFrom edgeSpace 0 docs with
      | error f => simp [ho, Except.map] at h
      | ok os =>
        obtain ⟨parts, hparts, rfl⟩ := objectsFrom_eq_ok_iff.1 ho
        rw [ho] at h
        cases h
        exact ⟨docs, parts, rfl, hparts, rfl⟩
    · rintro ⟨docs', parts, hd', hparts, rfl⟩
      cases hd'
      rw [objectsFrom_eq_ok_iff.2 ⟨parts, hparts, rfl⟩]
      rfl

end Preview

namespace Pass
variable {σ α β : Type} {answer : (c : Call) → σ → c.Answer × σ} {s : σ}

theorem callsOn_checkpoint_bind (hstop : (answer .cancelled s).1 = false) (stage : String)
    (k : Unit → Pass α) :
    callsOn answer (checkpoint stage >>= k) s
      = .cancelled :: callsOn answer (k ()) (answer .cancelled s).2 := by
  have hgoes : answer .cancelled s = (false, (answer .cancelled s).2) := Prod.ext hstop rfl
  rw [callsOn_eq_map, interactionsOn_checkpoint_bind, hgoes, callsOn_eq_map]
  rfl

end Pass

namespace Reconciliation

section Uncancelled
variable {σ : Type} {answer : (c : Call) → σ → c.Answer × σ} {s : σ}
  (hstop : (answer .cancelled s).1 = false)
include hstop

theorem store_mem_callsOn_bringIntoPlace {r : Route} (hv : r.spec.validate = .ok ())
    (edgeSpace : String) (o : Owner) :
    ∃ sc, Call.store sc ∈ Pass.callsOn answer (bringIntoPlace edgeSpace o r) s := by
  have hof (bs : List PlannedObject) : Pass.ofExcept (.ok bs) = (pure bs : Pass _) := rfl
  rw [bringIntoPlace_eq_produced, produced_eq_ok hv, hof, pure_bind]
  cases r.spec.planned o r.ownerReference? edgeSpace with
  | nil =>
    refine ⟨.list VirtualServiceSpec.kind.resource none (some o.selector), ?_⟩
    simp only [writeAll, pure_bind, sweep, producedKinds, Sweep.sweepKinds, Sweep.sweepKind,
      bind_assoc]
    rw [Pass.callsOn_checkpoint_bind hstop, Pass.callsOn_bind, Pass.callsOn_list]
    simp
  | cons b bs =>
    refine ⟨.get b.resource b.object.spaceArg b.object.name, ?_⟩
    simp only [writeAll, Convergence.writeObject, bind_assoc]
    rw [Pass.callsOn_checkpoint_bind hstop, Pass.callsOn_bind, Pass.callsOn_get]
    simp

/-- A preview is refused exactly where a pass that is not stopped at once fails without a call on
objects. -/
theorem routeObjects_eq_error_iff (edgeSpace : String) (r : Route) (o : Owner) (f : Failure) :
    Preview.routeObjects edgeSpace r = .error f ↔
      (Pass.on answer (bringIntoPlace edgeSpace o r) s).1 = .error f ∧
        ∀ c ∈ Pass.callsOn answer (bringIntoPlace edgeSpace o r) s, c.Storeless := by
  rw [Preview.routeObjects_eq]
  cases hv : r.spec.validate with
  | error e =>
    have hbring : bringIntoPlace edgeSpace o r = Pass.ofExcept (.error e) := by
      simp only [bringIntoPlace, hv]
      rfl
    simp [hbring, Except.map]
  | ok _ =>
    obtain ⟨sc, hsc⟩ := store_mem_callsOn_bringIntoPlace hstop hv edgeSpace o
    constructor
    · intro h
      cases h
    · rintro ⟨-, h⟩
      exact absurd rfl (h _ hsc sc)

end Uncancelled

end Reconciliation

open Reconciliation Pass in
/-- A preview fails exactly where a pass that is not stopped fails before its first call on objects,
with the same failure. If it succeeds, then a pass over a live route of that name, namespace, uid
and specification hands over the objects of the preview, in their order and with the owner added; a
route that is not held yet is first taken hold of, to be passed over again at once. The preview of a
manifest has the objects of its routes in the order of the documents. -/
theorem preview_shows_pass (edgeSpace : String) :
    (∀ (r : Route) (o : Owner) (f : Failure) (σ : Type)
      (answer : (c : Call) → σ → c.Answer × σ) (s : σ),
      (answer .cancelled s).1 = false →
        (Preview.routeObjects edgeSpace r = .error f ↔
          (on answer (bringIntoPlace edgeSpace o r) s).1 = .error f ∧
            ∀ c ∈ callsOn answer (bringIntoPlace edgeSpace o r) s, c.Storeless)) ∧
    (∀ (r live : Route) (m : ObjectMeta) (name space : String) (os : List PlannedObject),
      r.metadata.name = some name → r.metadata.space = some space →
      Preview.routeObjects edgeSpace r = .ok os → m.anyName = name → m.space = some space →
      live.metadata.uid = r.metadata.uid → live.spec = r.spec → live.isLeaving = false →
        let bs := r.spec.planned ⟨name, space, r.uidOrEmpty⟩ live.ownerReference? edgeSpace
        os = bs.map PlannedObject.unowned ∧
          ∀ (σ : Type) (answer : (c : Call) → σ → c.Answer × σ) (s s₁ s₂ : σ),
            answer .cancelled s = (false, s₁) →
            answer (.route (.get space name)) s₁ = (.ok (some live), s₂) →
            ∃ es, interactionsOn answer (reconcile edgeSpace m) s
                = ⟨s, .cancelled, false, s₁⟩
                  :: ⟨s₁, .route (.get space name), .ok (some live), s₂⟩ :: es ∧
              (live.metadata.isHeldBy edgeCleanup = true →
                HandsOver bs es (on answer (reconcile edgeSpace m) s).1) ∧
              (live.metadata.isHeldBy edgeCleanup = false →
                (∀ e ∈ es, e.call.Storeless) ∧
                  ∀ action, (on answer (reconcile edgeSpace m) s).1 = .ok action →
                    action = .requeue 0 ∧
                      ∃ e ∈ es, e.call = .route (.hold space name edgeCleanup))) ∧
    ∀ text out, Preview.manifest edgeSpace text = .ok out ↔
      ∃ docs parts, Yaml.decode text = .ok docs ∧
        List.Forall₂ (Preview.Adds edgeSpace) docs parts ∧
        out = Text.joinWith "---\n" (parts.flatten.map fun b => Yaml.text b.object.toValue) := by
  refine ⟨?_, ?_, fun text out => Preview.manifest_eq_ok_iff⟩
  · exact fun r o f σ answer s hstop => routeObjects_eq_error_iff hstop edgeSpace r o f
  · rintro r live m _ space os hname hspace hos rfl hms huid hspec hl bs
    have howner : Preview.owner r = ⟨m.anyName, space, r.uidOrEmpty⟩ := by
      simp [Preview.owner, hname, hspace, Route.spaceOrEmpty]
    have hlive : live.uidOrEmpty = r.uidOrEmpty := by rw [Route.uidOrEmpty, huid, Route.uidOrEmpty]
    rw [Preview.routeObjects_eq, howner] at hos
    cases hv : r.spec.validate with
    | error f => simp [hv, Except.map] at hos
    | ok _ =>
      rw [hv] at hos
      cases hos
      refine ⟨(RouteSpec.unowned_planned r.spec edgeSpace).symm, ?_⟩
      intro σ answer s s₁ s₂ hstop hfound
      obtain ⟨hon, hall⟩ := reconcile_of_answers hms hstop hfound edgeSpace
      rw [hlive] at hon hall
      refine ⟨_, hall, fun hh => ?_, fun hh => ?_⟩
      · have hhands := handsOver_passOver answer hl hh (hspec ▸ hv) edgeSpace
          ⟨m.anyName, space, r.uidOrEmpty⟩ s₂
        rw [hspec] at hhands
        exact hon ▸ hhands
      · exact hon ▸ holds_passOver answer hl hh edgeSpace ⟨m.anyName, space, r.uidOrEmpty⟩ s₂

def awaitingCluster : Rehearsal where
  routes := [(("a", "rollout"), heldShop)]
  clock := default

open Reconciliation Pass in
theorem heldShop_preview_shows_pass :
    (∃ f, Preview.routeObjects "istio-system" doubledShop = .error f ∧
      (on Rehearsal.answer (bringIntoPlace "istio-system" doubledShop.owner doubledShop)
        doubledCluster).1 = .error f) ∧
    (∃ bs handed rest,
      Preview.routeObjects "istio-system" heldShop = .ok (bs.map PlannedObject.unowned) ∧
      interactionsOn Rehearsal.answer (reconcile "istio-system" heldShop.metadata) awaitingCluster
        = .of Rehearsal.answer .cancelled awaitingCluster
          :: .of Rehearsal.answer (.route (.get "a" "rollout")) awaitingCluster
          :: (handed ++ rest) ∧
      HandedOver bs handed (.ok ())) ∧
    (on Rehearsal.answer (reconcile "istio-system" heldShop.metadata) awaitingCluster).2.calls
      = ["get_route IstioRoute a rollout",
        "get VirtualService b shop", "create VirtualService b shop",
        "get Gateway b shop-gateway", "create Gateway b shop-gateway",
        "get VirtualService b shop-ingress", "create VirtualService b shop-ingress",
        "get DestinationRule b shop", "create DestinationRule b shop",
        "list VirtualService - " ++ heldShop.owner.selector,
        "list Gateway - " ++ heldShop.owner.selector,
        "list DestinationRule - " ++ heldShop.owner.selector,
        "list EnvoyFilter - " ++ heldShop.owner.selector,
        "patch_route_status IstioRoute a rollout"] := by
  obtain ⟨hfails, hshows, -⟩ := preview_shows_pass "istio-system"
  have hrefused : Preview.routeObjects "istio-system" doubledShop
      = .error (.validation "b/shop" "service listed more than once" (some "services[1]")) := rfl
  have hshop : Preview.routeObjects "istio-system" heldShop
      = .ok (heldShop.spec.planned (Preview.owner heldShop) none "istio-system") := by
    rw [Preview.routeObjects_eq]
    rfl
  refine ⟨⟨_, hrefused, ?_⟩, ?_, by decide +kernel⟩
  · exact ((hfails _ doubledShop.owner _ _ _ doubledCluster rfl).1 hrefused).1
  · obtain ⟨hbs, hpass⟩ :=
      hshows heldShop heldShop heldShop.metadata _ _ _ rfl rfl hshop rfl rfl rfl rfl rfl
    obtain ⟨es, hes, hheld, -⟩ := hpass _ Rehearsal.answer awaitingCluster _ _ rfl rfl
    have hok : (on Rehearsal.answer (reconcile "istio-system" heldShop.metadata)
        awaitingCluster).1 = .ok (.requeue resyncSeconds) := by
      decide +kernel
    obtain ⟨handed, rest, x, rfl, hhanded, -, hfailed⟩ := hheld rfl
    refine ⟨_, handed, rest, hbs ▸ hshop, hes, ?_⟩
    cases x with
    | ok u => exact hhanded
    | error f => nomatch hok.symm.trans (hfailed f rfl).1

end MeshRollout
