import MeshRollout.Proofs.Cluster.Turns
import MeshRollout.Proofs.Rollout.Settled

/-!
Passes over different routes at the same time. A pass marks what it writes, and it deletes only
objects that carried its own mark when they were listed. So what a pass has brought into place stays
there, unless an object with the mark of another one of the routes stood there at the start: that
one may have been listed, and it is deleted by its name although it was replaced meanwhile.
-/
set_option autoImplicit false

namespace MeshRollout

open StoreKey Rehearsal Sweep Reconciliation

structure LiveRoute (w : Rehearsal) where
  space : String
  name : String
  route : Route
  trigger : ObjectMeta
  found : w.findRoute space name = some route
  staying : route.isLeaving = false
  held : route.metadata.isHeldBy edgeCleanup = true
  valid : route.spec.validate = .ok ()
  space_eq : trigger.space = some space
  name_eq : trigger.anyName = name

namespace LiveRoute

variable {w : Rehearsal}

def owner (x : LiveRoute w) : Owner :=
  ⟨x.name, x.space, x.route.uidOrEmpty⟩

def planned (x : LiveRoute w) (edgeSpace : String) : List PlannedObject :=
  x.route.spec.planned x.owner x.route.ownerReference? edgeSpace

theorem produced_eq_ok (x : LiveRoute w) (edgeSpace : String) :
    produced x.owner x.route.ownerReference? edgeSpace x.route.spec = .ok (x.planned edgeSpace) :=
  Reconciliation.produced_eq_ok x.valid _ _ _

theorem planned_writable (x : LiveRoute w) (edgeSpace : String) :
    ∀ b ∈ x.planned edgeSpace, b.Writable :=
  x.route.spec.planned_writable _ _ _

end LiveRoute

namespace Overlap

variable {ι : Type} {start : Rehearsal}

/-- The routes are different ones, and no object is produced twice. -/
structure Apart (edgeSpace : String) (routes : ι → LiveRoute start) : Prop where
  different : ∀ i j, i ≠ j →
    ((routes i).space, (routes i).name) ≠ ((routes j).space, (routes j).name)
  nodup : ∀ i, (identities ((routes i).planned edgeSpace)).Nodup
  disjoint : ∀ i j, i ≠ j →
    List.Disjoint (identities ((routes i).planned edgeSpace))
      (identities ((routes j).planned edgeSpace))

def Foreign (routes : ι → LiveRoute start) (i : ι) (s : MemoryStore) (k : StoreKey) : Prop :=
  ∃ j, j ≠ i ∧ ∃ live, s.find k = some live ∧ (routes j).owner.owns live.labels = true

/-- The route produces an object under the key, and had not to take it over from another route. -/
def Safe (edgeSpace : String) (routes : ι → LiveRoute start) (i : ι) (k : StoreKey) : Prop :=
  (∃ b ∈ (routes i).planned edgeSpace, b.key = k) ∧ ¬ Foreign routes i start.store k

def Clean (edgeSpace : String) (routes : ι → LiveRoute start) (w : Rehearsal) : Prop :=
  ∀ i k, Safe edgeSpace routes i k → ¬ Foreign routes i w.store k

structure Placed (edgeSpace : String) (routes : ι → LiveRoute start) (i : ι) (w : Rehearsal) :
    Prop where
  clean : Clean edgeSpace routes w
  inPlace : ∀ b ∈ (routes i).planned edgeSpace, Safe edgeSpace routes i b.key → b.InPlace w.store

structure Respects (edgeSpace : String) (routes : ι → LiveRoute start) (i : ι)
    (w w' : Rehearsal) : Prop where
  intact : w.Intact → w'.Intact
  clean : w.Intact → Clean edgeSpace routes w → Clean edgeSpace routes w' ∧
    ∀ k, Safe edgeSpace routes i k → w'.store.find k = w.store.find k
  routes : ∀ space name r, w.findRoute space name = some r →
    ∃ r', w'.findRoute space name = some r' ∧ r'.metadata = r.metadata ∧ r'.spec = r.spec

variable {edgeSpace : String} {routes : ι → LiveRoute start} {i j : ι} {w w' w'' : Rehearsal}

namespace Respects

theorem of_same_store (hs : w'.store = w.store) (hi : w.Intact → w'.Intact)
    (hr : ∀ space name r, w.findRoute space name = some r →
      ∃ r', w'.findRoute space name = some r' ∧ r'.metadata = r.metadata ∧ r'.spec = r.spec) :
    Respects edgeSpace routes i w w' where
  intact := hi
  clean _ hc := ⟨fun j k hk => hs ▸ hc j k hk, fun k _ => by rw [hs]⟩
  routes := hr

theorem of_alike (h : Alike w w') : Respects edgeSpace routes i w w' :=
  of_same_store h.store h.intact (findRoute_of_routes h.routes)

theorem trans (h : Respects edgeSpace routes i w w') (h' : Respects edgeSpace routes i w' w'') :
    Respects edgeSpace routes i w w'' where
  intact hw := h'.intact (h.intact hw)
  clean hw hc := by
    obtain ⟨hc', hf⟩ := h.clean hw hc
    obtain ⟨hc'', hf'⟩ := h'.clean (h.intact hw) hc'
    exact ⟨hc'', fun k hk => (hf' k hk).trans (hf k hk)⟩
  routes space name r hr := by
    obtain ⟨r', hr', hm, hs⟩ := h.routes space name r hr
    obtain ⟨r'', hr'', hm', hs'⟩ := h'.routes space name r' hr'
    exact ⟨r'', hr'', hm'.trans hm, hs'.trans hs⟩

end Respects

def setting (edgeSpace : String) (routes : ι → LiveRoute start) (i : ι) : Setting Rehearsal where
  answers := Answers
  rely := Respects edgeSpace routes i
  rely_refl w := .of_alike (.refl w)
  rely_trans := Respects.trans

def RespectsOthers (edgeSpace : String) (routes : ι → LiveRoute start) (i : ι) (_ : Call)
    (w w' : Rehearsal) : Prop :=
  ∀ j, j ≠ i → Respects edgeSpace routes j w w'

theorem admits (edgeSpace : String) (routes : ι → LiveRoute start) (i : ι) :
    Admits (setting edgeSpace routes i) (RespectsOthers edgeSpace routes i) where
  answers h := h
  alike := .of_alike
  intact h := h.intact
  reads _ h _ _ := .of_alike h

theorem stable (edgeSpace : String) (routes : ι → LiveRoute start) (i : ι) :
    Stable (setting edgeSpace routes i) (Clean edgeSpace routes) (Safe edgeSpace routes i) where
  kept h hw hc := (h.clean hw hc).1
  still hk h hw hc := (h.clean hw hc).2 _ hk

theorem compatible [DecidableEq ι] (edgeSpace : String) (routes : ι → LiveRoute start) :
    Crowd.Compatible Answers Alike (setting edgeSpace routes)
      (RespectsOthers edgeSpace routes) where
  answers _ _ _ _ _ h := h
  others _ _ _ h := .of_alike h
  peers _ j _ _ _ hne h := h j (Ne.symm hne)

/-- The sweep deletes under no safe key. -/
theorem bounded (i : ι) : Bounded (setting edgeSpace routes i) (RespectsOthers edgeSpace routes i)
    (routes i).owner (identities ((routes i).planned edgeSpace))
    (Placed edgeSpace routes i) (fun k => ∀ j, ¬ Safe edgeSpace routes j k) where
  toAdmits := admits edgeSpace routes i
  kept h hw hI := by
    have hst := stable edgeSpace routes i
    exact ⟨hst.kept h hw hI.clean,
      fun b hb hk => hst.inPlace hk h hw hI.clean (hI.inPlace b hb hk)⟩
  within {w k} hw hI hstale j hk := by
    by_cases hj : j = i
    · -- the sweep keeps what its own route produces
      subst hj
      obtain ⟨b, hb, rfl⟩ := hk.1
      exact not_staleAt_key hw.sound ((routes j).planned_writable edgeSpace b hb) hb hstale
    · -- under the safe keys of others its mark does not stand
      obtain ⟨r, -, -, live, hl, hs⟩ := hstale
      exact hI.clean j k hk ⟨i, Ne.symm hj, live, hl, (Bool.and_eq_true_iff.1 hs).1⟩
  deletes {w w' r live} hw hI hD hm := by
    have hsame (j : ι) (k : StoreKey) (hk : Safe edgeSpace routes j k) :
        w'.store.find k = w.store.find k := by
      refine (Sweepable.find_delete hm k).resolve_right ?_
      rintro ⟨rfl, -⟩
      exact hD j hk
    have hclean : Clean edgeSpace routes w' := by
      rintro j k hk ⟨l, hl, found, hfind, howns⟩
      exact hI.clean j k hk ⟨l, hl, found, hsame j k hk ▸ hfind, howns⟩
    refine ⟨fun j _ => ⟨hm.intact, fun _ _ => ⟨hclean, hsame j⟩, findRoute_of_routes hm.routes⟩,
      hclean, fun b hb hk => ?_⟩
    obtain ⟨x, hx, hc⟩ := hI.inPlace b hb hk
    exact ⟨x, (hsame i b.key hk).trans hx, hc⟩

section Apart

variable (hapart : Apart edgeSpace routes)
include hapart

theorem Apart.not_owns (hne : j ≠ i) {labels : Dict String}
    (h : (routes i).owner.owns labels = true) : ¬ (routes j).owner.owns labels = true :=
  fun h' => hapart.different j i hne (Owner.same_of_owns h' h)

theorem Apart.eq_of_safe {b : PlannedObject} (hb : b ∈ (routes i).planned edgeSpace)
    (hk : Safe edgeSpace routes j b.key) : j = i := by
  by_contra hne
  obtain ⟨⟨b', hb', he⟩, -⟩ := hk
  have hid := (key_eq_iff ((routes j).planned_writable edgeSpace b' hb')
    ((routes i).planned_writable edgeSpace b hb)).1 he
  exact hapart.disjoint j i hne (List.mem_map.2 ⟨b', hb', hid⟩) (List.mem_map.2 ⟨b, hb, rfl⟩)

/-- Writing a produced object leaves the keys of other routes alone and puts no foreign mark under
a safe key. -/
theorem permits {b : PlannedObject} (hb : b ∈ (routes i).planned edgeSpace) :
    Permits (RespectsOthers edgeSpace routes i) (Clean edgeSpace routes) b := by
  intro c x w w' ht ho hcar hw hc hm
  have hclean : Clean edgeSpace routes w' := by
    rintro j k hk ⟨l, hl, live, hfind, howns⟩
    rcases hm.find k with hf | ⟨ht', hf | ⟨x', new, ho', hf, hnew⟩⟩
    · exact hc j k hk ⟨l, hl, live, hf ▸ hfind, howns⟩
    · cases hf.symm.trans hfind
    · cases ht.symm.trans ht'
      cases ho.symm.trans ho'
      cases hf.symm.trans hfind
      -- the key is the writer's own, and what it writes carries its own mark
      cases hapart.eq_of_safe hb hk
      have howner := (routes i).route.spec.owns_planned (routes i).owner
        (routes i).route.ownerReference? edgeSpace b hb
      rw [hnew.labels, hcar.labels] at howns
      exact hapart.not_owns hl howner howns
  refine ⟨fun j hj => ⟨hm.intact, fun _ _ => ⟨hclean, fun k hk => hm.find_of_ne ht ?_⟩,
    findRoute_of_routes hm.routes⟩, hclean⟩
  rintro rfl
  exact hj (hapart.eq_of_safe hb hk)

theorem yields_bringIntoPlace (i : ι) {r : Route} (hw : w.Intact) (hc : Clean edgeSpace routes w)
    (hp : produced (routes i).owner r.ownerReference? edgeSpace r.spec
      = .ok ((routes i).planned edgeSpace)) :
    (setting edgeSpace routes i).Yields (RespectsOthers edgeSpace routes i)
      (bringIntoPlace edgeSpace (routes i).owner r)
      (fun _ w' => Placed edgeSpace routes i w') w := by
  rw [bringIntoPlace_eq hp]
  have hbs := (routes i).planned_writable edgeSpace
  refine (yields_writeAll (admits edgeSpace routes i) (stable edgeSpace routes i) hbs
    (fun b hb => permits hapart hb) (nodup_keys hbs (hapart.nodup i)) hw hc).bind ?_
  intro _ w₁ ⟨hw₁, hI₁⟩
  refine ((bounded i).yields_sweep hw₁ ⟨hI₁.1, hI₁.2⟩).bind fun _ w₂ ⟨hw₂, hI₂⟩ => ?_
  exact Setting.yields_pure fun w₃ h₃ => (bounded i).kept h₃ hw₂ hI₂

theorem yields_reconcile (i : ι) (hstart : start.Intact) :
    (setting edgeSpace routes i).Yields (RespectsOthers edgeSpace routes i)
      (reconcile edgeSpace (routes i).trigger)
      (fun _ w' => Placed edgeSpace routes i w') start := by
  have hclean : Clean edgeSpace routes start := fun _ _ hk => hk.2
  refine yields_reconcile_of_held (admits edgeSpace routes i) (bounded i).kept ?_
    (routes i).space_eq (routes i).name_eq (routes i).staying (routes i).held
    ((routes i).produced_eq_ok edgeSpace) hstart
    (fun w' h' => h'.routes _ _ _ (routes i).found) fun r w' h' hp => ?_
  · intro c w w' a hc ha hw
    obtain ⟨hstore, hroutes⟩ := keeps_of_isTelling hc ha hw
    refine ⟨fun j _ => .of_same_store hstore ha.intact hroutes, fun hI => ⟨fun j k hk => ?_, ?_⟩⟩
    · exact hstore ▸ hI.clean j k hk
    · exact hstore ▸ hI.inPlace
  · exact yields_bringIntoPlace hapart i (h'.intact hstart) (h'.clean hstart hclean).1 hp

end Apart

end Overlap

/-- However passes over different routes take turns, with calls failing as they may: where a pass
has ended well, every object of its route is in place at the end, except under keys where an object
with the mark of another one of these routes stood at the start. -/
theorem overlapping_passes_settle {ι : Type} [DecidableEq ι] {start : Rehearsal}
    (hstore : start.store.Reachable) (hraces : start.races = []) {edgeSpace : String}
    {routes : ι → LiveRoute start} (hapart : Overlap.Apart edgeSpace routes)
    {t : List (Moment ι Rehearsal)} {y : Crowd ι Rehearsal (Except Failure Action)}
    (hrun : Crowd.Runs Answers Alike ⟨start, fun i => reconcile edgeSpace (routes i).trigger⟩ t y)
    {i : ι} {action : Action} (hdone : y.programs i = .done (.ok action)) :
    ∀ b ∈ (routes i).planned edgeSpace, ¬ Overlap.Foreign routes i start.store b.key →
      b.InPlace y.state.store := by
  have hstart : start.Intact := ⟨hstore.sound, hraces⟩
  have hpasses (i : ι) : (Overlap.setting edgeSpace routes i).Ensures
      (Overlap.RespectsOthers edgeSpace routes i) (α := Except Failure Action)
      (reconcile edgeSpace (routes i).trigger)
      (fun result w => ∀ x, result = .ok x → Overlap.Placed edgeSpace routes i w) start :=
    Overlap.yields_reconcile hapart i hstart
  have hend := (Overlap.compatible edgeSpace routes).holds_of_done hpasses hrun hdone
  intro b hb hforeign
  exact (hend action rfl).inPlace b hb ⟨⟨b, hb, rfl⟩, hforeign⟩

namespace Overlap

def formerRoute : Route where
  metadata := {
    name := some "former", space := some "a", uid := some "uid-3",
    finalizers := some [edgeCleanup] }
  spec := ⟨[{ name := "cart", space := "b", revisions := ["r1"] }]⟩
  status := none

def formerShop : Object where
  types := none
  metadata := {
    name := some "shop", space := some "b", labels := some formerRoute.owner.labels }
  data := []

def movedCluster : Rehearsal where
  store := ({} : MemoryStore).insert VirtualServiceSpec.kind.resource formerShop
  routes := [(("a", "former"), formerRoute), (("a", "rollout"), heldShop)]
  clock := ⟨0, 0⟩

def movedRoutes : Bool → LiveRoute movedCluster
  | false => ⟨"a", "former", formerRoute, formerRoute.metadata, rfl, rfl, rfl, rfl, rfl, rfl⟩
  | true => ⟨"a", "rollout", heldShop, heldShop.metadata, rfl, rfl, rfl, rfl, rfl, rfl⟩

/-- The former route lists its objects, the other one makes its pass, and the former one goes on. -/
def movedEnd : Crowd Bool Rehearsal (Except Failure Action) :=
  Crowd.play (fun c w => some (w.answer c))
    (List.replicate 16 false ++ List.replicate 60 true ++ List.replicate 60 false)
    ⟨movedCluster, fun i => reconcile "istio-system" (movedRoutes i).trigger⟩

theorem movedEnd_outcome :
    ((movedEnd.programs false).result? = some (.ok (.requeue resyncSeconds)) ∧
      (movedEnd.programs true).result? = some (.ok (.requeue resyncSeconds))) ∧
    (movedEnd.state.store.find (.of VirtualServiceSpec.kind.resource "b" "shop")).isNone = true := by
  decide +kernel

theorem movedEnd_done (i : Bool) : movedEnd.programs i = .done (.ok (.requeue resyncSeconds)) := by
  cases i with
  | false => exact Program.eq_done_of_result? movedEnd_outcome.1.1
  | true => exact Program.eq_done_of_result? movedEnd_outcome.1.2

theorem runs_movedEnd : ∃ t, Crowd.Runs Answers Alike
    ⟨movedCluster, fun i => reconcile "istio-system" (movedRoutes i).trigger⟩ t movedEnd := by
  refine Crowd.runs_play (fun c w a w' h => ?_) _ _
  have hs : Answers c w (w.answer c).1 (w.answer c).2 := .served
  rwa [Option.some.inj h] at hs

theorem reachable_movedCluster : movedCluster.store.Reachable :=
  MemoryStore.Reachable.empty.insert _ _

theorem apart_movedRoutes : Apart "istio-system" movedRoutes where
  different := by decide
  nodup i := by
    rw [LiveRoute.planned, identities_planned (movedRoutes i).valid]
    revert i
    decide +kernel
  disjoint i j hne := by
    rw [LiveRoute.planned, identities_planned (movedRoutes i).valid, LiveRoute.planned,
      identities_planned (movedRoutes j).valid, List.disjoint_left]
    revert i j
    decide +kernel

theorem movedRoutes_settle :
    movedCluster.store.Reachable ∧ movedCluster.races = [] ∧ Apart "istio-system" movedRoutes ∧
    ∃ t, Crowd.Runs Answers Alike
        ⟨movedCluster, fun i => reconcile "istio-system" (movedRoutes i).trigger⟩ t movedEnd ∧
      movedEnd.programs false = .done (.ok (.requeue resyncSeconds)) ∧
      ∀ b ∈ (movedRoutes false).planned "istio-system",
        ¬ Foreign movedRoutes false movedCluster.store b.key ∧ b.InPlace movedEnd.state.store := by
  obtain ⟨t, ht⟩ := runs_movedEnd
  refine ⟨reachable_movedCluster, rfl, apart_movedRoutes, t, ht, movedEnd_done false, fun b hb => ?_⟩
  have hforeign : ¬ Foreign movedRoutes false movedCluster.store b.key := by
    rintro ⟨j, hj, live, hl, howns⟩
    obtain rfl : j = true := by simpa using hj
    have hm := MemoryStore.mem_of_find hl
    have hnone : ∀ p ∈ movedCluster.store.objects,
        (movedRoutes true).owner.owns p.2.labels = false := by
      decide +kernel
    rw [hnone _ hm] at howns
    cases howns
  exact ⟨hforeign, overlapping_passes_settle reachable_movedCluster rfl apart_movedRoutes ht
    (movedEnd_done false) b hb hforeign⟩

/-- The rules of the shop are gone at the end, although both passes have ended well. -/
theorem moved_shop_is_lost :
    movedCluster.store.Reachable ∧ movedCluster.races = [] ∧ Apart "istio-system" movedRoutes ∧
    ∃ t y, Crowd.Runs Answers Alike
        ⟨movedCluster, fun i => reconcile "istio-system" (movedRoutes i).trigger⟩ t y ∧
      (∀ i, y.programs i = .done (.ok (.requeue resyncSeconds))) ∧
      ∃ i, ∃ b ∈ (movedRoutes i).planned "istio-system", ¬ b.InPlace y.state.store := by
  obtain ⟨t, ht⟩ := runs_movedEnd
  refine ⟨reachable_movedCluster, rfl, apart_movedRoutes, t, movedEnd, ht, movedEnd_done, true,
    _, List.mem_cons_self, ?_⟩
  rintro ⟨live, hl, -⟩
  have hgone := movedEnd_outcome.2
  have hkey : movedEnd.state.store.find (.of VirtualServiceSpec.kind.resource "b" "shop")
      = some live := hl
  rw [hkey] at hgone
  cases hgone

end Overlap

end MeshRollout
