import Mathlib.Control.Monad.Basic
import MeshRollout.Proofs.Rollout.Custody
import MeshRollout.Proofs.Rollout.Departure

/-!
The rules of a service are written before its destination rule, so in the middle of a pass they may
name new subsets that are not there yet. This happens to one service at a time, until its
destination rule is written.
-/
set_option autoImplicit false

namespace MeshRollout

open StoreKey Rehearsal Sweep Reconciliation

def KeepsOrder (ss : List Service) (start : MemoryStore) (_ : Call) (w w' : Rehearsal) : Prop :=
  OneAtATime ss start w.store → OneAtATime ss start w'.store

theorem admits_keepsOrder (ss : List Service) (start : MemoryStore) :
    Admits alone (KeepsOrder ss start) :=
  admits_alone fun _ _ _ _ h hone => h.store ▸ hone

theorem permits_of_puts {ss : List Service} {start : MemoryStore} {b : PlannedObject}
    {I : MemoryStore → Prop} (hone : ∀ store, I store → OneAtATime ss start store)
    (hputs : ∀ store store', Puts b store store' → I store → I store') :
    Permits (KeepsOrder ss start) (fun w => I w.store) b := by
  intro c x w w' ht ho hc _ hI hm
  have hI' := hputs _ _ (puts_of_made ht ho hc hm) hI
  exact ⟨fun _ => hone _ hI', hI'⟩

section Pass

variable {ss rest : List Service} {s : Service} {start : MemoryStore} {o : Owner}
  {reference : Option OwnerReference} {edgeSpace : String} {more : List PlannedObject}
  {Q : Unit → Rehearsal → Prop} {w : Rehearsal}

/-- Services of a route that passes its checks are told apart by their hosts and by the keys of
their destination rules. -/
structure Separate (ss : List Service) : Prop where
  host : ∀ s ∈ ss, ∀ t ∈ ss, t.host = s.host → t = s
  subsets : ∀ s ∈ ss, ∀ t ∈ ss, t.subsetKey = s.subsetKey → t = s

theorem separate_of_validate {spec : RouteSpec} (h : spec.validate = .ok ()) :
    Separate spec.services := by
  obtain ⟨hp, hd⟩ := RouteSpec.validate_eq_ok_iff.1 h
  have hinj {s t : Service} (hs : s ∈ spec.services) (ht : t ∈ spec.services)
      (he : (t.space, t.name) = (s.space, s.name)) : t = s :=
    List.inj_on_of_nodup_map hd ht hs he
  have hhost {s t : Service} (hs : s ∈ spec.services) (ht : t ∈ spec.services)
      (he : t.host = s.host) : (t.space, t.name) = (s.space, s.name) :=
    Prod.ext_iff.2 (Service.host_injective (hp t ht).name (hp s hs).name he)
  exact ⟨fun s hs t ht he => hinj hs ht (hhost hs ht he),
    fun s hs t ht he => hinj hs ht (Service.subsetKey_injective he)⟩

theorem yields_stage {I : MemoryStore → Prop} {b : PlannedObject}
    (hone : ∀ store, I store → OneAtATime ss start store)
    (hputs : ∀ store store', Puts b store store' → I store → I store') (hb : b.Writable)
    (hw : w.Intact) (hI : I w.store)
    (h : ∀ w', w'.Intact → I w'.store → b.InPlace w'.store →
      alone.Yields (KeepsOrder ss start) (writeAll more) Q w') :
    alone.Yields (KeepsOrder ss start) (writeAll (b :: more)) Q w :=
  yields_writeAll_cons (admits_keepsOrder ss start)
    (stable_alone (I := fun w => I w.store) (fun _ _ h hI => h.store ▸ hI) fun _ => True) hb
    (permits_of_puts hone hputs) hw hI fun w' hw' hI' hin => h w' hw' hI' (hin trivial)

theorem yields_writeService (hsep : Separate ss) (hs : s ∈ ss) (hrest : ∀ t ∈ rest, t ∈ ss)
    (hnot : s ∉ rest) (hw : w.Intact) (hI : AtRest ss (s :: rest) start w.store)
    (h : ∀ w', w'.Intact → AtRest ss rest start w'.store →
      alone.Yields (KeepsOrder ss start) (writeAll more) Q w') :
    alone.Yields (KeepsOrder ss start)
      (writeAll (((s.bundle edgeSpace).markedFor o reference).objects ++ more)) Q w := by
  have hwritable := Bundle.objects_writable ((s.bundle edgeSpace).markedFor o reference)
  have hhost := hsep.host s hs
  have hrules := isRulesOf_plannedRules s o reference edgeSpace
  have hingress := isRulesOf_plannedIngress s o reference edgeSpace
  have hsubsets := isSubsetsOf_plannedSubsets s o reference edgeSpace
  simp only [Bundle.objects, List.cons_append, List.nil_append, List.forall_mem_cons] at hwritable ⊢
  obtain ⟨hw₁, hw₂, hw₃, hw₄, hw₅⟩ := hwritable
  refine yields_stage (I := Midway ss rest s [] start) (fun _ => Midway.oneAtATime)
    (fun _ _ hp hI => hI.of_rules hhost hrules hp) hw₁ hw (hI.midway hs) ?_
  intro w₁ hi₁ hI₁ hin₁
  have hkeys : ∀ k ∈ [(plannedRules s o reference edgeSpace).key], k ∈ s.ruleKeys := by
    simpa using hrules.key
  refine yields_stage (I := Midway ss rest s [(plannedRules s o reference edgeSpace).key] start)
    (fun _ => Midway.oneAtATime)
    (fun _ _ hp hI => hI.of_unwatched (unwatched_gateway _) hkeys hp) hw₂ hi₁
    (hI₁.renew hrules hin₁) ?_
  intro w₂ hi₂ hI₂ _
  refine yields_stage (I := Midway ss rest s [(plannedRules s o reference edgeSpace).key] start)
    (fun _ => Midway.oneAtATime) (fun _ _ hp hI => hI.of_rules hhost hingress hp) hw₃ hi₂ hI₂ ?_
  intro w₃ hi₃ hI₃ hin₃
  have hclosing : Closing ss rest s start w₃.store := by
    refine (hI₃.renew hingress hin₃).closing fun k hk => ?_
    rw [ruleKeys_eq s o reference edgeSpace] at hk
    exact (List.mem_cons.1 hk).elim (fun he => he ▸ List.mem_cons_of_mem _ List.mem_cons_self)
      fun hk => List.mem_singleton.1 hk ▸ List.mem_cons_self
  refine yields_stage (I := Closing ss rest s start) (fun _ => Closing.oneAtATime)
    (fun _ _ hp hI => hI.of_subsets hnot hrest (hsep.subsets s hs) hsubsets hp) hw₄ hi₃ hclosing ?_
  intro w₄ hi₄ hI₄ hin₄
  have hrested := hI₄.atRest hsubsets hin₄
  cases hfilter : ((s.bundle edgeSpace).markedFor o reference).edgeFilter with
  | none => exact h w₄ hi₄ hrested
  | some f =>
    rw [hfilter] at hw₅
    refine yields_stage (I := AtRest ss rest start) (fun _ => AtRest.oneAtATime)
      (fun _ _ hp hI => hI.of_unwatched hrest fun t _ k hk => hp.elsewhere k fun he => ?_)
      (hw₅ _ List.mem_cons_self) hi₄ hrested fun w₅ hi₅ hI₅ _ => h w₅ hi₅ hI₅
    exact unwatched_filter _ t (he ▸ hk)

theorem yields_writeServices (hsep : Separate ss) (hrest : ∀ t ∈ rest, t ∈ ss) (hd : rest.Nodup)
    (hw : w.Intact) (hI : AtRest ss rest start w.store) :
    alone.Yields (KeepsOrder ss start)
      (writeAll (rest.flatMap fun s => ((s.bundle edgeSpace).markedFor o reference).objects))
      (fun _ w' => w'.Intact ∧ AtRest ss [] start w'.store) w := by
  induction rest generalizing w with
  | nil => exact Setting.yields_pure fun w' h' => ⟨h'.intact hw, h'.store ▸ hI⟩
  | cons s rest ih =>
    obtain ⟨hnot, hd⟩ := List.nodup_cons.1 hd
    obtain ⟨hs, hrest⟩ := List.forall_mem_cons.1 hrest
    rw [List.flatMap_cons]
    exact yields_writeService hsep hs hrest hnot hw hI fun w' hw' hI' => ih hrest hd hw' hI'

end Pass

theorem exists_planned_of_watched {spec : RouteSpec} {t : Service} (ht : t ∈ spec.services)
    {k : StoreKey} (hk : k ∈ t.watchedKeys) (o : Owner) (reference : Option OwnerReference)
    (edgeSpace : String) : ∃ b ∈ spec.planned o reference edgeSpace, b.key = k := by
  have of_bundle {b : PlannedObject}
      (hb : b ∈ ((t.bundle edgeSpace).markedFor o reference).objects) (he : b.key = k) :
      ∃ b ∈ spec.planned o reference edgeSpace, b.key = k :=
    ⟨b, List.mem_flatMap.2 ⟨t, ht, hb⟩, he⟩
  rw [Service.watchedKeys, ruleKeys_eq t o reference edgeSpace] at hk
  simp only [List.mem_cons, List.not_mem_nil, or_false] at hk
  rcases hk with rfl | rfl | rfl
  · refine of_bundle ?_ (isSubsetsOf_plannedSubsets t o reference edgeSpace).key
    simp [Bundle.objects, plannedSubsets]
  · refine of_bundle ?_ rfl
    simp [Bundle.objects, plannedRules]
  · refine of_bundle ?_ rfl
    simp [Bundle.objects, plannedIngress]

theorem bounded_keepsOrder (spec : RouteSpec) (start : MemoryStore) (o : Owner)
    (reference : Option OwnerReference) (edgeSpace : String) :
    Bounded alone (KeepsOrder spec.services start) o
      (identities (spec.planned o reference edgeSpace))
      (fun w => AtRest spec.services [] start w.store)
      (fun k => ∀ b ∈ spec.planned o reference edgeSpace, b.key ≠ k) where
  toAdmits := admits_keepsOrder spec.services start
  kept h _ hI := h.store ▸ hI
  within hw _ hk b hb he :=
    not_staleAt_key hw.sound (spec.planned_writable o reference edgeSpace b hb) hb (he ▸ hk)
  deletes {w w' r live} _ hI hD hm := by
    have hsame (t : Service) (ht : t ∈ spec.services) (k : StoreKey) (hk : k ∈ t.watchedKeys) :
        w'.store.find k = w.store.find k := by
      obtain ⟨b, hb, rfl⟩ := exists_planned_of_watched ht hk o reference edgeSpace
      refine (Sweepable.find_delete hm b.key).resolve_right ?_
      exact fun ⟨he, _⟩ => hD b hb he
    have hI' := hI.of_unwatched nofun hsame
    exact ⟨fun _ => hI'.oneAtATime, hI'⟩

theorem yields_bringIntoPlace_inOrder {r : Route} {edgeSpace : String} {o : Owner} {w : Rehearsal}
    {start : MemoryStore} (hv : r.spec.validate = .ok ()) (hw : w.Intact)
    (hI : AtRest r.spec.services r.spec.services start w.store) :
    alone.Yields (KeepsOrder r.spec.services start) (bringIntoPlace edgeSpace o r)
      (fun _ w' => AtRest r.spec.services [] start w'.store) w := by
  rw [bringIntoPlace_eq (produced_eq_ok hv o r.ownerReference? edgeSpace)]
  have hd : r.spec.services.Nodup := (RouteSpec.validate_eq_ok_iff.1 hv).2.of_map _
  refine Setting.Yields.bind
    (yields_writeServices (separate_of_validate hv) (fun _ => id) hd hw hI) ?_
  intro _ w₁ ⟨hw₁, hI₁⟩
  have hsweep := (bounded_keepsOrder r.spec start o r.ownerReference? edgeSpace).yields_sweep hw₁
    hI₁
  exact hsweep.bind fun _ w₂ ⟨_, hI₂⟩ => Setting.yields_pure fun w₃ h₃ => h₃.store ▸ hI₂

theorem yields_passOver_held {r : Route} {edgeSpace : String} {o : Owner} {w : Rehearsal}
    {start : MemoryStore} (hv : r.spec.validate = .ok ()) (hlive : r.isLeaving = false)
    (hheld : r.metadata.isHeldBy edgeCleanup = true) (hw : w.Intact)
    (hI : AtRest r.spec.services r.spec.services start w.store) :
    alone.Yields (KeepsOrder r.spec.services start) (passOver edgeSpace o r)
      (fun _ w' => AtRest r.spec.services [] start w'.store) w := by
  rw [passOver_of_held edgeSpace o hlive hheld]
  have hadm := admits_keepsOrder r.spec.services start
  have hbring : alone.Yields (KeepsOrder r.spec.services start) (bringIntoPlace edgeSpace o r)
      (fun _ w' => AtRest r.spec.services [] start w'.store) w :=
    yields_bringIntoPlace_inOrder hv hw hI
  refine (hadm.ensures_intact hbring hw).attempt.bind fun result w₁ ⟨hI₁, hw₁⟩ => ?_
  refine yields_conclude (I := fun w => AtRest r.spec.services [] start w.store) hadm
    (fun h _ hI => h.store ▸ hI) (fun hc ha hi => ?_) r hw₁ fun he => hI₁ () he
  have hstore := (keeps_of_isTelling hc ha hi).1
  exact ⟨fun hone => hstore ▸ hone, fun hI => hstore ▸ hI⟩

section Reconcile

open Leaving

variable {space name edgeSpace : String} {m : ObjectMeta} {w : Rehearsal} {r : Route}
  (hs : m.space = some space) (hn : m.anyName = name) (hr : w.findRoute space name = some r)
  (hw : w.Intact) (hfine : Fine r.spec.services w.store)
include hs hn hr hw hfine

/-- A pass over a leaving route takes the rules away before the destination rules. -/
theorem yields_reconcile_leaving (hlive : r.isLeaving = true) (hspace : IsDnsName space)
    (hname : IsDnsName name)
    (hmarked : ∀ t ∈ r.spec.services, ∀ k ∈ t.ruleKeys, ∀ live, w.store.find k = some live →
      Owner.owns ⟨name, space, r.uidOrEmpty⟩ live.labels = true) :
    alone.Yields (fun _ w w' => Fine r.spec.services w.store → Fine r.spec.services w'.store)
      (reconcile edgeSpace m) (fun _ w' => Fine r.spec.services w'.store) w := by
  refine yields_reconcile_of_found (admits_alone fun _ _ _ _ h hf => h.store ▸ hf) hs hn hr hw
    fun w₁ h₁ => ?_
  cases hh : r.metadata.isHeldBy edgeCleanup with
  | false =>
    rw [passOver_of_unheld_leaving edgeSpace _ hlive hh]
    exact Setting.yields_pure fun w₂ h₂ => h₂.store ▸ h₁.store ▸ hfine
  | true =>
    rw [passOver_of_leaving edgeSpace _ hlive hh]
    have hletGo : alone.Yields _ (letGo ⟨name, space, r.uidOrEmpty⟩ r) _ w₁ :=
      yields_letGo hspace hname (h₁.intact hw) fun t ht k hk live hl =>
        hmarked t ht k hk live (h₁.store ▸ hl)
    exact hletGo.bind fun _ w₂ hf => Setting.yields_pure fun w₃ h₃ => h₃.store ▸ hf

theorem yields_reconcile_staying (hlive : r.isLeaving = false) (hv : r.spec.validate = .ok ()) :
    alone.Yields (KeepsOrder r.spec.services w.store) (reconcile edgeSpace m)
      (fun _ w' => Fine r.spec.services w'.store) w := by
  refine yields_reconcile_of_found (admits_keepsOrder _ _) hs hn hr hw fun w₁ h₁ => ?_
  cases hh : r.metadata.isHeldBy edgeCleanup with
  | false =>
    rw [passOver_of_unheld edgeSpace _ hlive hh]
    have hstoreless : Pass.Uses Call.Storeless (do
        Pass.checkpoint "add finalizer"
        Pass.hold space name edgeCleanup
        pure (Action.requeue 0)) := by
      refine (Pass.uses_checkpoint (fun _ h => nomatch h) _).bind fun _ => ?_
      exact Pass.Uses.bind (Program.uses_ask fun _ h => nomatch h) fun _ => Pass.uses_pure _
    have hkept := ensures_of_storeless (G := KeepsOrder r.spec.services w.store)
      (fun _ _ _ he hone => he ▸ hone) hstoreless (h₁.intact hw)
    refine hkept.mono fun _ w₂ he _ _ => ?_
    dsimp only
    rw [he, h₁.store]
    exact hfine
  | true =>
    have hrest : AtRest r.spec.services r.spec.services w.store w₁.store :=
      ⟨fun t ht => h₁.store ▸ hfine t ht, fun t _ => by rw [h₁.store]⟩
    exact (yields_passOver_held hv hlive hh (h₁.intact hw) hrest).mono fun _ _ h => h.fine

end Reconcile

/-- If nothing dangles before a pass, then at every moment of the pass subsets dangle for at most
one service, and only new ones whose destination rule is not written yet. Nothing dangles after a
pass that went well, nor at any moment of a pass over a leaving route. -/
theorem dangling_one_at_a_time {space name edgeSpace : String} {m : ObjectMeta} {w : Rehearsal}
    {r : Route} (hs : m.space = some space) (hn : m.anyName = name) (hw : w.store.Reachable)
    (hraces : w.races = []) (hr : w.findRoute space name = some r)
    (hv : r.spec.validate = .ok ())
    (hfine : ∀ s ∈ r.spec.services, ∀ x, ¬ s.Dangling w.store x)
    (hleaving : r.isLeaving = true → IsDnsName space ∧ IsDnsName name ∧
      ∀ s ∈ r.spec.services, ∀ k ∈ s.ruleKeys, ∀ live, w.store.find k = some live →
        Owner.owns ⟨name, space, r.uidOrEmpty⟩ live.labels = true)
    {w' : Rehearsal} {p : Program (Except Failure Action)}
    (h : alone.Reaches (w, reconcile edgeSpace m) (w', p)) :
    (∀ s ∈ r.spec.services, ∀ x, s.Dangling w'.store x → x ∈ s.subsetNames ∧
        w'.store.find s.subsetKey = w.store.find s.subsetKey ∧
        ∀ t ∈ r.spec.services, ∀ y, t.Dangling w'.store y → t = s) ∧
      ((∃ a, p = .done (.ok a)) ∨ r.isLeaving = true →
        ∀ s ∈ r.spec.services, ∀ x, ¬ s.Dangling w'.store x) := by
  have hi : w.Intact := ⟨hw.sound, hraces⟩
  have hrely : ∀ w₁ w₂, alone.rely w₁ w₂ → w₂.store = w₁.store := fun _ _ h => Alike.store h
  cases hlive : r.isLeaving with
  | true =>
    obtain ⟨hspace, hname, hmarked⟩ := hleaving hlive
    have hpass : alone.Yields _ (reconcile edgeSpace m) _ w :=
      yields_reconcile_leaving hs hn hr hi hfine hlive hspace hname hmarked
    have hend : ∀ s ∈ r.spec.services, ∀ x, ¬ s.Dangling w'.store x :=
      hpass.along (F := fun w w' : Rehearsal =>
          Fine r.spec.services w.store → Fine r.spec.services w'.store)
        (fun _ hf => hf) (fun _ _ _ h h' hf => h' (h hf))
        (fun _ _ h hf => hrely _ _ h ▸ hf) (fun _ _ _ h => h) h hfine
    exact ⟨fun s hs x hx => absurd hx (hend s hs x), fun _ => hend⟩
  | false =>
    have hpass : alone.Yields _ (reconcile edgeSpace m) _ w :=
      yields_reconcile_staying hs hn hr hi hfine hlive hv
    have hone : OneAtATime r.spec.services w.store w.store :=
      fun s hs x hx => absurd hx (hfine s hs x)
    refine ⟨hpass.along (F := KeepsOrder r.spec.services w.store .now) (fun _ h => h)
      (fun _ _ _ h h' hf => h' (h hf)) (fun _ _ h hf => hrely _ _ h ▸ hf) (fun _ _ _ h => h) h
      hone, ?_⟩
    rintro (⟨a, rfl⟩ | hfalse)
    · exact hpass.reaches h w' (Alike.refl w') a rfl
    · cases hfalse

def leaderlessCluster : Rehearsal :=
  { Custody.heldCluster with
    faults := [⟨"create", "DestinationRule", "", 1,
      MemoryStore.apiFailure 500 "InternalError" "no leader"⟩] }

def leaderlessPass : Except Failure Action × Rehearsal :=
  Rehearsal.run (reconcile "istio-system" heldShop.metadata) leaderlessCluster

/-- The rules of the first pass are written, and the destination rule is not. -/
theorem leaderlessPass_leaves_dangling :
    heldShop.spec.validate = .ok () ∧ leaderlessCluster.store.objects = [] ∧
      leaderlessCluster.findRoute "a" "rollout" = some heldShop ∧
      ∃ s ∈ heldShop.spec.services, s.Dangling leaderlessPass.2.store "r1" :=
  ⟨rfl, rfl, rfl, by decide +kernel⟩

theorem leaderlessPass_dangling_new :
    heldShop.metadata.space = some "a" ∧ heldShop.metadata.anyName = "rollout" ∧
    leaderlessCluster.store.Reachable ∧ leaderlessCluster.races = [] ∧
    leaderlessCluster.findRoute "a" "rollout" = some heldShop ∧
    heldShop.spec.validate = .ok () ∧
    (∀ s ∈ heldShop.spec.services, ∀ x, ¬ s.Dangling leaderlessCluster.store x) ∧
    heldShop.isLeaving = false ∧
    ∀ s ∈ heldShop.spec.services, ∀ x, s.Dangling leaderlessPass.2.store x →
      x ∈ s.subsetNames ∧ leaderlessPass.2.store.find s.subsetKey = none ∧
        ∀ t ∈ heldShop.spec.services, ∀ y, t.Dangling leaderlessPass.2.store y → t = s := by
  have hrules : NoRules heldShop.spec.services leaderlessCluster.store :=
    fun _ _ _ _ => rfl
  have hstaying : heldShop.isLeaving = false := rfl
  have hrun := alone_reaches_run (reconcile "istio-system" heldShop.metadata) leaderlessCluster
  have hone := (dangling_one_at_a_time (r := heldShop) rfl rfl .empty rfl rfl rfl hrules.fine
    (fun h => nomatch hstaying.symm.trans h) hrun).1
  exact ⟨rfl, rfl, .empty, rfl, rfl, rfl, hrules.fine, hstaying, hone⟩

end MeshRollout
