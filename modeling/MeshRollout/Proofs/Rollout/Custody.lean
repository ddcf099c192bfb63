import MeshRollout.Proofs.Rollout.Parts
import MeshRollout.Proofs.Rollout.Sweep

/-!
No object stays behind. Users create, change and delete a route while passes over it write objects,
fail and are stopped; as long as an object carries the mark of the route, the route is there and is
held. What carries this is that nothing is written before the hold was seen, and that the hold is
given up only after a whole sweep, during which nobody can add a marked object.
-/
set_option autoImplicit false

namespace MeshRollout

namespace Custody

open Rehearsal Sweep

def Held (o : Owner) (w : Rehearsal) : Prop :=
  ∃ r, w.findRoute o.space o.name = some r ∧ r.metadata.isHeldBy edgeCleanup = true

inductive Meanwhile (o : Owner) : Rehearsal → Rehearsal → Prop where
  /-- Neither objects nor the route: other routes, the luck of calls, the wish to stop the pass. -/
  | elsewhere {w w' : Rehearsal} (hs : w'.store = w.store) (hc : w'.races = w.races)
      (hr : w'.findRoute o.space o.name = w.findRoute o.space o.name) : Meanwhile o w w'
  | create {w : Rehearsal} (r : Route) (hr : w.findRoute o.space o.name = none)
      (hs : r.spaceOrEmpty = o.space) (hn : r.name = o.name) : Meanwhile o w (w.setRoute r)
  /-- Users edit the route or ask for its deletion; its hold is none of their business. -/
  | edit {w : Rehearsal} (f : Route → Route)
      (hf : ∀ r, (f r).metadata.isHeldBy edgeCleanup = r.metadata.isHeldBy edgeCleanup) :
      Meanwhile o w (w.editRoute o.space o.name f)
  | vanish {w : Rehearsal} {r : Route} (hr : w.findRoute o.space o.name = some r)
      (hg : isGone r = true) : Meanwhile o w (w.dropRoute o.space o.name)
  /-- Somebody else writes or deletes objects, but puts the mark of the route nowhere anew. -/
  | others {w : Rehearsal} (c : StoreCall)
      (hc : ∀ x k, c.object? = some x → c.target? = some k → o.owns x.labels = true →
        ∃ live, w.store.find k = some live ∧ o.owns live.labels = true) :
      Meanwhile o w { w with store := (w.store.answer c).2 }

/-- A cluster, and the pass over one route that is under way in it. -/
structure Situation where
  world : Rehearsal
  pass : Option (Program (Except Failure Action))

/-- Passes over the route do not overlap. -/
inductive Step (o : Owner) : Situation → Situation → Prop where
  | meanwhile {w w' : Rehearsal} (p : Option (Program (Except Failure Action)))
      (h : Meanwhile o w w') : Step o ⟨w, p⟩ ⟨w', p⟩
  | start {w : Rehearsal} (edgeSpace : String) {m : ObjectMeta} (hs : m.space = some o.space)
      (hn : m.anyName = o.name) : Step o ⟨w, none⟩ ⟨w, some (reconcile edgeSpace m)⟩
  | call {w w' : Rehearsal} {c : Call} {a : c.Answer}
      (next : c.Answer → Program (Except Failure Action)) (h : Answers c w a w') :
      Step o ⟨w, some (.call c next)⟩ ⟨w', some (next a)⟩
  | finish {w : Rehearsal} (x : Except Failure Action) : Step o ⟨w, some (.done x)⟩ ⟨w, none⟩
  /-- The controller dies in the middle of a pass. -/
  | crash {w : Rehearsal} (p : Program (Except Failure Action)) : Step o ⟨w, some p⟩ ⟨w, none⟩

def Reaches (o : Owner) : Situation → Situation → Prop :=
  Relation.ReflTransGen (Step o)

/-- An object of a produced kind with the mark is there only while the route is held. -/
def Guarded (o : Owner) (w : Rehearsal) : Prop :=
  ∀ k, StaleAt o [] w.store k → Held o w

structure Respects (o : Owner) (w w' : Rehearsal) : Prop where
  intact : w.Intact → w'.Intact
  held : Held o w → Held o w'
  unmarked : w.Intact → ∀ k, StaleAt o [] w'.store k → StaleAt o [] w.store k

variable {o : Owner} {w w' : Rehearsal}

namespace Respects

theorem refl (o : Owner) (w : Rehearsal) : Respects o w w :=
  ⟨id, id, fun _ _ h => h⟩

theorem trans {w'' : Rehearsal} (h : Respects o w w') (h' : Respects o w' w'') :
    Respects o w w'' where
  intact hw := h'.intact (h.intact hw)
  held hh := h'.held (h.held hh)
  unmarked hw k hk := h.unmarked hw k (h'.unmarked (h.intact hw) k hk)

theorem guarded (h : Respects o w w') (hw : w.Intact) (hg : Guarded o w) : Guarded o w' :=
  fun k hk => h.held (hg k (h.unmarked hw k hk))

end Respects

theorem Held.of_findRoute (hr : w'.findRoute o.space o.name = w.findRoute o.space o.name)
    (h : Held o w) : Held o w' := by
  obtain ⟨r, hf, hh⟩ := h
  exact ⟨r, hr.trans hf, hh⟩

theorem respects_alike (h : Alike w w') : Respects o w w' where
  intact := h.intact
  held := Held.of_findRoute (h.findRoute _ _)
  unmarked _ _ hk := h.store ▸ hk

/-- Marked objects do not get more where the mark is put nowhere anew. -/
theorem staleAt_of_answer {s : MemoryStore} {c : StoreCall}
    (hc : ∀ x k, c.object? = some x → c.target? = some k → o.owns x.labels = true →
      ∃ live, s.find k = some live ∧ o.owns live.labels = true) {k : StoreKey}
    (h : StaleAt o [] (s.answer c).2 k) : StaleAt o [] s k := by
  rcases MemoryStore.find_answer s c k with hf | ⟨ht, hf | ⟨x, live, hx, hl, hcar⟩⟩
  · exact h.of_fewer (.inl hf)
  · exact h.of_fewer (.inr hf)
  · obtain ⟨r, hr, hk, live', hl', hstale⟩ := h
    cases hl.symm.trans hl'
    have howns : o.owns live.labels = true := (Bool.and_eq_true_iff.1 hstale).1
    obtain ⟨found, hfound, hmarked⟩ := hc x k hx ht (hcar.labels ▸ howns)
    exact ⟨r, hr, hk, found, hfound, by simp [isStale, hmarked]⟩

theorem not_held_of_isGone {r : Route} (h : isGone r = true) :
    r.metadata.isHeldBy edgeCleanup = false := by
  have he := (Bool.and_eq_true_iff.1 h).2
  rw [List.isEmpty_iff] at he
  rw [ObjectMeta.isHeldBy, he]
  rfl

theorem Meanwhile.respects (h : Meanwhile o w w') : Respects o w w' := by
  cases h with
  | elsewhere hs hc hr =>
    exact ⟨fun hw => ⟨hs ▸ hw.sound, hc.trans hw.races⟩, Held.of_findRoute hr,
      fun _ _ hk => hs ▸ hk⟩
  | create r hr hs hn =>
    refine ⟨fun hw => ⟨hw.sound, hw.races⟩, ?_, fun _ _ hk => hk⟩
    rintro ⟨r', hf, -⟩
    cases hr.symm.trans hf
  | edit f hf =>
    refine ⟨fun hw => ⟨hw.sound, hw.races⟩, ?_, fun _ _ hk => hk⟩
    rintro ⟨r, hr, hh⟩
    refine ⟨f r, ?_, (hf r).trans hh⟩
    rw [findRoute_editRoute, if_pos rfl, hr]
    rfl
  | vanish hr hg =>
    refine ⟨fun hw => ⟨hw.sound, hw.races⟩, ?_, fun _ _ hk => hk⟩
    rintro ⟨r', hf, hh⟩
    cases hr.symm.trans hf
    rw [not_held_of_isGone hg] at hh
    cases hh
  | others c hc =>
    exact ⟨fun hw => ⟨hw.sound.answer c, hw.races⟩, Held.of_findRoute rfl,
      fun _ _ hk => staleAt_of_answer hc hk⟩

def setting (o : Owner) : Setting Rehearsal where
  answers := Answers
  rely := Respects o
  rely_refl := Respects.refl o
  rely_trans := Respects.trans

def Guards (o : Owner) (_ : Call) (w w' : Rehearsal) : Prop :=
  w.Intact → Guarded o w → Guarded o w'

theorem admits (o : Owner) : Admits (setting o) (Guards o) where
  answers h := h
  alike := respects_alike
  intact h := h.intact
  reads _ h hw hg := (respects_alike h).guarded hw hg

/-- The mark does not depend on which of the routes of one name wrote it. -/
theorem sweepable (hspace : IsDnsName o.space) (hname : IsDnsName o.name) (uid : String) :
    Sweepable (setting o) (Guards o) { o with uid } [] (fun _ => True) (fun _ _ => True) where
  toAdmits := admits o
  name := hname
  space := hspace
  shrinks h hw hk := h.unmarked hw _ hk
  open_of_stale _ _ := trivial
  open_of_rely _ _ := trivial
  open_of_fewer _ _ := trivial
  deletes {w w' r live} _ _ hm hw hg := by
    intro k hk
    have hk' : StaleAt o [] w.store k :=
      hk.of_fewer ((Sweepable.find_delete hm k).imp id And.right)
    exact Held.of_findRoute (by rw [findRoute, hm.routes, findRoute]) (hg k hk')

theorem isHeldBy_editFinalizers (f g : String) (r : Route)
    (h : r.metadata.isHeldBy f = true) :
    (editFinalizers (· ++ [g]) r).metadata.isHeldBy f = true := by
  simp only [ObjectMeta.isHeldBy, editFinalizers, Option.getD_some, List.contains_eq_mem,
    decide_eq_true_eq, List.mem_append] at h ⊢
  exact .inl h

/-- Only a release can end the hold. -/
theorem Held.answered {c : Call} {a : c.Answer} (h : Held o w) (hc : c.isRelease = false)
    (ha : Answers c w a w') (hw : w.Intact) : Held o w' := by
  cases c with
  | store c => exact h.of_findRoute (by rw [findRoute, (ha.made hw).routes, findRoute])
  | route c =>
    obtain ⟨r, hr, hh⟩ := h
    cases c with
    | get space name => exact ⟨r, ((ha.alike rfl hw.races).findRoute _ _).trans hr, hh⟩
    | hold space name finalizer =>
      have hf := findRoute_hold space name finalizer w o.space o.name
      rw [hr] at hf
      rw [ha.world]
      rcases hf with hf | hf
      · exact ⟨r, hf, hh⟩
      · exact ⟨_, hf, isHeldBy_editFinalizers _ _ r hh⟩
    | release space name finalizer => cases hc
    | patchStatus space name s =>
      have hf := findRoute_patchStatus space name s w o.space o.name
      rw [hr] at hf
      rw [ha.world]
      rcases hf with hf | hf
      · exact ⟨r, hf, hh⟩
      · exact ⟨_, hf, hh⟩
  | notify message => exact h.of_findRoute ((ha.alike rfl hw.races).findRoute _ _)
  | cancelled => exact h.of_findRoute ((ha.alike rfl hw.races).findRoute _ _)
  | now => exact h.of_findRoute ((ha.alike rfl hw.races).findRoute _ _)
  | fetch => exact h.of_findRoute ((ha.alike rfl hw.races).findRoute _ _)

/-- Where the route is held, a pass that never releases it may do what it likes. -/
theorem yields_of_neverReleases {α : Type} {p : Pass α} (hp : p.NeverReleases) (hw : w.Intact)
    (h : Held o w) : (setting o).Yields (Guards o) p (fun _ _ => True) w := by
  have he : (setting o).Ensures (Guards o) (α := Except Failure α) p
      (fun _ w' => w'.Intact ∧ Held o w') w := by
    refine Setting.ensures_of_uses (P := fun w => w.Intact ∧ Held o w) ?_ ?_ hp ⟨hw, h⟩
    · exact fun w₁ w₂ hr hP => ⟨hr.intact hP.1, hr.held hP.2⟩
    · intro c w₁ a w₂ hc ha hP
      have hheld := hP.2.answered hc ha hP.1
      exact ⟨⟨ha.intact hP.1, hheld⟩, fun _ _ _ _ => hheld⟩
  exact he.mono fun _ _ _ _ _ => trivial

/-- The hold is given up when nothing with the mark is left. -/
theorem yields_letGo (hspace : IsDnsName o.space) (hname : IsDnsName o.name) (uid : String)
    (r : Route) (hw : w.Intact) :
    (setting o).Yields (Guards o) (Reconciliation.letGo { o with uid } r) (fun _ _ => True) w := by
  refine Setting.Yields.bind ((sweepable hspace hname uid).yields_sweep hw fun _ _ => trivial) ?_
  intro deleted w₁ ⟨hw₁, hnone⟩
  refine Setting.ensures_ask fun w₂ h₂ a w₃ ha => ⟨fun _ _ k hk => ?_, fun _ _ _ _ => trivial⟩
  have hk₂ : StaleAt o [] w₂.store k := (Answers.of_route ha).1 ▸ hk
  exact absurd (h₂.unmarked hw₁ k hk₂) (hnone k)

theorem yields_passOver (hspace : IsDnsName o.space) (hname : IsDnsName o.name)
    (edgeSpace uid : String) (r : Route) (hw : w.Intact)
    (hheld : r.metadata.isHeldBy edgeCleanup = true → Held o w) :
    (setting o).Yields (Guards o) (Reconciliation.passOver edgeSpace { o with uid } r)
      (fun _ _ => True) w := by
  cases hl : r.isLeaving with
  | true =>
    cases hh : r.metadata.isHeldBy edgeCleanup with
    | true =>
      rw [Reconciliation.passOver_of_leaving edgeSpace _ hl hh]
      exact (yields_letGo hspace hname uid r hw).bind fun _ _ _ =>
        Setting.yields_pure fun _ _ => trivial
    | false =>
      rw [Reconciliation.passOver_of_unheld_leaving edgeSpace _ hl hh]
      exact Setting.yields_pure fun _ _ => trivial
  | false =>
    cases hh : r.metadata.isHeldBy edgeCleanup with
    | true => exact yields_of_neverReleases (passOver_neverReleases edgeSpace _ hl) hw (hheld hh)
    | false =>
      rw [Reconciliation.passOver_of_unheld edgeSpace _ hl hh]
      refine Setting.Yields.bind ((admits o).yields_checkpoint hw _) fun _ w₁ h₁ => ?_
      have hhold : (setting o).Yields (Guards o) (Pass.hold o.space o.name edgeCleanup)
          (fun _ _ => True) w₁ := by
        refine Setting.ensures_ask fun w₂ h₂ a w₃ ha =>
          ⟨fun hw₂ hg k hk => ?_, fun _ _ _ _ => trivial⟩
        have hk₂ : StaleAt o [] w₂.store k := (Answers.of_route ha).1 ▸ hk
        exact (hg k hk₂).answered rfl ha hw₂
      exact hhold.bind fun _ _ _ => Setting.yields_pure fun _ _ => trivial

/-- A pass over the route never leaves a marked object without the hold. -/
theorem yields_reconcile (hspace : IsDnsName o.space) (hname : IsDnsName o.name)
    (edgeSpace : String) {m : ObjectMeta} (hs : m.space = some o.space) (hn : m.anyName = o.name)
    (hw : w.Intact) :
    (setting o).Yields (Guards o) (reconcile edgeSpace m) (fun _ _ => True) w := by
  simp only [reconcile, hs, hn]
  refine Setting.Yields.bind ((admits o).yields_checkpoint hw _) fun _ w₁ h₁ => ?_
  have hw₁ := h₁.intact hw
  have hget : (setting o).Yields (Guards o) (Pass.getRoute o.space o.name)
      (fun found w' => w'.Intact ∧
        ∀ r, found = some r → r.metadata.isHeldBy edgeCleanup = true → Held o w') w₁ := by
    refine (admits o).yields_getRoute hw₁ fun w₂ w₃ h₂ h₃ => ?_
    exact ⟨h₃.intact (h₂.intact hw₁), fun r hr hh => h₃.held ⟨r, hr, hh⟩⟩
  refine hget.bind fun found w₂ ⟨hw₂, hheld⟩ => ?_
  cases found with
  | none => exact Setting.yields_pure fun _ _ => trivial
  | some r => exact yields_passOver hspace hname edgeSpace r.uidOrEmpty r hw₂ (hheld r rfl)

/-- What is kept along every run. The pass under way still does what it ensured at its start. -/
structure Kept (o : Owner) (x : Situation) : Prop where
  intact : x.world.Intact
  guarded : Guarded o x.world
  pass : ∀ p, x.pass = some p → (setting o).Ensures (Guards o) p (fun _ _ => True) x.world

theorem Kept.step {x y : Situation} (hspace : IsDnsName o.space) (hname : IsDnsName o.name)
    (h : Kept o x) (hs : Step o x y) : Kept o y := by
  obtain ⟨hi, hg, hp⟩ := h
  cases hs with
  | meanwhile p hm =>
    have hr := hm.respects
    exact ⟨hr.intact hi, hr.guarded hi hg, fun q hq => (hp q hq).of_rely hr⟩
  | start edgeSpace hs hn =>
    refine ⟨hi, hg, fun q hq => ?_⟩
    cases hq
    exact Setting.Ensures.mono (yields_reconcile hspace hname edgeSpace hs hn hi)
      fun _ _ _ => trivial
  | call next ha =>
    have he := hp _ rfl _ (Respects.refl o _) _ _ ha
    refine ⟨ha.intact hi, he.1 hi hg, fun q hq => ?_⟩
    cases hq
    exact he.2
  | finish r =>
    exact ⟨hi, hg, fun q hq => by cases hq⟩
  | crash p =>
    exact ⟨hi, hg, fun q hq => by cases hq⟩

theorem Kept.reaches {x y : Situation} (hspace : IsDnsName o.space) (hname : IsDnsName o.name)
    (h : Kept o x) (hs : Reaches o x y) : Kept o y := by
  induction hs with
  | refl => exact h
  | tail _ hlast ih => exact ih.step hspace hname hlast

/-- Whatever happens, in every order and however calls fail: while an object of a produced kind
carries the mark of a route, in any namespace, the route is there and is held. -/
theorem marked_only_while_held {o : Owner} (hspace : IsDnsName o.space) (hname : IsDnsName o.name)
    {w : Rehearsal} (hstore : w.store.Reachable) (hraces : w.races = [])
    (hclean : ∀ p ∈ w.store.objects, o.owns p.2.labels = false)
    {x : Situation} (hx : Reaches o ⟨w, none⟩ x) :
    ∀ p ∈ x.world.store.objects,
      (∃ r ∈ producedKinds, p.1.resource = StoreKey.resourceText r) →
      o.owns p.2.labels = true →
      ∃ r, x.world.findRoute o.space o.name = some r ∧
        r.metadata.isHeldBy edgeCleanup = true := by
  have hstart : Kept o ⟨w, none⟩ := by
    refine ⟨⟨hstore.sound, hraces⟩, fun k hk => ?_, fun q hq => by cases hq⟩
    obtain ⟨r, -, -, live, hl, hstale⟩ := hk
    have howns : o.owns live.labels = true := (Bool.and_eq_true_iff.1 hstale).1
    rw [hclean _ (MemoryStore.mem_of_find hl)] at howns
    cases howns
  have hend := hstart.reaches hspace hname hx
  rintro ⟨k, live⟩ hp ⟨r, hr, hk⟩ howns
  have hf := hend.intact.sound.find_of_mem hp
  exact hend.guarded k ⟨r, hr, hk, live, hf, by simp [isStale, howns]⟩

def Situation.goOn : Nat → Situation → Situation
  | n + 1, ⟨w, some (.call c next)⟩ => goOn n ⟨(w.answer c).2, some (next (w.answer c).1)⟩
  | _, x => x

theorem reaches_goOn (o : Owner) (n : Nat) (x : Situation) : Reaches o x (x.goOn n) := by
  induction n generalizing x with
  | zero => exact .refl
  | succ n ih =>
    obtain ⟨w, _ | ⟨r | ⟨c, next⟩⟩⟩ := x
    · exact .refl
    · exact .refl
    · exact .head (.call next .served) (ih ⟨(w.answer c).2, some (next (w.answer c).1)⟩)

def heldCluster : Rehearsal where
  routes := [(("a", "rollout"), heldShop)]
  clock := ⟨0, 0⟩

def firstWrite : Situation :=
  Situation.goOn 6 ⟨heldCluster, some (reconcile "istio-system" heldShop.metadata)⟩

theorem firstWrite_marked_while_held :
    IsDnsName heldShop.owner.space ∧ IsDnsName heldShop.owner.name ∧
    heldCluster.store.Reachable ∧ heldCluster.races = [] ∧
    (∀ p ∈ heldCluster.store.objects, heldShop.owner.owns p.2.labels = false) ∧
    Reaches heldShop.owner ⟨heldCluster, none⟩ firstWrite ∧
    (firstWrite.world.store.objects.map fun p => heldShop.owner.owns p.2.labels) = [true] ∧
    ∀ p ∈ firstWrite.world.store.objects,
      (∃ r ∈ producedKinds, p.1.resource = StoreKey.resourceText r) →
      heldShop.owner.owns p.2.labels = true →
      ∃ r, firstWrite.world.findRoute heldShop.owner.space heldShop.owner.name = some r ∧
        r.metadata.isHeldBy edgeCleanup = true := by
  have hclean : ∀ p ∈ heldCluster.store.objects, heldShop.owner.owns p.2.labels = false := by
    intro p hp
    cases hp
  have hrun : Reaches heldShop.owner ⟨heldCluster, none⟩ firstWrite :=
    .head (.start "istio-system" rfl rfl) (reaches_goOn _ 6 _)
  exact ⟨by decide, by decide, .empty, rfl, hclean, hrun, by decide +kernel,
    marked_only_while_held (by decide) (by decide) .empty rfl hclean hrun⟩

end Custody

end MeshRollout
