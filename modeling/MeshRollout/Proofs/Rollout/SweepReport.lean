import Mathlib.Data.List.Pairwise
import MeshRollout.Proofs.Rollout.Stopping

/-!
What a sweep removes and what it reports, wherever it is stopped and whichever deletions are
refused. Everything that it removes is stale, all other objects stay as they are, and a sweep that
ends well has removed all that is stale and reports it once, in order.
-/
set_option autoImplicit false

namespace MeshRollout

open StoreKey Rehearsal MemoryStore

namespace Sweep

structure Stale (o : Owner) (keep : List Identity) (s : MemoryStore) (r : Resource) (x : Object) :
    Prop where
  kind : r ∈ producedKinds
  live : s.find (.ofObject r x) = some x
  name : x.labels.get Owner.nameLabel = some o.name
  space : x.labels.get Owner.spaceLabel = some o.space
  unkept : Identity.of r x ∉ keep

def Precedes (a b : Resource × Object) : Prop :=
  producedKinds.idxOf a.1 < producedKinds.idxOf b.1 ∨
    a.1 = b.1 ∧ (a.2.space < b.2.space ∨ a.2.space = b.2.space ∧ a.2.name < b.2.name)

def keyOf (a : Resource × Object) : StoreKey :=
  .ofObject a.1 a.2

def report (a : Resource × Object) : String :=
  a.1.kind ++ " " ++ a.2.space ++ "/" ++ a.2.name

def staleList (o : Owner) (keep : List Identity) (s : MemoryStore) : List (Resource × Object) :=
  producedKinds.flatMap fun r => (s.objects.filter (isSwept o keep r)).map fun p => (r, p.2)

variable {o : Owner} {keep : List Identity} {s s' : MemoryStore} {r : Resource} {x : Object}

/-- Keys of one kind are in the order of namespaces and names. -/
theorem before_of_resource_eq {y : Object} (h : (keyOf (r, x)).before (keyOf (r, y)) = true) :
    x.space < y.space ∨ x.space = y.space ∧ x.name < y.name := by
  rcases before_iff.1 h with hlt | ⟨-, h⟩
  · exact absurd hlt (String.lt_irrefl _)
  · exact h

theorem ne_of_precedes {a b : Resource × Object} (h : Precedes a b) : a ≠ b := by
  rintro rfl
  rcases h with h | ⟨-, h | ⟨-, h⟩⟩
  · exact Nat.lt_irrefl _ h
  · exact String.lt_irrefl _ h
  · exact String.lt_irrefl _ h

theorem isStale_iff :
    isStale o keep r x = true ↔
      x.labels.get Owner.nameLabel = some o.name ∧ x.labels.get Owner.spaceLabel = some o.space ∧
        Identity.of r x ∉ keep := by
  simp [isStale, Owner.owns, and_assoc]

theorem isSwept_iff (hname : IsDnsName o.name) (hspace : IsDnsName o.space)
    {p : StoreKey × Object} :
    isSwept o keep r p = true ↔ p.1.resource = resourceText r ∧ isStale o keep r p.2 = true := by
  rw [isSwept, Owner.selected_selector hname hspace, Bool.and_eq_true, beq_iff_eq, isStale,
    ← Bool.and_assoc, Bool.and_self]

theorem keyOf_of_isSwept (hs : s.Sound) {p : StoreKey × Object} (hp : p ∈ s.objects)
    (h : isSwept o keep r p = true) : keyOf (r, p.2) = p.1 :=
  hs.ofObject_eq (eq_of_beq (Bool.and_eq_true_iff.1 h).1) (hs.find_of_mem hp)

theorem mem_staleList_iff (hs : s.Sound) (hname : IsDnsName o.name) (hspace : IsDnsName o.space) :
    (r, x) ∈ staleList o keep s ↔ Stale o keep s r x := by
  simp only [staleList, List.mem_flatMap, List.mem_map, List.mem_filter, Prod.mk.injEq]
  constructor
  · rintro ⟨r', hr', p, ⟨hp, hswept⟩, rfl, rfl⟩
    obtain ⟨hn, hsp, hk⟩ := isStale_iff.1 ((isSwept_iff hname hspace).1 hswept).2
    have hlive : s.find (keyOf (r', p.2)) = some p.2 := by
      rw [keyOf_of_isSwept hs hp hswept]
      exact hs.find_of_mem hp
    exact ⟨hr', hlive, hn, hsp, hk⟩
  · intro h
    have hswept : isSwept o keep r (.ofObject r x, x) = true :=
      (isSwept_iff hname hspace).2 ⟨rfl, isStale_iff.2 ⟨h.name, h.space, h.unkept⟩⟩
    exact ⟨r, h.kind, _, ⟨mem_of_find h.live, hswept⟩, rfl, rfl⟩

theorem pairwise_staleList (hs : s.Sound) : (staleList o keep s).Pairwise Precedes := by
  refine List.pairwise_flatMap.2 ⟨fun r _ => List.pairwise_map.2 ?_, ?_⟩
  · refine (List.pairwise_filter.2 (hs.ordered.imp_of_mem ?_))
    intro p q hp hq hbefore hp' hq'
    refine .inr ⟨rfl, ?_⟩
    rw [← keyOf_of_isSwept hs hp hp', ← keyOf_of_isSwept hs hq hq'] at hbefore
    exact before_of_resource_eq hbefore
  · have hkinds : producedKinds.Pairwise fun r r' =>
        producedKinds.idxOf r < producedKinds.idxOf r' := by decide +kernel
    refine hkinds.imp fun hlt a ha b hb => ?_
    obtain ⟨p, -, rfl⟩ := List.mem_map.1 ha
    obtain ⟨q, -, rfl⟩ := List.mem_map.1 hb
    exact .inl hlt

theorem map_keyOf_staleList (hs : s.Sound) :
    (staleList o keep s).map keyOf = producedKinds.flatMap (staleIn o keep · s.objects) := by
  rw [staleList, List.map_flatMap]
  refine List.flatMap_congr fun r _ => ?_
  rw [List.map_map, staleIn]
  refine List.map_congr_left fun p hp => ?_
  obtain ⟨hp, hswept⟩ := List.mem_filter.1 hp
  exact keyOf_of_isSwept hs hp hswept

/-- The report names the kind, the namespace and the name of every object. -/
theorem reportOf_eq (hs : s.Sound) :
    reportOf o keep producedKinds s.objects
      = (staleList o keep s).map report := by
  rw [reportOf, staleList, List.map_flatMap]
  refine List.flatMap_congr fun r _ => ?_
  rw [List.map_map, staleIn, List.map_map]
  refine List.map_congr_left fun p hp => ?_
  obtain ⟨hp, hswept⟩ := List.mem_filter.1 hp
  have hkey := keyOf_of_isSwept hs hp hswept
  rw [Function.comp, Function.comp, reportLine, ← hkey, report]
  simp [keyOf, StoreKey.ofObject, StoreKey.of, String.append_assoc]

/-- A sweep has removed some first part of what it finds stale. -/
def Removed (o : Owner) (keep : List Identity) (gone : List (Resource × Object))
    (s s' : MemoryStore) : Prop :=
  gone <+: staleList o keep s ∧ Without (gone.map keyOf) s s'

theorem Removed.of_begins {ks : List StoreKey} (hs : s.Sound)
    (hks : ks <+: producedKinds.flatMap (staleIn o keep · s.objects)) (h : Without ks s s') :
    ∃ gone, gone.map keyOf = ks ∧ Removed o keep gone s s' := by
  rw [← map_keyOf_staleList hs] at hks
  obtain ⟨gone, hgone, rfl⟩ := List.prefix_map_iff.1 hks
  exact ⟨gone, rfl, hgone, h⟩

/-- What is gone is what was stale and is not found any more. -/
theorem Removed.mem_iff (hs : s.Sound) (hname : IsDnsName o.name) (hspace : IsDnsName o.space)
    {gone : List (Resource × Object)} (h : Removed o keep gone s s') :
    (r, x) ∈ gone ↔ Stale o keep s r x ∧ s'.find (.ofObject r x) = none := by
  constructor
  · intro hm
    refine ⟨(mem_staleList_iff hs hname hspace).1 (h.1.subset hm), ?_⟩
    exact h.2.find_of_mem (List.mem_map_of_mem hm)
  · rintro ⟨hstale, hnone⟩
    have hkey : StoreKey.ofObject r x ∈ gone.map keyOf := by
      by_contra hnot
      rw [h.2.find_of_not_mem hnot, hstale.live] at hnone
      cases hnone
    obtain ⟨⟨r', x'⟩, hm, he⟩ := List.mem_map.1 hkey
    have hstale' := (mem_staleList_iff hs hname hspace).1 (h.1.subset hm)
    have he : StoreKey.ofObject r' x' = .ofObject r x := he
    obtain rfl := resourceText_injective hstale'.kind hstale.kind (congrArg StoreKey.resource he)
    obtain rfl : x' = x := Option.some.inj (by rw [← hstale'.live, he, hstale.live])
    exact hm

theorem Removed.stale_iff (hs : s.Sound) (hname : IsDnsName o.name) (hspace : IsDnsName o.space)
    {gone : List (Resource × Object)} (h : Removed o keep gone s s') :
    Stale o keep s' r x ↔ Stale o keep s r x ∧ (r, x) ∉ gone := by
  constructor
  · intro hstale
    have hnot : StoreKey.ofObject r x ∉ gone.map keyOf := fun hm => by
      have hnone := h.2.find_of_mem hm
      rw [hstale.live] at hnone
      cases hnone
    have hlive : s.find (.ofObject r x) = some x := h.2.find_of_not_mem hnot ▸ hstale.live
    exact ⟨{ hstale with live := hlive }, fun hm => hnot (List.mem_map_of_mem hm)⟩
  · rintro ⟨hstale, hnot⟩
    have hlive : s'.find (.ofObject r x) = some x := by
      rw [h.2.find_of_not_mem, hstale.live]
      intro hkey
      have hm := (h.mem_iff hs hname hspace).2 ⟨hstale, h.2.find_of_mem hkey⟩
      exact hnot hm
    exact { hstale with live := hlive }

/-- What a sweep comes to next is still there. -/
theorem Removed.exists_next (hs : s.Sound) (hname : IsDnsName o.name) (hspace : IsDnsName o.space)
    {gone : List (Resource × Object)} (h : Removed o keep gone s s') {k : StoreKey}
    {rest : List StoreKey}
    (hk : producedKinds.flatMap (staleIn o keep · s.objects) = gone.map keyOf ++ k :: rest) :
    ∃ a, a ∉ gone ∧ Stale o keep s a.1 a.2 ∧ keyOf a = k := by
  obtain ⟨left, hleft⟩ := h.1
  rw [← map_keyOf_staleList hs, ← hleft, List.map_append] at hk
  obtain ⟨a, left', rfl, rfl, -⟩ := List.map_eq_cons_iff.1 (List.append_cancel_left hk)
  have hordered : (gone ++ a :: left').Pairwise Precedes := hleft ▸ pairwise_staleList hs
  refine ⟨a, fun hm => ?_, ?_, rfl⟩
  · have hbefore := (List.pairwise_append.1 hordered).2.2 a hm a List.mem_cons_self
    exact ne_of_precedes hbefore rfl
  · exact (mem_staleList_iff hs hname hspace).1 (hleft ▸ by simp)

theorem steadily_sweep_removed (keep : List Identity) (hs : s.Sound) (hname : IsDnsName o.name)
    (hspace : IsDnsName o.space) :
    Steadily (fun s' => ∃ gone, Removed o keep gone s s') (sweep o keep)
      (fun x s' => ∃ gone, Removed o keep gone s s' ∧
        ((gone = staleList o keep s ∧ x = .ok ((staleList o keep s).map report)) ∨
          ∃ f r y, Stale o keep s' r y ∧ s.refusal (.ofObject r y) = some f ∧ x = .error f)) s := by
  refine (steadily_sweepKinds hs nodup_resourceText fun pre s' hpre h' => ?_).mono ?_
  · obtain ⟨gone, -, hgone⟩ := Removed.of_begins hs (hpre.trans (clears_begins _)) h'
    exact ⟨gone, hgone⟩
  · rintro x s' ⟨h', rfl⟩
    obtain ⟨gone, hkeys, hgone⟩ := Removed.of_begins hs (clears_begins _) h'
    refine ⟨gone, hgone, ?_⟩
    cases hend : (clears s.refusal (producedKinds.flatMap (staleIn o keep · s.objects))).2 with
    | none =>
      have hall := (clears_append_of_none hend []).1
      rw [← hkeys, ← map_keyOf_staleList hs] at hall
      have hlength : gone.length = (staleList o keep s).length := by
        simpa using congrArg List.length hall
      exact .inl ⟨hgone.1.eq_of_length hlength, congrArg Except.ok (reportOf_eq hs)⟩
    | some f =>
      obtain ⟨k, rest, hsplit, hf⟩ := exists_of_clears_eq_some hend
      obtain ⟨⟨r, y⟩, hnot, hstale, rfl⟩ := hgone.exists_next hs hname hspace (hkeys ▸ hsplit)
      exact .inr ⟨f, r, y, (hgone.stale_iff hs hname hspace).2 ⟨hstale, hnot⟩, hf, rfl⟩

/-- Wherever a sweep ends, it has removed some first part of what was stale. It ends well after all
of it, where it is stopped, or at an object whose deletion is refused. -/
theorem exists_removed (keep : List Identity) {w : Rehearsal} (hw : w.Undisturbed) (hs : w.store.Sound)
    (hname : IsDnsName o.name) (hspace : IsDnsName o.space) (n : Nat) :
    ∃ gone, Removed o keep gone w.store (runUntil n (sweep o keep) w).2.store ∧
      ((gone = staleList o keep w.store ∧
          (runUntil n (sweep o keep) w).1 = .ok ((staleList o keep w.store).map report)) ∨
        (∃ stage, (runUntil n (sweep o keep) w).1 = .error (.cancelled stage)) ∨
        ∃ f r y, Stale o keep (runUntil n (sweep o keep) w).2.store r y ∧
          w.store.refusal (.ofObject r y) = some f ∧
          (runUntil n (sweep o keep) w).1 = .error f) := by
  have hsteady := steadily_sweep_removed keep hs hname hspace w ⟨hw, rfl⟩
  rcases run_stoppedAt Reconciliation.not_isFarewell_cancelled
    (Reconciliation.heeds_sweepKinds o keep producedKinds) hw n with
    ⟨hx, hend, -⟩ | ⟨hstage, hcut, -⟩
  · obtain ⟨s', hoffers, gone, hgone, houtcome⟩ :=
      hsteady.reaches (reaches_run (sweep o keep) w) _ rfl
    obtain rfl := hoffers.store
    have hstore : (runUntil n (sweep o keep) w).2.store
        = (Program.run Rehearsal.answer (sweep o keep) w).2.store := congrArg Rehearsal.store hend
    have hresult : (runUntil n (sweep o keep) w).1
        = (Program.run Rehearsal.answer (sweep o keep) w).1 := hx
    rw [hstore, hresult]
    refine ⟨gone, hgone, houtcome.imp id fun ⟨f, r, y, hy⟩ => .inr ⟨f, r, y, hy⟩⟩
  · obtain ⟨gone, hgone⟩ := hcut.atCheck hsteady
    exact ⟨gone, hgone, .inr (.inl hstage)⟩

end Sweep

open Sweep

/-- A sweep may be stopped after any number of checks, and any deletions may be refused. What it
removes is stale, and all other entries are as before. If it ends well nothing stale is left, and it
reports what it has removed once, in order. It ends otherwise only where it is stopped or where the
deletion of a stale object is refused. -/
theorem sweep_removes_stale {o : Owner} (hname : IsDnsName o.name) (hspace : IsDnsName o.space)
    {w : Rehearsal} (hw : w.Undisturbed) (hs : w.store.Reachable) (keep : List Identity) (n : Nat) :
    (∀ x, selected (some o.selector) x = o.owns x.labels) ∧
      ∃ gone : List (Resource × Object), gone.Nodup ∧ gone.Pairwise Precedes ∧
        (∀ r x, (r, x) ∈ gone ↔ Stale o keep w.store r x ∧
          (runUntil n (sweep o keep) w).2.store.find (.ofObject r x) = none) ∧
        (runUntil n (sweep o keep) w).2.store.objects
          = w.store.objects.filter (fun p => p.1 ∉ gone.map keyOf) ∧
        (∀ told, (runUntil n (sweep o keep) w).1 = .ok told →
          told = gone.map report ∧
            ∀ r x, ¬ Stale o keep (runUntil n (sweep o keep) w).2.store r x) ∧
        ∀ f, (runUntil n (sweep o keep) w).1 = .error f →
          (∃ stage, f = .cancelled stage) ∨
            ∃ r x, Stale o keep (runUntil n (sweep o keep) w).2.store r x ∧
              w.store.refusal (.ofObject r x) = some f := by
  refine ⟨fun x => Owner.selected_selector hname hspace x, ?_⟩
  obtain ⟨gone, hgone, houtcome⟩ := exists_removed keep hw hs.sound hname hspace n
  have hordered : gone.Pairwise Precedes := (pairwise_staleList hs.sound).sublist hgone.1.sublist
  refine ⟨gone, hordered.imp ne_of_precedes, hordered, fun r x => hgone.mem_iff hs.sound hname hspace,
    hgone.2.objects, fun told htold => ?_, fun f hf => ?_⟩
  · rcases houtcome with ⟨rfl, hok⟩ | ⟨stage, herr⟩ | ⟨f, r, y, -, -, herr⟩
    · refine ⟨Except.ok.inj (htold.symm.trans hok), fun r x hstale => ?_⟩
      obtain ⟨hbefore, hnot⟩ := (hgone.stale_iff hs.sound hname hspace).1 hstale
      exact hnot ((mem_staleList_iff hs.sound hname hspace).2 hbefore)
    · cases htold.symm.trans herr
    · cases htold.symm.trans herr
  · rcases houtcome with ⟨-, hok⟩ | ⟨stage, herr⟩ | ⟨f', r, y, hstale, hrefusal, herr⟩
    · cases hf.symm.trans hok
    · exact .inl ⟨stage, Except.error.inj (hf.symm.trans herr)⟩
    · obtain rfl := Except.error.inj (hf.symm.trans herr)
      exact .inr ⟨r, y, hstale, hrefusal⟩

def markedObject (space name : String) (o : Owner) : Object where
  types := none
  metadata := { name := some name, space := some space, labels := some o.labels }
  data := []

/-- A cluster in which two objects are left behind in other namespaces. One more is still wanted,
and one belongs to another route. -/
def scatteredCluster : Rehearsal where
  store := ((leftCluster.store.insert EnvoyFilterSpec.kind.resource
      (markedObject "d" "old" heldShop.owner)).insert VirtualServiceSpec.kind.resource
      (markedObject "b" "shop" heldShop.owner)).insert GatewaySpec.kind.resource
      (markedObject "c" "older" ⟨"rollout", "c", ""⟩)
  clock := ⟨0, 0⟩

theorem scatteredCluster_sweep_removes_stale :
    IsDnsName heldShop.owner.name ∧ IsDnsName heldShop.owner.space ∧
    scatteredCluster.Undisturbed ∧ scatteredCluster.store.Reachable ∧
    (runUntil 6 (sweep heldShop.owner [⟨"VirtualService", "b", "shop"⟩]) scatteredCluster).1
      = .ok ["Gateway c/old", "EnvoyFilter d/old"] ∧
    ∀ r x, ¬ Stale heldShop.owner [⟨"VirtualService", "b", "shop"⟩]
      (runUntil 6 (sweep heldShop.owner [⟨"VirtualService", "b", "shop"⟩]) scatteredCluster).2.store
      r x := by
  have hname : IsDnsName heldShop.owner.name := by decide
  have hspace : IsDnsName heldShop.owner.space := by decide
  have hw : scatteredCluster.Undisturbed := ⟨⟨rfl, rfl⟩, rfl, rfl⟩
  have hs : scatteredCluster.store.Reachable :=
    .insert (.insert (.insert (.insert .empty _ _) _ _) _ _) _ _
  have hok : (runUntil 6 (sweep heldShop.owner [⟨"VirtualService", "b", "shop"⟩])
      scatteredCluster).1 = .ok ["Gateway c/old", "EnvoyFilter d/old"] := by rfl
  obtain ⟨-, gone, -, -, -, -, hends, -⟩ := sweep_removes_stale hname hspace hw hs
    [⟨"VirtualService", "b", "shop"⟩] 6
  exact ⟨hname, hspace, hw, hs, hok, (hends _ hok).2⟩

end MeshRollout
