import MeshRollout.Proofs.Rollout.Parts
import MeshRollout.Proofs.Rollout.Writing

/-!
A pass over a live route brings its objects into place and leaves them there. When the pass has
succeeded, exactly the produced objects carry the mark, and another pass has nothing to write; and
however a pass ends, it spares what is neither produced by the route nor marked.
-/
set_option autoImplicit false

namespace MeshRollout

open StoreKey Rehearsal Sweep Reconciliation

structure Swept (o : Owner) (keep : List Identity) (w w' : Rehearsal) : Prop where
  routes : w'.routes = w.routes
  objects : ∀ k, w'.store.find k = w.store.find k ∨
    (StaleAt o keep w.store k ∧ w'.store.find k = none)

/-- The pass touched nothing but produced and marked objects, and the status of routes. -/
structure Spares (o : Owner) (P : StoreKey → Prop) (w w' : Rehearsal) : Prop where
  objects : ∀ k, ¬ P k → w'.store.find k = w.store.find k ∨
    (StaleAt o [] w.store k ∧ w'.store.find k = none)
  routes : ∀ space name r, w.findRoute space name = some r →
    ∃ r', w'.findRoute space name = some r' ∧ r'.metadata = r.metadata ∧ r'.spec = r.spec

/-- All objects of the route are in place, and no other object carries its mark. -/
structure Settled (o : Owner) (planned : List PlannedObject) (s : MemoryStore) : Prop where
  inPlace : ∀ b ∈ planned, b.InPlace s
  noneStale : ∀ k, ¬ StaleAt o (identities planned) s k

variable {o : Owner} {keep : List Identity} {P : StoreKey → Prop} {planned : List PlannedObject}
  {w w' w'' : Rehearsal}

namespace Swept

theorem of_alike (h : Alike w w') : Swept o keep w w' :=
  ⟨h.routes, fun _ => .inl (by rw [h.store])⟩

theorem trans (h : Swept o keep w w') (h' : Swept o keep w' w'') : Swept o keep w w'' where
  routes := h'.routes.trans h.routes
  objects k := StaleAt.gone_trans (h.objects k) (h'.objects k)

theorem of_delete {r : Resource} {live : Object}
    (hopen : ∀ found, w.store.find (.ofObject r live) = some found →
      StaleAt o keep w.store (.ofObject r live))
    (hm : Made (.delete r live.spaceArg live.name) w w') : Swept o keep w w' where
  routes := hm.routes
  objects k := by
    rcases Sweepable.find_delete hm k with he | ⟨rfl, hn⟩
    · exact .inl he
    · cases hf : w.store.find (.ofObject r live) with
      | none => exact .inl hn
      | some found => exact .inr ⟨hopen found hf, hn⟩

end Swept

theorem sweepable_alone (hspace : IsDnsName o.space) (hname : IsDnsName o.name)
    (keep : List Identity) :
    Sweepable alone (fun _ => Swept o keep) o keep (fun _ => True)
      (fun w k => ∀ live, w.store.find k = some live → StaleAt o keep w.store k) where
  toAdmits := admits_alone fun _ _ _ _ h => Swept.of_alike h
  name := hname
  space := hspace
  shrinks h _ hk := h.store ▸ hk
  open_of_stale _ hk _ _ := hk
  open_of_rely h ho live hl := h.store ▸ ho live (h.store ▸ hl)
  open_of_fewer {w w' k} hf ho live hl := by
    rcases hf with hf | hf
    · obtain ⟨r, hr, hk, found, hfound, hstale⟩ := ho live (hf ▸ hl)
      exact ⟨r, hr, hk, found, hf ▸ hfound, hstale⟩
    · cases hf.symm.trans hl
  deletes _ ho hm := Swept.of_delete ho hm

/-- Where nothing is stale, a sweep has nothing to delete. -/
theorem sweepable_rests (hspace : IsDnsName o.space) (hname : IsDnsName o.name)
    (keep : List Identity) :
    Sweepable alone Rests o keep (fun _ => False) (fun _ _ => False) where
  toAdmits := admits_rests
  name := hname
  space := hspace
  shrinks h _ hk := h.store ▸ hk
  open_of_stale hk _ := hk
  open_of_rely _ ho := ho
  open_of_fewer _ ho := ho
  deletes _ ho _ := ho.elim

/-- What a pass produces is not stale to it. -/
theorem not_staleAt_key {b : PlannedObject} {s : MemoryStore} (hs : s.Sound)
    (hb : b.Writable) (hm : b ∈ planned) : ¬ StaleAt o (identities planned) s b.key := by
  rintro ⟨r, hr, hk, live, hl, hstale⟩
  cases resourceText_injective hb.kind hr hk
  obtain ⟨hsp, hn⟩ := hs.key_of_find hl
  have hid : Identity.of b.resource live = Identity.of b.resource b.object :=
    Identity.mk.injEq .. ▸ ⟨rfl, hsp.symm, hn.symm⟩
  have hkept : Identity.of b.resource live ∈ identities planned := by
    rw [hid]
    exact List.mem_map.2 ⟨b, hm, rfl⟩
  simp [isStale, hkept] at hstale

theorem bringIntoPlace_eq {edgeSpace : String} {r : Route}
    (hp : produced o r.ownerReference? edgeSpace r.spec = .ok planned) :
    bringIntoPlace edgeSpace o r
      = (do
          writeAll planned
          let _ ← sweep o (identities planned)) := by
  rw [bringIntoPlace_eq_produced, hp]
  rfl

theorem findRoute_of_routes (h : w'.routes = w.routes) (space name : String) (r : Route)
    (hr : w.findRoute space name = some r) :
    ∃ r', w'.findRoute space name = some r' ∧ r'.metadata = r.metadata ∧ r'.spec = r.spec :=
  ⟨r, by rw [findRoute, h, ← findRoute, hr], rfl, rfl⟩

theorem keeps_of_isTelling {c : Call} {a : c.Answer} (hc : c.isTelling = true)
    (ha : Answers c w a w') (hw : w.Intact) :
    w'.store = w.store ∧ ∀ space name r, w.findRoute space name = some r →
      ∃ r', w'.findRoute space name = some r' ∧ r'.metadata = r.metadata ∧ r'.spec = r.spec := by
  have of_read (hr : c.isRead = true) :=
    And.intro (ha.alike hr hw.races).store (findRoute_of_routes (ha.alike hr hw.races).routes)
  cases c with
  | store c => cases hc
  | route c =>
    cases c with
    | get space name => cases hc
    | hold space name finalizer => cases hc
    | release space name finalizer => cases hc
    | patchStatus space name s =>
      refine ⟨ha.of_route.1, fun space' name' r hr => ?_⟩
      have hf := findRoute_patchStatus space name s w space' name'
      rw [hr] at hf
      rw [ha.world]
      rcases hf with hf | hf
      · exact ⟨r, hf, rfl, rfl⟩
      · exact ⟨_, hf, rfl, rfl⟩
  | notify message => exact of_read rfl
  | cancelled => cases hc
  | now => exact of_read rfl
  | fetch => cases hc

namespace Spares

theorem of_alike (h : Alike w w') : Spares o P w w' :=
  ⟨fun _ _ => .inl (by rw [h.store]), findRoute_of_routes h.routes⟩

theorem of_writesOnly {c : Call} (h : WritesOnly P c w w') : Spares o P w w' :=
  ⟨fun k hk => .inl (h.elsewhere k hk), findRoute_of_routes h.routes⟩

theorem of_swept (h : Swept o keep w w') : Spares o P w w' where
  objects k _ := by
    refine (h.objects k).imp id fun ⟨⟨r, hr, hk, live, hl, hstale⟩, hn⟩ => ⟨?_, hn⟩
    have howns : o.owns live.labels = true := (Bool.and_eq_true_iff.1 hstale).1
    exact ⟨r, hr, hk, live, hl, by simp [isStale, howns]⟩
  routes := findRoute_of_routes h.routes

theorem trans (h : Spares o P w w') (h' : Spares o P w' w'') : Spares o P w w'' where
  objects k hk := StaleAt.gone_trans (h.objects k hk) (h'.objects k hk)
  routes space name r hr := by
    obtain ⟨r', hr', hm, hs⟩ := h.routes space name r hr
    obtain ⟨r'', hr'', hm', hs'⟩ := h'.routes space name r' hr'
    exact ⟨r'', hr'', hm'.trans hm, hs'.trans hs⟩

theorem of_isTelling {c : Call} {a : c.Answer} (hc : c.isTelling = true) (ha : Answers c w a w')
    (hw : w.Intact) : Spares o P w w' := by
  obtain ⟨hstore, hroutes⟩ := keeps_of_isTelling hc ha hw
  exact ⟨fun _ _ => .inl (by rw [hstore]), hroutes⟩

end Spares

theorem admits_spares (o : Owner) (P : StoreKey → Prop) : Admits alone fun _ => Spares o P :=
  admits_alone fun _ _ _ _ h => Spares.of_alike h

section Pass

variable {edgeSpace : String} {r : Route} (hspace : IsDnsName o.space) (hname : IsDnsName o.name)
  (hbs : ∀ b ∈ planned, b.Writable)
include hspace hname hbs

theorem yields_bringIntoPlace
    (hp : produced o r.ownerReference? edgeSpace r.spec = .ok planned)
    (hd : (planned.map PlannedObject.key).Nodup) (hw : w.Intact) :
    alone.Yields (fun _ => Spares o fun k => ∃ b ∈ planned, b.key = k)
      (bringIntoPlace edgeSpace o r) (fun _ w' => Settled o planned w'.store) w := by
  rw [bringIntoPlace_eq hp]
  have hwrite := yields_writeAll (admits_writesOnly fun k => ∃ b ∈ planned, b.key = k)
    (stable_alone (fun _ _ _ h => h) fun _ => True) hbs
    (fun b hb => permits_writesOnly ⟨b, hb, rfl⟩) hd hw trivial
  refine (hwrite.weaken fun _ _ _ h => Spares.of_writesOnly h).bind fun _ w₁ ⟨hw₁, _, hin⟩ => ?_
  have hsweep := (sweepable_alone hspace hname (identities planned)).yields_sweep hw₁
    fun _ _ => trivial
  have htied := hsweep.tied (fun _ _ _ h h' => h.trans h') (fun _ _ h => Swept.of_alike h)
    fun _ _ _ h => h
  refine (htied.weaken fun _ _ _ h => Spares.of_swept h).bind fun _ w₂ ⟨⟨hw₂, hnone⟩, hswept⟩ => ?_
  refine Setting.yields_pure fun w₃ h₃ => ⟨fun b hb => ?_, fun k => h₃.store ▸ hnone k⟩
  obtain ⟨live, hl, hc⟩ := hin b hb trivial
  have hnot := not_staleAt_key (o := o) hw₁.sound (hbs b hb) hb
  rcases hswept.objects b.key with he | ⟨hs, -⟩
  · exact ⟨live, by rw [h₃.store, he, hl], hc⟩
  · exact absurd hs hnot

theorem rests_bringIntoPlace
    (hp : produced o r.ownerReference? edgeSpace r.spec = .ok planned) (hw : w.Intact)
    (hs : Settled o planned w.store) :
    alone.Yields Rests (bringIntoPlace edgeSpace o r) (fun _ _ => True) w := by
  rw [bringIntoPlace_eq hp]
  refine (rests_writeAll hbs hw hs.inPlace).bind fun _ w₁ h₁ => ?_
  have hsweep := (sweepable_rests hspace hname (identities planned)).yields_sweep (h₁.intact hw)
    fun k hk => hs.noneStale k (h₁.store ▸ hk)
  exact hsweep.bind fun _ _ _ => Setting.yields_pure fun _ _ => trivial

end Pass

section Outcome

variable {S : Setting Rehearsal} {G : Call → Rehearsal → Rehearsal → Prop} {I : Rehearsal → Prop}
  (hadm : Admits S G) (hkept : ∀ {w w' : Rehearsal}, S.rely w w' → w.Intact → I w → I w')
  (htell : ∀ {c : Call} {w w' : Rehearsal} {a : c.Answer}, c.isTelling = true →
    Answers c w a w' → w.Intact → G c w w' ∧ (I w → I w'))
include hadm hkept htell

theorem ensures_of_tells {α : Type} {p : Pass α} (hp : p.Tells) (hw : w.Intact) (hI : I w) :
    S.Ensures G (α := Except Failure α) p (fun _ w' => w'.Intact ∧ I w') w := by
  refine Setting.ensures_of_uses (P := fun w' : Rehearsal => w'.Intact ∧ I w') ?_ ?_ hp ⟨hw, hI⟩
  · exact fun w₁ w₂ h hP => ⟨hadm.intact h hP.1, hkept h hP.1 hP.2⟩
  · intro c w₁ a w₂ hc ha hP
    have hans := hadm.answers ha
    obtain ⟨hG, hI'⟩ := htell hc hans hP.1
    exact ⟨⟨hans.intact hP.1, hI' hP.2⟩, hG⟩

theorem yields_conclude (r : Route) {result : Except Failure Unit} (hw : w.Intact)
    (hok : result = .ok () → I w) : S.Yields G (conclude r result) (fun _ w' => I w') w := by
  have htold {p : Pass Unit} (hp : p.Tells) :
      S.Ensures G (α := Except Failure Unit) p (fun _ w' => w'.Intact ∧ (True → True)) w :=
    ensures_of_tells hadm (fun _ _ _ => id) (fun hc ha hi => ⟨(htell hc ha hi).1, fun _ => id⟩) hp hw
      id
  rw [conclude.eq_def]
  split
  · have hrecord := ensures_of_tells hadm hkept htell
      (record_tells (.success r.spec.services.length) r) hw (hok rfl)
    have hyields : S.Yields G ((Outcome.success r.spec.services.length).record r)
        (fun _ w' => w'.Intact ∧ I w') w := hrecord.mono fun _ _ h _ _ => h
    refine hyields.bind ?_
    rintro - w₁ ⟨hw₁, hI₁⟩
    exact Setting.yields_pure fun w₂ h₂ => hkept h₂ hw₁ hI₁
  · exact Setting.yields_throw
  · rename_i f _
    exact Setting.Yields.bind (htold (record_tells (.failure f) r)).attempt fun _ _ _ =>
      Setting.yields_throw

/-- A pass over a live and held route does what bringing its objects into place does, also where
others write the status of the route meanwhile. -/
theorem yields_reconcile_of_held {space name edgeSpace : String} {m : ObjectMeta} {r : Route}
    (hs : m.space = some space) (hn : m.anyName = name) (hlive : r.isLeaving = false)
    (hheld : r.metadata.isHeldBy edgeCleanup = true)
    (hp : produced ⟨name, space, r.uidOrEmpty⟩ r.ownerReference? edgeSpace r.spec = .ok planned)
    (hw : w.Intact)
    (hfind : ∀ w', S.rely w w' → ∃ r', w'.findRoute space name = some r' ∧
      r'.metadata = r.metadata ∧ r'.spec = r.spec)
    (hplace : ∀ r' w', S.rely w w' →
      produced ⟨name, space, r.uidOrEmpty⟩ r'.ownerReference? edgeSpace r'.spec = .ok planned →
      S.Yields G (bringIntoPlace edgeSpace ⟨name, space, r.uidOrEmpty⟩ r') (fun _ w'' => I w'')
        w') :
    S.Yields G (reconcile edgeSpace m) (fun _ w' => I w') w := by
  simp only [reconcile, hs, hn]
  refine Setting.Yields.bind (hadm.yields_checkpoint hw _) fun _ w₁ h₁ => ?_
  have hget : S.Yields G (Pass.getRoute space name)
      (fun found w' => (∃ r', found = some r' ∧ r'.metadata = r.metadata ∧ r'.spec = r.spec) ∧
        S.rely w w') w₁ := by
    refine hadm.yields_getRoute (hadm.intact h₁ hw) fun w₂ w₃ h₂ h₃ => ?_
    have h₁₂ := S.rely_trans h₁ h₂
    exact ⟨hfind w₂ h₁₂, S.rely_trans h₁₂ h₃⟩
  refine hget.bind fun found w₂ ⟨⟨r', hfound, hmeta, hspec⟩, h₂⟩ => ?_
  have hlive' : r'.isLeaving = false := by rw [Route.isLeaving, hmeta, ← Route.isLeaving, hlive]
  have huid : r'.uidOrEmpty = r.uidOrEmpty := by rw [Route.uidOrEmpty, hmeta, Route.uidOrEmpty]
  have href : r'.ownerReference? = r.ownerReference? := by
    rw [Route.ownerReference?, hmeta, Route.ownerReference?]
  simp only [hfound, passOver_of_held edgeSpace _ hlive' (hmeta ▸ hheld), huid]
  have hbring := hadm.ensures_intact (hplace r' w₂ h₂ (by rw [href, hspec, hp]))
    (hadm.intact h₂ hw)
  exact hbring.attempt.bind fun result w₃ ⟨hI, hw₃⟩ =>
    yields_conclude hadm hkept htell r' hw₃ fun he => hI () he

end Outcome

theorem yields_reconcile_of_found {G : Call → Rehearsal → Rehearsal → Prop}
    {Q : Action → Rehearsal → Prop} {space name edgeSpace : String} {m : ObjectMeta} {r : Route}
    {w : Rehearsal} (hadm : Admits alone G) (hs : m.space = some space) (hn : m.anyName = name)
    (hr : w.findRoute space name = some r) (hw : w.Intact)
    (h : ∀ w', Alike w w' →
      alone.Yields G (passOver edgeSpace ⟨name, space, r.uidOrEmpty⟩ r) Q w') :
    alone.Yields G (reconcile edgeSpace m) Q w := by
  simp only [reconcile, hs, hn]
  refine Setting.Yields.bind (hadm.yields_checkpoint hw _) fun _ w₁ h₁ => ?_
  have hget : alone.Yields G (Pass.getRoute space name)
      (fun found w' => found = some r ∧ Alike w w') w₁ := by
    refine hadm.yields_getRoute (hadm.intact h₁ hw) fun w₂ w₃ h₂ h₃ => ⟨?_, ?_⟩
    · rw [Alike.findRoute h₂, Alike.findRoute h₁, hr]
    · exact h₁.trans (h₂.trans h₃)
  refine hget.bind fun found w₂ ⟨hfound, h₂⟩ => ?_
  simp only [hfound]
  exact h w₂ h₂

theorem Settled.produced {s : MemoryStore} (h : Settled o planned s) (hs : s.Sound)
    (hbs : ∀ b ∈ planned, b.Writable) {k : StoreKey} {live : Object} (hm : (k, live) ∈ s.objects)
    {r : Resource} (hr : r ∈ producedKinds) (hk : k.resource = resourceText r)
    (howns : o.owns live.labels = true) : ∃ b ∈ planned, b.key = k := by
  have hf := hs.find_of_mem hm
  have hkept : Identity.of r live ∈ identities planned := by
    by_contra hn
    exact h.noneStale k ⟨r, hr, hk, live, hf, by simp [isStale, howns, hn]⟩
  obtain ⟨b, hb, hid⟩ := List.mem_map.1 hkept
  have hkind : b.resource = r := kind_injective (hbs b hb).kind hr (congrArg Identity.kind hid)
  refine ⟨b, hb, ?_⟩
  rw [← hs.ofObject_eq hk hf, PlannedObject.key, hkind]
  exact StoreKey.mk.injEq .. ▸ ⟨rfl, congrArg Identity.space hid, congrArg Identity.name hid⟩

section Reconcile

variable {space name edgeSpace : String} {m : ObjectMeta} {r : Route}
  (hspace : IsDnsName space) (hname : IsDnsName name)
  (hs : m.space = some space) (hn : m.anyName = name)
  (hp : produced ⟨name, space, r.uidOrEmpty⟩ r.ownerReference? edgeSpace r.spec = .ok planned)
  (hbs : ∀ b ∈ planned, b.Writable)
include hspace hname hs hn hp hbs

theorem yields_reconcile_settled (hr : w.findRoute space name = some r)
    (hlive : r.isLeaving = false) (hheld : r.metadata.isHeldBy edgeCleanup = true)
    (hd : (identities planned).Nodup) (hw : w.Intact) :
    alone.Yields
      (fun _ => Spares ⟨name, space, r.uidOrEmpty⟩ fun k => ∃ b ∈ planned, b.key = k)
      (reconcile edgeSpace m)
      (fun _ w' => Settled ⟨name, space, r.uidOrEmpty⟩ planned w'.store) w := by
  refine yields_reconcile_of_held (admits_spares _ _) (fun h _ hQ => Alike.store h ▸ hQ)
    (fun hc ha hi => ⟨Spares.of_isTelling hc ha hi, fun hQ => (keeps_of_isTelling hc ha hi).1 ▸ hQ⟩)
    hs hn hlive hheld hp hw (fun w' h' => ⟨r, (h'.findRoute _ _).trans hr, rfl, rfl⟩) ?_
  intro r' w' h' hp'
  exact yields_bringIntoPlace hspace hname hbs hp' (nodup_keys hbs hd) (h'.intact hw)

/-- Where everything is settled, a pass over the same route rests. -/
theorem rests_reconcile {r' : Route} (hr : w.findRoute space name = some r')
    (hmeta : r'.metadata = r.metadata) (hspec : r'.spec = r.spec) (hlive : r.isLeaving = false)
    (hheld : r.metadata.isHeldBy edgeCleanup = true)
    (hset : Settled ⟨name, space, r.uidOrEmpty⟩ planned w.store) (hw : w.Intact) :
    alone.Yields Rests (reconcile edgeSpace m) (fun _ _ => True) w := by
  have htell {c : Call} {w w' : Rehearsal} {a : c.Answer} (hc : c.isTelling = true)
      (ha : Answers c w a w') (hi : w.Intact) : Rests c w w' := by
    refine ⟨(keeps_of_isTelling hc ha hi).1, ?_⟩
    rintro c' rfl
    cases hc
  refine yields_reconcile_of_held admits_rests (fun _ _ => id)
    (fun hc ha hi => ⟨htell hc ha hi, id⟩) hs hn hlive hheld hp hw
    (fun w' h' => ⟨r', (h'.findRoute _ _).trans hr, hmeta, hspec⟩) fun r'' w' h' hp' => ?_
  exact rests_bringIntoPlace hspace hname hbs hp' (h'.intact hw) (h'.store ▸ hset)

end Reconcile

/-- A pass over a live and held route, with calls failing as they may, touches only what the
services of the route ask for and what carries its mark. When it succeeds, every object of every
service is in place, no other object carries the mark, and another pass leaves the store alone at
each of its steps. -/
theorem reconcile_settles {space name : String} (hspace : IsDnsName space) (hname : IsDnsName name)
    {w : Rehearsal} (hstore : w.store.Reachable) (hraces : w.races = []) {r : Route}
    (hr : w.findRoute space name = some r) (hlive : r.isLeaving = false)
    (hheld : r.metadata.isHeldBy edgeCleanup = true) (hvalid : r.spec.validate = .ok ())
    {m : ObjectMeta} (hs : m.space = some space) (hn : m.anyName = name) (edgeSpace : String) :
    let o : Owner := ⟨name, space, r.uidOrEmpty⟩
    let planned := r.spec.planned o r.ownerReference? edgeSpace
    (∀ s ∈ r.spec.services, s.routing edgeSpace = .ok (s.bundle edgeSpace)) ∧
    ((identities planned).Nodup → ∀ w' p,
      alone.Reaches (w, reconcile edgeSpace m) (w', p) →
      Spares o (fun k => ∃ b ∈ planned, b.key = k) w w' ∧
      ∀ action, p = .done (.ok action) →
        (∀ b ∈ planned, b.InPlace w'.store) ∧
        (∀ x ∈ w'.store.objects, (∃ k ∈ producedKinds, x.1.resource = resourceText k) →
          o.owns x.2.labels = true → ∃ b ∈ planned, b.key = x.1) ∧
        ∀ w'' q, alone.Reaches (w', reconcile edgeSpace m) (w'', q) →
          w''.store = w'.store ∧
          ∀ c next, q = .call (.store c) next → (Call.store c).isRead = true) := by
  intro o planned
  have hp : produced o r.ownerReference? edgeSpace r.spec = .ok planned :=
    produced_eq_ok hvalid o r.ownerReference? edgeSpace
  have hbs : ∀ b ∈ planned, b.Writable := r.spec.planned_writable o r.ownerReference? edgeSpace
  refine ⟨fun s hs => ?_, fun hd w' p hrun => ?_⟩
  · exact Service.routing_eq_ok ((RouteSpec.validate_eq_ok_iff.1 hvalid).1 s hs).validate edgeSpace
  have hw : w.Intact := ⟨hstore.sound, hraces⟩
  have hfirst := yields_reconcile_settled hspace hname hs hn hp hbs hr hlive hheld hd hw
  have hspares := Setting.Ensures.along (fun w => Spares.of_alike (Alike.refl w))
    (fun _ _ _ h h' => Spares.trans h h') (fun _ _ h => Spares.of_alike h) (fun _ _ _ h => h)
    hfirst hrun
  refine ⟨hspares, ?_⟩
  rintro action rfl
  have hend := ((admits_spares _ _).ensures_intact hfirst hw).reaches hrun w' (Alike.refl w')
  have hset := hend.1 action rfl
  refine ⟨hset.inPlace, ?_, fun w'' q hrun' => ?_⟩
  · rintro ⟨k, live⟩ hm ⟨kind, hkind, hk⟩ howns
    exact hset.produced hend.2.sound hbs hm hkind hk howns
  · obtain ⟨r', hr', hmeta, hspec⟩ := hspares.routes space name r hr
    have hsecond :=
      rests_reconcile hspace hname hs hn hp hbs hr' hmeta hspec hlive hheld hset hend.2
    constructor
    · exact Setting.Ensures.along (F := fun w w' : Rehearsal => w'.store = w.store)
        (fun _ => rfl) (fun _ _ _ h h' => h'.trans h) (fun _ _ h => Alike.store h)
        (fun _ _ _ h => Rests.store h) hsecond hrun'
    · rintro c next rfl
      have hcall := Setting.Ensures.reaches hsecond hrun' w'' (Alike.refl w'') _ _ .served
      exact hcall.1.reads c rfl

def leftGateway : Object where
  types := none
  metadata := {
    name := some "old", space := some "c", labels := some heldShop.owner.labels }
  data := []

def leftCluster : Rehearsal where
  store := ({} : MemoryStore).insert GatewaySpec.kind.resource leftGateway
  routes := [(("a", "rollout"), heldShop)]
  clock := ⟨0, 0⟩

theorem leftCluster_settles :
    IsDnsName "a" ∧ IsDnsName "rollout" ∧ leftCluster.store.Reachable ∧ leftCluster.races = [] ∧
    leftCluster.findRoute "a" "rollout" = some heldShop ∧ heldShop.isLeaving = false ∧
    heldShop.metadata.isHeldBy edgeCleanup = true ∧ heldShop.spec.validate = .ok () ∧
    heldShop.metadata.space = some "a" ∧ heldShop.metadata.anyName = "rollout" ∧
    let o : Owner := ⟨"rollout", "a", "uid-7"⟩
    let planned := heldShop.spec.planned o heldShop.ownerReference? "istio-system"
    (identities planned).Nodup ∧
    ∃ w', alone.Reaches (leftCluster, reconcile "istio-system" heldShop.metadata)
        (w', .done (.ok (.requeue resyncSeconds))) ∧
      w'.store.writes = ["create VirtualService b/shop", "create Gateway b/shop-gateway",
        "create VirtualService b/shop-ingress", "create DestinationRule b/shop",
        "delete Gateway c/old"] ∧
      (∃ s live, heldShop.spec.services = [s] ∧
        w'.store.find (.of VirtualServiceSpec.kind.resource "b" "shop") = some live ∧
        live.labels = o.labels ∧ live.spec = some s.virtualService.spec.toValue) ∧
      ∀ x ∈ w'.store.objects, (∃ k ∈ producedKinds, x.1.resource = resourceText k) →
        o.owns x.2.labels = true → ∃ b ∈ planned, b.key = x.1 := by
  have hreach : leftCluster.store.Reachable :=
    MemoryStore.Reachable.empty.insert GatewaySpec.kind.resource leftGateway
  obtain ⟨-, h⟩ := @reconcile_settles "a" "rollout" (by decide) (by decide) leftCluster
    hreach rfl heldShop rfl rfl rfl rfl heldShop.metadata rfl rfl "istio-system"
  have hd : (identities (heldShop.spec.planned ⟨"rollout", "a", "uid-7"⟩ heldShop.ownerReference?
      "istio-system")).Nodup := by
    rw [identities_planned rfl]
    decide
  have hrun := alone_reaches_run (reconcile "istio-system" heldShop.metadata) leftCluster
  have hok : (Rehearsal.run (reconcile "istio-system" heldShop.metadata) leftCluster).1
      = .ok (.requeue resyncSeconds) := by
    decide +kernel
  have hrun' : alone.Reaches (leftCluster, reconcile "istio-system" heldShop.metadata)
      (_, .done (.ok (.requeue resyncSeconds))) := hok ▸ hrun
  obtain ⟨-, hdone⟩ := h hd _ _ hrun'
  obtain ⟨hplace, hmarked, -⟩ := hdone _ rfl
  obtain ⟨live, hlive, hcarries⟩ := hplace _ List.mem_cons_self
  refine ⟨by decide, by decide, hreach, rfl, rfl, rfl, rfl, rfl, rfl, rfl, hd, _, hrun', ?_, ?_,
    hmarked⟩
  · decide +kernel
  · exact ⟨_, live, rfl, hlive, hcarries.labels, hcarries.spec⟩

end MeshRollout
