import MeshRollout.Proofs.Mesh.Plain
import MeshRollout.Proofs.Rollout.Produced
import MeshRollout.Proofs.Rollout.Sweep

/-!
Writing the objects of a route while nobody else does. An object that was written is in place with
all that it carries, and where all objects are different, the later ones leave the earlier ones in
place. Where everything is in place already, nothing is written.
-/
set_option autoImplicit false

namespace MeshRollout

open StoreKey Rehearsal

namespace PlannedObject

def key (b : PlannedObject) : StoreKey :=
  .ofObject b.resource b.object

def InPlace (b : PlannedObject) (s : MemoryStore) : Prop :=
  ∃ live, s.find b.key = some live ∧ live.Carries b.object

/-- What all objects have in common that routes produce. -/
structure Writable (b : PlannedObject) : Prop where
  kind : b.resource ∈ producedKinds
  spec : ∃ v, b.object.spec = some v ∧ v.Plain

/-- The comparison tells exactly whether something has to be written. -/
theorem Writable.isOutdated_eq_false_iff {b : PlannedObject} (hb : b.Writable) (live : Object) :
    live.isOutdated b.object = false ↔ live.Carries b.object := by
  rw [Object.isOutdated_eq_false_iff]
  refine ⟨fun h => ⟨h.labels, h.annotations, ?_⟩, Object.Carries.agrees⟩
  obtain ⟨v, hv, hplain⟩ := hb.spec
  have hs := h.spec
  rw [hv] at hs ⊢
  cases hl : live.spec with
  | none =>
    rw [hl] at hs
    cases hs
  | some x =>
    rw [hl] at hs
    rw [Value.eq_of_same x v hplain hs]

end PlannedObject

theorem Bundle.objects_writable (b : Bundle) : ∀ x ∈ b.objects, x.Writable := by
  have of_spec {r : Resource} {o : Object} {v : Value} (hr : r ∈ producedKinds)
      (hs : o.spec = some v) (hv : v.Plain) : PlannedObject.Writable ⟨r, o⟩ :=
    ⟨hr, v, hs, hv⟩
  intro x hx
  simp only [objects, List.mem_append, List.mem_cons, List.not_mem_nil, or_false,
    Option.mem_toList, Option.map_eq_some_iff] at hx
  rcases hx with (rfl | rfl | rfl | rfl) | ⟨f, -, rfl⟩
  · exact of_spec (by simp [producedKinds]) rfl (VirtualServiceSpec.plain_toValue _)
  · exact of_spec (by simp [producedKinds]) rfl (GatewaySpec.plain_toValue _)
  · exact of_spec (by simp [producedKinds]) rfl (VirtualServiceSpec.plain_toValue _)
  · exact of_spec (by simp [producedKinds]) rfl (DestinationRuleSpec.plain_toValue _)
  · exact of_spec (by simp [producedKinds]) rfl (EnvoyFilterSpec.plain_toValue _)

theorem RouteSpec.planned_writable (spec : RouteSpec) (o : Owner)
    (reference : Option OwnerReference) (edgeSpace : String) :
    ∀ b ∈ spec.planned o reference edgeSpace, b.Writable := by
  intro b hb
  obtain ⟨s, -, hs⟩ := List.mem_flatMap.1 hb
  exact Bundle.objects_writable _ b hs

theorem kind_injective {r r' : Resource} (hr : r ∈ producedKinds) (hr' : r' ∈ producedKinds)
    (h : r.kind = r'.kind) : r = r' := by
  have hd : ∀ r ∈ producedKinds, ∀ r' ∈ producedKinds, r.kind = r'.kind → r = r' := by
    decide +kernel
  exact hd r hr r' hr' h

theorem key_eq_iff {b b' : PlannedObject} (hb : b.Writable) (hb' : b'.Writable) :
    b.key = b'.key ↔ Identity.of b.resource b.object = Identity.of b'.resource b'.object := by
  simp only [PlannedObject.key, ofObject, StoreKey.of, StoreKey.mk.injEq, Identity.of,
    Identity.mk.injEq]
  constructor
  · rintro ⟨hr, h⟩
    rw [resourceText_injective hb.kind hb'.kind hr]
    exact ⟨rfl, h⟩
  · rintro ⟨hk, h⟩
    rw [kind_injective hb.kind hb'.kind hk]
    exact ⟨rfl, h⟩

theorem nodup_keys {bs : List PlannedObject} (hbs : ∀ b ∈ bs, b.Writable)
    (h : (Reconciliation.identities bs).Nodup) : (bs.map PlannedObject.key).Nodup := by
  rw [Reconciliation.identities, List.Nodup, List.pairwise_map] at h
  rw [List.Nodup, List.pairwise_map]
  exact h.imp_of_mem fun hb hb' hne he => hne ((key_eq_iff (hbs _ hb) (hbs _ hb')).1 he)

section Put

variable {S : Setting Rehearsal} {G : Call → Rehearsal → Rehearsal → Prop}
  {I : Rehearsal → Prop} {K : StoreKey → Prop} {w : Rehearsal} {b : PlannedObject}
  {bs : List PlannedObject}

/-- The guarantee allows to write the object under its key, and the invariant survives it. -/
def Permits (G : Call → Rehearsal → Rehearsal → Prop) (I : Rehearsal → Prop)
    (b : PlannedObject) : Prop :=
  ∀ c x w w', c.target? = some b.key → c.object? = some x → x.Carries b.object → w.Intact → I w →
    Made c w w' → G (.store c) w w' ∧ I w'

/-- What is in place under a key that others leave alone stays in place. -/
theorem Stable.inPlace (h : Stable S I K) {w' : Rehearsal} (hk : K b.key) (hr : S.rely w w')
    (hw : w.Intact) (hI : I w) (hin : b.InPlace w.store) : b.InPlace w'.store := by
  obtain ⟨live, hl, hc⟩ := hin
  exact ⟨live, (h.still hk hr hw hI).trans hl, hc⟩

theorem Stable.and_inPlace (h : Stable S I K) (b : PlannedObject) :
    Stable S (fun w => I w ∧ (K b.key → b.InPlace w.store)) K where
  kept hr hw hI := ⟨h.kept hr hw hI.1, fun hk => h.inPlace hk hr hw hI.1 (hI.2 hk)⟩
  still hk hr hw hI := h.still hk hr hw hI.1

/-- Writing another object leaves the one in place. -/
theorem Permits.and_inPlace {x : PlannedObject} (h : Permits G I x) (hne : b.key ≠ x.key) :
    Permits G (fun w => I w ∧ (K b.key → b.InPlace w.store)) x := by
  intro c o w w' ht ho hc hw hI hm
  obtain ⟨hg, hI'⟩ := h c o w w' ht ho hc hw hI.1 hm
  refine ⟨hg, hI', fun hk => ?_⟩
  obtain ⟨live, hl, hc⟩ := hI.2 hk
  exact ⟨live, (hm.find_of_ne ht hne).trans hl, hc⟩

variable (hadm : Admits S G) (hst : Stable S I K)
include hadm hst

theorem yields_get_object (b : PlannedObject) (hw : w.Intact) (hI : I w) :
    S.Yields G (Pass.get b.resource b.object.spaceArg b.object.name)
      (fun found w' => S.rely w w' ∧ (K b.key → found = w'.store.find b.key)) w := by
  refine hadm.yields_get hw fun w₁ w₂ h₁ h₂ => ⟨S.rely_trans h₁ h₂, fun hk => ?_⟩
  rw [Object.spaceArg_getD, hst.still hk h₂ (hadm.intact h₁ hw) (hst.kept h₁ hw hI)]
  rfl

theorem yields_create_object (hp : Permits G I b) (hw : w.Intact) (hI : I w) :
    S.Yields G (Pass.create b.resource b.object)
      (fun _ w' => w'.Intact ∧ I w' ∧ (K b.key → b.InPlace w'.store)) w := by
  have hput {w₁ w₂ : Rehearsal} (h₁ : S.rely w w₁) (hi : w₁.Intact)
      (hm : Made (.create b.resource b.object) w₁ w₂) :=
    hp _ _ w₁ w₂ rfl rfl ⟨rfl, rfl, rfl⟩ hi (hst.kept h₁ hw hI) hm
  refine hadm.ensures_store hw (fun w₁ w₂ h₁ hi hm => (hput h₁ hi hm).1) ?_
    fun _ _ x hx => by cases hx
  intro w₁ w₂ w₃ h₁ hi hm hs h₃ x hx
  have hI₂ := (hput h₁ hi hm).2
  have hin : b.InPlace w₂.store := hs ▸ MemoryStore.find_create_of_ok hx
  exact ⟨hadm.intact h₃ (hm.intact hi), hst.kept h₃ (hm.intact hi) hI₂,
    fun hk => hst.inPlace hk h₃ (hm.intact hi) hI₂ hin⟩

theorem yields_update_object {o : Object} (ho : o.Carries b.object)
    (hk : StoreKey.ofObject b.resource o = b.key) (hp : Permits G I b) (hw : w.Intact)
    (hI : I w) :
    S.Yields G (Pass.update b.resource o)
      (fun _ w' => w'.Intact ∧ I w' ∧ (K b.key → b.InPlace w'.store)) w := by
  have hput {w₁ w₂ : Rehearsal} (h₁ : S.rely w w₁) (hi : w₁.Intact)
      (hm : Made (.update b.resource o) w₁ w₂) :=
    hp (.update b.resource o) o w₁ w₂ (congrArg some hk) rfl ho hi (hst.kept h₁ hw hI) hm
  refine hadm.ensures_store hw (fun w₁ w₂ h₁ hi hm => (hput h₁ hi hm).1) ?_
    fun _ _ x hx => by cases hx
  intro w₁ w₂ w₃ h₁ hi hm hs h₃ x hx
  have hI₂ := (hput h₁ hi hm).2
  have hin : b.InPlace w₂.store := by
    obtain ⟨new, hn, hc⟩ := MemoryStore.find_update_of_ok hx
    refine ⟨new, hk ▸ hs ▸ hn, ?_⟩
    exact ⟨hc.labels.trans ho.labels, hc.annotations.trans ho.annotations, hc.spec.trans ho.spec⟩
  exact ⟨hadm.intact h₃ (hm.intact hi), hst.kept h₃ (hm.intact hi) hI₂,
    fun hk => hst.inPlace hk h₃ (hm.intact hi) hI₂ hin⟩

theorem yields_writeObject (hb : b.Writable) (hp : Permits G I b) (hw : w.Intact) (hI : I w) :
    S.Yields G (Convergence.writeObject b.resource b.object)
      (fun _ w' => w'.Intact ∧ I w' ∧ (K b.key → b.InPlace w'.store)) w := by
  refine (yields_get_object hadm hst b hw hI).bind fun found w₁ ⟨h₁, hfound⟩ => ?_
  have hw₁ := hadm.intact h₁ hw
  have hI₁ := hst.kept h₁ hw hI
  have written {p : Pass Object} {x : WriteResult}
      (h : S.Yields G p (fun _ w' => w'.Intact ∧ I w' ∧ (K b.key → b.InPlace w'.store)) w₁) :
      S.Yields G (do let _ ← p; pure x)
        (fun _ w' => w'.Intact ∧ I w' ∧ (K b.key → b.InPlace w'.store)) w₁ :=
    h.bind fun _ w₂ ⟨hw₂, hI₂, hin⟩ => Setting.yields_pure fun w₃ h₃ =>
      ⟨hadm.intact h₃ hw₂, hst.kept h₃ hw₂ hI₂, fun hk => hst.inPlace hk h₃ hw₂ hI₂ (hin hk)⟩
  cases found with
  | none => exact written (yields_create_object hadm hst hp hw₁ hI₁)
  | some live =>
    by_cases hout : live.isOutdated b.object = false
    · simp only [hout, Bool.not_false, ↓reduceIte]
      refine Setting.yields_pure fun w₂ h₂ => ?_
      refine ⟨hadm.intact h₂ hw₁, hst.kept h₂ hw₁ hI₁, fun hk => hst.inPlace hk h₂ hw₁ hI₁ ?_⟩
      exact ⟨live, (hfound hk).symm, (hb.isOutdated_eq_false_iff live).1 hout⟩
    · rw [Bool.not_eq_false] at hout
      simp only [hout, Bool.not_true, Bool.false_eq_true, ↓reduceIte]
      exact written (yields_update_object hadm hst ⟨rfl, rfl, rfl⟩ rfl hp hw₁ hI₁)

theorem yields_writeAll_cons {Q : Unit → Rehearsal → Prop} (hb : b.Writable) (hp : Permits G I b)
    (hw : w.Intact) (hI : I w)
    (h : ∀ w', w'.Intact → I w' → (K b.key → b.InPlace w'.store) →
      S.Yields G (Reconciliation.writeAll bs) Q w') :
    S.Yields G (Reconciliation.writeAll (b :: bs)) Q w := by
  refine Setting.Yields.bind (hadm.yields_checkpoint hw _) fun _ w₁ h₁ => ?_
  refine (yields_writeObject hadm hst hb hp (hadm.intact h₁ hw) (hst.kept h₁ hw hI)).bind ?_
  exact fun _ w₂ ⟨hw₂, hI₂, hin⟩ => h w₂ hw₂ hI₂ hin

theorem yields_writeAll (hbs : ∀ b ∈ bs, b.Writable) (hp : ∀ b ∈ bs, Permits G I b)
    (hd : (bs.map PlannedObject.key).Nodup) (hw : w.Intact) (hI : I w) :
    S.Yields G (Reconciliation.writeAll bs)
      (fun _ w' => w'.Intact ∧ I w' ∧ ∀ b ∈ bs, K b.key → b.InPlace w'.store) w := by
  induction bs generalizing w I with
  | nil =>
    exact Setting.yields_pure fun w' h' => ⟨hadm.intact h' hw, hst.kept h' hw hI, by simp⟩
  | cons b bs ih =>
    obtain ⟨hne, hd⟩ := List.nodup_cons.1 hd
    have hb := hbs b List.mem_cons_self
    have hpb := hp b List.mem_cons_self
    refine yields_writeAll_cons hadm hst hb hpb hw hI fun w₂ hw₂ hI₂ hin => ?_
    -- what was written is part of the invariant from here on
    have hrest := ih (hst.and_inPlace b) (fun x hx => hbs x (List.mem_cons_of_mem _ hx))
      (fun x hx => (hp x (List.mem_cons_of_mem _ hx)).and_inPlace fun he =>
        hne (List.mem_map.2 ⟨x, hx, he.symm⟩)) hd hw₂ ⟨hI₂, hin⟩
    refine hrest.mono fun _ w₃ ⟨hw₃, ⟨hI₃, hin₃⟩, hbs₃⟩ => ⟨hw₃, hI₃, fun x hx => ?_⟩
    rcases List.mem_cons.1 hx with rfl | hx
    · exact hin₃
    · exact hbs₃ x hx

end Put

variable {P : StoreKey → Prop} {w : Rehearsal} {b : PlannedObject} {bs : List PlannedObject}

theorem permits_writesOnly (hb : P b.key) : Permits (WritesOnly P) (fun _ => True) b :=
  fun _ _ _ _ ht _ _ _ _ hm =>
    ⟨writesOnly_of_made ht hb hm, trivial⟩

theorem rests_writeObject (hb : b.Writable) (hw : w.Intact) (hin : b.InPlace w.store) :
    alone.Yields Rests (Convergence.writeObject b.resource b.object) (fun _ w' => Alike w w')
      w := by
  obtain ⟨live, hl, hc⟩ := hin
  have hst := stable_alone (I := fun _ => True) (fun _ _ _ h => h) fun _ => True
  refine (yields_get_object admits_rests hst b hw trivial).bind fun found w₁ ⟨h₁, hfound⟩ => ?_
  have hout := (hb.isOutdated_eq_false_iff live).2 hc
  rw [Alike.store h₁, hl] at hfound
  simp only [hfound trivial, hout, Bool.not_false, ↓reduceIte]
  exact Setting.yields_pure fun w₂ h₂ => h₁.trans h₂

theorem rests_writeAll (hbs : ∀ b ∈ bs, b.Writable) (hw : w.Intact)
    (hin : ∀ b ∈ bs, b.InPlace w.store) :
    alone.Yields Rests (Reconciliation.writeAll bs) (fun _ w' => Alike w w') w := by
  induction bs generalizing w with
  | nil => exact Setting.yields_pure fun w' h' => h'
  | cons b bs ih =>
    refine Setting.Yields.bind (admits_rests.yields_checkpoint hw _) fun _ w₁ h₁ => ?_
    have hb := rests_writeObject (hbs b List.mem_cons_self) (h₁.intact hw)
      (h₁.store ▸ hin b List.mem_cons_self)
    refine hb.bind fun _ w₂ h₂ => ?_
    have h₁₂ := h₁.trans h₂
    have hrest := ih (fun x hx => hbs x (List.mem_cons_of_mem _ hx)) (h₁₂.intact hw)
      fun x hx => h₁₂.store ▸ hin x (List.mem_cons_of_mem _ hx)
    exact hrest.mono fun _ w₃ h₃ => h₁₂.trans h₃

end MeshRollout
