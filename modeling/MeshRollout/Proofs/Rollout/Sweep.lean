import Mathlib.Data.List.Nodup
import MeshRollout.Proofs.Cluster.Rules
import MeshRollout.Proofs.Desired.Agreement
import MeshRollout.Proofs.Owner
import MeshRollout.Rollout.Sweep

/-!
What a sweep does. The keys that still hold a stale object get fewer with every kind and every
deletion, whatever others delete meanwhile; at the end of a sweep none is left.
-/
set_option autoImplicit false

namespace MeshRollout

open StoreKey Rehearsal

theorem nodup_resourceText : (producedKinds.map resourceText).Nodup := by
  decide +kernel

theorem resourceText_injective {r r' : Resource} (hr : r ∈ producedKinds) (hr' : r' ∈ producedKinds)
    (h : resourceText r = resourceText r') : r = r' :=
  List.inj_on_of_nodup_map nodup_resourceText hr hr' h

theorem resourceText_ne {r r' : Resource} (hr : r ∈ producedKinds) (hr' : r' ∈ producedKinds)
    (h : r.kind ≠ r'.kind) : resourceText r ≠ resourceText r' :=
  fun he => h (congrArg Resource.kind (resourceText_injective hr hr' he))

namespace Sweep

/-- A key holds an object with the mark, of a kind that routes produce, that is not to be kept. -/
def StaleAt (o : Owner) (keep : List Identity) (s : MemoryStore) (k : StoreKey) : Prop :=
  ∃ r ∈ producedKinds, k.resource = resourceText r ∧
    ∃ live, s.find k = some live ∧ isStale o keep r live = true

variable {o : Owner} {keep : List Identity} {s : MemoryStore}

theorem StaleAt.of_fewer {s' : MemoryStore} {k : StoreKey} (h : StaleAt o keep s' k)
    (hf : s'.find k = s.find k ∨ s'.find k = none) : StaleAt o keep s k := by
  obtain ⟨r, hr, hk, live, hl, hs⟩ := h
  rcases hf with hf | hf
  · exact ⟨r, hr, hk, live, hf ▸ hl, hs⟩
  · cases hf.symm.trans hl

/-- What was left alone and then only swept was only swept. -/
theorem StaleAt.gone_trans {s' s'' : MemoryStore} {k : StoreKey}
    (h : s'.find k = s.find k ∨ (StaleAt o keep s k ∧ s'.find k = none))
    (h' : s''.find k = s'.find k ∨ (StaleAt o keep s' k ∧ s''.find k = none)) :
    s''.find k = s.find k ∨ (StaleAt o keep s k ∧ s''.find k = none) := by
  rcases h' with he | ⟨hs, hn⟩
  · rw [he]
    exact h
  · rcases h with he | ⟨-, hn'⟩
    · exact .inr ⟨hs.of_fewer (.inl he), hn⟩
    · obtain ⟨_, _, _, live, hl, -⟩ := hs
      cases hn'.symm.trans hl

/-- Listing with the selector finds the marked objects of a kind in every namespace. -/
theorem mem_list_selector (hname : IsDnsName o.name) (hspace : IsDnsName o.space) (hs : s.Sound)
    (r : Resource) (live : Object) :
    live ∈ s.list r none (some o.selector) ↔
      s.find (.ofObject r live) = some live ∧ o.owns live.labels = true := by
  simp [hs.mem_list, Owner.selected_selector hname hspace]

/-- What the sweep of a route's objects needs: others do not add stale objects, and the guarantee
allows to delete under the keys that are open, among them every stale one that `K` admits. -/
structure Sweepable (S : Setting Rehearsal) (G : Call → Rehearsal → Rehearsal → Prop) (o : Owner)
    (keep : List Identity) (K : StoreKey → Prop) (Open : Rehearsal → StoreKey → Prop) : Prop
    extends Admits S G where
  name : IsDnsName o.name
  space : IsDnsName o.space
  shrinks : ∀ {w w' : Rehearsal} {k : StoreKey}, S.rely w w' → w.Intact →
    StaleAt o keep w'.store k → StaleAt o keep w.store k
  open_of_stale : ∀ {w : Rehearsal} {k : StoreKey}, K k → StaleAt o keep w.store k → Open w k
  open_of_rely : ∀ {w w' : Rehearsal} {k : StoreKey}, S.rely w w' → Open w k → Open w' k
  open_of_fewer : ∀ {w w' : Rehearsal} {k : StoreKey},
    (w'.store.find k = w.store.find k ∨ w'.store.find k = none) → Open w k → Open w' k
  deletes : ∀ {w w' : Rehearsal} {r : Resource} {live : Object}, w.Intact →
    Open w (.ofObject r live) → Made (.delete r live.spaceArg live.name) w w' →
    G (.store (.delete r live.spaceArg live.name)) w w'

namespace Sweepable

variable {S : Setting Rehearsal} {G : Call → Rehearsal → Rehearsal → Prop}
  {K : StoreKey → Prop} {Open : Rehearsal → StoreKey → Prop} {w : Rehearsal} {r : Resource}

theorem find_delete {live : Object} {w w' : Rehearsal}
    (h : Made (.delete r live.spaceArg live.name) w w') (k : StoreKey) :
    w'.store.find k = w.store.find k ∨
      (k = .ofObject r live ∧ w'.store.find k = none) := by
  refine (h.find k).imp id fun ⟨ht, hn⟩ => ⟨?_, ?_⟩
  · rw [StoreCall.target?, live.spaceArg_getD] at ht
    exact (Option.some.inj ht).symm
  · rcases hn with hn | ⟨_, _, ho, -⟩
    · exact hn
    · cases ho

/-- A deletion takes one object from what is stale and listed. -/
theorem yields_delete (h : Sweepable S G o keep K Open) {live : Object} {l : List Object}
    {L : StoreKey → Prop} (hw : w.Intact) (hopen : ∀ x ∈ live :: l, Open w (.ofObject r x))
    (hin : ∀ k, StaleAt o keep w.store k →
      L k ∧ (k.resource = resourceText r → ∃ x ∈ live :: l, k = .ofObject r x)) :
    S.Yields G (Pass.delete r live.spaceArg live.name) (fun _ w' => w'.Intact ∧
      (∀ x ∈ l, Open w' (.ofObject r x)) ∧
      ∀ k, StaleAt o keep w'.store k →
        L k ∧ (k.resource = resourceText r → ∃ x ∈ l, k = .ofObject r x)) w := by
  refine h.ensures_store hw ?deletes ?deleted ?failed
  case deletes =>
    intro w₁ w₂ h₁ hi hm
    exact h.deletes hi (h.open_of_rely h₁ (hopen live List.mem_cons_self)) hm
  case deleted =>
    intro w₁ w₂ w₃ h₁ hi hm hs h₃ gone hgone
    have hfew (k : StoreKey) : w₂.store.find k = w₁.store.find k ∨ w₂.store.find k = none :=
      (find_delete hm k).imp id And.right
    have hgoes : w₂.store.find (.ofObject r live) = none := by
      have hn := MemoryStore.find_delete_of_ok hgone
      rw [live.spaceArg_getD] at hn
      rw [hs]
      exact hn
    refine ⟨h.intact h₃ (hm.intact hi), fun x hx => ?_, fun k hk => ?_⟩
    · have ho := h.open_of_rely h₁ (hopen x (List.mem_cons_of_mem _ hx))
      exact h.open_of_rely h₃ (h.open_of_fewer (hfew _) ho)
    · have hk₂ := h.shrinks h₃ (hm.intact hi) hk
      obtain ⟨hl, hr⟩ := hin k (h.shrinks h₁ hw (hk₂.of_fewer (hfew k)))
      refine ⟨hl, fun he => ?_⟩
      obtain ⟨x, hx, rfl⟩ := hr he
      rcases List.mem_cons.1 hx with rfl | hx
      · obtain ⟨_, _, _, found, hfound, -⟩ := hk₂
        cases hgoes.symm.trans hfound
      · exact ⟨x, hx, rfl⟩
  case failed =>
    intro f w' x hx
    cases hx

theorem yields_deleteAll (h : Sweepable S G o keep K Open) {l : List Object} {L : StoreKey → Prop}
    (hw : w.Intact) (hopen : ∀ live ∈ l, Open w (.ofObject r live))
    (hin : ∀ k, StaleAt o keep w.store k →
      L k ∧ (k.resource = resourceText r → ∃ live ∈ l, k = .ofObject r live)) :
    S.Yields G (deleteAll r l) (fun _ w' => w'.Intact ∧
      ∀ k, StaleAt o keep w'.store k → L k ∧ k.resource ≠ resourceText r) w := by
  induction l generalizing w with
  | nil =>
    refine Setting.yields_pure fun w' h' => ⟨h.intact h' hw, fun k hk => ?_⟩
    obtain ⟨hl, hr⟩ := hin k (h.shrinks h' hw hk)
    refine ⟨hl, fun he => ?_⟩
    obtain ⟨live, hm, -⟩ := hr he
    cases hm
  | cons live l ih =>
    refine Setting.Yields.bind (h.yields_checkpoint hw _) fun _ w₁ h₁ => ?_
    have hdelete := h.yields_delete (h.intact h₁ hw) (fun x hx => h.open_of_rely h₁ (hopen x hx))
      fun k hk => hin k (h.shrinks h₁ hw hk)
    refine Setting.Yields.bind hdelete fun gone w₂ ⟨hw₂, hopen₂, hin₂⟩ => ?_
    refine Setting.Yields.bind (ih hw₂ hopen₂ hin₂) fun deleted w₃ ⟨hw₃, hin₃⟩ => ?_
    exact Setting.yields_pure fun w₄ h₄ =>
      ⟨h.intact h₄ hw₃, fun k hk => hin₃ k (h.shrinks h₄ hw₃ hk)⟩

theorem yields_sweepKind (h : Sweepable S G o keep K Open) (hr : r ∈ producedKinds)
    {L : StoreKey → Prop} (hw : w.Intact) (hL : ∀ k, L k → K k)
    (hin : ∀ k, StaleAt o keep w.store k → L k) :
    S.Yields G (sweepKind o keep r) (fun _ w' => w'.Intact ∧
      ∀ k, StaleAt o keep w'.store k → L k ∧ k.resource ≠ resourceText r) w := by
  refine Setting.Yields.bind (h.yields_checkpoint hw _) fun _ w₁ h₁ => ?_
  have hw₁ := h.intact h₁ hw
  have hlist : S.Yields G (Pass.list r none (some o.selector)) (fun live w' => w'.Intact ∧
      (∀ x ∈ live.filter (isStale o keep r), Open w' (.ofObject r x)) ∧
      ∀ k, StaleAt o keep w'.store k → L k ∧
        (k.resource = resourceText r →
          ∃ x ∈ live.filter (isStale o keep r), k = .ofObject r x)) w₁ := by
    refine h.yields_list hw₁ fun w₂ w₃ h₂ h₃ => ?_
    have hw₂ := h.intact h₂ hw₁
    have hmem := mem_list_selector h.name h.space hw₂.sound r
    have hin₂ (k : StoreKey) (hk : StaleAt o keep w₂.store k) : L k :=
      hin k (h.shrinks (S.rely_trans h₁ h₂) hw hk)
    refine ⟨h.intact h₃ hw₂, fun x hx => ?_, fun k hk => ?_⟩
    · obtain ⟨hx, hstale⟩ := List.mem_filter.1 hx
      have hk : StaleAt o keep w₂.store (.ofObject r x) :=
        ⟨r, hr, rfl, x, ((hmem x).1 hx).1, hstale⟩
      exact h.open_of_rely h₃ (h.open_of_stale (hL _ (hin₂ _ hk)) hk)
    · have hk₂ := h.shrinks h₃ hw₂ hk
      refine ⟨hin₂ k hk₂, fun he => ?_⟩
      obtain ⟨r', hr', hk', live, hl, hstale⟩ := hk₂
      cases resourceText_injective hr hr' (he.symm.trans hk')
      have hkey := hw₂.sound.ofObject_eq he hl
      have howns : o.owns live.labels = true := (Bool.and_eq_true_iff.1 hstale).1
      exact ⟨live, List.mem_filter.2 ⟨(hmem live).2 ⟨hkey.symm ▸ hl, howns⟩, hstale⟩, hkey.symm⟩
  exact Setting.Yields.bind hlist fun live w₂ ⟨hw₂, hopen, hin₂⟩ =>
    h.yields_deleteAll hw₂ hopen hin₂

theorem yields_sweepKinds (h : Sweepable S G o keep K Open) {rs : List Resource}
    (hrs : ∀ r ∈ rs, r ∈ producedKinds) {L : StoreKey → Prop} (hw : w.Intact)
    (hL : ∀ k, L k → K k) (hin : ∀ k, StaleAt o keep w.store k → L k) :
    S.Yields G (sweepKinds o keep rs) (fun _ w' => w'.Intact ∧
      ∀ k, StaleAt o keep w'.store k → L k ∧ ∀ r ∈ rs, k.resource ≠ resourceText r) w := by
  induction rs generalizing w L with
  | nil =>
    refine Setting.yields_pure fun w' h' => ⟨h.intact h' hw, fun k hk => ?_⟩
    exact ⟨hin k (h.shrinks h' hw hk), by simp⟩
  | cons r rs ih =>
    refine Setting.Yields.bind (h.yields_sweepKind (hrs r List.mem_cons_self) hw hL hin) ?_
    intro deleted w₁ ⟨hw₁, hin₁⟩
    have hrest := ih (fun x hx => hrs x (List.mem_cons_of_mem _ hx)) hw₁
      (fun k hk => hL k hk.1) hin₁
    refine Setting.Yields.bind hrest fun more w₂ ⟨hw₂, hin₂⟩ => ?_
    refine Setting.yields_pure fun w₃ h₃ => ⟨h.intact h₃ hw₂, fun k hk => ?_⟩
    obtain ⟨⟨hl, hr⟩, hne⟩ := hin₂ k (h.shrinks h₃ hw₂ hk)
    refine ⟨hl, fun x hx => ?_⟩
    rcases List.mem_cons.1 hx with rfl | hx
    · exact hr
    · exact hne x hx

/-- A sweep that ends well leaves no stale object in any namespace. -/
theorem yields_sweep (h : Sweepable S G o keep K Open) (hw : w.Intact)
    (hin : ∀ k, StaleAt o keep w.store k → K k) :
    S.Yields G (sweep o keep) (fun _ w' => w'.Intact ∧ ∀ k, ¬ StaleAt o keep w'.store k) w := by
  refine (h.yields_sweepKinds (fun _ hr => hr) hw (fun _ hk => hk) hin).mono ?_
  intro deleted w' ⟨hw', hin'⟩
  refine ⟨hw', fun k hk => ?_⟩
  obtain ⟨r, hr, hkr, -⟩ := id hk
  exact (hin' k hk).2 r hr hkr

end Sweepable

/-- What a sweep needs that has to keep to certain keys: others keep the invariant, under which all
stale objects are there, and the guarantee allows to delete there. -/
structure Bounded (S : Setting Rehearsal) (G : Call → Rehearsal → Rehearsal → Prop) (o : Owner)
    (keep : List Identity) (I : Rehearsal → Prop) (D : StoreKey → Prop) : Prop
    extends Admits S G where
  kept : ∀ {w w' : Rehearsal}, S.rely w w' → w.Intact → I w → I w'
  within : ∀ {w : Rehearsal} {k : StoreKey}, w.Intact → I w → StaleAt o keep w.store k → D k
  deletes : ∀ {w w' : Rehearsal} {r : Resource} {live : Object}, w.Intact → I w →
    D (.ofObject r live) → Made (.delete r live.spaceArg live.name) w w' →
    G (.store (.delete r live.spaceArg live.name)) w w' ∧ I w'

namespace Bounded

variable {S : Setting Rehearsal} {G : Call → Rehearsal → Rehearsal → Prop}
  {I : Rehearsal → Prop} {D : StoreKey → Prop} {w : Rehearsal} {r : Resource}

theorem yields_deleteAll (h : Bounded S G o keep I D) {l : List Object}
    (hl : ∀ live ∈ l, D (.ofObject r live)) (hw : w.Intact) (hI : I w) :
    S.Yields G (deleteAll r l) (fun _ w' => w'.Intact ∧ I w') w := by
  induction l generalizing w with
  | nil => exact Setting.yields_pure fun w' h' => ⟨h.intact h' hw, h.kept h' hw hI⟩
  | cons live l ih =>
    refine Setting.Yields.bind (h.yields_checkpoint hw _) fun _ w₁ h₁ => ?_
    have hD := hl live List.mem_cons_self
    have hdelete : S.Yields G (Pass.delete r live.spaceArg live.name)
        (fun _ w' => w'.Intact ∧ I w') w₁ := by
      have hi {w₂ : Rehearsal} (h₂ : S.rely w₁ w₂) : I w₂ := h.kept (S.rely_trans h₁ h₂) hw hI
      refine h.ensures_store (h.intact h₁ hw) ?_ ?_ fun _ _ x hx => by cases hx
      · exact fun w₂ w₃ h₂ hw₂ hm => (h.deletes hw₂ (hi h₂) hD hm).1
      · intro w₂ w₃ w₄ h₂ hw₂ hm _ h₄ _ _
        have hI₃ := (h.deletes hw₂ (hi h₂) hD hm).2
        exact ⟨h.intact h₄ (hm.intact hw₂), h.kept h₄ (hm.intact hw₂) hI₃⟩
    refine hdelete.bind fun gone w₂ ⟨hw₂, hI₂⟩ => ?_
    refine Setting.Yields.bind (ih (fun x hx => hl x (List.mem_cons_of_mem _ hx)) hw₂ hI₂) ?_
    exact fun deleted w₃ ⟨hw₃, hI₃⟩ =>
      Setting.yields_pure fun w₄ h₄ => ⟨h.intact h₄ hw₃, h.kept h₄ hw₃ hI₃⟩

/-- What is stale when it is listed may be deleted later, whatever happens in between. -/
theorem yields_sweepKind (h : Bounded S G o keep I D) (hr : r ∈ producedKinds) (hw : w.Intact)
    (hI : I w) : S.Yields G (sweepKind o keep r) (fun _ w' => w'.Intact ∧ I w') w := by
  refine Setting.Yields.bind (h.yields_checkpoint hw _) fun _ w₁ h₁ => ?_
  have hlist : S.Yields G (Pass.list r none (some o.selector)) (fun live w' => w'.Intact ∧ I w' ∧
      ∀ x ∈ live.filter (isStale o keep r), D (.ofObject r x)) w₁ := by
    refine h.yields_list (h.intact h₁ hw) fun w₂ w₃ h₂ h₃ => ?_
    have hw₂ := h.intact (S.rely_trans h₁ h₂) hw
    have hI₂ := h.kept (S.rely_trans h₁ h₂) hw hI
    refine ⟨h.intact h₃ hw₂, h.kept h₃ hw₂ hI₂, fun x hx => h.within hw₂ hI₂ ?_⟩
    obtain ⟨hx, hstale⟩ := List.mem_filter.1 hx
    exact ⟨r, hr, rfl, x, (hw₂.sound.mem_list.1 hx).1, hstale⟩
  exact hlist.bind fun live w₂ ⟨hw₂, hI₂, hl⟩ => h.yields_deleteAll hl hw₂ hI₂

theorem yields_sweepKinds (h : Bounded S G o keep I D) {rs : List Resource}
    (hrs : ∀ r ∈ rs, r ∈ producedKinds) (hw : w.Intact) (hI : I w) :
    S.Yields G (sweepKinds o keep rs) (fun _ w' => w'.Intact ∧ I w') w := by
  induction rs generalizing w with
  | nil => exact Setting.yields_pure fun w' h' => ⟨h.intact h' hw, h.kept h' hw hI⟩
  | cons r rs ih =>
    refine (h.yields_sweepKind (hrs r List.mem_cons_self) hw hI).bind fun _ w₁ ⟨hw₁, hI₁⟩ => ?_
    refine (ih (fun x hx => hrs x (List.mem_cons_of_mem _ hx)) hw₁ hI₁).bind ?_
    exact fun _ w₂ ⟨hw₂, hI₂⟩ =>
      Setting.yields_pure fun w₃ h₃ => ⟨h.intact h₃ hw₂, h.kept h₃ hw₂ hI₂⟩

theorem yields_sweep (h : Bounded S G o keep I D) (hw : w.Intact) (hI : I w) :
    S.Yields G (sweep o keep) (fun _ w' => w'.Intact ∧ I w') w :=
  h.yields_sweepKinds (fun _ hr => hr) hw hI

end Bounded

end Sweep

end MeshRollout
