import MeshRollout.Proofs.Rollout.Dangling

/-!
Letting go of a route, as far as subsets are concerned: the rules are swept before the destination
rules, so nothing dangles in between.
-/
set_option autoImplicit false

namespace MeshRollout

open StoreKey Rehearsal Sweep Reconciliation

namespace Leaving

def Thinning (r : Resource) (c : Call) : Prop :=
  ∀ sc, c = .store sc → sc.object? = none ∧ ∀ k, sc.target? = some k → k.resource = resourceText r

theorem thinning_list (r r' : Resource) (space selector : Option String) :
    Thinning r (.store (.list r' space selector)) := by
  intro sc hc
  rw [← Call.store.inj hc]
  exact ⟨rfl, fun k hk => nomatch hk⟩

theorem thinning_delete (r : Resource) (space : Option String) (name : String) :
    Thinning r (.store (.delete r space name)) := by
  intro sc hc
  rw [← Call.store.inj hc]
  exact ⟨rfl, fun k hk => Option.some.inj hk ▸ rfl⟩

theorem checkpoint_thinning (r : Resource) (stage : String) :
    (Pass.checkpoint stage).Uses (Thinning r) :=
  Pass.uses_checkpoint (fun _ h => nomatch h) stage

theorem deleteAll_thinning (r : Resource) (l : List Object) :
    (deleteAll r l).Uses (Thinning r) := by
  induction l with
  | nil => exact Pass.uses_pure _
  | cons live l ih =>
    have hdelete : (Pass.delete r live.spaceArg live.name).Uses (Thinning r) :=
      Program.uses_ask (thinning_delete r live.spaceArg live.name)
    refine (checkpoint_thinning r _).bind fun _ => hdelete.bind fun _ => ?_
    exact ih.bind fun _ => Pass.uses_pure _

theorem sweepKind_thinning (o : Owner) (keep : List Identity) (r : Resource) :
    (sweepKind o keep r).Uses (Thinning r) := by
  have hlist : (Pass.list r none (some o.selector)).Uses (Thinning r) :=
    Program.uses_ask (thinning_list r r none _)
  exact (checkpoint_thinning r _).bind fun _ => hlist.bind fun _ => deleteAll_thinning r _

def Thinned (r : Resource) (w w' : Rehearsal) : Prop :=
  ∀ k, w'.store.find k = w.store.find k ∨
    (k.resource = resourceText r ∧ w'.store.find k = none)

theorem Thinned.of_same {r : Resource} {w w' : Rehearsal} (h : w'.store = w.store) :
    Thinned r w w' :=
  fun _ => .inl (by rw [h])

theorem Thinned.trans {r : Resource} {w w' w'' : Rehearsal} (h : Thinned r w w')
    (h' : Thinned r w' w'') : Thinned r w w'' := by
  intro k
  rcases h' k with he | hn
  · rw [he]
    exact h k
  · exact .inr hn

structure Plain (c : Call) (w w' : Rehearsal) : Prop where
  made : ∀ sc, c = .store sc → Made sc w w'
  storeless : c.Storeless → w'.store = w.store

theorem admits_plain : Admits alone Plain :=
  admits_alone fun _ _ _ _ h =>
    ⟨fun _ _ => ⟨h.routes, h.races, .inl h.store⟩, fun _ => h.store⟩

theorem sweepable_plain {o : Owner} (hspace : IsDnsName o.space) (hname : IsDnsName o.name)
    (keep : List Identity) :
    Sweepable alone Plain o keep (fun _ => True) (fun _ _ => True) where
  toAdmits := admits_plain
  name := hname
  space := hspace
  shrinks h _ hk := h.store ▸ hk
  open_of_stale _ _ := trivial
  open_of_rely _ _ := trivial
  open_of_fewer _ _ := trivial
  deletes _ _ hm := ⟨fun _ hsc => Call.store.inj hsc ▸ hm, fun hc => absurd rfl (hc _)⟩

theorem Plain.thinned {r : Resource} {c : Call} {w w' : Rehearsal} (h : Plain c w w')
    (hc : Thinning r c) : Thinned r w w' := by
  cases c with
  | store sc =>
    obtain ⟨hputs, htarget⟩ := hc sc rfl
    intro k
    refine ((h.made sc rfl).find k).imp id fun ⟨ht, hgone⟩ => ⟨htarget k ht, ?_⟩
    rcases hgone with hn | ⟨x, _, hx, -⟩
    · exact hn
    · cases hputs.symm.trans hx
  | route c => exact .of_same (h.storeless fun sc hsc => nomatch hsc)
  | notify message => exact .of_same (h.storeless fun sc hsc => nomatch hsc)
  | cancelled => exact .of_same (h.storeless fun sc hsc => nomatch hsc)
  | now => exact .of_same (h.storeless fun sc hsc => nomatch hsc)
  | fetch => exact .of_same (h.storeless fun sc hsc => nomatch hsc)

/-- A sweep of one kind leaves nothing stale of this kind, and takes nothing of another one. -/
theorem yields_sweepKind_thinned {o : Owner} (hspace : IsDnsName o.space) (hname : IsDnsName o.name)
    (keep : List Identity) {r : Resource} (hr : r ∈ producedKinds) {w : Rehearsal}
    (hw : w.Intact) :
    alone.Yields (fun _ => Thinned r) (sweepKind o keep r)
      (fun _ w' => (w'.Intact ∧ ∀ k, StaleAt o keep w'.store k → k.resource ≠ resourceText r) ∧
        Thinned r w w') w := by
  have hsweep := (sweepable_plain hspace hname keep).yields_sweepKind hr
    (L := fun _ => True) hw (fun _ _ => trivial) (fun _ _ => trivial)
  have hthin : alone.Yields (fun _ => Thinned r) (sweepKind o keep r)
      (fun _ w' => w'.Intact ∧ ∀ k, StaleAt o keep w'.store k → k.resource ≠ resourceText r) w :=
    ((hsweep.and_uses (sweepKind_thinning o keep r)).weaken fun _ _ _ h => h.1.thinned h.2).mono
      fun _ _ h x hx => ⟨(h x hx).1, fun k hk => ((h x hx).2 k hk).2⟩
  exact hthin.tied (fun _ _ _ h h' => h.trans h') (fun _ _ h => .of_same (Alike.store h))
    fun _ _ _ h => h

/-- Taking rules away leaves nothing dangling that was not. -/
theorem Thinned.fine {ss : List Service} {w w' : Rehearsal}
    (h : Thinned VirtualServiceSpec.kind.resource w w') (hfine : Fine ss w.store) :
    Fine ss w'.store := by
  intro t ht x hx
  refine hfine t ht x (hx.of_fewer_rules (fun k _ => (h k).imp id And.right) ?_)
  exact (h t.subsetKey).resolve_right fun ⟨hr, _⟩ => Service.resource_subsetKey_ne hr

/-- What is left of a sweep when the rules are gone leaves no rules. -/
theorem bounded_noRules (ss : List Service) (o : Owner) :
    Bounded alone (fun _ w w' => Fine ss w.store → Fine ss w'.store) o []
      (fun w => NoRules ss w.store) (fun _ => True) where
  toAdmits := admits_alone fun _ _ _ _ h hfine => h.store ▸ hfine
  kept h _ hI := h.store ▸ hI
  within _ _ _ := trivial
  deletes {w w' r live} _ hI _ hm := by
    have hI' : NoRules ss w'.store := by
      intro t ht k hk
      rcases Sweepable.find_delete hm k with he | ⟨-, hn⟩
      · exact he.trans (hI t ht k hk)
      · exact hn
    exact ⟨fun _ => hI'.fine, hI'⟩

theorem yields_letGo {ss : List Service} {o : Owner} (hspace : IsDnsName o.space)
    (hname : IsDnsName o.name) {r : Route} {w : Rehearsal} (hw : w.Intact)
    (hmarked : ∀ t ∈ ss, ∀ k ∈ t.ruleKeys, ∀ live, w.store.find k = some live →
      o.owns live.labels = true) :
    alone.Yields (fun _ w w' => Fine ss w.store → Fine ss w'.store) (letGo o r)
      (fun _ w' => Fine ss w'.store) w := by
  have hrules : VirtualServiceSpec.kind.resource ∈ producedKinds := List.mem_cons_self
  have hfirst : alone.Yields (fun _ w w' => Fine ss w.store → Fine ss w'.store) _ _ w :=
    (yields_sweepKind_thinned hspace hname [] hrules hw).weaken fun _ _ _ h => h.fine
  -- a rule that is still live would carry the mark, and so it would be stale
  have hgone {w₁ : Rehearsal}
      (hstale : ∀ k, StaleAt o [] w₁.store k →
        k.resource ≠ resourceText VirtualServiceSpec.kind.resource)
      (hthin : Thinned VirtualServiceSpec.kind.resource w w₁) : NoRules ss w₁.store := by
    intro t ht k hk
    rcases hthin k with he | ⟨-, hn⟩
    · cases hl : w₁.store.find k with
      | none => rfl
      | some live =>
        have howns := hmarked t ht k hk live (he ▸ hl)
        have hk' := Service.resource_of_ruleKeys hk
        exact absurd hk' (hstale k ⟨_, hrules, hk', live, hl, by simp [isStale, howns]⟩)
    · exact hn
  have hothers : ∀ r ∈ producedKinds.tail, r ∈ producedKinds := fun r hr => List.mem_of_mem_tail hr
  refine Setting.Yields.bind (p := sweep o []) (R := fun _ w' => w'.Intact ∧ NoRules ss w'.store)
    (hfirst.bind ?_) ?_
  · rintro - w₁ ⟨⟨hw₁, hstale⟩, hthin⟩
    have hrest := (bounded_noRules ss o).yields_sweepKinds hothers hw₁ (hgone hstale hthin)
    refine hrest.bind ?_
    rintro - w₂ ⟨hw₂, hnone⟩
    exact Setting.yields_pure fun w₃ h₃ => ⟨h₃.intact hw₂, h₃.store ▸ hnone⟩
  · rintro - w₁ ⟨hw₁, hnone⟩
    have hstoreless : Call.Storeless (.route (.release o.space r.name edgeCleanup)) := by
      rintro sc ⟨⟩
    have hrelease := ensures_of_storeless
      (G := fun _ w w' => Fine ss w.store → Fine ss w'.store) (fun _ _ _ he hf => he ▸ hf)
      (p := Program.ask (.route (.release o.space r.name edgeCleanup)))
      (Program.uses_ask hstoreless) hw₁
    refine hrelease.mono fun _ w₂ he _ _ => ?_
    dsimp only
    rw [he]
    exact hnone.fine

end Leaving

end MeshRollout
