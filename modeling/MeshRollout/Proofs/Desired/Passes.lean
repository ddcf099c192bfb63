import Mathlib.Data.List.Induction
import MeshRollout.Proofs.Cluster.Quiet
import MeshRollout.Proofs.Cluster.Rules
import MeshRollout.Proofs.Desired.Agreement
import MeshRollout.Proofs.Dict

/-!
What the parts of a pass over one kind do: which keys pruning clears, and what an object is after it
was applied. Each part also has a rule for the case in which it finds nothing to do.
-/
set_option autoImplicit false

namespace MeshRollout

namespace Convergence

open StoreKey Rehearsal

section Wanted

def namesIn (desired : List Object) (space : String) : List String :=
  (desired.filter fun o => o.space = space).map Object.name

theorem mem_namesIn {desired : List Object} {space name : String} :
    name ∈ namesIn desired space ↔ ∃ o ∈ desired, o.space = space ∧ o.name = name := by
  simp [namesIn, and_assoc]

theorem wanted_concat (desired : List Object) (o : Object) :
    wanted (desired ++ [o])
      = (wanted desired).put o.space (((wanted desired).get o.space).getD [] ++ [o.name]) := by
  rw [wanted, List.foldl_append, ← wanted]
  rfl

theorem sorted_wanted (desired : List Object) : (wanted desired).Sorted := by
  induction desired using List.reverseRecOn with
  | nil => exact List.Pairwise.nil
  | append_singleton desired o ih =>
    rw [wanted_concat]
    exact ih.put

theorem get_wanted (desired : List Object) (space : String) :
    (wanted desired).get space
      = if namesIn desired space = [] then none else some (namesIn desired space) := by
  induction desired using List.reverseRecOn with
  | nil => rfl
  | append_singleton desired o ih =>
    rw [wanted_concat]
    by_cases hs : space = o.space
    · subst hs
      have hmore : namesIn (desired ++ [o]) o.space = namesIn desired o.space ++ [o.name] := by
        simp [namesIn]
      rw [Dict.get_put_self, ih, hmore]
      by_cases hn : namesIn desired o.space = [] <;> simp [hn]
    · rw [Dict.get_put_of_ne hs, ih]
      simp [namesIn, Ne.symm hs]

theorem mem_wanted {desired : List Object} {space : String} {names : List String} :
    (space, names) ∈ wanted desired ↔ names = namesIn desired space ∧ names ≠ [] := by
  have hmem : (space, names) ∈ wanted desired ↔ (wanted desired).get space = some names :=
    ⟨Dict.get_of_mem (sorted_wanted desired), Dict.mem_of_get⟩
  rw [hmem, get_wanted]
  by_cases hn : namesIn desired space = []
  · simp [hn]
  · simp only [hn, ↓reduceIte, Option.some.injEq]
    exact ⟨fun h => ⟨h.symm, h ▸ hn⟩, fun h => h.1.symm⟩

end Wanted

structure Cleared (D : StoreKey → Prop) (w w' : Rehearsal) : Prop where
  intact : w'.Intact
  gone : ∀ k, D k → w'.store.find k = none
  elsewhere : ∀ k, ¬ D k → w'.store.find k = w.store.find k
  version : w'.store.version = w.store.version

variable {r : Resource} {o live : Object} {p : Progress} {P D D' : StoreKey → Prop}
  {w w' w'' : Rehearsal}

namespace Cleared

theorem of_alike (h : Alike w w') (hw : w.Intact) (hD : ∀ k, D k → w.store.find k = none) :
    Cleared D w w' where
  intact := h.intact hw
  gone k hk := by rw [h.store, hD k hk]
  elsewhere k _ := by rw [h.store]
  version := by rw [h.store]

theorem alike_left (h : Alike w w') (h' : Cleared D w' w'') : Cleared D w w'' where
  intact := h'.intact
  gone := h'.gone
  elsewhere k hk := by rw [h'.elsewhere k hk, h.store]
  version := by rw [h'.version, h.store]

theorem alike_right (h : Cleared D w w') (h' : Alike w' w'') : Cleared D w w'' where
  intact := h'.intact h.intact
  gone k hk := by rw [h'.store, h.gone k hk]
  elsewhere k hk := by rw [h'.store, h.elsewhere k hk]
  version := by rw [h'.store, h.version]

theorem trans (h : Cleared D w w') (h' : Cleared D' w' w'') :
    Cleared (fun k => D k ∨ D' k) w w'' where
  intact := h'.intact
  gone k hk := by
    by_cases hk' : D' k
    · exact h'.gone k hk'
    · rw [h'.elsewhere k hk', h.gone k (hk.resolve_right hk')]
  elsewhere k hk := by
    rw [not_or] at hk
    rw [h'.elsewhere k hk.2, h.elsewhere k hk.1]
  version := h'.version.trans h.version

theorem congr (h : Cleared D w w') (hD : ∀ k live, w.store.find k = some live → (D k ↔ D' k)) :
    Cleared D' w w' where
  intact := h.intact
  gone k hk := by
    by_cases hk' : D k
    · exact h.gone k hk'
    · rw [h.elsewhere k hk']
      by_contra hne
      obtain ⟨live, hl⟩ := Option.ne_none_iff_exists'.1 hne
      exact hk' ((hD k live hl).2 hk)
  elsewhere k hk := by
    by_cases hk' : D k
    · rw [h.gone k hk']
      by_contra hne
      obtain ⟨live, hl⟩ := Option.ne_none_iff_exists'.1 (Ne.symm hne)
      exact hk ((hD k live hl).1 hk')
    · exact h.elsewhere k hk'
  version := h.version

end Cleared

theorem version_of_made_delete {space : Option String} {name : String}
    (h : Made (.delete r space name) w w') : w'.store.version = w.store.version := by
  rcases h.store with hs | hs <;> rw [hs]
  simp only [MemoryStore.answer, MemoryStore.delete]
  split
  · rfl
  · split <;> rfl

theorem yields_prune (p : Progress) (hP : P (.ofObject r live)) (hw : w.Intact) :
    alone.Yields (WritesOnly P) (prune r live p)
      (fun p' w' => p'.rejection = p.rejection ∧ Cleared (· = .ofObject r live) w w') w := by
  have htarget : (StoreCall.delete r live.spaceArg live.name).target? = some (.ofObject r live) := by
    rw [StoreCall.target?, live.spaceArg_getD]
    rfl
  refine ((admits_writesOnly P).yields_notify hw _).bind fun _ w₁ h₁ => ?_
  have hdelete : alone.Yields (WritesOnly P) (Pass.delete r live.spaceArg live.name)
      (fun _ w' => Cleared (· = .ofObject r live) w w') w₁ := by
    refine (admits_writesOnly P).ensures_store (Alike.intact h₁ hw) ?_ ?_
      fun _ _ x hx => by cases hx
    · exact fun _ _ _ _ hm => writesOnly_of_made htarget hP hm
    · intro w₂ w₃ w₄ h₂ hi hm hs h₄ gone hgone
      have hnone : w₃.store.find (.ofObject r live) = none := by
        have hf := MemoryStore.find_delete_of_ok hgone
        rw [live.spaceArg_getD] at hf
        rw [hs]
        exact hf
      have hcleared : Cleared (· = .ofObject r live) w₂ w₃ :=
        ⟨hm.intact hi, fun k hk => hk ▸ hnone, fun k hk => hm.find_of_ne htarget hk,
          version_of_made_delete hm⟩
      exact (hcleared.alike_left (h₁.trans h₂)).alike_right h₄
  refine hdelete.bind fun gone w₂ h₂ => ?_
  cases gone with
  | true => exact Setting.yields_pure fun w₃ h₃ => ⟨rfl, h₂.alike_right h₃⟩
  | false => exact Setting.yields_pure fun w₃ h₃ => ⟨rfl, h₂.alike_right h₃⟩

theorem yields_pruneAll {l : List Object} (p : Progress) (hP : ∀ x ∈ l, P (.ofObject r x))
    (hw : w.Intact) :
    alone.Yields (WritesOnly P) (pruneAll r p l)
      (fun p' w' => p'.rejection = p.rejection ∧
        Cleared (fun k => ∃ x ∈ l, k = .ofObject r x) w w') w := by
  induction l generalizing w p with
  | nil => exact Setting.yields_pure fun w' h' => ⟨rfl, .of_alike h' hw (by simp)⟩
  | cons x l ih =>
    refine (yields_prune p (hP x List.mem_cons_self) hw).bind fun p₁ w₁ ⟨hp₁, h₁⟩ => ?_
    refine (ih p₁ (fun y hy => hP y (List.mem_cons_of_mem _ hy)) h₁.intact).mono ?_
    intro p₂ w₂ ⟨hp₂, h₂⟩
    refine ⟨hp₂.trans hp₁, (h₁.trans h₂).congr fun k _ _ => ?_⟩
    simp

def Unwanted (r : Resource) (ws : Dict (List String)) (k : StoreKey) : Prop :=
  k.resource = resourceText r ∧ ∃ q ∈ ws, k.space = q.1 ∧ k.name ∉ q.2

theorem unwanted_iff {desired : List Object} {k : StoreKey} :
    Unwanted r (wanted desired) k ↔
      k.resource = resourceText r ∧ (∃ o ∈ desired, o.space = k.space) ∧
        ¬ ∃ o ∈ desired, .ofObject r o = k := by
  have hname (hr : k.resource = resourceText r) :
      k.name ∈ namesIn desired k.space ↔ ∃ o ∈ desired, .ofObject r o = k := by
    cases k
    simp_all [mem_namesIn, StoreKey.ofObject, StoreKey.of]
  constructor
  · rintro ⟨hr, ⟨space, names⟩, hq, rfl, hn⟩
    obtain ⟨rfl, hfull⟩ := mem_wanted.1 hq
    obtain ⟨n, hmem⟩ := List.exists_mem_of_ne_nil _ hfull
    obtain ⟨o, ho, hs, -⟩ := mem_namesIn.1 hmem
    exact ⟨hr, ⟨o, ho, hs⟩, fun hx => hn ((hname hr).2 hx)⟩
  · rintro ⟨hr, ⟨o, ho, hs⟩, hn⟩
    have hfull := List.ne_nil_of_mem (mem_namesIn.2 ⟨o, ho, hs, rfl⟩)
    exact ⟨hr, _, mem_wanted.2 ⟨rfl, hfull⟩, rfl, fun hx => hn ((hname hr).1 hx)⟩

theorem mem_unwanted {s : MemoryStore} (hs : s.Sound) {space : String} {names : List String} :
    live ∈ (s.list r (if space.isEmpty then none else some space) none).filter
        (isUnwanted space names) ↔
      s.find (.ofObject r live) = some live ∧ live.space = space ∧ live.name ∉ names := by
  -- the empty namespace is listed by asking for all of them, so the filter asks for it again
  simp only [List.mem_filter, hs.mem_list, isUnwanted, Bool.and_eq_true, beq_iff_eq,
    Bool.not_eq_true', List.contains_eq_mem, decide_eq_false_iff_not, MemoryStore.selected,
    and_true]
  constructor
  · exact fun h => ⟨h.1.1, h.2⟩
  · rintro ⟨hf, hsp, hn⟩
    refine ⟨⟨hf, fun sp he => ?_⟩, hsp, hn⟩
    split at he
    · cases he
    · exact hsp.trans (Option.some.inj he)

theorem yields_pruneSpaces {ws : Dict (List String)} (p : Progress)
    (hP : ∀ k, k.resource = resourceText r → (∃ q ∈ ws, k.space = q.1) → P k) (hw : w.Intact) :
    alone.Yields (WritesOnly P) (pruneSpaces r p ws)
      (fun p' w' => p'.rejection = p.rejection ∧ Cleared (Unwanted r ws) w w') w := by
  induction ws generalizing w p with
  | nil =>
    refine Setting.yields_pure fun w' h' => ⟨rfl, .of_alike h' hw ?_⟩
    rintro k ⟨-, q, hq, -⟩
    cases hq
  | cons q ws ih =>
    obtain ⟨space, names⟩ := q
    have hlist : alone.Yields (WritesOnly P)
        (Pass.list r (if space.isEmpty then none else some space) none)
        (fun live w' => live = w.store.list r (if space.isEmpty then none else some space) none ∧
          Alike w w') w :=
      (admits_writesOnly P).yields_list hw fun w₁ w₂ h₁ h₂ =>
        ⟨by rw [Alike.store h₁], Alike.trans h₁ h₂⟩
    refine hlist.bind fun live w₁ ⟨hlive, h₁⟩ => ?_
    have hmem (x : Object) : x ∈ live.filter (isUnwanted space names) ↔
        w.store.find (.ofObject r x) = some x ∧ x.space = space ∧ x.name ∉ names := by
      rw [hlive]
      exact mem_unwanted hw.sound
    refine (yields_pruneAll p (fun x hx => ?_) (h₁.intact hw)).bind fun p₂ w₂ ⟨hp₂, h₂⟩ => ?_
    · exact hP _ rfl ⟨_, List.mem_cons_self, ((hmem x).1 hx).2.1⟩
    · refine (ih p₂ (fun k hk ⟨q, hq, hs⟩ => hP k hk ⟨q, List.mem_cons_of_mem _ hq, hs⟩)
        h₂.intact).mono fun p₃ w₃ ⟨hp₃, h₃⟩ => ⟨hp₃.trans hp₂, ?_⟩
      -- what was cleared is told by the listing; a key with an object is in it if it is unwanted
      refine ((h₂.alike_left h₁).trans h₃).congr fun k x hx => ?_
      simp only [Unwanted, List.mem_cons, exists_eq_or_imp]
      constructor
      · rintro (⟨y, hy, rfl⟩ | ⟨hk, hq⟩)
        · obtain ⟨-, hs, hn⟩ := (hmem y).1 hy
          exact ⟨rfl, .inl ⟨hs, hn⟩⟩
        · exact ⟨hk, .inr hq⟩
      · rintro ⟨hk, ⟨hs, hn⟩ | hq⟩
        · obtain ⟨hxs, hxn⟩ := hw.sound.key_of_find hx
          have hkey := hw.sound.ofObject_eq hk hx
          exact .inl ⟨x, (hmem x).2 ⟨hkey ▸ hx, hxs ▸ hs, hxn ▸ hn⟩, hkey.symm⟩
        · exact .inr ⟨hk, hq⟩

def Stands (r : Resource) (o : Object) (s : MemoryStore) : Prop :=
  ∃ live, s.find (.ofObject r o) = some live ∧ live.Agrees o

/-- The object was applied, or it stood there as wanted. Nothing else has changed, and nothing at
all where applications are refused. -/
structure Applied (r : Resource) (o : Object) (w w' : Rehearsal) : Prop where
  stands : Stands r o w'.store
  elsewhere : ∀ k, k ≠ .ofObject r o → w'.store.find k = w.store.find k
  refused : ∀ k, w.store.refusedApplies.get k.name ≠ none → w'.store.find k = w.store.find k
  refusals : w'.store.refusedApplies = w.store.refusedApplies

namespace Applied

theorem of_alike (h : Alike w w') (hs : Stands r o w.store) : Applied r o w w' where
  stands := h.store ▸ hs
  elsewhere _ _ := by rw [h.store]
  refused _ _ := by rw [h.store]
  refusals := by rw [h.store]

theorem alike_left (h : Alike w w') (h' : Applied r o w' w'') : Applied r o w w'' where
  stands := h'.stands
  elsewhere k hk := by rw [h'.elsewhere k hk, h.store]
  refused k hk := by rw [h'.refused k (h.store ▸ hk), h.store]
  refusals := by rw [h'.refusals, h.store]

theorem alike_right (h : Applied r o w w') (h' : Alike w' w'') : Applied r o w w'' where
  stands := h'.store ▸ h.stands
  elsewhere k hk := by rw [h'.store, h.elsewhere k hk]
  refused k hk := by rw [h'.store, h.refused k hk]
  refusals := by rw [h'.store, h.refusals]

end Applied

section Apply

variable {G : Call → Rehearsal → Rehearsal → Prop} (manager : String)

theorem yields_get_wanted (hadm : Admits alone G) (o : Object) (hw : w.Intact) :
    alone.Yields G (Pass.get r o.spaceArg o.name)
      (fun found w' => found = w.store.find (.ofObject r o) ∧ Alike w w') w := by
  refine hadm.yields_get hw fun w₁ w₂ h₁ h₂ => ⟨?_, Alike.trans h₁ h₂⟩
  rw [o.spaceArg_getD, Alike.store h₁]
  rfl

theorem ensures_apply
    (hG : ∀ w w', Made (.apply r o manager) w w' → G (.store (.apply r o manager)) w w')
    (hw : w.Intact) :
    alone.Ensures G (α := Except Failure Object) (Pass.apply r o manager)
      (fun res w' => w'.Intact ∧ ∀ x, res = .ok x → Applied r o w w') w := by
  refine Setting.ensures_ask fun w₁ h₁ a w₂ ha => ?_
  have hi := Alike.intact h₁ hw
  have hm := Answers.made ha hi
  refine ⟨hG w₁ w₂ hm, fun w₃ h₃ => ⟨Alike.intact h₃ (hm.intact hi), ?_⟩⟩
  rintro x rfl
  rcases (Answers.of_store ha hi.races).2.2 with ⟨hres, hs⟩ | ⟨⟨f, hf⟩, -⟩
  · obtain ⟨hfree, live, hl, hc⟩ := MemoryStore.find_apply_of_ok hres.symm
    rw [Alike.store h₁] at hfree
    have hstore : w₃.store = (w₁.store.answer (.apply r o manager)).2 := (Alike.store h₃).trans hs
    refine ⟨⟨live, by rw [hstore]; exact hl, hc.agrees⟩, fun k hk => ?_, fun k hk => ?_, ?_⟩
    · rw [Alike.store h₃, hm.find_of_ne rfl hk, Alike.store h₁]
    · have hne : k ≠ .ofObject r o := fun he => hk (he ▸ hfree)
      rw [Alike.store h₃, hm.find_of_ne rfl hne, Alike.store h₁]
    · rw [hstore, MemoryStore.refusedApplies_answer, Alike.store h₁]
  · cases hf

/-- An application that is not rejected brings the object into place. -/
theorem yields_applyUnlessSame (hadm : Admits alone G)
    (hG : ∀ w w', Made (.apply r o manager) w w' → G (.store (.apply r o manager)) w w')
    (p : Progress) (hw : w.Intact) :
    alone.Yields G (applyUnlessSame manager r Object.isOutdated o p)
      (fun p' w' => w'.Intact ∧
        (p'.rejection = none → p.rejection = none ∧ Applied r o w w')) w := by
  refine (yields_get_wanted hadm o hw).bind fun found w₁ ⟨hfound, h₁⟩ => ?_
  have hw₁ := h₁.intact hw
  by_cases hskip : (found.map fun l => l.isOutdated o) = some false
  · simp only [hskip, beq_self_eq_true, ↓reduceIte]
    obtain ⟨live, hl, hout⟩ := Option.map_eq_some_iff.1 hskip
    have hstands : Stands r o w.store :=
      ⟨live, hfound ▸ hl, (Object.isOutdated_eq_false_iff live o).1 hout⟩
    refine Setting.yields_pure fun w₂ h₂ => ⟨Alike.intact h₂ hw₁, fun hp => ⟨hp, ?_⟩⟩
    exact .of_alike (h₁.trans h₂) hstands
  · simp only [beq_eq_false_iff_ne.2 hskip, Bool.false_eq_true, ↓reduceIte]
    refine (ensures_apply manager hG hw₁).attempt.bind fun res w₂ ⟨hw₂, hok⟩ => ?_
    cases res with
    | ok x =>
      refine (hadm.yields_notify hw₂ _).bind fun _ w₃ h₃ => Setting.yields_pure fun w₄ h₄ => ?_
      have h₃₄ := Alike.trans h₃ h₄
      exact ⟨h₃₄.intact hw₂, fun hp => ⟨hp, ((hok x rfl).alike_left h₁).alike_right h₃₄⟩⟩
    | error f =>
      by_cases hf : f.tellsUnconfigured = true
      · simp only [hf, ↓reduceIte]
        refine Setting.yields_pure fun w₃ h₃ => ⟨Alike.intact h₃ hw₂, fun hp => ?_⟩
        simp [Progress.reject] at hp
      · simp only [hf]
        exact (hadm.yields_notify hw₂ _).bind fun _ _ _ => Setting.yields_throw

end Apply

/-- Objects were applied one after another, so the last one of a key decides. -/
structure AppliedAll (r : Resource) (os : List Object) (w w' : Rehearsal) : Prop where
  present : ∀ o ∈ os, ∃ live, w'.store.find (.ofObject r o) = some live
  last : ∀ pre o post, os = pre ++ o :: post →
    (∀ x ∈ post, (x.space, x.name) ≠ (o.space, o.name)) → Stands r o w'.store
  elsewhere : ∀ k, (∀ o ∈ os, k ≠ .ofObject r o) → w'.store.find k = w.store.find k
  refused : ∀ k, w.store.refusedApplies.get k.name ≠ none → w'.store.find k = w.store.find k
  refusals : w'.store.refusedApplies = w.store.refusedApplies
  agreed : ∀ o ∈ os, w.store.refusedApplies.get o.name ≠ none → Stands r o w'.store

theorem ofObject_inj {x y : Object} :
    StoreKey.ofObject r x = .ofObject r y ↔ (x.space, x.name) = (y.space, y.name) := by
  simp [ofObject, StoreKey.of]

namespace AppliedAll

theorem of_alike (h : Alike w w') : AppliedAll r [] w w' where
  present := by simp
  last := by simp
  elsewhere _ _ := by rw [h.store]
  refused _ _ := by rw [h.store]
  refusals := by rw [h.store]
  agreed := by simp

theorem cons {os : List Object} (h : Applied r o w w') (h' : AppliedAll r os w' w'') :
    AppliedAll r (o :: os) w w'' where
  present x hx := by
    rcases List.mem_cons.1 hx with rfl | hx
    · by_cases hlater : ∃ y ∈ os, StoreKey.ofObject r x = .ofObject r y
      · obtain ⟨y, hy, he⟩ := hlater
        rw [he]
        exact h'.present y hy
      · obtain ⟨live, hl, -⟩ := h.stands
        exact ⟨live, (h'.elsewhere _ fun y hy he => hlater ⟨y, hy, he⟩).trans hl⟩
    · exact h'.present x hx
  last pre x post hos hpost := by
    cases pre with
    | nil =>
      obtain ⟨rfl, rfl⟩ : o = x ∧ os = post := by simpa using hos
      obtain ⟨live, hl, ha⟩ := h.stands
      refine ⟨live, (h'.elsewhere _ fun y hy he => ?_).trans hl, ha⟩
      -- no later object has this key, so none took its place
      exact hpost y hy (ofObject_inj.1 he.symm)
    | cons y pre =>
      have hrest : os = pre ++ x :: post := by
        simp only [List.cons_append, List.cons.injEq] at hos
        exact hos.2
      exact h'.last pre x post hrest hpost
  elsewhere k hk := by
    rw [h'.elsewhere k fun y hy => hk y (List.mem_cons_of_mem _ hy),
      h.elsewhere k (hk o List.mem_cons_self)]
  refused k hk := by rw [h'.refused k (h.refusals ▸ hk), h.refused k hk]
  refusals := h'.refusals.trans h.refusals
  agreed x hx hr := by
    rcases List.mem_cons.1 hx with rfl | hx
    · obtain ⟨live, hl, ha⟩ := h.stands
      exact ⟨live, (h'.refused _ (h.refusals ▸ hr)).trans hl, ha⟩
    · exact h'.agreed x hx (h.refusals ▸ hr)

end AppliedAll

section ApplyAll

variable {G : Call → Rehearsal → Rehearsal → Prop} (manager : String) {os : List Object}

theorem yields_applyAll (hadm : Admits alone G)
    (hG : ∀ o ∈ os, ∀ w w', Made (.apply r o manager) w w' →
      G (.store (.apply r o manager)) w w')
    (p : Progress) (hw : w.Intact) :
    alone.Yields G (applyAll manager r p os)
      (fun p' w' => w'.Intact ∧
        (p'.rejection = none → p.rejection = none ∧ AppliedAll r os w w')) w := by
  induction os generalizing w p with
  | nil => exact Setting.yields_pure fun w' h' => ⟨Alike.intact h' hw, fun hp => ⟨hp, .of_alike h'⟩⟩
  | cons o os ih =>
    refine (yields_applyUnlessSame manager hadm (hG o List.mem_cons_self) p hw).bind ?_
    intro p₁ w₁ ⟨hw₁, h₁⟩
    refine (ih (fun x hx => hG x (List.mem_cons_of_mem _ hx)) p₁ hw₁).mono ?_
    intro p₂ w₂ ⟨hw₂, h₂⟩
    refine ⟨hw₂, fun hp₂ => ?_⟩
    obtain ⟨hp₁, hrest⟩ := h₂ hp₂
    obtain ⟨hp, hfirst⟩ := h₁ hp₁
    exact ⟨hp, .cons hfirst hrest⟩

end ApplyAll

section Idle

variable {G : Call → Rehearsal → Rehearsal → Prop}

theorem filter_unwanted_eq_nil {s : MemoryStore} (hs : s.Sound) {space : String}
    {names : List String} {ws : Dict (List String)}
    (hnone : ∀ k, Unwanted r ((space, names) :: ws) k → s.find k = none) :
    (s.list r (if space.isEmpty then none else some space) none).filter (isUnwanted space names)
      = [] := by
  refine List.eq_nil_iff_forall_not_mem.2 fun x hx => ?_
  obtain ⟨hf, hsp, hn⟩ := (mem_unwanted hs).1 hx
  have hgone := hnone (.ofObject r x) ⟨rfl, _, List.mem_cons_self, hsp, hn⟩
  cases hgone.symm.trans hf

theorem Unwanted.cons {q : String × List String} {ws : Dict (List String)} {k : StoreKey}
    (h : Unwanted r ws k) : Unwanted r (q :: ws) k := by
  obtain ⟨hk, q', hq', h⟩ := h
  exact ⟨hk, q', List.mem_cons_of_mem _ hq', h⟩

theorem idle_pruneSpaces (hadm : Admits alone G) {ws : Dict (List String)} (p : Progress)
    (hnone : ∀ k, Unwanted r ws k → w.store.find k = none) (hw : w.Intact) :
    alone.Yields G (pruneSpaces r p ws) (fun p' w' => p' = p ∧ Alike w w') w := by
  induction ws generalizing w with
  | nil => exact Setting.yields_pure fun w' h' => ⟨rfl, h'⟩
  | cons q ws ih =>
    obtain ⟨space, names⟩ := q
    have hlist : alone.Yields G
        (Pass.list r (if space.isEmpty then none else some space) none)
        (fun live w' => live.filter (isUnwanted space names) = [] ∧ Alike w w') w :=
      hadm.yields_list hw fun w₁ w₂ h₁ h₂ =>
        ⟨by rw [Alike.store h₁]; exact filter_unwanted_eq_nil hw.sound hnone, Alike.trans h₁ h₂⟩
    refine hlist.bind fun live w₁ ⟨hlive, h₁⟩ => ?_
    have hnil : alone.Yields G (pruneAll r p (live.filter (isUnwanted space names)))
        (fun p' w' => p' = p ∧ Alike w w') w₁ := by
      rw [hlive]
      exact Setting.yields_pure fun w₂ h₂ => ⟨rfl, h₁.trans h₂⟩
    refine hnil.bind fun p₂ w₂ ⟨hp₂, h₂⟩ => ?_
    subst hp₂
    exact (ih (fun k hk => h₂.store ▸ hnone k hk.cons) (h₂.intact hw)).mono fun p₃ w₃ ⟨hp₃, h₃⟩ =>
      ⟨hp₃, h₂.trans h₃⟩

theorem idle_applyAll (hadm : Admits alone G) (manager : String) {os : List Object} (p : Progress)
    (hs : ∀ o ∈ os, Stands r o w.store) (hw : w.Intact) :
    alone.Yields G (applyAll manager r p os) (fun p' w' => p'.rejection = p.rejection ∧ Alike w w')
      w := by
  induction os generalizing w p with
  | nil => exact Setting.yields_pure fun w' h' => ⟨rfl, h'⟩
  | cons o os ih =>
    have hfirst : alone.Yields G (applyUnlessSame manager r Object.isOutdated o p)
        (fun p' w' => p'.rejection = p.rejection ∧ Alike w w') w := by
      refine (yields_get_wanted hadm o hw).bind fun found w₁ ⟨hfound, h₁⟩ => ?_
      obtain ⟨live, hl, ha⟩ := hs o List.mem_cons_self
      have hout := (Object.isOutdated_eq_false_iff live o).2 ha
      simp only [hfound, hl, Option.map_some, hout, beq_self_eq_true, ↓reduceIte]
      exact Setting.yields_pure fun w₂ h₂ => ⟨rfl, h₁.trans h₂⟩
    refine hfirst.bind fun p₁ w₁ ⟨hp₁, h₁⟩ => ?_
    have hrest := ih p₁ (fun x hx => h₁.store ▸ hs x (List.mem_cons_of_mem _ hx)) (h₁.intact hw)
    exact hrest.mono fun p₂ w₂ ⟨hp₂, h₂⟩ => ⟨hp₂.trans hp₁, h₁.trans h₂⟩

end Idle

section Quiet

theorem returns_pruneSpaces {ws : Dict (List String)} (p : Progress) (hq : w.Quiet)
    (hs : w.store.Sound) (hnone : ∀ k, Unwanted r ws k → w.store.find k = none) :
    Returns (pruneSpaces r p ws) (fun p' w' => p' = p ∧ w'.store = w.store ∧ w'.Quiet) w := by
  induction ws generalizing w with
  | nil => exact returns_pure ⟨rfl, rfl, hq⟩
  | cons q ws ih =>
    obtain ⟨space, names⟩ := q
    refine (returns_list hq none).bind fun live w₁ ⟨hlive, h₁, hq₁⟩ => ?_
    simp only [hlive, filter_unwanted_eq_nil hs hnone, pruneAll]
    refine (ih hq₁ (h₁ ▸ hs) fun k hk => h₁ ▸ hnone k hk.cons).mono ?_
    exact fun _ w₂ ⟨hp₂, h₂, hq₂⟩ => ⟨hp₂, h₂.trans h₁, hq₂⟩

/-- What can be applied, or stands there already, is no obstacle. -/
def Ready (r : Resource) (o : Object) (s : MemoryStore) : Prop :=
  s.refusedApplies.get o.name = none ∨ Stands r o s

theorem Ready.apply {s : MemoryStore} {x : Object} (h : Ready r x s)
    (hfree : s.refusedApplies.get o.name = none) : Ready r x (s.apply r o).2 := by
  have hrefusals : (s.apply r o).2.refusedApplies = s.refusedApplies :=
    s.refusedApplies_answer (.apply r o "")
  by_cases hx : s.refusedApplies.get x.name = none
  · exact .inl (hrefusals ▸ hx)
  · obtain ⟨live, hl, ha⟩ := h.resolve_left hx
    have hne : StoreKey.ofObject r x ≠ .ofObject r o := by
      intro he
      have hname : x.name = o.name := congrArg StoreKey.name he
      exact hx (hname ▸ hfree)
    have hsame : (s.apply r o).2.find (.ofObject r x) = s.find (.ofObject r x) := by
      refine (s.find_answer (.apply r o "") _).resolve_right ?_
      rintro ⟨ht, -⟩
      exact hne (Option.some.inj ht).symm
    exact .inr ⟨live, hsame.trans hl, ha⟩

theorem returns_applyUnlessSame (manager : String) (p : Progress) (hq : w.Quiet)
    (ho : Ready r o w.store) :
    Returns (applyUnlessSame manager r Object.isOutdated o p)
      (fun p' w' => p'.rejection = p.rejection ∧ w'.Quiet ∧
        ∀ x, Ready r x w.store → Ready r x w'.store) w := by
  refine (returns_get hq o.name).bind fun found w₁ ⟨hfound, h₁, hq₁⟩ => ?_
  rw [o.spaceArg_getD] at hfound
  by_cases hskip : (found.map fun l => l.isOutdated o) = some false
  · simp only [hskip, beq_self_eq_true, ↓reduceIte]
    exact returns_pure ⟨rfl, hq₁, fun x hx => h₁ ▸ hx⟩
  · simp only [beq_eq_false_iff_ne.2 hskip, Bool.false_eq_true, ↓reduceIte]
    -- an object that is not skipped does not stand yet, so it has to be one that can be applied
    have hfree : w.store.refusedApplies.get o.name = none := by
      refine ho.resolve_right ?_
      rintro ⟨live, hl, ha⟩
      refine hskip (Option.map_eq_some_iff.2 ⟨live, hfound.trans hl, ?_⟩)
      exact (Object.isOutdated_eq_false_iff live o).2 ha
    refine (returns_apply hq₁ manager (h₁ ▸ hfree)).attempt.bind fun res w₂ ⟨x, hx, h₂, hq₂⟩ => ?_
    subst hx
    refine (returns_notify hq₂ _).bind fun _ w₃ ⟨h₃, hq₃⟩ => returns_pure ⟨rfl, hq₃, fun x hx => ?_⟩
    rw [h₃, h₂, h₁]
    exact hx.apply hfree

theorem returns_applyAll (manager : String) {os : List Object} (p : Progress) (hq : w.Quiet)
    (hos : ∀ o ∈ os, Ready r o w.store) :
    Returns (applyAll manager r p os) (fun p' _ => p'.rejection = p.rejection) w := by
  induction os generalizing w p with
  | nil => exact returns_pure rfl
  | cons o os ih =>
    refine (returns_applyUnlessSame manager p hq (hos o List.mem_cons_self)).bind ?_
    intro p₁ w₁ ⟨hp₁, hq₁, hready⟩
    refine (ih p₁ hq₁ fun x hx => hready x (hos x (List.mem_cons_of_mem _ hx))).mono ?_
    exact fun p₂ w₂ hp₂ => hp₂.trans hp₁

end Quiet

end Convergence

end MeshRollout
