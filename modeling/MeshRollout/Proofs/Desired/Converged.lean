import MeshRollout.Proofs.Desired.Passes
import MeshRollout.Traffic.Bundle

/-!
A pass over one kind brings it to the desired objects and touches nothing else. A second pass then
deletes nothing, and it changes no content.
-/
set_option autoImplicit false

namespace MeshRollout

namespace Convergence

open StoreKey Rehearsal

variable {r : Resource} {desired : List Object} {w w' : Rehearsal}
  {s s' s'' : MemoryStore}

def InReach (r : Resource) (desired : List Object) (k : StoreKey) : Prop :=
  k.resource = resourceText r ∧ (desired = [] ∨ ∃ o ∈ desired, o.space = k.space)

theorem inReach_of_wanted (k : StoreKey) (hr : k.resource = resourceText r)
    (hq : ∃ q ∈ wanted desired, k.space = q.1) : InReach r desired k := by
  obtain ⟨⟨space, names⟩, hq, hs⟩ := hq
  obtain ⟨rfl, hfull⟩ := mem_wanted.1 hq
  obtain ⟨n, hn⟩ := List.exists_mem_of_ne_nil _ hfull
  obtain ⟨o, ho, hos, -⟩ := mem_namesIn.1 hn
  exact ⟨hr, .inr ⟨o, ho, hos.trans hs.symm⟩⟩

/-- The second store holds what was desired of a kind, and else what the first one holds. -/
structure Converged (r : Resource) (desired : List Object) (s s' : MemoryStore) : Prop where
  emptied : desired = [] →
    s'.version = s.version ∧ ∀ k, k.resource = resourceText r → s'.find k = none
  names : ∀ k, k.resource = resourceText r → (∃ o ∈ desired, o.space = k.space) →
    ((∃ live, s'.find k = some live) ↔ ∃ o ∈ desired, .ofObject r o = k)
  last : ∀ pre o post, desired = pre ++ o :: post →
    (∀ x ∈ post, (x.space, x.name) ≠ (o.space, o.name)) → Stands r o s'
  elsewhere : ∀ k, ¬ InReach r desired k → s'.find k = s.find k
  ready : ∀ o ∈ desired, Ready r o s'

def SameContents (s s' : MemoryStore) : Prop :=
  ∀ k, Option.Rel (fun live live' => live'.Agrees live) (s.find k) (s'.find k)

variable (manager : String)

theorem exists_last {o : Object} (ho : o ∈ desired) :
    ∃ pre x post, desired = pre ++ x :: post ∧ StoreKey.ofObject r x = .ofObject r o ∧
      ∀ y ∈ post, (y.space, y.name) ≠ (x.space, x.name) := by
  induction desired using List.reverseRecOn with
  | nil => cases ho
  | append_singleton l b ih =>
    -- the list is taken apart from its end, so the first hit is the last object
    by_cases hb : StoreKey.ofObject r b = .ofObject r o
    · exact ⟨l, b, [], rfl, hb, by simp⟩
    · have hl : o ∈ l := by
        rcases List.mem_append.1 ho with hl | he
        · exact hl
        · exact absurd (List.mem_singleton.1 he ▸ rfl) hb
      obtain ⟨pre, x, post, rfl, hx, hpost⟩ := ih hl
      refine ⟨pre, x, post ++ [b], by simp, hx, fun y hy => ?_⟩
      rcases List.mem_append.1 hy with hy | he
      · exact hpost y hy
      · rw [List.mem_singleton.1 he]
        exact fun hbx => hb ((ofObject_inj.2 hbx).trans hx)

theorem converge_of_stray {o : Object} (h : stray? r desired = some o) :
    converge manager r desired = throw (strayFailure r o) := by
  rw [converge, h]
  rfl

theorem converge_nil :
    converge manager r [] = (do
      let live ← Pass.list r none none
      let p ← pruneAll r {} live
      return p.report) :=
  rfl

theorem converge_of_ne (hkinds : stray? r desired = none) (hne : desired ≠ []) :
    converge manager r desired = (do
      let p ← pruneSpaces r {} (wanted desired)
      let p ← applyAll manager r p desired
      Pass.ofExcept p.finish) := by
  have hfull : desired.isEmpty = false := List.isEmpty_eq_false_iff.2 hne
  rw [converge, hkinds, hfull]
  rfl

theorem yields_finish {G : Call → Rehearsal → Rehearsal → Prop} {p : Progress}
    {Q : Report → Rehearsal → Prop} (h : p.rejection = none → ∀ w', Alike w w' → Q p.report w') :
    alone.Yields G (Pass.ofExcept p.finish) Q w := by
  intro w' hw' report hreport
  cases hr : p.rejection with
  | none =>
    rw [Progress.finish, hr] at hreport
    cases hreport
    exact h hr w' hw'
  | some f =>
    rw [Progress.finish, hr] at hreport
    cases hreport

namespace Converged

theorem of_cleared {w₁ : Rehearsal} (hne : desired ≠ [])
    (hc : Cleared (Unwanted r (wanted desired)) w w₁) (ha : AppliedAll r desired w₁ w') :
    Converged r desired w.store w'.store where
  emptied h := absurd h hne
  names k hr hs := by
    constructor
    · rintro ⟨live, hl⟩
      by_contra hno
      have hsame := ha.elsewhere k fun o ho he => hno ⟨o, ho, he.symm⟩
      cases hl.symm.trans (hsame.trans (hc.gone k (unwanted_iff.2 ⟨hr, hs, hno⟩)))
    · rintro ⟨o, ho, rfl⟩
      exact ha.present o ho
  last := ha.last
  elsewhere k hk := by
    rw [ha.elsewhere k fun o ho he => hk (he ▸ ⟨rfl, .inr ⟨o, ho, rfl⟩⟩)]
    refine hc.elsewhere k fun hun => hk ?_
    obtain ⟨hr, hs, -⟩ := unwanted_iff.1 hun
    exact ⟨hr, .inr hs⟩
  ready o ho := by
    by_cases hfree : w₁.store.refusedApplies.get o.name = none
    · exact .inl (ha.refusals ▸ hfree)
    · exact .inr (ha.agreed o ho hfree)

theorem stands (h : Converged r desired s s')
    (hd : (desired.map fun o => (o.space, o.name)).Nodup) {o : Object} (ho : o ∈ desired) :
    Stands r o s' := by
  obtain ⟨pre, post, rfl⟩ := List.append_of_mem ho
  refine h.last pre o post rfl fun x hx he => ?_
  rw [List.map_append, List.map_cons, List.nodup_append] at hd
  exact (List.nodup_cons.1 hd.2.1).1 (List.mem_map.2 ⟨x, hx, he⟩)

theorem none_unwanted (h : Converged r desired s s') {k : StoreKey}
    (hk : Unwanted r (wanted desired) k) : s'.find k = none := by
  obtain ⟨hr, hs, hno⟩ := unwanted_iff.1 hk
  by_contra hsome
  exact hno ((h.names k hr hs).1 (Option.ne_none_iff_exists'.1 hsome))

/-- Two passes one after the other end with the same contents. -/
theorem sameContents (h : Converged r desired s s') (h' : Converged r desired s' s'') :
    SameContents s' s'' := by
  intro k
  have of_eq (heq : s''.find k = s'.find k) :
      Option.Rel (fun live live' => live'.Agrees live) (s'.find k) (s''.find k) := by
    rw [heq]
    cases s'.find k with
    | none => exact .none
    | some live => exact .some (.refl live)
  by_cases hk : InReach r desired k
  · obtain ⟨hr, hempty | hs⟩ := hk
    · exact of_eq (((h'.emptied hempty).2 k hr).trans ((h.emptied hempty).2 k hr).symm)
    · by_cases hx : ∃ o ∈ desired, .ofObject r o = k
      · obtain ⟨o, ho, rfl⟩ := hx
        -- the last object of the key decides in both passes
        obtain ⟨pre, x, post, hsplit, he, hpost⟩ := exists_last (r := r) ho
        obtain ⟨live, hl, ha⟩ := h.last pre x post hsplit hpost
        obtain ⟨live', hl', ha'⟩ := h'.last pre x post hsplit hpost
        rw [← he, hl, hl']
        exact .some (ha'.trans ha.symm)
      · have hnone {s s' : MemoryStore} (h : Converged r desired s s') : s'.find k = none := by
          by_contra hsome
          exact hx ((h.names k hr hs).1 (Option.ne_none_iff_exists'.1 hsome))
        exact of_eq ((hnone h').trans (hnone h).symm)
  · exact of_eq (h'.elsewhere k hk)

end Converged

section First

theorem list_all {P : StoreKey → Prop} (hw : w.Intact) :
    alone.Yields (WritesOnly P) (Pass.list r none none)
      (fun live w' => live = w.store.list r none none ∧ Alike w w') w :=
  (admits_writesOnly P).yields_list hw fun _ _ h₁ h₂ =>
    ⟨by rw [Alike.store h₁], Alike.trans h₁ h₂⟩

theorem yields_converge_nil (hw : w.Intact) :
    alone.Yields (WritesOnly (InReach r [])) (converge manager r [])
      (fun _ w' => Converged r [] w.store w'.store) w := by
  rw [converge_nil]
  refine (list_all hw).bind fun live w₁ ⟨hlive, h₁⟩ => ?_
  refine (yields_pruneAll {} (fun _ _ => ⟨rfl, .inl rfl⟩) (h₁.intact hw)).bind ?_
  intro p w₂ ⟨_, h₂⟩
  refine Setting.yields_pure fun w₃ h₃ => ?_
  have hcleared : Cleared (fun k => k.resource = resourceText r) w w₃ := by
    refine ((h₂.alike_left h₁).alike_right h₃).congr fun k x hx => ?_
    constructor
    · rintro ⟨y, -, rfl⟩
      rfl
    · intro hk
      have hkey := hw.sound.ofObject_eq hk hx
      refine ⟨x, hlive ▸ hw.sound.mem_list.2 ⟨hkey ▸ hx, by simp, rfl⟩, hkey.symm⟩
  exact {
    emptied := fun _ => ⟨hcleared.version, hcleared.gone⟩
    names := by simp
    last := by simp
    elsewhere := fun k hk => hcleared.elsewhere k fun hr => hk ⟨hr, .inl rfl⟩
    ready := by simp }

theorem yields_converge (r : Resource) (desired : List Object) (hw : w.Intact) :
    alone.Yields (WritesOnly (InReach r desired)) (converge manager r desired)
      (fun _ w' => stray? r desired = none ∧ Converged r desired w.store w'.store) w := by
  cases hkinds : stray? r desired with
  | some o =>
    rw [converge_of_stray manager hkinds]
    exact Setting.yields_throw
  | none =>
    by_cases hne : desired = []
    · subst hne
      exact (yields_converge_nil manager hw).mono fun _ _ h => ⟨rfl, h⟩
    · rw [converge_of_ne manager hkinds hne]
      refine (yields_pruneSpaces {} inReach_of_wanted hw).bind fun p₁ w₁ ⟨_, hc⟩ => ?_
      refine (yields_applyAll manager (admits_writesOnly _) ?_ p₁ hc.intact).bind ?_
      · exact fun o ho _ _ hm => writesOnly_of_made rfl ⟨rfl, .inr ⟨o, ho, rfl⟩⟩ hm
      · intro p₂ w₂ ⟨_, ha⟩
        refine yields_finish fun hp₂ w₃ h₃ => ⟨rfl, ?_⟩
        exact Alike.store h₃ ▸ .of_cleared hne hc (ha hp₂).2

end First

section Second

variable {G : Call → Rehearsal → Rehearsal → Prop}

theorem list_eq_nil (hs : s.Sound) (hnone : ∀ k, k.resource = resourceText r → s.find k = none) :
    s.list r none none = [] :=
  List.eq_nil_iff_forall_not_mem.2 fun _ hx =>
    Option.some_ne_none _ ((hs.mem_list.1 hx).1.symm.trans (hnone _ rfl))

theorem idle_converge_nil (hadm : Admits alone G)
    (hnone : ∀ k, k.resource = resourceText r → w.store.find k = none) (hw : w.Intact) :
    alone.Yields G (converge manager r []) (fun _ w' => Alike w w') w := by
  rw [converge_nil]
  have hlist : alone.Yields G (Pass.list r none none) (fun live w' => live = [] ∧ Alike w w') w :=
    hadm.yields_list hw fun w₁ w₂ h₁ h₂ =>
      ⟨by rw [Alike.store h₁]; exact list_eq_nil hw.sound hnone, Alike.trans h₁ h₂⟩
  refine hlist.bind fun live w₁ ⟨hlive, h₁⟩ => ?_
  subst hlive
  exact Setting.yields_pure fun w₂ h₂ => h₁.trans h₂

def DeletesNothing (c : Call) (_ _ : Rehearsal) : Prop :=
  ∀ r space name, c ≠ .store (.delete r space name)

theorem admits_deletesNothing : Admits alone DeletesNothing := by
  refine admits_alone fun c _ _ hc _ r space name he => ?_
  subst he
  cases hc

theorem deletesNothing_converge (h : Converged r desired s w.store) (hw : w.Intact) :
    alone.Yields DeletesNothing (converge manager r desired) (fun _ _ => True) w := by
  cases hkinds : stray? r desired with
  | some o =>
    rw [converge_of_stray manager hkinds]
    exact Setting.yields_throw
  | none =>
    by_cases hne : desired = []
    · subst hne
      exact (idle_converge_nil manager admits_deletesNothing (h.emptied rfl).2 hw).mono fun _ _ _ => trivial
    · rw [converge_of_ne manager hkinds hne]
      refine (idle_pruneSpaces admits_deletesNothing {} (fun _ hk => h.none_unwanted hk) hw).bind ?_
      intro p₁ w₁ ⟨_, h₁⟩
      refine (yields_applyAll manager admits_deletesNothing ?_ p₁ (h₁.intact hw)).bind ?_
      · exact fun _ _ _ _ _ _ _ _ he => by cases he
      · exact fun _ _ _ => yields_finish fun _ _ _ => trivial

theorem rests_converge (h : Converged r desired s w.store)
    (hd : (desired.map fun o => (o.space, o.name)).Nodup) (hw : w.Intact) :
    alone.Yields Rests (converge manager r desired) (fun _ _ => True) w := by
  cases hkinds : stray? r desired with
  | some o =>
    rw [converge_of_stray manager hkinds]
    exact Setting.yields_throw
  | none =>
    by_cases hne : desired = []
    · subst hne
      exact (idle_converge_nil manager admits_rests (h.emptied rfl).2 hw).mono fun _ _ _ => trivial
    · rw [converge_of_ne manager hkinds hne]
      refine (idle_pruneSpaces admits_rests {} (fun _ hk => h.none_unwanted hk) hw).bind ?_
      intro p₁ w₁ ⟨_, h₁⟩
      have hstands (o : Object) (ho : o ∈ desired) : Stands r o w₁.store :=
        h₁.store ▸ h.stands hd ho
      refine (idle_applyAll admits_rests manager p₁ hstands (h₁.intact hw)).bind ?_
      exact fun _ _ _ => yields_finish fun _ _ _ => trivial

theorem returns_converge (hkinds : stray? r desired = none) (h : Converged r desired s w.store)
    (hq : w.Quiet) (hs : w.store.Sound) :
    Returns (converge manager r desired) (fun _ _ => True) w := by
  by_cases hne : desired = []
  · subst hne
    rw [converge_nil]
    refine (returns_list hq none).bind fun live w₁ ⟨hlive, _⟩ => ?_
    rw [hlive, list_eq_nil hs (h.emptied rfl).2]
    exact returns_pure trivial
  · rw [converge_of_ne manager hkinds hne]
    refine (returns_pruneSpaces {} hq hs fun _ hk => h.none_unwanted hk).bind ?_
    rintro p₁ w₁ ⟨rfl, h₁, hq₁⟩
    refine (returns_applyAll manager {} hq₁ fun o ho => h₁ ▸ h.ready o ho).bind fun p₂ w₂ hp₂ => ?_
    exact ⟨p₂.report, w₂, by rw [Progress.finish, hp₂]; rfl, trivial⟩

end Second

theorem second_pass (hkinds : stray? r desired = none) (h : Converged r desired s w.store)
    (hw : w.Intact) :
    (w.faults = [] →
      ∃ report, (Rehearsal.run (converge manager r desired) w).1 = .ok report) ∧
    ∀ w' q, alone.Reaches (w, converge manager r desired) (w', q) →
      (∀ c next, q = .call c next → ∀ r space name, c ≠ .store (.delete r space name)) ∧
      (∀ report, q = .done (.ok report) → SameContents w.store w'.store) ∧
      ((desired.map fun o => (o.space, o.name)).Nodup →
        w'.store = w.store ∧
        ∀ c next, q = .call (.store c) next → (Call.store c).isRead = true) := by
  constructor
  · intro hfaults
    obtain ⟨report, w', hreturn, -⟩ :=
      returns_converge manager hkinds h ⟨hfaults, hw.races⟩ hw.sound
    exact ⟨report, by rw [hreturn]⟩
  · intro w' q hrun
    refine ⟨?_, ?_, fun hd => ?_⟩
    · rintro c next rfl
      have hspares := (deletesNothing_converge manager h hw).reaches hrun
      exact (hspares w' (Alike.refl w') _ _ .served).1
    · rintro report rfl
      have hend := (yields_converge manager r desired hw).reaches hrun w' (Alike.refl w') report rfl
      exact h.sameContents hend.2
    · have hrests := rests_converge manager h hd hw
      exact ⟨store_of_rests hrests hrun, fun _ _ hq => isRead_of_rests hrests hrun hq⟩

/-- A pass over one kind, with calls failing as they may, touches only what it looks at. When it
succeeds, the kind is as desired. Another pass then deletes nothing, succeeds if no call is made to
fail, and ends with the same contents; it writes nothing at all where the desired objects have keys
of their own. -/
theorem converge_settles (hstore : w.store.Reachable) (hraces : w.races = []) (r : Resource)
    (desired : List Object) {p : Program (Except Failure Report)}
    (hrun : alone.Reaches (w, converge manager r desired) (w', p)) :
    (∀ k, ¬ InReach r desired k → w'.store.find k = w.store.find k) ∧
    ∀ report, p = .done (.ok report) →
      Converged r desired w.store w'.store ∧
      ∀ w₁, w₁.store = w'.store → w₁.races = [] →
        (w₁.faults = [] →
          ∃ report', (Rehearsal.run (converge manager r desired) w₁).1 = .ok report') ∧
        ∀ w₂ q, alone.Reaches (w₁, converge manager r desired) (w₂, q) →
          (∀ c next, q = .call c next → ∀ r space name, c ≠ .store (.delete r space name)) ∧
          (∀ report', q = .done (.ok report') → SameContents w₁.store w₂.store) ∧
          ((desired.map fun o => (o.space, o.name)).Nodup →
            w₂.store = w₁.store ∧
            ∀ c next, q = .call (.store c) next → (Call.store c).isRead = true) := by
  have hw : w.Intact := ⟨hstore.sound, hraces⟩
  have hfirst := yields_converge manager r desired hw
  constructor
  · have halong := Setting.Ensures.along
      (F := fun w w' : Rehearsal => ∀ k, ¬ InReach r desired k → w'.store.find k = w.store.find k)
      (fun _ _ _ => rfl) (fun _ _ _ h h' k hk => (h' k hk).trans (h k hk))
      (fun _ _ h k _ => by rw [Alike.store h]) (fun _ _ _ h => h.elsewhere) hfirst hrun
    exact halong
  · rintro report rfl
    have hend := ((admits_writesOnly _).ensures_intact hfirst hw).reaches hrun w' (Alike.refl w')
    obtain ⟨hkinds, hconv⟩ := hend.1 report rfl
    -- whatever luck the second pass has with its calls, it starts from the store of the first one
    refine ⟨hconv, fun w₁ hsame hraces₁ => ?_⟩
    exact second_pass manager hkinds (hsame ▸ hconv) ⟨hsame ▸ hend.2.sound, hraces₁⟩

def gatewayOf (space name track : String) : Object where
  types := some ("networking.istio.io/v1beta1", "Gateway")
  metadata := { name := some name, space := some space, labels := some [("track", track)] }
  data := []

/-- A gateway that nobody wants any more, one to be changed, and one in another namespace. -/
def crowded : Rehearsal where
  store := ((({} : MemoryStore).insert GatewaySpec.kind.resource (gatewayOf "a" "old" "1")).insert
    GatewaySpec.kind.resource (gatewayOf "a" "shop" "1")).insert
    GatewaySpec.kind.resource (gatewayOf "b" "old" "1")
  clock := ⟨0, 0⟩

def wantedGateways : List Object :=
  [gatewayOf "a" "shop" "2", gatewayOf "a" "new" "1"]

theorem crowded_settles :
    crowded.store.Reachable ∧ crowded.races = [] ∧
    ∃ w', alone.Reaches (crowded, converge "sync" GatewaySpec.kind.resource wantedGateways)
        (w', .done (.ok ⟨["a/shop", "a/new"], ["a/old"], 0, []⟩)) ∧
      (∀ k, ¬ InReach GatewaySpec.kind.resource wantedGateways k →
        w'.store.find k = crowded.store.find k) ∧
      Converged GatewaySpec.kind.resource wantedGateways crowded.store w'.store ∧
      ∀ w'' q, alone.Reaches (w', converge "sync" GatewaySpec.kind.resource wantedGateways)
        (w'', q) → w''.store = w'.store := by
  have hreach : crowded.store.Reachable := .insert (.insert (.insert .empty _ _) _ _) _ _
  have hok : (Rehearsal.run (converge "sync" GatewaySpec.kind.resource wantedGateways) crowded).1
      = .ok ⟨["a/shop", "a/new"], ["a/old"], 0, []⟩ := by
    decide +kernel
  have hrun := alone_reaches_run (converge "sync" GatewaySpec.kind.resource wantedGateways) crowded
  have hrun' : alone.Reaches
      (crowded, converge "sync" GatewaySpec.kind.resource wantedGateways)
      (_, .done (.ok ⟨["a/shop", "a/new"], ["a/old"], 0, []⟩)) := hok ▸ hrun
  have hraces : (Rehearsal.run (converge "sync" GatewaySpec.kind.resource wantedGateways)
      crowded).2.races = [] := by
    decide +kernel
  obtain ⟨helse, hdone⟩ := converge_settles "sync" hreach rfl _ _ hrun'
  obtain ⟨hconv, hsecond⟩ := hdone _ rfl
  refine ⟨hreach, rfl, _, hrun', helse, hconv, fun w'' q hrun'' => ?_⟩
  exact (((hsecond _ rfl hraces).2 w'' q hrun'').2.2 (by decide)).1

end Convergence

end MeshRollout
