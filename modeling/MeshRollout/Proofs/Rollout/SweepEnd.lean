import MeshRollout.Proofs.Cluster.Contents
import MeshRollout.Proofs.Cluster.Steady
import MeshRollout.Proofs.Rollout.Sweep

/-!
What a sweep that nobody disturbs deletes, and how it ends. It goes through the stale objects kind
by kind, and it stops at the first one that cannot be deleted; else it reports them in this order.
-/
set_option autoImplicit false

namespace MeshRollout

open StoreKey Rehearsal

namespace Sweep

open MemoryStore

variable (o : Owner) (keep : List Identity)

def isSwept (r : Resource) (p : StoreKey × Object) : Bool :=
  p.1.resource == resourceText r && (selected (some o.selector) p.2 && isStale o keep r p.2)

def staleIn (r : Resource) (l : List (StoreKey × Object)) : List StoreKey :=
  (l.filter (isSwept o keep r)).map Prod.fst

variable {o keep} {r : Resource} {s s' : MemoryStore} {ks : List StoreKey}

theorem staleIn_filter (l : List (StoreKey × Object)) :
    staleIn o keep r (l.filter fun p => p.1 ∉ ks) = (staleIn o keep r l).filter (· ∉ ks) := by
  rw [staleIn, List.filter_comm, staleIn, List.filter_map]
  rfl

theorem resource_of_staleIn {l : List (StoreKey × Object)} {k : StoreKey}
    (hk : k ∈ staleIn o keep r l) : k.resource = resourceText r := by
  obtain ⟨p, hp, rfl⟩ := List.mem_map.1 hk
  have hswept := (List.mem_filter.1 hp).2
  exact eq_of_beq (Bool.and_eq_true_iff.1 hswept).1

theorem staleIn_sublist (l : List (StoreKey × Object)) :
    (staleIn o keep r l).Sublist (l.map Prod.fst) :=
  List.filter_sublist.map _

theorem map_list_eq_staleIn (o : Owner) (keep : List Identity) (r : Resource) (hs : s.Sound) :
    ((s.list r none (some o.selector)).filter (isStale o keep r)).map (.ofObject r)
      = staleIn o keep r s.objects := by
  have hkeys : ∀ p ∈ s.objects.filter (isSwept o keep r), StoreKey.ofObject r p.2 = p.1 := by
    intro p hp
    obtain ⟨hm, hswept⟩ := List.mem_filter.1 hp
    exact hs.ofObject_eq (eq_of_beq (Bool.and_eq_true_iff.1 hswept).1) (hs.find_of_mem hm)
  rw [list, List.filter_map, List.map_map, List.filter_filter, staleIn]
  refine Eq.trans ?_ (List.map_congr_left hkeys)
  refine congrArg (List.map _) (List.filter_congr fun p _ => ?_)
  simp only [isSwept, Function.comp, Bool.and_true]
  rw [Bool.and_comm, Bool.and_assoc]

/-- The keys that a sweep clears one after another, and the failure that stops it. -/
def clears (refusal : StoreKey → Option Failure) :
    List StoreKey → List StoreKey × Option Failure
  | [] => ([], none)
  | k :: ks =>
    match refusal k with
    | some f => ([], some f)
    | none => (k :: (clears refusal ks).1, (clears refusal ks).2)

section Clears

variable {refusal : StoreKey → Option Failure}

theorem clears_cons_of_none {k : StoreKey} (h : refusal k = none) (ks : List StoreKey) :
    clears refusal (k :: ks) = (k :: (clears refusal ks).1, (clears refusal ks).2) := by
  rw [clears, h]

theorem clears_cons_of_some {k : StoreKey} {f : Failure} (h : refusal k = some f)
    (ks : List StoreKey) : clears refusal (k :: ks) = ([], some f) := by
  rw [clears, h]

theorem clears_begins (ks : List StoreKey) : (clears refusal ks).1 <+: ks := by
  induction ks with
  | nil => exact List.prefix_refl _
  | cons k ks ih =>
    cases hk : refusal k with
    | some f =>
      rw [clears_cons_of_some hk]
      exact List.nil_prefix
    | none =>
      rw [clears_cons_of_none hk]
      exact List.cons_prefix_cons.2 ⟨rfl, ih⟩

/-- The failure comes from the first key that is not cleared. -/
theorem exists_of_clears_eq_some {f : Failure} (h : (clears refusal ks).2 = some f) :
    ∃ k rest, ks = (clears refusal ks).1 ++ k :: rest ∧ refusal k = some f := by
  induction ks with
  | nil => cases h
  | cons k ks ih =>
    cases hk : refusal k with
    | some f' =>
      rw [clears_cons_of_some hk] at h ⊢
      exact ⟨k, ks, rfl, hk.trans h⟩
    | none =>
      rw [clears_cons_of_none hk] at h ⊢
      obtain ⟨k', rest, he, hf⟩ := ih h
      exact ⟨k', rest, congrArg (k :: ·) he, hf⟩

theorem clears_append_of_some {f : Failure} (h : (clears refusal ks).2 = some f)
    (ks' : List StoreKey) : clears refusal (ks ++ ks') = clears refusal ks := by
  induction ks with
  | nil => nomatch h
  | cons k ks ih =>
    cases hk : refusal k with
    | some f => rw [List.cons_append, clears_cons_of_some hk, clears_cons_of_some hk]
    | none =>
      rw [clears_cons_of_none hk] at h
      rw [List.cons_append, clears_cons_of_none hk, clears_cons_of_none hk, ih h]

theorem clears_append_of_none (h : (clears refusal ks).2 = none) (ks' : List StoreKey) :
    (clears refusal ks).1 = ks ∧
      clears refusal (ks ++ ks') = (ks ++ (clears refusal ks').1, (clears refusal ks').2) := by
  induction ks with
  | nil => exact ⟨rfl, rfl⟩
  | cons k ks ih =>
    cases hk : refusal k with
    | some f =>
      rw [clears_cons_of_some hk] at h
      nomatch h
    | none =>
      rw [clears_cons_of_none hk] at h ⊢
      obtain ⟨hself, happend⟩ := ih h
      rw [List.cons_append, clears_cons_of_none hk, happend]
      exact ⟨congrArg (k :: ·) hself, rfl⟩

theorem clears_prefix_append (ks ks' : List StoreKey) :
    (clears refusal ks).1 <+: (clears refusal (ks ++ ks')).1 := by
  cases h : (clears refusal ks).2 with
  | some f => exact (clears_append_of_some h ks').symm ▸ List.prefix_refl _
  | none =>
    obtain ⟨hself, happend⟩ := clears_append_of_none h ks'
    rw [happend, hself]
    exact List.prefix_append ..

/-- A sweep that has cleared some keys already clears what is left. -/
theorem clears_resume {pre : List StoreKey} (h : pre <+: (clears refusal ks).1) :
    ∃ rest, ks = pre ++ rest ∧
      clears refusal ks = (pre ++ (clears refusal rest).1, (clears refusal rest).2) := by
  induction pre generalizing ks with
  | nil => exact ⟨ks, rfl, rfl⟩
  | cons k pre ih =>
    cases ks with
    | nil => nomatch List.prefix_nil.1 h
    | cons k' ks =>
      cases hk : refusal k' with
      | some f =>
        rw [clears_cons_of_some hk] at h
        nomatch List.prefix_nil.1 h
      | none =>
        rw [clears_cons_of_none hk] at h ⊢
        obtain ⟨rfl, hpre⟩ := List.cons_prefix_cons.1 h
        obtain ⟨rest, rfl, hrest⟩ := ih hpre
        exact ⟨rest, rfl, by rw [hrest]; rfl⟩

end Clears

def endOf {α : Type} (hindrance : Option Failure) (x : α) : Except Failure α :=
  match hindrance with
  | none => .ok x
  | some f => .error f

theorem eq_of_endOf {α : Type} {h : Option Failure} {x y : α} (he : .ok y = endOf h x) :
    h = none ∧ y = x := by
  cases h with
  | none => exact ⟨rfl, Except.ok.inj he⟩
  | some f => nomatch he

theorem eq_some_of_endOf {α : Type} {h : Option Failure} {x : α} {f : Failure}
    (he : .error f = endOf h x) : h = some f := by
  cases h with
  | none => nomatch he
  | some f' => exact congrArg some (Except.error.inj he).symm

def reportLine (r : Resource) (k : StoreKey) : String :=
  r.kind ++ " " ++ (k.space ++ "/" ++ k.name)

def reportOf (o : Owner) (keep : List Identity) (rs : List Resource)
    (l : List (StoreKey × Object)) : List String :=
  rs.flatMap fun r => (staleIn o keep r l).map (reportLine r)

section Steadily

variable {P : MemoryStore → Prop}

theorem steadily_deleteAll {l : List Object}
    (hlive : ∀ x ∈ l, s.find (.ofObject r x) ≠ none) (hd : (l.map (StoreKey.ofObject r)).Nodup)
    (hP : ∀ pre s', pre <+: (clears s.refusal (l.map (StoreKey.ofObject r))).1 →
      Without pre s s' → P s') :
    Steadily P (deleteAll r l)
      (fun x s' => Without (clears s.refusal (l.map (StoreKey.ofObject r))).1 s s' ∧
        x = endOf (clears s.refusal (l.map (StoreKey.ofObject r))).2
          ((l.map (StoreKey.ofObject r)).map (reportLine r))) s := by
  induction l generalizing s with
  | nil => exact steadily_pure ⟨.refl s, rfl⟩
  | cons live l ih =>
    have hcheck : P s := hP [] s List.nil_prefix (.refl s)
    obtain ⟨hnot, hd⟩ := List.nodup_cons.1 hd
    refine (steadily_checkpoint hcheck _).next fun _ s₁ hs₁ => ?_
    subst hs₁
    have hcases := delete_cases live.spaceArg (Object.spaceArg_getD live)
      (hlive live List.mem_cons_self)
    rw [List.map_cons] at hP ⊢
    refine (steadily_delete live.name).bind (fun gone s₂ hgone => ?_) fun f s₂ hf => ?_
    · obtain ⟨f, -, hdel⟩ | ⟨hfree, s₃, hdel, hwithout⟩ := hcases
      · nomatch hgone.trans hdel
      obtain ⟨hgone, rfl⟩ := Prod.mk.inj (hgone.trans hdel)
      obtain rfl : gone = true := Except.ok.inj hgone
      rw [clears_cons_of_none hfree] at hP ⊢
      have hrefusal := refusal_congr hwithout.refusals
      have hlive₂ : ∀ x ∈ l, s₂.find (.ofObject r x) ≠ none := by
        intro x hx
        have hne : StoreKey.ofObject r x ∉ [StoreKey.ofObject r live] := fun he =>
          hnot (List.mem_map.2 ⟨x, hx, List.mem_singleton.1 he⟩)
        rw [hwithout.find_of_not_mem hne]
        exact hlive x (List.mem_cons_of_mem _ hx)
      have hrest := ih (s := s₂) hlive₂ hd fun pre s' hpre h' =>
        hP (.ofObject r live :: pre) s' (List.cons_prefix_cons.2 ⟨rfl, hrefusal ▸ hpre⟩)
          (hwithout.trans h')
      rw [hrefusal] at hrest
      refine hrest.bind (fun deleted s' ⟨h', he⟩ => ?_) fun f s' ⟨h', he⟩ => ?_
      · obtain ⟨hnone, rfl⟩ := eq_of_endOf he
        exact steadily_pure ⟨hwithout.trans h', by rw [hnone]; rfl⟩
      · exact ⟨hwithout.trans h', by rw [eq_some_of_endOf he]; rfl⟩
    · obtain ⟨f', hrefused, hdel⟩ | ⟨-, s₃, hdel, -⟩ := hcases
      · obtain ⟨he, rfl⟩ := Prod.mk.inj (hf.trans hdel)
        rw [clears_cons_of_some hrefused]
        exact ⟨.refl _, congrArg Except.error (Except.error.inj he)⟩
      · nomatch hf.trans hdel

theorem steadily_sweepKind (o : Owner) (keep : List Identity) (r : Resource) (hs : s.Sound)
    (hP : ∀ pre s', pre <+: (clears s.refusal (staleIn o keep r s.objects)).1 → Without pre s s' →
      P s') :
    Steadily P (sweepKind o keep r)
      (fun x s' => Without (clears s.refusal (staleIn o keep r s.objects)).1 s s' ∧
        x = endOf (clears s.refusal (staleIn o keep r s.objects)).2
          ((staleIn o keep r s.objects).map (reportLine r))) s := by
  refine (steadily_checkpoint (hP [] s List.nil_prefix (.refl s)) _).next fun _ s₁ hs₁ => ?_
  subst hs₁
  refine (steadily_list (some o.selector)).next fun live s₂ ⟨hlive, hs₂⟩ => ?_
  subst hs₂ hlive
  have hkeys := map_list_eq_staleIn o keep r hs
  rw [← hkeys] at hP ⊢
  refine steadily_deleteAll (fun x hx => ?_) ?_ hP
  · rw [(hs.mem_list.1 (List.mem_filter.1 hx).1).1]
    exact Option.some_ne_none x
  · rw [hkeys]
    exact (staleIn_sublist _).nodup hs.nodup_keys

theorem steadily_sweepKinds {rs : List Resource} (hs : s.Sound)
    (hrs : (rs.map resourceText).Nodup)
    (hP : ∀ pre s', pre <+: (clears s.refusal (rs.flatMap (staleIn o keep · s.objects))).1 →
      Without pre s s' → P s') :
    Steadily P (sweepKinds o keep rs)
      (fun x s' => Without (clears s.refusal (rs.flatMap (staleIn o keep · s.objects))).1 s s' ∧
        x = endOf (clears s.refusal (rs.flatMap (staleIn o keep · s.objects))).2
          (reportOf o keep rs s.objects)) s := by
  induction rs generalizing s with
  | nil => exact steadily_pure ⟨.refl s, rfl⟩
  | cons r rs ih =>
    obtain ⟨hnot, hrs⟩ := List.nodup_cons.1 hrs
    rw [List.flatMap_cons] at hP ⊢
    have hkind := steadily_sweepKind (P := P) o keep r hs
      fun pre s' hpre h' => hP pre s' (hpre.trans (clears_prefix_append ..)) h'
    refine hkind.bind (fun deleted s₁ ⟨h₁, he⟩ => ?_) fun f s₁ ⟨h₁, he⟩ => ?_
    · obtain ⟨hnone, rfl⟩ := eq_of_endOf he
      obtain ⟨hself, happend⟩ := clears_append_of_none hnone
        (rs.flatMap (staleIn o keep · s.objects))
      rw [hself] at h₁
      rw [happend] at hP ⊢
      have hrefusal := refusal_congr h₁.refusals
      -- what is stale of the other kinds is still there
      have hother : ∀ r' ∈ rs, staleIn o keep r' s₁.objects = staleIn o keep r' s.objects := by
        intro r' hr'
        rw [h₁.objects, staleIn_filter]
        refine List.filter_eq_self.2 fun k hk => decide_eq_true fun hk' => hnot ?_
        rw [← resource_of_staleIn hk', resource_of_staleIn hk]
        exact List.mem_map_of_mem hr'
      have hothers : rs.flatMap (staleIn o keep · s₁.objects)
          = rs.flatMap (staleIn o keep · s.objects) :=
        List.flatMap_congr hother
      have hreport : reportOf o keep rs s₁.objects = reportOf o keep rs s.objects :=
        List.flatMap_congr fun r' hr' => congrArg _ (hother r' hr')
      have hrest := ih (h₁.sound hs) hrs fun pre s' hpre h' => by
        rw [hrefusal, hothers] at hpre
        exact hP _ s' ((List.prefix_append_right_inj _).2 hpre) (h₁.trans h')
      rw [hrefusal, hothers, hreport] at hrest
      refine hrest.bind (fun more s' ⟨h', he'⟩ => ?_) fun f s' ⟨h', he'⟩ => ?_
      · obtain ⟨hnone', rfl⟩ := eq_of_endOf he'
        exact steadily_pure ⟨h₁.trans h', by rw [hnone']; rfl⟩
      · exact ⟨h₁.trans h', by rw [eq_some_of_endOf he']; rfl⟩
    · have hsome := eq_some_of_endOf he
      rw [clears_append_of_some hsome]
      exact ⟨h₁, by rw [hsome]; rfl⟩

end Steadily

end Sweep

end MeshRollout
