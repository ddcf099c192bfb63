import Mathlib.Data.List.Nodup
import MeshRollout.Proofs.Rollout.Settled
import MeshRollout.Proofs.Rollout.SweepEnd

/-!
Bringing a route's objects into place from the middle. At every check of a pass the store differs
from the one at the start by what the pass writes anew anyway, and by some first part of what its
sweep clears; from any such store a whole pass comes to the same end.
-/
set_option autoImplicit false

namespace MeshRollout

open StoreKey Rehearsal Sweep Reconciliation MemoryStore

def lastSaid : List PlannedObject → StoreKey → Option Content
  | [], _ => none
  | b :: bs, k => (lastSaid bs k).or (if k = b.key then some b.object.content else none)

theorem lastSaid_isSome {bs : List PlannedObject} {k : StoreKey}
    (hk : k ∈ bs.map PlannedObject.key) : (lastSaid bs k).isSome = true := by
  induction bs with
  | nil => nomatch hk
  | cons b bs ih =>
    rw [lastSaid, Option.isSome_or, Bool.or_eq_true]
    rcases List.mem_cons.1 hk with rfl | hk
    · exact .inr (by rw [if_pos rfl]; rfl)
    · exact .inl (ih hk)

section Writing

variable {P : MemoryStore → Prop} {s : MemoryStore} {b : PlannedObject}

theorem steadily_writeObject (hb : b.Writable) (hs : s.Sound) :
    Steadily P (Convergence.writeObject b.resource b.object)
      (fun r s' => ∃ x, r = .ok x ∧ Placed b.key b.object.content s s') s := by
  refine (steadily_get b.object.name).next fun found s₁ ⟨hfound, hs₁⟩ => ?_
  subst hs₁
  rw [Object.spaceArg_getD] at hfound
  have written {p : Pass Object} {x : WriteResult} {a : Except Failure Object × MemoryStore}
      (h : Steadily P p (fun r s' => (r, s') = a) s₁)
      (ha : ∃ y s', a = (.ok y, s') ∧ Placed b.key b.object.content s₁ s') :
      Steadily P (do let _ ← p; pure x)
        (fun r s' => ∃ x, r = .ok x ∧ Placed b.key b.object.content s₁ s') s₁ := by
    obtain ⟨y, s', rfl, hplaced⟩ := ha
    refine h.bind (fun _ s'' he => ?_) fun _ s'' he => nomatch he
    obtain ⟨-, rfl⟩ := Prod.mk.inj he
    exact steadily_pure ⟨x, rfl, hplaced⟩
  cases found with
  | none => exact written (steadily_create b.object) (placed_create hs hfound.symm)
  | some live =>
    by_cases hout : live.isOutdated b.object = false
    · simp only [hout, Bool.not_false, ↓reduceIte]
      have hcarries := (hb.isOutdated_eq_false_iff live).1 hout
      refine steadily_pure ⟨_, rfl, .of_content hs ?_⟩
      rw [MemoryStore.content, ← hcarries.content]
      exact congrArg (Option.map Object.content) hfound.symm
    · rw [Bool.not_eq_false] at hout
      simp only [hout, Bool.not_true, Bool.false_eq_true, ↓reduceIte]
      have hlive : s₁.find (.ofObject b.resource b.object) = some live := hfound.symm
      exact written (steadily_update _) (placed_update hs hlive rfl)

structure Written (keys : List StoreKey) (bs : List PlannedObject) (s s' : MemoryStore) :
    Prop where
  sound : s'.Sound
  refusals : s'.refusedDeletions = s.refusedDeletions
  apart : s'.apart keys = s.apart keys
  content : ∀ k, s'.content k = (lastSaid bs k).or (s.content k)

theorem Written.of_placed {keys : List StoreKey} {bs : List PlannedObject} {s' s'' : MemoryStore}
    (h : Placed b.key b.object.content s s') (hk : b.key ∈ keys) (h' : Written keys bs s' s'') :
    Written keys (b :: bs) s s'' where
  sound := h'.sound
  refusals := h'.refusals.trans h.refusals
  apart := h'.apart.trans (h.apart keys hk)
  content k := by
    rw [h'.content, h.content, lastSaid, Option.or_assoc]
    split <;> rfl

theorem steadily_writeAll {keys : List StoreKey} {bs : List PlannedObject}
    (hbs : ∀ b ∈ bs, b.Writable) (hkeys : ∀ b ∈ bs, b.key ∈ keys) (hs : s.Sound)
    (hP : ∀ s', s'.Sound → s'.refusedDeletions = s.refusedDeletions →
      s'.apart keys = s.apart keys → P s') :
    Steadily P (writeAll bs) (fun r s' => ∃ x, r = .ok x ∧ Written keys bs s s') s := by
  induction bs generalizing s with
  | nil => exact steadily_pure ⟨(), rfl, hs, rfl, rfl, fun _ => rfl⟩
  | cons b bs ih =>
    have hk := hkeys b List.mem_cons_self
    refine (steadily_checkpoint (hP s hs rfl rfl) _).next fun _ s₁ hs₁ => ?_
    subst hs₁
    refine (steadily_writeObject (hbs b List.mem_cons_self) hs).next fun _ s₂ h₂ => ?_
    have hrest := ih (fun x hx => hbs x (List.mem_cons_of_mem _ hx))
      (fun x hx => hkeys x (List.mem_cons_of_mem _ hx)) h₂.sound fun s' hs' hr ha =>
        hP s' hs' (hr.trans h₂.refusals) (ha.trans (h₂.apart keys hk))
    exact hrest.mono fun _ _ ⟨x, hx, h'⟩ => ⟨x, hx, .of_placed h₂ hk h'⟩

end Writing

variable (o : Owner) (bs : List PlannedObject)

def staleKeys (s : MemoryStore) : List StoreKey :=
  producedKinds.flatMap (staleIn o (identities bs) · s.objects)

/-- The store at a check of a pass: some first part of what the sweep clears is gone, and else
nothing has changed but what the pass writes. -/
structure Partway (start s : MemoryStore) : Prop where
  sound : s.Sound
  refusals : s.refusedDeletions = start.refusedDeletions
  cleared : ∃ pre, pre <+: (clears start.refusal (staleKeys o bs start)).1 ∧
    s.apart (bs.map PlannedObject.key)
      = (start.apart (bs.map PlannedObject.key)).filter fun p => p.1 ∉ pre

structure Finished (start s : MemoryStore) : Prop where
  sound : s.Sound
  refusals : s.refusedDeletions = start.refusedDeletions
  apart : s.apart (bs.map PlannedObject.key) = (start.apart (bs.map PlannedObject.key)).filter
    fun p => p.1 ∉ (clears start.refusal (staleKeys o bs start)).1
  content : ∀ k ∈ bs.map PlannedObject.key, s.content k = lastSaid bs k

variable {o bs} {start s s' : MemoryStore}

theorem nodup_staleKeys (o : Owner) (bs : List PlannedObject) (hs : s.Sound) : (staleKeys o bs s).Nodup := by
  refine List.nodup_flatMap.2 ⟨fun r _ => (staleIn_sublist _).nodup hs.nodup_keys, ?_⟩
  refine (List.pairwise_map.1 nodup_resourceText).imp fun hne k hk hk' => hne ?_
  rw [← resource_of_staleIn hk, resource_of_staleIn hk']

/-- What a pass writes is never stale to it. -/
theorem staleKeys_eq_apart (hbs : ∀ b ∈ bs, b.Writable) (hs : s.Sound) :
    staleKeys o bs s
      = producedKinds.flatMap
          (staleIn o (identities bs) · (s.apart (bs.map PlannedObject.key))) := by
  refine List.flatMap_congr fun r hr => ?_
  rw [staleIn, staleIn, MemoryStore.apart, List.filter_filter]
  refine congrArg (List.map Prod.fst) (List.filter_congr fun p hp => ?_)
  by_cases hk : p.1 ∈ bs.map PlannedObject.key
  · obtain ⟨b, hb, hbk⟩ := List.mem_map.1 hk
    have hnot : isSwept o (identities bs) r p = false := by
      refine Bool.eq_false_iff.2 fun hswept => not_staleAt_key (o := o) hs (hbs b hb) hb ?_
      obtain ⟨hres, hstale⟩ := Bool.and_eq_true_iff.1 hswept
      rw [hbk]
      exact ⟨r, hr, eq_of_beq hres, p.2, hs.find_of_mem hp, (Bool.and_eq_true_iff.1 hstale).2⟩
    simp [hnot]
  · simp [hk]

theorem not_mem_of_staleKeys (hbs : ∀ b ∈ bs, b.Writable) (hs : s.Sound) {k : StoreKey}
    (hk : k ∈ staleKeys o bs s) : k ∉ bs.map PlannedObject.key := by
  rw [staleKeys_eq_apart hbs hs] at hk
  obtain ⟨r, -, hk⟩ := List.mem_flatMap.1 hk
  obtain ⟨p, hp, rfl⟩ := List.mem_map.1 ((staleIn_sublist _).subset hk)
  exact of_decide_eq_true (List.mem_filter.1 hp).2

theorem Partway.refl (hs : s.Sound) : Partway o bs s s where
  sound := hs
  refusals := rfl
  cleared := ⟨[], List.nil_prefix, (List.filter_eq_self.2 fun _ _ => by simp).symm⟩

theorem Finished.partway (h : Finished o bs start s) : Partway o bs start s :=
  ⟨h.sound, h.refusals, _, List.prefix_refl _, h.apart⟩

/-- All ends of a pass say the same. -/
theorem Finished.content_eq (h : Finished o bs start s) (h' : Finished o bs start s')
    (k : StoreKey) : s.content k = s'.content k := by
  by_cases hk : k ∈ bs.map PlannedObject.key
  · rw [h.content k hk, h'.content k hk]
  · rw [MemoryStore.content, find_eq_lookup_apart hk, h.apart, ← h'.apart,
      ← find_eq_lookup_apart hk, MemoryStore.content]

/-- From partway on, what is stale is what has not been cleared yet, and clearing it ends as
clearing everything does. -/
theorem Partway.resume (hbs : ∀ b ∈ bs, b.Writable) (hstart : start.Sound)
    (h : Partway o bs start s) :
    ∃ pre, s.apart (bs.map PlannedObject.key)
        = (start.apart (bs.map PlannedObject.key)).filter (fun p => p.1 ∉ pre) ∧
      clears start.refusal (staleKeys o bs start)
        = (pre ++ (clears s.refusal (staleKeys o bs s)).1,
            (clears s.refusal (staleKeys o bs s)).2) := by
  obtain ⟨pre, hpre, hapart⟩ := h.cleared
  obtain ⟨rest, hstale, hclears⟩ := clears_resume hpre
  refine ⟨pre, hapart, ?_⟩
  have hrest : staleKeys o bs s = rest := by
    have hfilter : staleKeys o bs s = (staleKeys o bs start).filter (· ∉ pre) := by
      rw [staleKeys_eq_apart hbs h.sound, staleKeys_eq_apart hbs hstart, hapart,
        List.filter_flatMap]
      exact List.flatMap_congr fun r _ => staleIn_filter _
    have hd := nodup_staleKeys o bs hstart
    rw [hstale] at hd
    have hdisjoint := (List.nodup_append.1 hd).2.2
    rw [hfilter, hstale, List.filter_append]
    have hnone : pre.filter (· ∉ pre) = [] := by simp
    rw [hnone, List.nil_append]
    exact List.filter_eq_self.2 fun k hk => decide_eq_true fun hk' => hdisjoint k hk' k hk rfl
  rw [hrest, refusal_congr h.refusals]
  exact hclears

theorem Partway.without {pre : List StoreKey} (hbs : ∀ b ∈ bs, b.Writable)
    (hstart : start.Sound) (h : Partway o bs start s)
    (hpre : pre <+: (clears s.refusal (staleKeys o bs s)).1) (h' : Without pre s s') :
    Partway o bs start s' where
  sound := h'.sound h.sound
  refusals := h'.refusals.trans h.refusals
  cleared := by
    obtain ⟨pre₀, hapart, hclears⟩ := h.resume hbs hstart
    refine ⟨pre₀ ++ pre, ?_, ?_⟩
    · rw [hclears]
      exact (List.prefix_append_right_inj _).2 hpre
    · rw [h'.apart, hapart, List.filter_filter]
      exact List.filter_congr fun p _ => by simp [Bool.and_comm]

theorem steadily_sweep (hbs : ∀ b ∈ bs, b.Writable) (hstart : start.Sound)
    (h : Partway o bs start s) (hin : ∀ k ∈ bs.map PlannedObject.key, s.content k = lastSaid bs k) :
    Steadily (Partway o bs start) (sweep o (identities bs))
      (fun x s' => ∃ report, x = endOf (clears start.refusal (staleKeys o bs start)).2 report ∧
        Finished o bs start s') s := by
  obtain ⟨pre, hapart, hclears⟩ := h.resume hbs hstart
  refine (steadily_sweepKinds h.sound nodup_resourceText fun pre s' hpre h' =>
    h.without hbs hstart hpre h').mono fun x s' ⟨hswept, hx⟩ => ?_
  have h' : Without (clears s.refusal (staleKeys o bs s)).1 s s' := hswept
  refine ⟨_, by rw [hclears]; exact hx, h'.sound h.sound, h'.refusals.trans h.refusals, ?_, ?_⟩
  · rw [h'.apart, hapart, hclears, List.filter_filter]
    exact List.filter_congr fun p _ => by simp [Bool.and_comm]
  · intro k hk
    have hnot : k ∉ (clears s.refusal (staleKeys o bs s)).1 := fun hc =>
      not_mem_of_staleKeys hbs h.sound ((clears_begins _).subset hc) hk
    rw [MemoryStore.content, h'.find_of_not_mem hnot]
    exact hin k hk

theorem steadily_bringIntoPlace {edgeSpace : String} {r : Route}
    (hp : produced o r.ownerReference? edgeSpace r.spec = .ok bs) (hbs : ∀ b ∈ bs, b.Writable)
    (hstart : start.Sound) (h : Partway o bs start s) :
    Steadily (Partway o bs start) (bringIntoPlace edgeSpace o r)
      (fun x s' => x = endOf (clears start.refusal (staleKeys o bs start)).2 () ∧
        Finished o bs start s') s := by
  rw [bringIntoPlace_eq hp]
  have hwrite := steadily_writeAll (P := Partway o bs start) hbs
    (fun b hb => List.mem_map_of_mem hb) h.sound fun s' hs' hr ha =>
      ⟨hs', hr.trans h.refusals, h.cleared.imp fun pre hpre => ⟨hpre.1, ha.trans hpre.2⟩⟩
  refine hwrite.next fun _ s₁ h₁ => ?_
  have hpart : Partway o bs start s₁ := ⟨h₁.sound, h₁.refusals.trans h.refusals,
    h.cleared.imp fun pre hpre => ⟨hpre.1, h₁.apart.trans hpre.2⟩⟩
  have hin : ∀ k ∈ bs.map PlannedObject.key, s₁.content k = lastSaid bs k := by
    intro k hk
    obtain ⟨c, hc⟩ := Option.isSome_iff_exists.1 (lastSaid_isSome hk)
    rw [h₁.content, hc]
    rfl
  refine (steadily_sweep hbs hstart hpart hin).bind (fun deleted s₂ ⟨_, he, h₂⟩ => ?_)
    fun f s₂ ⟨_, he, h₂⟩ => ?_
  · exact steadily_pure ⟨by rw [(eq_of_endOf he).1]; rfl, h₂⟩
  · exact ⟨by rw [eq_some_of_endOf he]; rfl, h₂⟩

section Pass

variable {P : MemoryStore → Prop}

theorem steadily_record (x : Outcome) (r : Route) :
    Steadily P (x.record r) (fun a s' => ∃ y, a = .ok y ∧ s' = s) s := by
  simp only [Outcome.record]
  split
  · exact steadily_pure ⟨(), rfl, rfl⟩
  · refine steadily_now.next fun t s₁ hs₁ => ?_
    subst hs₁
    refine (steadily_patchStatus _ _ _).next fun _ s₂ hs₂ => ?_
    subst hs₂
    split
    · exact steadily_notify _
    · exact steadily_pure ⟨(), rfl, rfl⟩

theorem steadily_conclude (r : Route) (hindrance : Option Failure) :
    Steadily P (conclude r (endOf hindrance ()))
      (fun x s' => x = endOf hindrance (.requeue resyncSeconds) ∧ s' = s) s := by
  cases hindrance with
  | none =>
    refine (steadily_record _ r).next fun _ s₁ hs₁ => ?_
    exact steadily_pure ⟨rfl, hs₁⟩
  | some f =>
    rw [endOf, conclude.eq_def]
    split
    · rename_i he
      cases he
    · rename_i stage he
      cases he
      exact steadily_throw ⟨rfl, rfl⟩
    · rename_i f' _ he
      cases he
      refine (steadily_record _ r).attempt.next ?_
      rintro - s₁ ⟨-, -, hs₁⟩
      exact steadily_throw ⟨rfl, hs₁⟩

end Pass

/-- A pass that may be stopped at any check and made again: it ends the same from every store in
which it may have been stopped, and from the ones in which it ends. -/
structure Restartable {α : Type} (p : Pass α) (start : MemoryStore) (P : MemoryStore → Prop)
    (x : Except Failure α) (Done : MemoryStore → Prop) : Prop where
  start : P start
  steadily : ∀ s, P s → Steadily P p (fun r s' => r = x ∧ Done s') s
  again : ∀ s, Done s → P s
  same : ∀ s s', Done s → Done s' → ∀ k, s.content k = s'.content k
  uncancelled : ∀ stage, x ≠ .error (.cancelled stage)

theorem restartable_of_still {α : Type} {p : Pass α} {x : Except Failure α}
    (h : Steadily (· = start) p (fun r s' => r = x ∧ s' = start) start)
    (hx : ∀ stage, x ≠ .error (.cancelled stage)) :
    Restartable p start (· = start) x (· = start) where
  start := rfl
  steadily s hs := hs ▸ h
  again _ hs := hs
  same s s' hs hs' k := by rw [hs, hs']
  uncancelled := hx

theorem refusal_ne_cancelled {k : StoreKey} {f : Failure} (h : s.refusal k = some f)
    (stage : String) : f ≠ .cancelled stage := by
  obtain ⟨message, -, rfl⟩ := Option.map_eq_some_iff.1 h
  exact fun he => nomatch he

theorem endOf_clears_ne_cancelled {α : Type} (ks : List StoreKey) (x : α) (stage : String) :
    endOf (clears s.refusal ks).2 x ≠ .error (.cancelled stage) := by
  induction ks with
  | nil => exact fun he => nomatch he
  | cons k ks ih =>
    cases hk : s.refusal k with
    | none => rwa [clears_cons_of_none hk]
    | some f =>
      rw [clears_cons_of_some hk]
      exact fun he => refusal_ne_cancelled hk stage (Except.error.inj he)

theorem restartable_letGo {r : Route} (hstart : start.Sound) :
    Restartable (do letGo o r; pure Action.awaitChange) start (Partway o [] start)
      (endOf (clears start.refusal (staleKeys o [] start)).2 .awaitChange)
      (Finished o [] start) where
  start := .refl hstart
  steadily s h := by
    have hsweep := steadily_sweep (List.forall_mem_nil _) hstart h (List.forall_mem_nil _)
    have hletGo : Steadily (Partway o [] start) (letGo o r)
        (fun x s' => x = endOf (clears start.refusal (staleKeys o [] start)).2 () ∧
          Finished o [] start s') s := by
      refine hsweep.bind (fun deleted s₁ ⟨_, he, h₁⟩ => ?_) fun f s₁ ⟨_, he, h₁⟩ => ?_
      · rw [(eq_of_endOf he).1]
        exact (steadily_release _ _ _).mono fun x s' ⟨_, hx, hs'⟩ => ⟨hx, hs' ▸ h₁⟩
      · exact ⟨by rw [eq_some_of_endOf he]; rfl, h₁⟩
    refine hletGo.bind (fun _ s₁ ⟨he, h₁⟩ => ?_) fun f s₁ ⟨he, h₁⟩ => ?_
    · exact steadily_pure ⟨by rw [(eq_of_endOf he).1]; rfl, h₁⟩
    · exact ⟨by rw [eq_some_of_endOf he]; rfl, h₁⟩
  again _ h := h.partway
  same _ _ h h' := h.content_eq h'
  uncancelled := endOf_clears_ne_cancelled _ _

theorem restartable_bringIntoPlace {edgeSpace : String} {r : Route}
    (hp : produced o r.ownerReference? edgeSpace r.spec = .ok bs) (hbs : ∀ b ∈ bs, b.Writable)
    (hstart : start.Sound) :
    Restartable (do conclude r (← (bringIntoPlace edgeSpace o r).attempt)) start
      (Partway o bs start)
      (endOf (clears start.refusal (staleKeys o bs start)).2 (.requeue resyncSeconds))
      (Finished o bs start) where
  start := .refl hstart
  steadily s h := by
    refine (steadily_bringIntoPlace hp hbs hstart h).attempt.next fun x s₁ ⟨hx, h₁⟩ => ?_
    subst hx
    exact (steadily_conclude r _).mono fun _ _ ⟨hx, hs⟩ => ⟨hx, hs ▸ h₁⟩
  again _ h := h.partway
  same _ _ h h' := h.content_eq h'
  uncancelled := endOf_clears_ne_cancelled _ _

theorem validate_ne_cancelled {spec : RouteSpec} {f : Failure} (hv : spec.validate = .error f)
    (stage : String) : f ≠ .cancelled stage := by
  rintro rfl
  rw [RouteSpec.validate] at hv
  split at hv <;> cases hv

/-- A route that fails its checks fails its pass before anything is written. -/
theorem restartable_of_invalid {edgeSpace : String} {r : Route} {f : Failure}
    (hv : r.spec.validate = .error f) :
    Restartable (do conclude r (← (bringIntoPlace edgeSpace o r).attempt)) start (· = start)
      (.error f) (· = start) := by
  have hp : bringIntoPlace edgeSpace o r = throw f := by
    simp only [bringIntoPlace, hv]
    rfl
  refine restartable_of_still ?_ fun stage he =>
    validate_ne_cancelled hv stage (Except.error.inj he)
  rw [hp]
  have hthrow : Steadily (· = start) (throw f : Pass Unit)
      (fun x s' => x = endOf (some f) () ∧ s' = start) start :=
    steadily_throw ⟨rfl, rfl⟩
  refine hthrow.attempt.next ?_
  rintro x s₁ ⟨rfl, rfl⟩
  exact steadily_conclude r (some f)

theorem restartable_passOver (edgeSpace : String) (o : Owner) (r : Route) (hstart : start.Sound) :
    ∃ P x Done, Restartable (passOver edgeSpace o r) start P x Done := by
  cases hl : r.isLeaving with
  | true =>
    cases hh : r.metadata.isHeldBy edgeCleanup with
    | true =>
      rw [passOver_of_leaving edgeSpace o hl hh]
      exact ⟨_, _, _, restartable_letGo hstart⟩
    | false =>
      rw [passOver_of_unheld_leaving edgeSpace o hl hh]
      exact ⟨_, _, _, restartable_of_still (steadily_pure ⟨rfl, rfl⟩) fun _ he => nomatch he⟩
  | false =>
    cases hh : r.metadata.isHeldBy edgeCleanup with
    | true =>
      rw [passOver_of_held edgeSpace o hl hh]
      cases hv : r.spec.validate with
      | ok _ =>
        have hp := produced_eq_ok hv o r.ownerReference? edgeSpace
        exact ⟨_, _, _, restartable_bringIntoPlace hp (r.spec.planned_writable _ _ _) hstart⟩
      | error f => exact ⟨_, _, _, restartable_of_invalid hv⟩
    | false =>
      rw [passOver_of_unheld edgeSpace o hl hh]
      have hpass : Steadily (· = start)
          (do
            Pass.checkpoint "add finalizer"
            Pass.hold o.space o.name edgeCleanup
            pure (Action.requeue 0))
          (fun x s' => x = .ok (Action.requeue 0) ∧ s' = start) start := by
        refine Steadily.next (steadily_checkpoint (P := (· = start)) rfl _) fun _ s₁ hs₁ => ?_
        refine (steadily_hold _ _ _).next fun _ s₂ hs₂ => ?_
        exact steadily_pure ⟨rfl, hs₂.trans hs₁⟩
      exact ⟨_, _, _, restartable_of_still hpass fun _ he => nomatch he⟩

end MeshRollout
