import MeshRollout.Proofs.Desired.Breaking
import MeshRollout.Proofs.Desired.Partition

/-!
The accounts of a pass over one kind. What it reports is what the log of the store tells, and what it
reports and what it leaves alone are the desired objects. A pass that breaks off does so at a call
that failed.
-/
set_option autoImplicit false

namespace MeshRollout

open Pass (on interactionsOn)
open Rehearsal (answer)

namespace Report

theorem empty_merge (a : Report) : ({} : Report).merge a = a := by
  simp [merge]

theorem merge_empty (a : Report) : a.merge {} = a := by
  simp [merge]

theorem merge_assoc (a b c : Report) : (a.merge b).merge c = a.merge (b.merge c) := by
  simp [merge, Nat.add_assoc]

end Report

namespace Convergence

open MemoryStore (logLine)

variable {manager : String} {r : Resource} {p p' p'' : Progress} {w w' w'' : Rehearsal}
  {a b : Report} {lines lines' : List String}

def entry (verb : String) (r : Resource) (key : String) : String :=
  verb ++ " " ++ r.kind ++ " " ++ key

theorem logLine_eq_entry (verb : String) (r : Resource) (o : Object) :
    logLine verb r o.space o.name = entry verb r o.key := by
  simp only [logLine, entry, Object.key, String.append_assoc]

/-- What a part of a pass added to the report, and what to the log. Without a new line in the log,
the store is as it was. -/
structure Adds (added : Report) (lines : List String) (p p' : Progress) (w w' : Rehearsal) :
    Prop where
  report : p'.report = p.report.merge added
  rejection : p'.rejection = none → p.rejection = none ∧ added.rejected = []
  writes : w'.store.writes = w.store.writes ++ lines
  still : lines = [] → w'.store = w.store

namespace Adds

theorem of_store_eq (hreport : p'.report = p.report.merge a)
    (hrejection : p'.rejection = none → p.rejection = none ∧ a.rejected = [])
    (hstore : w'.store = w.store) : Adds a [] p p' w w' :=
  ⟨hreport, hrejection, by rw [hstore, List.append_nil], fun _ => hstore⟩

theorem refl (p : Progress) (hstore : w'.store = w.store) : Adds {} [] p p w w' :=
  .of_store_eq (Report.merge_empty _).symm (fun h => ⟨h, rfl⟩) hstore

theorem trans (h : Adds a lines p p' w w') (h' : Adds b lines' p' p'' w' w'') :
    Adds (a.merge b) (lines ++ lines') p p'' w w'' where
  report := by rw [h'.report, h.report, Report.merge_assoc]
  rejection hnone := by
    obtain ⟨hp', hb⟩ := h'.rejection hnone
    obtain ⟨hp, ha⟩ := h.rejection hp'
    exact ⟨hp, by simp [Report.merge, ha, hb]⟩
  writes := by rw [h'.writes, h.writes, List.append_assoc]
  still hnone := by
    obtain ⟨hlines, hlines'⟩ := List.append_eq_nil_iff.1 hnone
    exact (h'.still hlines').trans (h.still hlines)

end Adds

/-- A deletion that succeeds is in the report and in the log; of an object that was gone already
nothing is said. -/
theorem adds_prune {live : Object} (hw : w.Intact) (h : on answer (prune r live p) w = (.ok p', w')) :
    ∃ keys, Adds { deleted := keys } (keys.map (entry "delete" r)) p p' w w' := by
  rw [prune_eq] at h
  obtain ⟨gone, w₁, hdelete, hrest⟩ := Pass.ok_of_on_bind h
  have hnotice := notify_store (Notice.deleted r.kind live.space live.name) w
  have hw₀ := hw.answered (.notify (Notice.deleted r.kind live.space live.name))
  have hon : (answer (.notify (Notice.deleted r.kind live.space live.name)) w).2.answerStore
      (.delete r live.spaceArg live.name) = (.ok gone, w₁) := hdelete
  generalize (answer (.notify (Notice.deleted r.kind live.space live.name)) w).2 = w₀
    at hnotice hw₀ hon
  obtain ⟨-, -, hresult⟩ := Rehearsal.answerStore_cases (.delete r live.spaceArg live.name) hw₀.races
  rw [hon, hnotice] at hresult
  rcases hresult with ⟨⟨f, hf⟩, -⟩ | ⟨hok, hs⟩
  · nomatch hf
  · have hdeed := (MemoryStore.outcome_delete w.store r live.spaceArg live.name).done gone hok.symm
    have hstore : w₁.store = (w.store.delete r live.spaceArg live.name).2 := hs
    rw [← hstore, live.spaceArg_getD] at hdeed
    cases gone with
    | true =>
      cases hrest
      refine ⟨[live.key], by simp [Progress.delete, Report.merge], fun h => ⟨h, rfl⟩, ?_,
        fun h => nomatch h⟩
      exact hdeed.log.trans (by rw [if_pos rfl, logLine_eq_entry]; rfl)
    | false =>
      cases hrest
      exact ⟨[], .refl p (hdeed.same rfl)⟩

theorem adds_deleted (keys keys' : List String)
    (h : Adds { deleted := keys } (keys.map (entry "delete" r)) p p' w w')
    (h' : Adds { deleted := keys' } (keys'.map (entry "delete" r)) p' p'' w' w'') :
    Adds { deleted := keys ++ keys' } ((keys ++ keys').map (entry "delete" r)) p p'' w w'' := by
  rw [List.map_append]
  exact h.trans h'

theorem adds_pruneAll {l : List Object} (hw : w.Intact)
    (h : on answer (pruneAll r p l) w = (.ok p', w')) :
    ∃ keys, Adds { deleted := keys } (keys.map (entry "delete" r)) p p' w w' := by
  induction l generalizing p w with
  | nil =>
    cases h
    exact ⟨[], .refl _ rfl⟩
  | cons live l ih =>
    obtain ⟨p₁, w₁, hfirst, hrest⟩ := Pass.ok_of_on_bind h
    obtain ⟨keys, hkeys⟩ := adds_prune hw hfirst
    obtain ⟨keys', hkeys'⟩ := ih (hw.on hfirst) hrest
    exact ⟨keys ++ keys', adds_deleted keys keys' hkeys hkeys'⟩

theorem adds_pruneSpaces {ws : Dict (List String)} (hw : w.Intact)
    (h : on answer (pruneSpaces r p ws) w = (.ok p', w')) :
    ∃ keys, Adds { deleted := keys } (keys.map (entry "delete" r)) p p' w w' := by
  induction ws generalizing p w with
  | nil =>
    cases h
    exact ⟨[], .refl _ rfl⟩
  | cons q ws ih =>
    obtain ⟨live, w₁, hlist, hrest⟩ := Pass.ok_of_on_bind h
    obtain ⟨p₂, w₂, hspace, hrest⟩ := Pass.ok_of_on_bind hrest
    obtain ⟨-, hstore⟩ := listed hw hlist
    have hw₁ := hw.on hlist
    obtain ⟨keys, hkeys⟩ := adds_pruneAll hw₁ hspace
    obtain ⟨keys', hkeys'⟩ := ih (hw₁.on hspace) hrest
    exact ⟨keys ++ keys', (Adds.refl p hstore).trans (adds_deleted keys keys' hkeys hkeys')⟩

theorem adds_tidy {desired : List Object} (hw : w.Intact)
    (h : on answer (tidy r desired) w = (.ok p', w')) :
    ∃ keys, Adds { deleted := keys } (keys.map (entry "delete" r)) {} p' w w' := by
  rw [tidy] at h
  split at h
  · obtain ⟨live, w₁, hlist, hrest⟩ := Pass.ok_of_on_bind h
    obtain ⟨-, hstore⟩ := listed hw hlist
    obtain ⟨keys, hkeys⟩ := adds_pruneAll (hw.on hlist) hrest
    exact ⟨keys, (Adds.refl {} hstore).trans hkeys⟩
  · exact adds_pruneSpaces hw h

structure Covers (os : List Object) (added : Report) : Prop where
  nothingDeleted : added.deleted = []
  inOrder : added.applied.Sublist (os.map Object.key)
  total : added.applied.length + added.unchanged + added.rejected.length = os.length

theorem Covers.append {os os' : List Object} (h : Covers os a) (h' : Covers os' b) :
    Covers (os ++ os') (a.merge b) where
  nothingDeleted := by simp [Report.merge, h.nothingDeleted, h'.nothingDeleted]
  inOrder := by
    rw [List.map_append]
    exact h.inOrder.append h'.inOrder
  total := by
    have htotal := h.total
    have htotal' := h'.total
    simp only [Report.merge, List.length_append]
    omega

theorem adds_applyUnlessSame {differs : Object → Object → Bool} {o : Object} (hw : w.Intact)
    (h : on answer (applyUnlessSame manager r differs o p) w = (.ok p', w')) :
    ∃ added, Covers [o] added ∧ Adds added (added.applied.map (entry "apply" r)) p p' w w' := by
  rw [applyUnlessSame_eq] at h
  obtain ⟨live, w₁, hget, hrest⟩ := Pass.ok_of_on_bind h
  have hread : w₁.store = w.store := by
    rw [← hw.read (.get r o.spaceArg o.name) fun _ => rfl]
    exact congrArg (fun x => x.2.store) hget.symm
  have hw₁ := hw.on hget
  split at hrest
  · cases hrest
    refine ⟨{ unchanged := 1 }, ⟨rfl, List.nil_sublist _, rfl⟩, ?_⟩
    exact .of_store_eq (by simp [Progress.skip, Report.merge]) (fun h => ⟨h, rfl⟩) hread
  · have hcases := answer_apply (r := r) manager o hw₁
    rw [Pass.on_bind, Pass.on_attempt] at hrest
    have hon : on answer (afterApplying r o p (w₁.answerStore (.apply r o manager)).1)
        (w₁.answerStore (.apply r o manager)).2 = (.ok p', w') := hrest
    generalize w₁.answerStore (.apply r o manager) = y at hcases hon
    obtain ⟨x, w₂⟩ := y
    rcases hcases with ⟨f, rfl, hs⟩ | ⟨o', rfl, -, hwrites⟩
    · have hstore : w₂.store = w.store := hs.trans hread
      cases hf : f.tellsUnconfigured with
      | true =>
        rw [afterApplying, if_pos hf] at hon
        cases hon
        refine ⟨{ rejected := [o.key] }, ⟨rfl, List.nil_sublist _, rfl⟩, ?_⟩
        refine .of_store_eq (by simp [Progress.reject, Report.merge]) (fun h => ?_) hstore
        cases hp : p.rejection <;> simp [Progress.reject, hp] at h
      | false =>
        rw [afterApplying, if_neg (by simp [hf])] at hon
        cases hon
    · cases hon
      refine ⟨{ applied := [o.key] }, ⟨rfl, List.Sublist.refl _, rfl⟩,
        by simp [Progress.apply, Report.merge], fun h => ⟨h, rfl⟩, ?_,
        fun h => absurd h (List.cons_ne_nil _ _)⟩
      have hnotice := congrArg MemoryStore.writes (notify_store (Notice.applied r.kind o) w₂)
      have hlog : w₂.store.writes = w.store.writes ++ [logLine "apply" r o.space o.name] :=
        hread ▸ hwrites
      exact hnotice.trans (hlog.trans (by rw [logLine_eq_entry]; rfl))

theorem adds_applyAll {os : List Object} (hw : w.Intact)
    (h : on answer (applyAll manager r p os) w = (.ok p', w')) :
    ∃ added, Covers os added ∧ Adds added (added.applied.map (entry "apply" r)) p p' w w' := by
  induction os generalizing p w with
  | nil =>
    cases h
    exact ⟨{}, ⟨rfl, List.Sublist.refl _, rfl⟩, .refl _ rfl⟩
  | cons o os ih =>
    obtain ⟨p₁, w₁, hfirst, hrest⟩ := Pass.ok_of_on_bind h
    obtain ⟨a, hcovers, hadds⟩ := adds_applyUnlessSame hw hfirst
    obtain ⟨b, hcovers', hadds'⟩ := ih (hw.on hfirst) hrest
    refine ⟨a.merge b, hcovers.append hcovers', ?_⟩
    have happlied : (a.merge b).applied = a.applied ++ b.applied := rfl
    rw [happlied, List.map_append]
    exact hadds.trans hadds'

variable {desired : List Object}

structure Balances (r : Resource) (desired : List Object) (report : Report) (w w' : Rehearsal) :
    Prop where
  log : w'.store.writes = w.store.writes
    ++ (report.deleted.map (entry "delete" r) ++ report.applied.map (entry "apply" r))
  noneRejected : report.rejected = []
  total : report.applied.length + report.unchanged = desired.length
  inOrder : report.applied.Sublist (desired.map Object.key)
  idle : report.wroteNothing = true ↔ w'.store.writes = w.store.writes
  still : report.wroteNothing = true → w'.store = w.store

/-- A pass breaks off at a call that failed: while it deletes, before it visits a desired object, or
at the last one that it visits. -/
def BreaksOff (manager : String) (r : Resource) (desired : List Object)
    (es : List (Interaction Rehearsal)) (f : Failure) : Prop :=
  (Visits r [] es ∧ Pass.BreaksAt Tidies es f) ∨
    ∃ pre o post, desired = pre ++ o :: post ∧ Visits r (pre ++ [o]) es ∧
      Pass.BreaksAt (IsAbout manager r o) es f

def DeletesFirst (es : List (Interaction Rehearsal)) : Prop :=
  ∃ first second, es = first ++ second ∧ (∀ e ∈ first, Tidies e.call) ∧
    ∀ e ∈ second, Applies e.call

theorem balances_of_adds {keys : List String} {added : Report} {p : Progress} {report : Report}
    (hcovers : Covers desired added)
    (h : Adds (({ deleted := keys } : Report).merge added)
      (keys.map (entry "delete" r) ++ added.applied.map (entry "apply" r)) {} p w w')
    (hfinish : p.finish = .ok report) : Balances r desired report w w' := by
  have hnone := Progress.rejection_of_finish hfinish
  have hreport : report = ({ deleted := keys } : Report).merge added := by
    rw [Progress.finish_of_none hnone] at hfinish
    rw [← Except.ok.inj hfinish, h.report, Report.empty_merge]
  have hrejected : added.rejected = [] := (h.rejection hnone).2
  have hdeleted : report.deleted = keys := by
    simp [hreport, Report.merge, hcovers.nothingDeleted]
  have happlied : report.applied = added.applied := by simp [hreport, Report.merge]
  have hlog : w'.store.writes = w.store.writes
      ++ (report.deleted.map (entry "delete" r) ++ report.applied.map (entry "apply" r)) := by
    rw [hdeleted, happlied, h.writes]
  have hidle : report.wroteNothing = true ↔
      keys.map (entry "delete" r) ++ added.applied.map (entry "apply" r) = [] := by
    simp [Report.wroteNothing, hdeleted, happlied, and_comm]
  have htotal := hcovers.total
  refine ⟨hlog, by simp [hreport, Report.merge, hrejected], ?_, happlied ▸ hcovers.inOrder, ?_,
    fun hw => h.still (hidle.1 hw)⟩
  · simp only [hreport, Report.merge, List.nil_append, Nat.zero_add]
    rw [hrejected] at htotal
    exact htotal
  · rw [hidle, h.writes, List.append_right_eq_self]

theorem deletesFirst_converge (hkinds : stray? r desired = none) (w : Rehearsal) :
    DeletesFirst (interactionsOn answer (converge manager r desired) w) := by
  rw [converge_eq manager hkinds, Pass.interactionsOn_bind]
  refine ⟨_, _, rfl, (uses_tidy r desired).of_interactions answer w, ?_⟩
  split
  · rename_i p w₁ _
    rw [Pass.interactionsOn_bind_silent answer w₁ _ fun _ _ => rfl]
    exact (uses_applyAll desired p).of_interactions answer w₁
  · exact fun e he => nomatch he

theorem breaksOff_converge (hkinds : stray? r desired = none) (hw : w.Intact) {f : Failure}
    (h : on answer (converge manager r desired) w = (.error f, w'))
    (hf : f.awaitsPrerequisite = false) :
    BreaksOff manager r desired (interactionsOn answer (converge manager r desired) w) f := by
  have htidies : Visits r [] (interactionsOn answer (tidy r desired) w) := visits_none fun e he =>
    ((uses_tidy r desired).of_interactions answer w e he).visits_none
  rw [converge_eq manager hkinds, Pass.on_bind] at h
  rw [converge_eq manager hkinds, Pass.interactionsOn_bind]
  rcases htidy : on answer (tidy r desired) w with ⟨e | p, w₁⟩
  · rw [htidy] at h
    cases h
    dsimp only
    rw [List.append_nil]
    exact .inl ⟨htidies, failsAt_tidy r desired w hw _ _ htidy⟩
  · rw [htidy] at h
    dsimp only at h ⊢
    rw [Pass.on_bind] at h
    rw [Pass.interactionsOn_bind_silent answer w₁ _ fun _ _ => rfl]
    obtain ⟨-, herror⟩ := visits_applyAll manager r desired p (hw.on htidy)
    rcases happly : on answer (applyAll manager r p desired) w₁ with ⟨e | q, w₂⟩
    · rw [happly] at h
      cases h
      obtain ⟨pre, o, post, hdesired, hvisits, hbreaks⟩ := herror _ _ happly
      exact .inr ⟨pre, o, post, hdesired, htidies.append hvisits, hbreaks.append_left _⟩
    · -- what is kept for the end is a rejection
      have hdeletions : Pass.Ends (fun _ => True) Progress.Awaits (tidy r desired) :=
        ends_tidy r desired
      have hp : p.Awaits := (hdeletions Rehearsal answer w).1 p (congrArg Prod.fst htidy)
      have happlications :
          Pass.Ends (fun _ => True) Progress.Awaits (applyAll manager r p desired) :=
        ends_applyAll desired hp
      have hq : q.Awaits := (happlications Rehearsal answer w₁).1 q (congrArg Prod.fst happly)
      rw [happly] at h
      have hfinish : q.finish = .error f := congrArg Prod.fst h
      cases hrejection : q.rejection with
      | none => nomatch (Progress.finish_of_none hrejection).symm.trans hfinish
      | some g =>
        cases (Progress.finish_of_some hrejection).symm.trans hfinish
        nomatch hf.symm.trans (hq _ hrejection)

/-- A pass over one kind deletes before it applies. If it comes to its end, its report tells what the
log of the store tells, and the desired objects are those that were applied, in their order, and
those that agreed. If it fails, and not because the cluster is not ready for an object, then with the
failure of a call on the store that wrote nothing, and it did nothing about the objects behind. -/
theorem accounts_add_up (manager : String) (r : Resource) {desired : List Object} {w : Rehearsal}
    (hs : w.store.Reachable) (hr : w.races = []) (hkinds : stray? r desired = none) :
    DeletesFirst (interactionsOn answer (converge manager r desired) w) ∧
    (∀ report w', on answer (converge manager r desired) w = (.ok report, w') →
      Balances r desired report w w') ∧
    ∀ f w', on answer (converge manager r desired) w = (.error f, w') →
      f.awaitsPrerequisite = false →
      BreaksOff manager r desired (interactionsOn answer (converge manager r desired) w) f := by
  have hw : w.Intact := ⟨hs.sound, hr⟩
  refine ⟨deletesFirst_converge hkinds w, fun report w' h => ?_,
    fun f w' h hf => breaksOff_converge hkinds hw h hf⟩
  rw [converge_eq manager hkinds] at h
  obtain ⟨p, w₁, htidy, hrest⟩ := Pass.ok_of_on_bind h
  obtain ⟨q, w₂, happly, hend⟩ := Pass.ok_of_on_bind hrest
  obtain ⟨keys, hkeys⟩ := adds_tidy hw htidy
  obtain ⟨added, hcovers, hadded⟩ := adds_applyAll (hw.on htidy) happly
  have hfinish : q.finish = .ok report := congrArg Prod.fst hend
  have hsame : w₂ = w' := congrArg Prod.snd hend
  exact hsame ▸ balances_of_adds hcovers (hkeys.trans hadded) hfinish

/-- One route takes the place of another; of four routes the third one cannot be applied. -/
theorem shopRoutes_accounts_add_up :
    (∃ w', on answer (converge "sync" Route.resource [namedRoute "new"]) (withOldRoute [])
        = (.ok ⟨["shop/new"], ["shop/old"], 0, []⟩, w') ∧
      Balances Route.resource [namedRoute "new"] ⟨["shop/new"], ["shop/old"], 0, []⟩
        (withOldRoute []) w') ∧
    ∃ w', on answer (converge "sync" Route.resource shopRoutes) (withOldRoute [])
        = (.error (MemoryStore.badRequest "etcd unavailable"), w') ∧
      BreaksOff "sync" Route.resource shopRoutes
        (interactionsOn answer (converge "sync" Route.resource shopRoutes) (withOldRoute []))
        (MemoryStore.badRequest "etcd unavailable") := by
  have hreach : (withOldRoute []).store.Reachable := .refuse (.insert .empty _ _) _ _
  have hnew : (on answer (converge "sync" Route.resource [namedRoute "new"]) (withOldRoute [])).1
      = .ok ⟨["shop/new"], ["shop/old"], 0, []⟩ := by
    decide +kernel
  have hlost : (on answer (converge "sync" Route.resource shopRoutes) (withOldRoute [])).1
      = .error (MemoryStore.badRequest "etcd unavailable") := by
    decide +kernel
  have hkind : stray? Route.resource [namedRoute "new"] = none := by decide
  have hkinds : stray? Route.resource shopRoutes = none := by decide
  obtain ⟨-, hbalances, -⟩ := accounts_add_up "sync" Route.resource hreach rfl hkind
  obtain ⟨-, -, hbreaks⟩ := accounts_add_up "sync" Route.resource hreach rfl hkinds
  have hends {x : Except Failure Report} {y : Except Failure Report × Rehearsal} (h : y.1 = x) :
      y = (x, y.2) := h ▸ rfl
  have hfailure : (MemoryStore.badRequest "etcd unavailable").awaitsPrerequisite = false := rfl
  exact ⟨⟨_, hends hnew, hbalances _ _ (hends hnew)⟩,
    _, hends hlost, hbreaks _ _ (hends hlost) hfailure⟩

end Convergence

end MeshRollout
