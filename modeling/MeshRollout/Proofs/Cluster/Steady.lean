import MeshRollout.Proofs.Cluster.Interruption
import MeshRollout.Proofs.Cluster.Rules

/-!
Following a run that nobody disturbs. A rule tells what a pass makes of the store, and it shows that
the store is in a good state at every check of the pass, so that the pass may be stopped there.
-/
set_option autoImplicit false

namespace MeshRollout

namespace MemoryStore

theorem writes_answer (s : MemoryStore) (c : StoreCall) : s.writes <+: (s.answer c).2.writes := by
  have hwrite (verb : String) (r : Resource) (o : Object) :
      s.writes <+: (s.write verb r o).2.writes :=
    List.prefix_append ..
  cases c with
  | get r space name => exact List.prefix_refl _
  | list r space selector => exact List.prefix_refl _
  | create r o =>
    simp only [answer, create]
    split
    · exact List.prefix_refl _
    · exact hwrite ..
  | update r o =>
    simp only [answer, update]
    split
    · exact List.prefix_refl _
    · split
      · exact List.prefix_refl _
      · exact hwrite ..
  | apply r o manager =>
    simp only [answer, apply]
    split
    · exact List.prefix_refl _
    · exact hwrite ..
  | delete r space name =>
    simp only [answer, delete]
    split
    · exact List.prefix_refl _
    · split
      · exact List.prefix_refl _
      · exact List.prefix_append ..

end MemoryStore

namespace Rehearsal

variable {α β : Type} {w w' : Rehearsal}

theorem store_answer {c : Call} (hc : c.Storeless) (w : Rehearsal) :
    (w.answer c).2.store = w.store := by
  cases c with
  | store c => exact absurd rfl (hc c)
  | route c => exact (answerRoute_store c w).1
  | notify message => cases hs : w.sink <;> simp [answer, notify, hs]
  | cancelled => rfl
  | now => rfl
  | fetch => cases hm : w.manifests <;> simp [answer, fetch, hm]

theorem writes_answer (hw : w.Quiet) (c : Call) :
    w.store.writes <+: (w.answer c).2.store.writes := by
  have same (hc : c.Storeless) : w.store.writes <+: (w.answer c).2.store.writes :=
    (store_answer hc w).symm ▸ List.prefix_refl _
  cases c with
  | store c =>
    have hs : ((w.answer (.store c)).2).store = (w.store.answer c).2 :=
      (answerStore_of_quiet hw c).2.1
    rw [hs]
    exact w.store.writes_answer c
  | route c => exact same (Call.storeless_route c)
  | notify message => exact same fun _ h => nomatch h
  | cancelled => exact same Call.storeless_cancelled
  | now => exact same fun _ h => nomatch h
  | fetch => exact same fun _ h => nomatch h

theorem writes_run (p : Program α) (hw : w.Undisturbed) :
    w.store.writes <+: (p.run answer w).2.store.writes := by
  induction p generalizing w with
  | done x => exact List.prefix_refl _
  | call c next ih =>
    exact (writes_answer hw.toQuiet c).trans (ih (w.answer c).1 (hw.answer c))

/-- What a run that is cut short has written is the beginning of what the whole run writes. -/
theorem CutShort.writes {last : Call → Prop} {p : Program α} {made : List Call}
    (h : CutShort last p w w' made) (hw : w'.Undisturbed) :
    w'.store.writes <+: (p.run answer w).2.store.writes := by
  obtain ⟨next, hr⟩ := h.reaches
  rw [← run_of_reaches hr]
  exact writes_run _ hw

theorem undisturbed_of_reaches {p q : Program α} (hw : w.Undisturbed)
    (h : steady.Reaches (w, p) (w', q)) : w'.Undisturbed := by
  generalize hx : (w', q) = x at h
  induction h generalizing w' q with
  | refl =>
    cases hx
    exact hw
  | tail _ hlast ih =>
    cases hx
    cases hlast with
    | others _ hr =>
      cases hr
      exact ih rfl
    | @call c s _ a next ha =>
      have hs := (ih rfl).answer c
      rwa [ha] at hs

/-- Where the program checks whether it is to stop, the store is in a good state. -/
def AtChecks (P : MemoryStore → Prop) (c : Call) (w _w' : Rehearsal) : Prop :=
  c = .cancelled → P w.store

theorem CutShort.atCheck {last : Call → Prop} {P : MemoryStore → Prop} {p : Program α}
    {Q : α → Rehearsal → Prop} {made : List Call} (h : CutShort last p w w' made)
    (hp : steady.Ensures (AtChecks P) p Q w) : P w'.store := by
  obtain ⟨next, hr⟩ := h.reaches
  exact (hp.reaches hr w' rfl _ _ rfl).1 rfl

structure Offers (s : MemoryStore) (w : Rehearsal) : Prop where
  undisturbed : w.Undisturbed
  store : w.store = s

theorem Offers.answer {s : MemoryStore} (h : Offers s w) {c : Call} (hc : c.Storeless) :
    Offers s (w.answer c).2 :=
  ⟨h.undisturbed.answer c, (store_answer hc w).trans h.store⟩

/-- What the pass makes of the store if nobody disturbs it, where the store is in a good state at
every check. -/
def Steadily (P : MemoryStore → Prop) (p : Pass α) (Q : Except Failure α → MemoryStore → Prop)
    (s : MemoryStore) : Prop :=
  ∀ w, Offers s w → steady.Ensures (α := Except Failure α) (AtChecks P) p
    (fun x w' => ∃ s', Offers s' w' ∧ Q x s') w

variable {P : MemoryStore → Prop} {s : MemoryStore}

namespace Steadily

variable {p : Pass α} {Q R : Except Failure α → MemoryStore → Prop}

theorem mono (h : Steadily P p R s) (hQ : ∀ x s', R x s' → Q x s') : Steadily P p Q s :=
  fun w hw => (h w hw).mono fun x _ ⟨s', hs', hR⟩ => ⟨s', hs', hQ x s' hR⟩

theorem bind {f : α → Pass β} {Q : Except Failure β → MemoryStore → Prop} (h : Steadily P p R s)
    (hok : ∀ x s', R (.ok x) s' → Steadily P (f x) Q s')
    (herr : ∀ e s', R (.error e) s' → Q (.error e) s') : Steadily P (p >>= f) Q s := by
  intro w hw
  refine Setting.Ensures.bind (α := Except Failure α) (h w hw) ?_
  rintro (e | x) w₁ ⟨s', hs', hR⟩
  · rintro w₂ rfl
    exact ⟨s', hs', herr e s' hR⟩
  · exact hok x s' hR w₁ hs'

theorem next {f : α → Pass β} {R : α → MemoryStore → Prop}
    {Q : Except Failure β → MemoryStore → Prop}
    (h : Steadily P p (fun r s' => ∃ x, r = .ok x ∧ R x s') s)
    (hf : ∀ x s', R x s' → Steadily P (f x) Q s') : Steadily P (p >>= f) Q s := by
  refine h.bind (fun x s' ⟨y, hy, hR⟩ => ?_) fun e s' ⟨y, hy, _⟩ => nomatch hy
  cases hy
  exact hf x s' hR

theorem attempt (h : Steadily P p R s) :
    Steadily P p.attempt (fun r s' => ∃ x, r = .ok x ∧ R x s') s := by
  intro w hw
  refine Setting.Ensures.bind (α := Except Failure α) (h w hw) ?_
  rintro x w₁ ⟨s', hs', hR⟩ w₂ rfl
  exact ⟨s', hs', x, rfl, hR⟩

end Steadily

theorem steadily_pure {x : α} {Q : Except Failure α → MemoryStore → Prop} (h : Q (.ok x) s) :
    Steadily P (pure x) Q s := by
  rintro w hw w' rfl
  exact ⟨s, hw, h⟩

theorem steadily_throw {e : Failure} {Q : Except Failure α → MemoryStore → Prop}
    (h : Q (.error e) s) : Steadily P (throw e) Q s := by
  rintro w hw w' rfl
  exact ⟨s, hw, h⟩

theorem ensures_checkpoint (hw : w.Undisturbed) (hP : P w.store) (stage : String) :
    steady.Ensures (α := Except Failure Unit) (AtChecks P) (Pass.checkpoint stage)
      (fun x w' => x = .ok () ∧ w' = w) w := by
  rintro w₁ rfl a w₂ ha
  have hgo : w₁.answer .cancelled = (false, w₁) := congrArg (·, w₁) hw.stopped
  obtain ⟨rfl, rfl⟩ := Prod.mk.inj (hgo.symm.trans ha)
  refine ⟨fun _ => hP, ?_⟩
  rintro w₃ rfl
  exact ⟨rfl, rfl⟩

theorem steadily_checkpoint (h : P s) (stage : String) :
    Steadily P (Pass.checkpoint stage) (fun r s' => ∃ x, r = .ok x ∧ s' = s) s := by
  intro w hw
  refine (ensures_checkpoint hw.undisturbed (hw.store ▸ h) stage).mono ?_
  rintro x w' ⟨hx, rfl⟩
  exact ⟨s, hw, (), hx, rfl⟩

theorem ensures_store (c : StoreCall) {w : Rehearsal} (hw : Offers s w) :
    steady.Ensures (AtChecks P) (.ask (.store c))
      (fun a w' => a = (s.answer c).1 ∧ Offers (s.answer c).2 w') w := by
  refine Setting.ensures_ask ?_
  rintro w₁ rfl a w₂ ha
  refine ⟨fun h => (nomatch h), ?_⟩
  rintro w₃ rfl
  have hans : w₁.answerStore c = (a, w₃) := ha
  obtain ⟨hresult, hstore, -⟩ := answerStore_of_quiet hw.undisturbed.toQuiet c
  have hafter := hw.undisturbed.answer (.store c)
  rw [ha] at hafter
  rw [hans] at hresult hstore
  rw [← hw.store]
  exact ⟨hresult, hafter, hstore⟩

section Store

variable {r : Resource} {space : Option String}

theorem steadily_get (name : String) :
    Steadily P (Pass.get r space name)
      (fun a s' => ∃ x, a = .ok x ∧ x = s.find (.of r (space.getD "") name) ∧ s' = s) s :=
  fun _ hw => (ensures_store (.get r space name) hw).mono fun _ _ ⟨ha, hs⟩ =>
    ⟨s, hs, _, ha, rfl, rfl⟩

theorem steadily_list (selector : Option String) :
    Steadily P (Pass.list r space selector)
      (fun a s' => ∃ x, a = .ok x ∧ x = s.list r space selector ∧ s' = s) s :=
  fun _ hw => (ensures_store (.list r space selector) hw).mono fun _ _ ⟨ha, hs⟩ =>
    ⟨s, hs, _, ha, rfl, rfl⟩

theorem steadily_create (o : Object) :
    Steadily P (Pass.create r o) (fun a s' => (a, s') = s.create r o) s :=
  fun _ hw => (ensures_store (.create r o) hw).mono fun _ _ ⟨ha, hs⟩ =>
    ⟨_, hs, Prod.ext ha rfl⟩

theorem steadily_update (o : Object) :
    Steadily P (Pass.update r o) (fun a s' => (a, s') = s.update r o) s :=
  fun _ hw => (ensures_store (.update r o) hw).mono fun _ _ ⟨ha, hs⟩ =>
    ⟨_, hs, Prod.ext ha rfl⟩

theorem steadily_delete (name : String) :
    Steadily P (Pass.delete r space name) (fun a s' => (a, s') = s.delete r space name) s :=
  fun _ hw => (ensures_store (.delete r space name) hw).mono fun _ _ ⟨ha, hs⟩ =>
    ⟨_, hs, Prod.ext ha rfl⟩

end Store

theorem ensures_storeless {c : Call} (hc : c.Storeless) (hcheck : c ≠ .cancelled)
    {w : Rehearsal} (hw : Offers s w) :
    steady.Ensures (AtChecks P) (.ask c) (fun a w' => a = (w.answer c).1 ∧ Offers s w') w := by
  refine Setting.ensures_ask ?_
  rintro w₁ rfl a w₂ ha
  refine ⟨fun h => absurd h hcheck, ?_⟩
  rintro w₃ rfl
  have hafter := hw.answer hc
  rw [ha] at hafter ⊢
  exact ⟨rfl, hafter⟩

theorem steadily_now :
    Steadily P Pass.now (fun a s' => ∃ x, a = .ok x ∧ s' = s) s := by
  intro w hw
  refine Setting.Ensures.bind
    (ensures_storeless (c := .now) (fun _ h => nomatch h) (fun h => nomatch h) hw) ?_
  rintro t w₁ ⟨-, hs⟩ w₂ rfl
  exact ⟨s, hs, t, rfl, rfl⟩

theorem steadily_notify (message : String) :
    Steadily P (Pass.notify message) (fun a s' => ∃ x, a = .ok x ∧ s' = s) s := by
  have hsent : Steadily P (Pass.ofCall (.ask (.notify message))) (fun _ s' => s' = s) s :=
    fun w hw => (ensures_storeless (c := .notify message) (fun _ h => nomatch h)
      (fun h => nomatch h) hw).mono fun _ _ ⟨_, hs⟩ => ⟨s, hs, rfl⟩
  exact hsent.attempt.next fun _ _ hs => steadily_pure ⟨(), rfl, hs⟩

section Route

variable (space name : String)

theorem ensures_route (c : RouteCall) {w : Rehearsal} (hw : Offers s w) :
    steady.Ensures (AtChecks P) (.ask (.route c))
      (fun a w' => a = (w.answerRoute c).1 ∧ Offers s w') w :=
  ensures_storeless (c := .route c) (Call.storeless_route c) (fun h => nomatch h) hw

theorem ensures_getRoute {w : Rehearsal} (hw : w.Undisturbed) :
    steady.Ensures (α := Except Failure (Option Route)) (AtChecks P) (Pass.getRoute space name)
      (fun a w' => a = .ok (w.findRoute space name) ∧ Offers w.store w') w := by
  refine (ensures_route (.get space name) ⟨hw, rfl⟩).mono ?_
  rintro a w' ⟨ha, hs⟩
  rw [answerRoute, attempt_of_quiet hw.toQuiet] at ha
  exact ⟨ha, hs⟩

theorem steadily_hold (finalizer : String) :
    Steadily P (Pass.hold space name finalizer) (fun a s' => ∃ x, a = .ok x ∧ s' = s) s := by
  refine fun w hw => (ensures_route (.hold space name finalizer) hw).mono ?_
  rintro a w' ⟨ha, hs⟩
  rw [answerRoute, attempt_of_quiet hw.undisturbed.toQuiet] at ha
  exact ⟨s, hs, (), ha, rfl⟩

theorem steadily_release (finalizer : String) :
    Steadily P (Pass.release space name finalizer) (fun a s' => ∃ x, a = .ok x ∧ s' = s) s := by
  refine fun w hw => (ensures_route (.release space name finalizer) hw).mono ?_
  rintro a w' ⟨ha, hs⟩
  rw [answerRoute, attempt_of_quiet hw.undisturbed.toQuiet] at ha
  exact ⟨s, hs, (), ha, rfl⟩

theorem steadily_patchStatus (st : RouteStatus) :
    Steadily P (Pass.patchStatus space name st) (fun a s' => ∃ x, a = .ok x ∧ s' = s) s := by
  refine fun w hw => (ensures_route (.patchStatus space name st) hw).mono ?_
  rintro a w' ⟨ha, hs⟩
  rw [answerRoute, attempt_of_quiet hw.undisturbed.toQuiet] at ha
  exact ⟨s, hs, (), ha, rfl⟩

end Route

end Rehearsal

end MeshRollout
