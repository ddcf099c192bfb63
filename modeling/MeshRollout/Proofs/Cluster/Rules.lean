import MeshRollout.Proofs.Cluster.Answers
import MeshRollout.Proofs.Cluster.Uses

/-!
Rules for following passes on a cluster, one for each sort of call. A rule says what has to be shown
about the state before the call, in which others may have changed things since, and after it.
-/
set_option autoImplicit false

namespace MeshRollout

namespace Rehearsal

structure Intact (w : Rehearsal) : Prop where
  sound : w.store.Sound
  races : w.races = []

/-- A store call was made, and its effect is there or not. -/
structure Made (c : StoreCall) (w w' : Rehearsal) : Prop where
  routes : w'.routes = w.routes
  races : w'.races = w.races
  store : w'.store = w.store ∨ w'.store = (w.store.answer c).2

theorem Alike.intact {w w' : Rehearsal} (h : Alike w w') (hw : w.Intact) : w'.Intact :=
  ⟨h.store ▸ hw.sound, h.races.trans hw.races⟩

namespace Made

variable {c : StoreCall} {w w' : Rehearsal}

theorem intact (h : Made c w w') (hw : w.Intact) : w'.Intact where
  sound := by
    rcases h.store with hs | hs <;> rw [hs]
    · exact hw.sound
    · exact hw.sound.answer c
  races := h.races.trans hw.races

/-- Under a key nothing changes, the object goes, or the object of the call takes its place. -/
theorem find (h : Made c w w') (k : StoreKey) :
    w'.store.find k = w.store.find k ∨
      (c.target? = some k ∧
        (w'.store.find k = none ∨
          ∃ o live, c.object? = some o ∧ w'.store.find k = some live ∧ live.Carries o)) := by
  rcases h.store with hs | hs <;> rw [hs]
  · exact .inl rfl
  · exact MemoryStore.find_answer w.store c k

theorem find_of_ne (h : Made c w w') {k k' : StoreKey} (hc : c.target? = some k) (hk : k' ≠ k) :
    w'.store.find k' = w.store.find k' := by
  refine (h.find k').resolve_right ?_
  rintro ⟨ht, -⟩
  cases hc.symm.trans ht
  exact hk rfl

end Made

end Rehearsal

namespace Rehearsal

theorem Answers.made {c : StoreCall} {w w' : Rehearsal} {a : c.Answer}
    (h : Answers (Call.store c) w a w') (hw : w.Intact) : Made c w w' := by
  obtain ⟨hroutes, hraces, hs⟩ := h.of_store hw.races
  exact ⟨hroutes, hraces.trans hw.races.symm, hs.elim (fun hs => .inr hs.2) And.right⟩

theorem Answers.intact {c : Call} {w w' : Rehearsal} {a : c.Answer} (h : Answers c w a w')
    (hw : w.Intact) : w'.Intact := by
  cases c with
  | store c => exact (h.made hw).intact hw
  | route c => exact ⟨h.of_route.1 ▸ hw.sound, h.of_route.2.trans hw.races⟩
  | notify message => exact (h.alike rfl hw.races).intact hw
  | cancelled => exact (h.alike rfl hw.races).intact hw
  | now => exact (h.alike rfl hw.races).intact hw
  | fetch => exact (h.alike rfl hw.races).intact hw

end Rehearsal

open Rehearsal

/-- Calls are answered by a cluster, others keep it intact, and reading is always guaranteed. -/
structure Admits (S : Setting Rehearsal) (G : Call → Rehearsal → Rehearsal → Prop) : Prop where
  answers : ∀ {c : Call} {w w' : Rehearsal} {a : c.Answer}, S.answers c w a w' → Answers c w a w'
  alike : ∀ {w w' : Rehearsal}, Alike w w' → S.rely w w'
  intact : ∀ {w w' : Rehearsal}, S.rely w w' → w.Intact → w'.Intact
  reads : ∀ {c : Call} {w w' : Rehearsal}, c.isRead = true → Alike w w' → G c w w'

namespace Admits

variable {S : Setting Rehearsal} {G : Call → Rehearsal → Rehearsal → Prop} {w : Rehearsal}

/-- Programs keep the cluster intact, also where they fail. -/
theorem ensures_intact (h : Admits S G) {α : Type} {p : Program α} {Q : α → Rehearsal → Prop}
    (hp : S.Ensures G p Q w) (hw : w.Intact) :
    S.Ensures G p (fun x w' => Q x w' ∧ w'.Intact) w := by
  induction p generalizing w with
  | done x => exact fun w' h' => ⟨hp w' h', h.intact h' hw⟩
  | call c next ih =>
    intro w₁ h₁ a w₂ ha
    obtain ⟨hg, hn⟩ := hp w₁ h₁ a w₂ ha
    exact ⟨hg, ih a hn ((h.answers ha).intact (h.intact h₁ hw))⟩

theorem ensures_read (h : Admits S G) (hw : w.Intact) {c : Call} (hc : c.isRead = true)
    {Q : c.Answer → Rehearsal → Prop}
    (hQ : ∀ w₁ a w₂ w₃, S.rely w w₁ → Answers c w₁ a w₂ → S.rely w₁ w₃ → Q a w₃) :
    S.Ensures G (.ask c) Q w := by
  refine Setting.ensures_ask fun w₁ h₁ a w₂ ha => ?_
  have hans := h.answers ha
  have hsame := hans.alike hc (h.intact h₁ hw).races
  refine ⟨h.reads hc hsame, fun w₃ h₃ => ?_⟩
  exact hQ w₁ a w₂ w₃ h₁ hans (S.rely_trans (h.alike hsame) h₃)

theorem yields_get (h : Admits S G) (hw : w.Intact) {r : Resource} {space : Option String}
    {name : String} {Q : Option Object → Rehearsal → Prop}
    (hQ : ∀ w₁ w₂, S.rely w w₁ → S.rely w₁ w₂ →
      Q (w₁.store.find (.of r (space.getD "") name)) w₂) :
    S.Yields G (Pass.get r space name) Q w := by
  refine h.ensures_read hw rfl fun w₁ a w₂ w₃ h₁ ha h₃ x hx => ?_
  rcases (ha.of_store (h.intact h₁ hw).races).2.2 with ⟨he, -⟩ | ⟨⟨f, he⟩, -⟩
  · cases he.symm.trans hx
    exact hQ w₁ w₃ h₁ h₃
  · cases he.symm.trans hx

theorem yields_list (h : Admits S G) (hw : w.Intact) {r : Resource}
    {space selector : Option String} {Q : List Object → Rehearsal → Prop}
    (hQ : ∀ w₁ w₂, S.rely w w₁ → S.rely w₁ w₂ → Q (w₁.store.list r space selector) w₂) :
    S.Yields G (Pass.list r space selector) Q w := by
  refine h.ensures_read hw rfl fun w₁ a w₂ w₃ h₁ ha h₃ x hx => ?_
  rcases (ha.of_store (h.intact h₁ hw).races).2.2 with ⟨he, -⟩ | ⟨⟨f, he⟩, -⟩
  · cases he.symm.trans hx
    exact hQ w₁ w₃ h₁ h₃
  · cases he.symm.trans hx

theorem yields_getRoute (h : Admits S G) (hw : w.Intact) {space name : String}
    {Q : Option Route → Rehearsal → Prop}
    (hQ : ∀ w₁ w₂, S.rely w w₁ → S.rely w₁ w₂ → Q (w₁.findRoute space name) w₂) :
    S.Yields G (Pass.getRoute space name) Q w := by
  refine h.ensures_read hw rfl fun w₁ a w₂ w₃ h₁ ha h₃ x hx => ?_
  rcases ha.of_getRoute.2 with he | ⟨f, he⟩
  · cases he.symm.trans hx
    exact hQ w₁ w₃ h₁ h₃
  · cases he.symm.trans hx

theorem yields_lift (h : Admits S G) (hw : w.Intact) {c : Call} (hc : c.isRead = true) :
    S.Yields G (ExceptT.lift (.ask c)) (fun _ w' => S.rely w w') w := by
  intro w₁ h₁ a w₂ ha
  have hsame := (h.answers ha).alike hc (h.intact h₁ hw).races
  refine ⟨h.reads hc hsame, fun w₃ h₃ x hx => ?_⟩
  exact S.rely_trans h₁ (S.rely_trans (h.alike hsame) h₃)

theorem yields_notify (h : Admits S G) (hw : w.Intact) (message : String) :
    S.Yields G (Pass.notify message) (fun _ w' => S.rely w w') w := by
  have hsend : S.Ensures G (α := Except Failure Unit) (.ask (.notify message))
      (fun _ w' => S.rely w w') w :=
    h.ensures_read hw rfl fun _ _ _ _ h₁ _ h₃ => S.rely_trans h₁ h₃
  exact hsend.attempt.bind fun _ _ h₁ => Setting.yields_pure fun _ h₂ => S.rely_trans h₁ h₂

theorem yields_checkpoint (h : Admits S G) (hw : w.Intact) (stage : String) :
    S.Yields G (Pass.checkpoint stage) (fun _ w' => S.rely w w') w := by
  have hc : Call.cancelled.isRead = true := rfl
  refine Setting.Yields.bind (h.yields_lift hw hc) fun stop w₁ h₁ => ?_
  cases stop with
  | false => exact Setting.yields_pure fun w₂ h₂ => S.rely_trans h₁ h₂
  | true => exact Setting.yields_throw

theorem ensures_store (h : Admits S G) (hw : w.Intact) {c : StoreCall}
    {Q : c.Answer → Rehearsal → Prop}
    (hG : ∀ w₁ w₂, S.rely w w₁ → w₁.Intact → Made c w₁ w₂ → G (.store c) w₁ w₂)
    (hQ : ∀ w₁ w₂ w₃, S.rely w w₁ → w₁.Intact → Made c w₁ w₂ →
      w₂.store = (w₁.store.answer c).2 → S.rely w₂ w₃ → Q (w₁.store.answer c).1 w₃)
    (hF : ∀ f w', Q (c.failed f) w') :
    S.Ensures G (.ask (.store c)) Q w := by
  refine Setting.ensures_ask fun w₁ h₁ a w₂ ha => ?_
  have hi := h.intact h₁ hw
  have hmade := (h.answers ha).made hi
  obtain ⟨-, -, hres⟩ := (h.answers ha).of_store hi.races
  refine ⟨hG w₁ w₂ h₁ hi hmade, fun w₃ h₃ => ?_⟩
  rcases hres with ⟨he, hs⟩ | ⟨⟨f, he⟩, -⟩
  · rw [he]
    exact hQ w₁ w₂ w₃ h₁ hi hmade hs h₃
  · rw [he]
    exact hF f w₃

end Admits

/-- An invariant that others keep. While it holds, they change nothing under certain keys. -/
structure Stable (S : Setting Rehearsal) (I : Rehearsal → Prop) (K : StoreKey → Prop) : Prop where
  kept : ∀ {w w' : Rehearsal}, S.rely w w' → w.Intact → I w → I w'
  still : ∀ {w w' : Rehearsal} {k : StoreKey}, K k → S.rely w w' → w.Intact → I w →
    w'.store.find k = w.store.find k

def alone : Setting Rehearsal where
  answers := Answers
  rely := Alike
  rely_refl := Alike.refl
  rely_trans := Alike.trans

theorem admits_alone {G : Call → Rehearsal → Rehearsal → Prop}
    (h : ∀ c w w', c.isRead = true → Alike w w' → G c w w') : Admits alone G where
  answers ha := ha
  alike ha := ha
  intact ha := ha.intact
  reads hc ha := h _ _ _ hc ha

theorem stable_alone {I : Rehearsal → Prop} (h : ∀ w w', Alike w w' → I w → I w')
    (K : StoreKey → Prop) : Stable alone I K where
  kept hr _ hI := h _ _ hr hI
  still _ hr _ _ := by rw [Alike.store hr]

structure WritesOnly (P : StoreKey → Prop) (c : Call) (w w' : Rehearsal) : Prop where
  routes : w'.routes = w.routes
  elsewhere : ∀ k, ¬ P k → w'.store.find k = w.store.find k

theorem admits_writesOnly (P : StoreKey → Prop) : Admits alone (WritesOnly P) :=
  admits_alone fun _ _ _ _ h => ⟨h.routes, fun k _ => by rw [h.store]⟩

theorem writesOnly_of_made {P : StoreKey → Prop} {c : StoreCall} {k : StoreKey} {w w' : Rehearsal}
    (hc : c.target? = some k) (hk : P k) (h : Made c w w') : WritesOnly P (.store c) w w' :=
  ⟨h.routes, fun _ hk' => h.find_of_ne hc fun he => hk' (he ▸ hk)⟩

def Call.Storeless (c : Call) : Prop :=
  ∀ sc, c ≠ .store sc

theorem Call.storeless_route (c : RouteCall) : (Call.route c).Storeless :=
  fun _ h => nomatch h

theorem Call.storeless_cancelled : Call.cancelled.Storeless :=
  fun _ h => nomatch h

theorem store_of_storeless {c : Call} {a : c.Answer} {w w' : Rehearsal} (hc : c.Storeless)
    (ha : Answers c w a w') (hw : w.Intact) : w'.store = w.store := by
  cases c with
  | store c => exact absurd rfl (hc c)
  | route c => exact ha.of_route.1
  | notify message => exact (ha.alike rfl hw.races).store
  | cancelled => exact (ha.alike rfl hw.races).store
  | now => exact (ha.alike rfl hw.races).store
  | fetch => exact (ha.alike rfl hw.races).store

theorem ensures_of_storeless {G : Call → Rehearsal → Rehearsal → Prop}
    (hG : ∀ c w w', w'.store = w.store → G c w w') {α : Type} {p : Program α}
    (hp : p.Uses Call.Storeless) {w : Rehearsal} (hw : w.Intact) :
    alone.Ensures G p (fun _ w' => w'.store = w.store) w := by
  have h := Setting.ensures_of_uses (S := alone) (G := G)
    (P := fun w' : Rehearsal => w'.Intact ∧ w'.store = w.store)
    (fun w₁ w₂ h hP => ⟨Alike.intact h hP.1, (Alike.store h).trans hP.2⟩)
    (fun c w₁ a w₂ hc ha hP => by
      have hstore := store_of_storeless hc ha hP.1
      exact ⟨⟨ha.intact hP.1, hstore.trans hP.2⟩, hG c w₁ w₂ hstore⟩)
    hp ⟨hw, rfl⟩
  exact h.mono fun _ _ hP => hP.2

structure Rests (c : Call) (w w' : Rehearsal) : Prop where
  store : w'.store = w.store
  reads : ∀ c', c = .store c' → c.isRead = true

theorem admits_rests : Admits alone Rests :=
  admits_alone fun _ _ _ hc h => ⟨h.store, fun _ _ => hc⟩

section Rests

variable {α : Type} {p q : Program α} {Q : α → Rehearsal → Prop} {w w' : Rehearsal}
  (h : alone.Ensures Rests p Q w) (hrun : alone.Reaches (w, p) (w', q))
include h hrun

theorem store_of_rests : w'.store = w.store :=
  h.along (F := fun w w' : Rehearsal => w'.store = w.store) (fun _ => rfl)
    (fun _ _ _ h h' => h'.trans h) (fun _ _ h => Alike.store h) (fun _ _ _ h => Rests.store h) hrun

theorem isRead_of_rests {c : StoreCall} {next : c.Answer → Program α}
    (hq : q = .call (.store c) next) : (Call.store c).isRead = true := by
  subst hq
  exact (h.reaches hrun w' (Alike.refl w') _ _ .served).1.reads c rfl

end Rests

/-- A rehearsal is one of the runs that programs may have. -/
theorem alone_reaches_run {α : Type} (p : Program α) (w : Rehearsal) :
    alone.Reaches (w, p) ((p.run answer w).2, .done (p.run answer w).1) := by
  induction p generalizing w with
  | done x => exact .refl
  | call c next ih =>
    have hstep : alone.Step (w, .call c next) ((w.answer c).2, next (w.answer c).1) :=
      .call next .served
    exact .head hstep (ih (w.answer c).1 (w.answer c).2)

end MeshRollout
