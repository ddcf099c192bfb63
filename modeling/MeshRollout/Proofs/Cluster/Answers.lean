import MeshRollout.Cluster.Rehearsal
import MeshRollout.Proofs.Cluster.Ensures
import MeshRollout.Proofs.Cluster.StoreView

/-!
How a cluster answers if any call may fail, before its effect or after it, and if a program may be
asked to stop between any two calls. Each sort of call gets the rule by which programs that make it
are followed.
-/
set_option autoImplicit false

namespace MeshRollout

def StoreCall.failed (f : Failure) : (c : StoreCall) → c.Answer
  | .get .. => .error f
  | .list .. => .error f
  | .create .. => .error f
  | .update .. => .error f
  | .apply .. => .error f
  | .delete .. => .error f

def RouteCall.failed (f : Failure) : (c : RouteCall) → c.Answer
  | .get .. => .error f
  | .hold .. => .error f
  | .release .. => .error f
  | .patchStatus .. => .error f

def Call.failed? (f : Failure) : (c : Call) → Option c.Answer
  | .store c => some (c.failed f)
  | .route c => some (c.failed f)
  | .notify _ => some (.error f)
  | .cancelled => none
  | .now => none
  | .fetch => some (.error f)

def Call.isRead : Call → Bool
  | .store (.get ..) | .store (.list ..) | .route (.get ..) => true
  | .store _ | .route _ => false
  | .notify _ | .cancelled | .now | .fetch => true

namespace Rehearsal

/-- Both hold the same objects and routes; they may differ in the luck of the calls to come. -/
structure Alike (w w' : Rehearsal) : Prop where
  store : w'.store = w.store
  routes : w'.routes = w.routes
  races : w'.races = w.races

/-- A call is served, or it fails although it may have had its effect. -/
inductive Answers (c : Call) (w : Rehearsal) : c.Answer → Rehearsal → Prop where
  | served : Answers c w (w.answer c).1 (w.answer c).2
  | lost {a : c.Answer} {f : Failure} (h : c.failed? f = some a) : Answers c w a (w.answer c).2

namespace Alike

theorem refl (w : Rehearsal) : Alike w w :=
  ⟨rfl, rfl, rfl⟩

theorem trans {w w' w'' : Rehearsal} (h : Alike w w') (h' : Alike w' w'') : Alike w w'' :=
  ⟨h'.store.trans h.store, h'.routes.trans h.routes, h'.races.trans h.races⟩

theorem findRoute {w w' : Rehearsal} (h : Alike w w') (space name : String) :
    w'.findRoute space name = w.findRoute space name := by
  rw [Rehearsal.findRoute, Rehearsal.findRoute, h.routes]

end Alike

theorem attempt_cases {α : Type} (verb kind space name : String)
    (act : Rehearsal → Except Failure α × Rehearsal) (w : Rehearsal) :
    ∃ w₁, Alike w w₁ ∧
      ((∃ f, w.attempt verb kind space name act = (.error f, w₁)) ∨
        w.attempt verb kind space name act = act w₁) := by
  simp only [attempt]
  split
  · rename_i f faults _
    exact ⟨{ w.enter verb kind space name with faults }, ⟨rfl, rfl, rfl⟩, .inl ⟨f, rfl⟩⟩
  · exact ⟨w.enter verb kind space name, ⟨rfl, rfl, rfl⟩, .inr rfl⟩

structure Served {α : Type} (serve : MemoryStore → Except Failure α × MemoryStore) (w : Rehearsal)
    (x : Except Failure α × Rehearsal) : Prop where
  routes : x.2.routes = w.routes
  races : x.2.races = w.races
  result : ((∃ f, x.1 = .error f) ∧ x.2.store = w.store) ∨
    (x.1 = (serve w.store).1 ∧ x.2.store = (serve w.store).2)

theorem served_attempt {α : Type} {verb kind space name : String}
    {act : Rehearsal → Except Failure α × Rehearsal}
    {serve : MemoryStore → Except Failure α × MemoryStore} {w : Rehearsal}
    (h : ∀ w₁, Alike w w₁ → Served serve w₁ (act w₁)) :
    Served serve w (w.attempt verb kind space name act) := by
  obtain ⟨w₁, ha, ⟨f, hf⟩ | hs⟩ := attempt_cases verb kind space name act w
  · rw [hf]
    exact ⟨ha.routes, ha.races, .inl ⟨⟨f, rfl⟩, ha.store⟩⟩
  · obtain ⟨hroutes, hraces, hresult⟩ := h w₁ ha
    rw [ha.store] at hresult
    rw [hs]
    exact ⟨hroutes.trans ha.routes, hraces.trans ha.races, hresult⟩

theorem served_onStore {α : Type} (serve : MemoryStore → Except Failure α × MemoryStore)
    (w : Rehearsal) : Served serve w (w.onStore serve) :=
  ⟨rfl, rfl, .inr ⟨rfl, rfl⟩⟩

theorem answerStore_cases (c : StoreCall) {w : Rehearsal} (hr : w.races = []) :
    (w.answerStore c).2.routes = w.routes ∧ (w.answerStore c).2.races = [] ∧
      (((∃ f, (w.answerStore c).1 = c.failed f) ∧ (w.answerStore c).2.store = w.store) ∨
        ((w.answerStore c).1 = (w.store.answer c).1 ∧
          (w.answerStore c).2.store = (w.store.answer c).2)) := by
  cases c with
  | get r space name =>
    have hs : Served (fun s => (.ok (s.find (.of r (space.getD "") name)), s)) w
        (w.answerStore (.get r space name)) := by
      refine served_attempt fun w₁ ha => ?_
      have hrace (found : Option Object) : w₁.race r name found = w₁ := by
        cases found <;> simp [race, ha.races, hr]
      rw [readObject, hrace]
      exact ⟨rfl, rfl, .inr ⟨rfl, rfl⟩⟩
    exact ⟨hs.routes, hs.races.trans hr, hs.result⟩
  | list r space selector =>
    have hs : Served (fun s => (.ok (s.list r space selector), s)) w
        (w.answerStore (.list r space selector)) :=
      served_attempt fun w₁ _ => served_onStore _ w₁
    exact ⟨hs.routes, hs.races.trans hr, hs.result⟩
  | create r o =>
    have hs : Served (fun s => s.create r o) w (w.answerStore (.create r o)) :=
      served_attempt fun w₁ _ => served_onStore _ w₁
    exact ⟨hs.routes, hs.races.trans hr, hs.result⟩
  | update r o =>
    have hs : Served (fun s => s.update r o) w (w.answerStore (.update r o)) :=
      served_attempt fun w₁ _ => served_onStore _ w₁
    exact ⟨hs.routes, hs.races.trans hr, hs.result⟩
  | apply r o manager =>
    have hs : Served (fun s => s.apply r o) w (w.answerStore (.apply r o manager)) := by
      simp only [answerStore]
      refine served_attempt fun w₁ _ => ?_
      exact ⟨rfl, rfl, .inr ⟨rfl, rfl⟩⟩
    exact ⟨hs.routes, hs.races.trans hr, hs.result⟩
  | delete r space name =>
    have hs : Served (fun s => s.delete r space name) w (w.answerStore (.delete r space name)) :=
      served_attempt fun w₁ _ => served_onStore _ w₁
    exact ⟨hs.routes, hs.races.trans hr, hs.result⟩

theorem findRoute_editRoute (space name : String) (edit : Route → Route) (w : Rehearsal)
    (space' name' : String) :
    (w.editRoute space name edit).findRoute space' name' =
      if (space', name') = (space, name) then (w.findRoute space' name').map edit
      else w.findRoute space' name' := by
  simp only [findRoute, editRoute]
  induction w.routes with
  | nil => simp
  | cons p l ih =>
    obtain ⟨k, r⟩ := p
    by_cases hk : k = (space, name)
    · by_cases hk' : (space', name') = k
      · simp [hk, hk'.trans hk]
      · have hb : ((space', name') == k) = false := beq_false_of_ne hk'
        simpa [List.lookup_cons, hk, hb, hk ▸ hb] using ih
    · by_cases hk' : (space', name') = k
      · simp [hk, hk']
      · have hb : ((space', name') == k) = false := beq_false_of_ne hk'
        simpa [List.lookup_cons, hk, hb] using ih

theorem answerRoute_store (c : RouteCall) (w : Rehearsal) :
    (w.answerRoute c).2.store = w.store ∧ (w.answerRoute c).2.races = w.races := by
  cases c with
  | get space name =>
    obtain ⟨w₁, ha, ⟨f, h⟩ | h⟩ := attempt_cases "get_route" Route.kind space name
      (fun w => (.ok (w.findRoute space name), w)) w <;>
    · rw [answerRoute, h]
      exact ⟨ha.store, ha.races⟩
  | hold space name finalizer =>
    obtain ⟨w₁, ha, ⟨f, h⟩ | h⟩ := attempt_cases "add_finalizer" Route.kind space name
      (fun w => (.ok (), w.editRoute space name (editFinalizers (· ++ [finalizer])))) w <;>
    · rw [answerRoute, h]
      exact ⟨ha.store, ha.races⟩
  | release space name finalizer =>
    obtain ⟨w₁, ha, ⟨f, h⟩ | h⟩ := attempt_cases "remove_finalizer" Route.kind space name
      (fun w => (.ok (),
        (w.editRoute space name (editFinalizers fun fs => fs.filter (· != finalizer))).removeGone))
      w <;>
    · rw [answerRoute, h]
      exact ⟨ha.store, ha.races⟩
  | patchStatus space name s =>
    obtain ⟨w₁, ha, ⟨f, h⟩ | h⟩ := attempt_cases "patch_route_status" Route.kind space name
      (fun w => (.ok (), { w.editRoute space name fun r => { r with status := some s } with
        statuses := w.statuses ++ [s] })) w <;>
    · rw [answerRoute, h]
      exact ⟨ha.store, ha.races⟩

theorem findRoute_attempt_edit {verb kind space name : String} {edit : Route → Route}
    {act : Rehearsal → Except Failure Unit × Rehearsal} {w : Rehearsal}
    (h : ∀ w₁, (act w₁).2.routes = (w₁.editRoute space name edit).routes)
    (space' name' : String) :
    (w.attempt verb kind space name act).2.findRoute space' name' = w.findRoute space' name' ∨
      (w.attempt verb kind space name act).2.findRoute space' name'
        = (w.findRoute space' name').map edit := by
  obtain ⟨w₁, ha, ⟨f, hf⟩ | hs⟩ := attempt_cases verb kind space name act w
  · rw [hf]
    exact .inl (ha.findRoute space' name')
  · have he : (act w₁).2.findRoute space' name'
        = (w₁.editRoute space name edit).findRoute space' name' := by
      rw [findRoute, h, ← findRoute]
    rw [hs, he, findRoute_editRoute, ha.findRoute]
    split
    · exact .inr rfl
    · exact .inl rfl

theorem findRoute_hold (space name finalizer : String) (w : Rehearsal) (space' name' : String) :
    (w.answerRoute (.hold space name finalizer)).2.findRoute space' name'
        = w.findRoute space' name' ∨
      (w.answerRoute (.hold space name finalizer)).2.findRoute space' name'
        = (w.findRoute space' name').map (editFinalizers (· ++ [finalizer])) :=
  findRoute_attempt_edit (fun _ => rfl) space' name'

theorem findRoute_patchStatus (space name : String) (s : RouteStatus) (w : Rehearsal)
    (space' name' : String) :
    (w.answerRoute (.patchStatus space name s)).2.findRoute space' name'
        = w.findRoute space' name' ∨
      (w.answerRoute (.patchStatus space name s)).2.findRoute space' name'
        = (w.findRoute space' name').map fun r => { r with status := some s } :=
  findRoute_attempt_edit (fun _ => rfl) space' name'

namespace Answers

variable {w w' : Rehearsal}

theorem world {c : Call} {a : c.Answer} (h : Answers c w a w') : w' = (w.answer c).2 := by
  cases h <;> rfl

theorem result {c : Call} {a : c.Answer} (h : Answers c w a w') :
    a = (w.answer c).1 ∨ ∃ f, c.failed? f = some a := by
  cases h with
  | served => exact .inl rfl
  | lost hf => exact .inr ⟨_, hf⟩

theorem of_store {c : StoreCall} {a : c.Answer} (h : Answers (Call.store c) w a w')
    (hr : w.races = []) :
    w'.routes = w.routes ∧ w'.races = [] ∧
      ((a = (w.store.answer c).1 ∧ w'.store = (w.store.answer c).2) ∨
        ((∃ f, a = c.failed f) ∧
          (w'.store = w.store ∨ w'.store = (w.store.answer c).2))) := by
  obtain ⟨hroutes, hraces, hc⟩ := answerStore_cases c hr
  rw [h.world]
  refine ⟨hroutes, hraces, ?_⟩
  cases h.result with
  | inl ha =>
    rw [ha]
    exact hc.symm.imp id fun ⟨hf, hs⟩ => ⟨hf, .inl hs⟩
  | inr hl =>
    obtain ⟨f, hf⟩ := hl
    exact .inr ⟨⟨f, (Option.some.inj hf).symm⟩, hc.imp And.right And.right⟩

theorem of_route {c : RouteCall} {a : c.Answer} (h : Answers (Call.route c) w a w') :
    w'.store = w.store ∧ w'.races = w.races := by
  rw [h.world]
  exact answerRoute_store c w

theorem of_getRoute {space name : String} {a : Except Failure (Option Route)}
    (h : Answers (Call.route (.get space name)) w a w') :
    w'.routes = w.routes ∧ (a = .ok (w.findRoute space name) ∨ ∃ f, a = .error f) := by
  obtain ⟨w₁, ha, hc⟩ := attempt_cases "get_route" Route.kind space name
    (fun w => (.ok (w.findRoute space name), w)) w
  have hroutes : (w.answerRoute (.get space name)).2.routes = w.routes := by
    rcases hc with ⟨f, hf⟩ | hs
    · rw [answerRoute, hf]
      exact ha.routes
    · rw [answerRoute, hs]
      exact ha.routes
  rw [h.world]
  refine ⟨hroutes, ?_⟩
  cases h.result with
  | inl hserved =>
    rw [hserved]
    rcases hc with ⟨f, hf⟩ | hs
    · exact .inr ⟨f, congrArg Prod.fst hf⟩
    · refine .inl ((congrArg Prod.fst hs).trans ?_)
      rw [ha.findRoute]
  | inr hl =>
    obtain ⟨f, hf⟩ := hl
    exact .inr ⟨f, (Option.some.inj hf).symm⟩

theorem alike {c : Call} {a : c.Answer} (h : Answers c w a w') (hc : c.isRead = true)
    (hr : w.races = []) : Alike w w' := by
  cases c with
  | store c =>
    obtain ⟨hroutes, hraces, hs⟩ := h.of_store hr
    have hsame : (w.store.answer c).2 = w.store := by
      cases c with
      | get r space name => rfl
      | list r space selector => rfl
      | create r o => cases hc
      | update r o => cases hc
      | apply r o manager => cases hc
      | delete r space name => cases hc
    rw [hsame] at hs
    refine ⟨?_, hroutes, hraces.trans hr.symm⟩
    rcases hs with ⟨-, hs⟩ | ⟨-, hs | hs⟩ <;> exact hs
  | route c =>
    cases c with
    | get space name => exact ⟨h.of_route.1, h.of_getRoute.1, h.of_route.2⟩
    | hold space name finalizer => cases hc
    | release space name finalizer => cases hc
    | patchStatus space name s => cases hc
  | notify message =>
    rw [h.world]
    cases hk : w.sink <;> simp only [answer, notify, hk] <;> exact ⟨rfl, rfl, rfl⟩
  | cancelled =>
    rw [h.world]
    exact Alike.refl w
  | now =>
    rw [h.world]
    exact Alike.refl w
  | fetch =>
    rw [h.world]
    cases hm : w.manifests <;> simp only [answer, fetch, hm] <;> exact ⟨rfl, rfl, rfl⟩

end Answers

end Rehearsal

end MeshRollout
