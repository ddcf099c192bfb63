import MeshRollout.Proofs.Cluster.Traces
import MeshRollout.Proofs.Desired.Halves
import MeshRollout.Proofs.Desired.Identity

/-!
A manifest is parted by kind. Each document goes to one half, and the half of a kind holds no object
that tells another one. So the complaint about a stray object, which ends a pass over one kind, is
never the end of a pass over a manifest.
-/
set_option autoImplicit false

namespace MeshRollout

structure WantedObject.IsReadFrom (v : Value) (d : WantedObject) : Prop where
  identity : DocumentMeta.ofValue v = .ok d.identity
  object : Object.ofValue v = .ok d.object

namespace Manifest

/-- Documents of the resource give their objects, and the others stay as they are, each in its
turn. -/
inductive Parted (r : Resource) : List WantedObject → List Object → List WantedObject → Prop where
  | nil : Parted r [] [] []
  | managed {d : WantedObject} {ds : List WantedObject} {objects : List Object}
      {rest : List WantedObject} (own : d.isOf r = true) (tail : Parted r ds objects rest) :
      Parted r (d :: ds) (d.object :: objects) rest
  | other {d : WantedObject} {ds : List WantedObject} {objects : List Object}
      {rest : List WantedObject} (foreign : d.isOf r = false) (tail : Parted r ds objects rest) :
      Parted r (d :: ds) objects (d :: rest)

theorem parted (r : Resource) (ds : List WantedObject) :
    Parted r ds (managed r ds) (others r ds) := by
  induction ds with
  | nil => exact .nil
  | cons d ds ih =>
    cases h : d.isOf r with
    | true =>
      have hmanaged : managed r (d :: ds) = d.object :: managed r ds := by simp [managed, h]
      have hothers : others r (d :: ds) = others r ds := by simp [others, h]
      rw [hmanaged, hothers]
      exact .managed h ih
    | false =>
      have hmanaged : managed r (d :: ds) = managed r ds := by simp [managed, h]
      have hothers : others r (d :: ds) = d :: others r ds := by simp [others, h]
      rw [hmanaged, hothers]
      exact .other h ih

theorem readFrom_of_objectsFrom {i : Nat} {vs : List Value} {ds : List WantedObject}
    (h : objectsFrom i vs = .ok ds) : List.Forall₂ WantedObject.IsReadFrom vs ds := by
  induction vs generalizing i ds with
  | nil =>
    cases h
    exact .nil
  | cons v vs ih =>
    obtain ⟨d, hd, hrest⟩ := ok_of_bind h
    obtain ⟨ds, hds, he⟩ := ok_of_bind hrest
    cases he
    obtain ⟨hid, hobj⟩ := WantedObject.ofDocument_eq_ok hd
    exact .cons ⟨hid, hobj⟩ (ih hds)

theorem decode_of_objectsFrom_error {i : Nat} {vs : List Value} {f : Failure}
    (h : objectsFrom i vs = .error f) : ∃ j message, f = .decode j message := by
  induction vs generalizing i with
  | nil => nomatch h
  | cons v vs ih =>
    rcases error_of_bind h with hd | ⟨d, -, hrest⟩
    · rcases error_of_bind hd with hid | ⟨identity, -, hobj⟩
      · obtain ⟨g, -, rfl⟩ := error_of_mapError hid
        exact ⟨i, _, rfl⟩
      · rcases error_of_bind hobj with hobj | ⟨object, -, hdone⟩
        · obtain ⟨g, -, rfl⟩ := error_of_mapError hobj
          exact ⟨i, _, rfl⟩
        · nomatch hdone
    · rcases error_of_bind hrest with hds | ⟨ds, -, hdone⟩
      · exact ih hds
      · nomatch hdone

theorem decode_of_decodeFrom_error {i : Nat} {pieces : List String} {f : Failure}
    (h : Yaml.decodeFrom i pieces = .error f) : ∃ j message, f = .decode j message := by
  induction pieces generalizing i with
  | nil => nomatch h
  | cons piece pieces ih =>
    rcases error_of_bind h with hv | ⟨v, -, hrest⟩
    · rcases error_of_bind hv with hread | ⟨x, -, hrecord⟩
      · obtain ⟨g, -, rfl⟩ := error_of_mapError hread
        exact ⟨i, _, rfl⟩
      · split at hrecord
        · nomatch hrecord
        · cases hrecord
          exact ⟨i, _, rfl⟩
    · rcases error_of_bind hrest with hvs | ⟨vs, -, hdone⟩
      · exact ih hvs
      · nomatch hdone

/-- A manifest that is not read has a document that is told as undecodable. -/
theorem decode_of_read_error {text : String} {f : Failure} (h : read text = .error f) :
    ∃ j message, f = .decode j message := by
  rcases error_of_bind h with hvs | ⟨vs, -, hds⟩
  · exact decode_of_decodeFrom_error hvs
  · exact decode_of_objectsFrom_error hds

end Manifest

namespace Pass

variable {own : Failure → Prop}

theorem ends_notify (message : String) : Ends own (fun _ => True) (notify message) := by
  have hsend : Ends own (fun _ => True) (ofCall (.ask (.notify message)) : Pass Unit) :=
    ends_call fun a => ⟨a, rfl, fun _ h => congrArg some h.symm⟩
  exact hsend.attempt_bind (fun _ _ => ends_pure trivial) fun _ => ends_pure trivial

end Pass

def Progress.Awaits (p : Progress) : Prop :=
  ∀ f ∈ p.rejection, f.awaitsPrerequisite = true

theorem Progress.Awaits.reject {p : Progress} (hp : p.Awaits) {f : Failure}
    (hf : f.awaitsPrerequisite = true) : ∀ g ∈ p.rejection.or (some f), g.awaitsPrerequisite = true := by
  intro g hg
  cases h : p.rejection with
  | none =>
    rw [h] at hg
    cases hg
    exact hf
  | some e =>
    rw [h] at hg
    cases hg
    exact hp _ h

namespace Convergence

open Pass (ends_call ends_pure ends_throw ends_ofExcept ends_notify)

variable {own : Failure → Prop} {manager : String} {r : Resource} {p : Progress}

theorem ends_prune (live : Object) (hp : p.Awaits) :
    Pass.Ends own Progress.Awaits (prune r live p) := by
  have hdelete : Pass.Ends own (fun _ => True) (Pass.delete r live.spaceArg live.name) :=
    ends_call fun a => ⟨a, rfl, fun _ h => congrArg some h.symm⟩
  refine (ends_notify _).bind fun _ _ => hdelete.bind fun gone _ => ?_
  cases gone with
  | true => exact ends_pure hp
  | false => exact ends_pure hp

theorem ends_pruneAll (l : List Object) (hp : p.Awaits) :
    Pass.Ends own Progress.Awaits (pruneAll r p l) := by
  induction l generalizing p with
  | nil => exact ends_pure hp
  | cons live l ih => exact (ends_prune live hp).bind fun q hq => ih hq

theorem ends_list (r : Resource) (space selector : Option String) :
    Pass.Ends own (fun _ => True) (Pass.list r space selector) :=
  ends_call fun a => ⟨a, rfl, fun _ h => congrArg some h.symm⟩

theorem ends_pruneSpaces (ws : Dict (List String)) (hp : p.Awaits) :
    Pass.Ends own Progress.Awaits (pruneSpaces r p ws) := by
  induction ws generalizing p with
  | nil => exact ends_pure hp
  | cons q ws ih =>
    refine (ends_list _ _ _).bind fun live _ => ?_
    exact (ends_pruneAll _ hp).bind fun p' hp' => ih hp'

theorem awaits_empty : ({} : Progress).Awaits := by
  intro f hf
  cases hf

theorem ends_tidy (r : Resource) (desired : List Object) :
    Pass.Ends own Progress.Awaits (tidy r desired) := by
  rw [tidy]
  split
  · exact (ends_list _ _ _).bind fun live _ => ends_pruneAll live awaits_empty
  · exact ends_pruneSpaces _ awaits_empty

theorem ends_applyUnlessSame (differs : Object → Object → Bool) (o : Object) (hp : p.Awaits) :
    Pass.Ends own Progress.Awaits (applyUnlessSame manager r differs o p) := by
  have hget : Pass.Ends own (fun _ => True) (Pass.get r o.spaceArg o.name) :=
    ends_call fun a => ⟨a, rfl, fun _ h => congrArg some h.symm⟩
  have happly : Pass.Ends own (fun _ => True) (Pass.apply r o manager) :=
    ends_call fun a => ⟨a, rfl, fun _ h => congrArg some h.symm⟩
  refine hget.bind fun live _ => ?_
  split
  · exact ends_pure hp
  · refine happly.attempt_bind (fun _ _ => (ends_notify _).bind fun _ _ => ends_pure hp) fun f => ?_
    dsimp only
    split
    · exact ends_pure (hp.reject rfl)
    · exact (ends_notify _).bind fun _ _ => ends_throw (.inr rfl)

theorem ends_applyAll (l : List Object) (hp : p.Awaits) :
    Pass.Ends own Progress.Awaits (applyAll manager r p l) := by
  induction l generalizing p with
  | nil => exact ends_pure hp
  | cons o l ih => exact (ends_applyUnlessSame _ o hp).bind fun q hq => ih hq

theorem ends_applyEach (ds : List WantedObject) (hp : p.Awaits) :
    Pass.Ends own Progress.Awaits (applyEach manager p ds) := by
  induction ds generalizing p with
  | nil => exact ends_pure hp
  | cons d ds ih => exact (ends_applyUnlessSame _ d.object hp).bind fun q hq => ih hq

section Finish

variable (hown : ∀ f, f.awaitsPrerequisite = true → own f)
include hown

theorem ends_finish (hp : p.Awaits) :
    Pass.Ends own (fun _ => True) (Pass.ofExcept p.finish) := by
  refine ends_ofExcept (fun _ _ => trivial) fun f hf => hown f (hp f ?_)
  rw [Progress.finish] at hf
  split at hf
  · rename_i e he
    cases hf
    exact he
  · cases hf

theorem ends_converge {desired : List Object} (hkinds : stray? r desired = none) :
    Pass.Ends own (fun _ => True) (converge manager r desired) := by
  rw [converge_eq manager hkinds]
  refine (ends_tidy r desired).bind fun p hp => ?_
  exact (ends_applyAll desired hp).bind fun q hq => ends_finish hown hq

theorem ends_applyOthers (ds : List WantedObject) :
    Pass.Ends own (fun _ => True) (applyOthers manager ds) :=
  (ends_applyEach ds awaits_empty).bind fun _ hp => ends_finish hown hp

end Finish

end Convergence

namespace Alignment

open Pass (ends_call ends_ofExcept)
open Convergence (ends_converge ends_applyOthers ends_finish awaits_empty)

variable {own : Failure → Prop} {p : Progress}

theorem ends_takingIn {part : Pass Report} (hp : p.Awaits)
    (hpart : Pass.Ends own (fun _ => True) part) :
    Pass.Ends own Progress.Awaits (takingIn p part) := by
  refine hpart.attempt_bind
    (fun report _ => ends_ofExcept (fun q hq => ?_) fun f hf => ?_)
    fun e => ends_ofExcept (fun q hq => ?_) fun f hf => ?_
  · cases hq
    exact hp
  · cases hf
  · rw [takeIn] at hq
    split at hq
    · rename_i he
      cases hq
      exact hp.reject he
    · cases hq
  · rw [takeIn] at hf
    split at hf
    · cases hf
    · cases hf
      exact .inr rfl

/-- Apart from what calls are answered with, a pass over a manifest fails only because a document is
undecodable, or because the cluster is not ready. -/
theorem ends_pass (manager : String)
    (hdecode : ∀ i message, own (.decode i message))
    (hown : ∀ f, f.awaitsPrerequisite = true → own f) :
    Pass.Ends own (fun _ => True) (pass manager) := by
  have hfetch : Pass.Ends own (fun _ => True) Pass.fetch :=
    ends_call fun a => ⟨a, rfl, fun _ h => congrArg some h.symm⟩
  have hread (text : String) :
      Pass.Ends own (fun ds => Manifest.read text = .ok ds) (Pass.ofExcept (Manifest.read text)) := by
    refine ends_ofExcept (fun ds hds => hds) fun f hf => ?_
    obtain ⟨i, message, rfl⟩ := Manifest.decode_of_read_error hf
    exact hdecode i message
  refine hfetch.bind fun text _ => (hread text).bind fun ds hds => ?_
  have hstray := Manifest.stray_managed (Manifest.typed_of_read hds) Route.resource
  refine (ends_takingIn awaits_empty (ends_converge hown hstray)).bind fun p hp => ?_
  refine (ends_takingIn hp (ends_applyOthers hown _)).bind fun q hq => ?_
  exact ends_finish hown hq

/-- A document that is read stands at its place in the decoded manifest and has one identity, by its
fields and as an object. By every kind the manifest is parted, and the half of the kind holds no
stray object. So no manifest ends a pass with the complaint about one; a pass that ends so got it
as an answer. -/
theorem manifest_identified_and_parted :
    (∀ text ds, Manifest.read text = .ok ds →
      (∃ vs, Yaml.decode text = .ok vs ∧ List.Forall₂ WantedObject.IsReadFrom vs ds) ∧
      (∀ d ∈ ds, d.Agrees) ∧
      ∀ r : Resource, Manifest.Parted r ds (Manifest.managed r ds) (Manifest.others r ds) ∧
        Convergence.stray? r (Manifest.managed r ds) = none) ∧
    ∀ (manager : String) (σ : Type) (answer : (c : Call) → σ → c.Answer × σ) (s : σ) (r : Resource)
      (o : Object), (Pass.on answer (pass manager) s).1 = .error (Convergence.strayFailure r o) →
        Program.Meets (α := Except Failure Report) answer (Convergence.strayFailure r o)
          (pass manager) s := by
  refine ⟨fun text ds h => ⟨?_, fun d hd => ?_, fun r => ⟨Manifest.parted r ds, ?_⟩⟩, ?_⟩
  · obtain ⟨vs, hvs, hds⟩ := ok_of_bind h
    exact ⟨vs, hvs, Manifest.readFrom_of_objectsFrom hds⟩
  · obtain ⟨j, v, hdoc⟩ := Manifest.exists_ofDocument_of_mem h hd
    exact WantedObject.agrees_of_ofDocument hdoc
  · exact Manifest.stray_managed (Manifest.typed_of_read h) r
  · intro manager σ answer s r o hrun
    have hends : Pass.Ends (fun f => f ≠ Convergence.strayFailure r o) (fun _ => True)
        (pass manager) := by
      refine ends_pass manager (fun i message he => nomatch he) fun f hf he => ?_
      rw [he] at hf
      nomatch hf
    exact ((hends σ answer s).2 _ hrun).resolve_left fun hne => hne rfl

def webAndSpacedShop : String :=
  "apiVersion: v1\nkind: Service\nmetadata:\n  name: web\n  namespace: \"\"\n---\n"
    ++ "apiVersion: mesh-manager.meshmanager.com/v1\nkind: IstioRoute\n"
    ++ "metadata:\n  name: shop\n  namespace: ns\n"

def complainingSource : Rehearsal :=
  { clock := ⟨0, 0⟩
    manifests := [.error (Convergence.strayFailure Route.resource ⟨none, {}, []⟩)] }

theorem webAndSpacedShop_identified_and_parted :
    (∃ ds, Manifest.read webAndSpacedShop = .ok ds ∧ (∀ d ∈ ds, d.Agrees) ∧
      (ds.map fun d => (d.identity.spaceOrEmpty, d.identity.name)) = [("", "web"), ("ns", "shop")] ∧
      (Manifest.managed Route.resource ds).map Object.key = ["ns/shop"] ∧
      Convergence.stray? Route.resource (Manifest.managed Route.resource ds) = none) ∧
    (Pass.on Rehearsal.answer (pass "sync") complainingSource).1
      = .error (Convergence.strayFailure Route.resource ⟨none, {}, []⟩) ∧
    Program.Meets (α := Except Failure Report) Rehearsal.answer
      (Convergence.strayFailure Route.resource ⟨none, {}, []⟩) (pass "sync") complainingSource := by
  have hread : (match Manifest.read webAndSpacedShop with
      | .ok ds => decide ((ds.map fun d => (d.identity.spaceOrEmpty, d.identity.name))
            = [("", "web"), ("ns", "shop")] ∧
          (Manifest.managed Route.resource ds).map Object.key = ["ns/shop"])
      | .error _ => false) = true := by
    decide +kernel
  obtain ⟨hidentified, hmet⟩ := manifest_identified_and_parted
  refine ⟨?_, rfl, hmet "sync" Rehearsal Rehearsal.answer complainingSource _ _ rfl⟩
  split at hread
  · rename_i ds hds
    obtain ⟨hidentities, hkeys⟩ := of_decide_eq_true hread
    obtain ⟨-, hagrees, hhalves⟩ := hidentified _ ds hds
    exact ⟨ds, hds, hagrees, hidentities, hkeys, (hhalves Route.resource).2⟩
  · nomatch hread

end Alignment

end MeshRollout
