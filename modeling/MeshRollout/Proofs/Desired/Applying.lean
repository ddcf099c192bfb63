import MeshRollout.Proofs.Cluster.Serving
import MeshRollout.Proofs.Desired.Documents

/-!
Applying the objects of documents one after another, where the store refuses some of them by their
names. An object that is refused is neither changed nor created, so whether a document is rejected
is settled by the store at the beginning.
-/
set_option autoImplicit false

namespace MeshRollout

open MemoryStore (serve)
open Pass (on callsOn)

namespace Object

/-- Labels, annotations and all fields but the status are those of the other object, where the two
floating-point zeros count as one. -/
structure Matches (live o : Object) : Prop where
  labels : live.labels = o.labels
  annotations : live.annotations = o.annotations
  fields : Value.sameFields (live.data.drop "status") (o.data.drop "status") = true

theorem contentDiffers_eq_false_iff (live o : Object) :
    live.contentDiffers o = false ↔ live.Matches o := by
  simp only [contentDiffers, Bool.not_eq_false', Bool.and_eq_true, beq_iff_eq]
  constructor
  · rintro ⟨⟨hl, ha⟩, hf⟩
    exact ⟨hl, ha, hf⟩
  · exact fun h => ⟨⟨h.labels, h.annotations⟩, h.fields⟩

end Object

namespace MemoryStore

def refuses (s : MemoryStore) (name : String) : Bool :=
  (s.refusedApplies.get name).isSome

def badRequest (message : String) : Failure :=
  apiFailure 400 "BadRequest" message

variable {s : MemoryStore} {r : Resource} {o : Object}

theorem refuses_iff {name : String} :
    s.refuses name = true ↔ ∃ message, s.refusedApplies.get name = some message :=
  Option.isSome_iff_exists

theorem refuses_eq_false_iff {name : String} :
    s.refuses name = false ↔ s.refusedApplies.get name = none := by
  rw [← Bool.not_eq_true, refuses, Option.not_isSome_iff_eq_none]

theorem apply_of_refused {message : String} (h : s.refusedApplies.get o.name = some message) :
    s.apply r o = (.error (badRequest message), s) := by
  rw [apply, h]
  rfl

theorem apply_of_free (h : s.refusedApplies.get o.name = none) :
    ∃ x, s.apply r o = (.ok x, (s.apply r o).2) := by
  rw [apply, h]
  exact ⟨_, rfl⟩

theorem find_apply_of_free (h : s.refusedApplies.get o.name = none) (k : StoreKey) :
    (s.apply r o).2.find k
      = if k = .ofObject r o then some (s.successor (.ofObject r o) o) else s.find k := by
  rw [apply, h]
  exact find_write s "apply" r _ k

end MemoryStore

namespace WantedObject

def place (d : WantedObject) : StoreKey :=
  .ofObject d.identity.resource d.object

def target (d : WantedObject) : Resource :=
  if d.isOf Route.resource then Route.resource else d.identity.resource

/-- Routes and other objects are compared in different ways. -/
def differs (d : WantedObject) : Object → Object → Bool :=
  if d.isOf Route.resource then Object.isOutdated else Object.contentDiffers

def fits (d : WantedObject) (s : MemoryStore) : Bool :=
  (s.find d.place).any fun live => !d.differs live d.object

def rejected (d : WantedObject) (s : MemoryStore) : Bool :=
  !d.fits s && s.refuses d.object.name

def rejection (d : WantedObject) (s : MemoryStore) : Option Failure :=
  (s.refusedApplies.get d.object.name).map fun message =>
    .notReady d.identity.resource.kind d.object.space d.object.name
      (MemoryStore.badRequest message).message

def firstRejection (ds : List WantedObject) (s : MemoryStore) : Option Failure :=
  (ds.find? fun d => d.rejected s).bind fun d => d.rejection s

def lookup (d : WantedObject) : Call :=
  .store (.get d.target d.object.spaceArg d.object.name)

def application (manager : String) (d : WantedObject) : Call :=
  .store (.apply d.target d.object manager)

variable {d x : WantedObject} {ds ds' : List WantedObject} {s s' s'' : MemoryStore}

theorem target_kind (d : WantedObject) : d.target.kind = d.identity.resource.kind := by
  rw [target]
  by_cases h : d.isOf Route.resource = true
  · rw [if_pos h]
    simp only [isOf, Bool.and_eq_true, beq_iff_eq] at h
    exact h.2.symm
  · rw [if_neg h]

theorem Typed.plural_eq (h : d.Typed) (hr : d.isOf Route.resource = true) :
    d.identity.resource.group = Route.resource.group ∧
      d.identity.resource.plural = Route.resource.plural := by
  obtain ⟨apiVersion, kind, hid, -⟩ := h
  simp only [isOf, hid, Bool.and_eq_true, beq_iff_eq] at hr
  have hkind : kind = Route.kind := hr.2
  have hplural : Resource.pluralOf Route.kind = Route.resource.plural := by decide
  rw [hid]
  exact ⟨hr.1, (congrArg Resource.pluralOf hkind).trans hplural⟩

theorem Typed.ofObject_target (h : d.Typed) : .ofObject d.target d.object = d.place := by
  rw [target, place]
  by_cases hr : d.isOf Route.resource = true
  · obtain ⟨hg, hp⟩ := h.plural_eq hr
    rw [if_pos hr, StoreKey.ofObject, StoreKey.ofObject, StoreKey.of, StoreKey.of,
      StoreKey.resourceText, StoreKey.resourceText, hg, hp]
  · rw [if_neg hr]

theorem fits_iff :
    d.fits s = true ↔ ∃ live, s.find d.place = some live ∧ d.differs live d.object = false := by
  simp [fits, Option.any_eq_true]

theorem fits_congr (h : s'.find d.place = s.find d.place) : d.fits s' = d.fits s := by
  rw [fits, fits, h]

theorem rejected_of_fits (h : d.fits s = true) : d.rejected s = false := by
  rw [rejected, h]
  rfl

theorem rejected_of_free (h : s.refusedApplies.get d.object.name = none) :
    d.rejected s = false := by
  rw [rejected, MemoryStore.refuses_eq_false_iff.2 h, Bool.and_false]

theorem rejected_of_refused {message : String} (h : d.fits s = false)
    (hr : s.refusedApplies.get d.object.name = some message) : d.rejected s = true := by
  rw [rejected, h, MemoryStore.refuses_iff.2 ⟨message, hr⟩]
  rfl

theorem differs_successor (d : WantedObject) (s : MemoryStore) (k : StoreKey) :
    d.differs (s.successor k d.object) d.object = false := by
  have hfields : Value.sameFields ((s.successor k d.object).data.drop "status")
      (d.object.data.drop "status") = true :=
    (Value.sameFields_iff _ _).2 rfl
  rw [differs]
  split
  · exact (Object.isOutdated_eq_false_iff _ _).2 (MemoryStore.carries_stamp s _ d.object).agrees
  · exact (Object.contentDiffers_eq_false_iff _ _).2 ⟨rfl, rfl, hfields⟩

/-- The last document of its place. -/
def Decides (d : WantedObject) (ds : List WantedObject) : Prop :=
  ∃ pre post, ds = pre ++ d :: post ∧ ∀ x ∈ post, x.place ≠ d.place

namespace Decides

theorem cons_iff :
    d.Decides (x :: ds) ↔ (d = x ∧ ∀ y ∈ ds, y.place ≠ d.place) ∨ d.Decides ds := by
  constructor
  · rintro ⟨pre, post, he, hlast⟩
    cases pre with
    | nil =>
      cases he
      exact .inl ⟨rfl, hlast⟩
    | cons y pre =>
      cases he
      exact .inr ⟨pre, post, rfl, hlast⟩
  · rintro (⟨rfl, hlast⟩ | ⟨pre, post, rfl, hlast⟩)
    · exact ⟨[], ds, rfl, hlast⟩
    · exact ⟨x :: pre, post, rfl, hlast⟩

theorem append_iff :
    d.Decides (ds ++ ds') ↔
      (d.Decides ds ∧ ∀ y ∈ ds', y.place ≠ d.place) ∨ d.Decides ds' := by
  induction ds with
  | nil =>
    have hnil : ¬ d.Decides [] := by
      rintro ⟨pre, post, he, -⟩
      simp at he
    simp [hnil]
  | cons x ds ih =>
    rw [List.cons_append, cons_iff, cons_iff, ih, List.forall_mem_append]
    tauto

theorem mem (h : d.Decides ds) : d ∈ ds := by
  obtain ⟨pre, post, rfl, -⟩ := h
  simp

theorem of_nodup (h : (ds.map place).Nodup) (hd : d ∈ ds) : d.Decides ds := by
  obtain ⟨pre, post, rfl⟩ := List.append_of_mem hd
  refine ⟨pre, post, rfl, fun x hx he => ?_⟩
  rw [List.map_append, List.map_cons, List.nodup_append] at h
  exact (List.nodup_cons.1 h.2.1).1 (List.mem_map.2 ⟨x, hx, he⟩)

theorem filter {f : WantedObject → Bool} (h : d.Decides ds) (hf : f d = true) :
    d.Decides (ds.filter f) := by
  obtain ⟨pre, post, rfl, hlast⟩ := h
  refine ⟨pre.filter f, post.filter f, by simp [hf], fun x hx => ?_⟩
  exact hlast x (List.mem_of_mem_filter hx)

end Decides

theorem firstRejection_congr (h : ∀ d ∈ ds, d.rejected s' = d.rejected s)
    (hr : s'.refusedApplies = s.refusedApplies) : firstRejection ds s' = firstRejection ds s := by
  have hfind : (ds.find? fun d => d.rejected s') = ds.find? fun d => d.rejected s := by
    induction ds with
    | nil => rfl
    | cons d ds ih =>
      obtain ⟨hd, hds⟩ := List.forall_mem_cons.1 h
      rw [List.find?_cons, List.find?_cons, hd, ih hds]
  simp only [firstRejection, hfind, rejection, hr]

structure BroughtAll (ds : List WantedObject) (s s' : MemoryStore) : Prop where
  refusals : s'.refusedApplies = s.refusedApplies
  elsewhere : ∀ k, (∀ d ∈ ds, d.place ≠ k) → s'.find k = s.find k
  refused : ∀ k, s.refuses k.name = true → s'.find k = s.find k
  kept : ∀ k, s.find k ≠ none → s'.find k ≠ none
  fits : ∀ d : WantedObject, d.Decides ds → d.rejected s = false → d.fits s' = true

namespace BroughtAll

theorem nil (s : MemoryStore) : BroughtAll [] s s where
  refusals := rfl
  elsewhere _ _ := rfl
  refused _ _ := rfl
  kept _ h := h
  fits _ h := nomatch h.mem

theorem refuses_eq (h : BroughtAll ds s s') (name : String) : s'.refuses name = s.refuses name := by
  rw [MemoryStore.refuses, h.refusals]
  rfl

/-- What is rejected does not change, as the objects that are refused do not change. -/
theorem rejected_eq (h : BroughtAll ds s s') (d : WantedObject) :
    d.rejected s' = d.rejected s := by
  rw [rejected, rejected, h.refuses_eq]
  by_cases hr : s.refuses d.object.name = true
  · rw [fits_congr (h.refused d.place hr)]
  · rw [eq_false_of_ne_true hr, Bool.and_false, Bool.and_false]

theorem append (h : BroughtAll ds s s') (h' : BroughtAll ds' s' s'') :
    BroughtAll (ds ++ ds') s s'' where
  refusals := h'.refusals.trans h.refusals
  elsewhere k hk := by
    rw [List.forall_mem_append] at hk
    rw [h'.elsewhere k hk.2, h.elsewhere k hk.1]
  refused k hk := by rw [h'.refused k (h.refuses_eq _ ▸ hk), h.refused k hk]
  kept k hk := h'.kept k (h.kept k hk)
  fits d hd hr := by
    rcases Decides.append_iff.1 hd with ⟨hd, hlast⟩ | hd
    · rw [fits_congr (h'.elsewhere _ hlast)]
      exact h.fits d hd hr
    · exact h'.fits d hd (h.rejected_eq d ▸ hr)

end BroughtAll

theorem exists_rejection (h : d.rejected s = true) : ∃ f, d.rejection s = some f := by
  rw [rejected, Bool.and_eq_true, MemoryStore.refuses_iff] at h
  obtain ⟨-, message, hm⟩ := h
  exact ⟨_, by rw [rejection, hm]; rfl⟩

theorem firstRejection_append (ds ds' : List WantedObject) (s : MemoryStore) :
    firstRejection (ds ++ ds') s = (firstRejection ds s).or (firstRejection ds' s) := by
  rw [firstRejection, firstRejection, firstRejection, List.find?_append]
  cases hf : ds.find? fun d => d.rejected s with
  | none => rfl
  | some d =>
    have hd : d.rejected s = true := List.find?_some (p := fun d : WantedObject => d.rejected s) hf
    obtain ⟨f, hd⟩ := exists_rejection hd
    simp [hd]

theorem awaits_of_firstRejection {f : Failure} (h : firstRejection ds s = some f) :
    f.awaitsPrerequisite = true := by
  obtain ⟨d, -, hd⟩ := Option.bind_eq_some_iff.1 h
  obtain ⟨message, -, rfl⟩ := Option.map_eq_some_iff.1 hd
  rfl

theorem firstRejection_eq_none_iff :
    firstRejection ds s = none ↔ ∀ d ∈ ds, d.rejected s = false := by
  induction ds with
  | nil => simp [firstRejection]
  | cons d ds ih =>
    rw [List.forall_mem_cons, ← ih, firstRejection, firstRejection, List.find?_cons]
    cases hd : d.rejected s with
    | false => simp
    | true =>
      obtain ⟨f, hf⟩ := exists_rejection hd
      simp [hf]

def bring (manager : String) (p : Progress) (d : WantedObject) : Pass Progress :=
  Convergence.applyUnlessSame manager d.target d.differs d.object p

def bringEach (manager : String) (p : Progress) : List WantedObject → Pass Progress
  | [] => pure p
  | d :: ds => do
    bringEach manager (← bring manager p d) ds

section Halves

variable (manager : String) (p : Progress)

theorem applyAll_managed (ds : List WantedObject) :
    Convergence.applyAll manager Route.resource p (Manifest.managed Route.resource ds)
      = bringEach manager p (ds.filter (isOf Route.resource)) := by
  induction ds generalizing p with
  | nil => rfl
  | cons d ds ih =>
    by_cases h : d.isOf Route.resource = true
    · have hbring : bring manager p d
          = Convergence.applyUnlessSame manager Route.resource Object.isOutdated d.object p := by
        rw [bring, target, differs, if_pos h, if_pos h]
      simp only [Manifest.managed, List.filter_cons_of_pos h, List.map_cons, bringEach,
        Convergence.applyAll, hbring]
      exact congrArg _ (funext fun p' => ih p')
    · rw [Manifest.managed, List.filter_cons_of_neg h]
      exact ih p

theorem applyEach_others (ds : List WantedObject) :
    Convergence.applyEach manager p (Manifest.others Route.resource ds)
      = bringEach manager p (ds.filter fun d => !d.isOf Route.resource) := by
  induction ds generalizing p with
  | nil => rfl
  | cons d ds ih =>
    by_cases h : d.isOf Route.resource = true
    · rw [Manifest.others, List.filter_cons_of_neg (by simp [h])]
      exact ih p
    · have hbring : bring manager p d = Convergence.applyUnlessSame manager d.identity.resource
          Object.contentDiffers d.object p := by
        rw [bring, target, differs, if_neg h, if_neg h]
      have hpos : (!d.isOf Route.resource) = true := by simpa using h
      rw [Manifest.others, List.filter_cons_of_pos (p := fun d => !isOf Route.resource d) hpos]
      simp only [bringEach, Convergence.applyEach, hbring]
      exact congrArg _ (funext fun p' => ih p')

end Halves

section Bring

structure Answering (answer : (c : Call) → MemoryStore → c.Answer × MemoryStore) : Prop where
  get : ∀ r space name s,
    answer (.store (.get r space name)) s = serve (.store (.get r space name)) s
  notify : ∀ message s, (answer (.notify message) s).2 = s

theorem answering_serve : Answering serve :=
  ⟨fun _ _ _ _ => rfl, fun _ _ => rfl⟩

variable {answer : (c : Call) → MemoryStore → c.Answer × MemoryStore} (manager : String)
  (p : Progress)

def afterApply (d : WantedObject) (p : Progress) : Except Failure Object → Except Failure Progress
  | .ok _ => .ok (p.apply d.object.key)
  | .error f =>
    if f.tellsUnconfigured then
      .ok (p.reject d.object.key (.notReady d.target.kind d.object.space d.object.name f.message))
    else .error f

def messageAfter (d : WantedObject) : Except Failure Object → List Call
  | .ok _ => [.notify (Notice.applied d.target.kind d.object)]
  | .error f =>
    if f.tellsUnconfigured then []
    else [.notify (Notice.notApplied d.target.kind d.object f)]

theorem Typed.on_bring (h : d.Typed) (ha : Answering answer) (s : MemoryStore) :
    (on answer (bring manager p d) s = if d.fits s then (.ok p.skip, s) else
        (d.afterApply p (answer (d.application manager) s).1,
          (answer (d.application manager) s).2)) ∧
      callsOn answer (bring manager p d) s = if d.fits s then [d.lookup] else
        d.lookup :: d.application manager ::
          d.messageAfter (answer (d.application manager) s).1 := by
  have hget : on answer (Pass.get d.target d.object.spaceArg d.object.name) s
      = (.ok (s.find d.place), s) := by
    have hserved := (ha.get d.target d.object.spaceArg d.object.name s).trans
      (Pass.on_get s d.target d.object.spaceArg d.object.name)
    rw [d.object.spaceArg_getD, ← StoreKey.ofObject, h.ofObject_target] at hserved
    exact hserved
  have hfit : ((s.find d.place).map fun live => d.differs live d.object) = some false
      ↔ d.fits s = true := by
    rw [fits_iff, Option.map_eq_some_iff]
  have happly : on answer (Pass.apply d.target d.object manager) s
      = answer (d.application manager) s := rfl
  rw [bring, Convergence.applyUnlessSame, Pass.on_bind, Pass.callsOn_bind, hget, Pass.callsOn_get]
  by_cases hf : d.fits s = true
  · simp only [hfit.2 hf, hf, beq_self_eq_true, ↓reduceIte]
    exact ⟨rfl, rfl⟩
  · simp only [beq_eq_false_iff_ne.2 (mt hfit.1 hf), hf, Bool.false_eq_true, ↓reduceIte]
    rw [Pass.on_bind, Pass.callsOn_bind, Pass.on_attempt, Pass.callsOn_attempt, Pass.callsOn_apply,
      happly]
    -- only a failure that does not tell of a missing configuration ends the pass here
    rcases answer (d.application manager) s with ⟨result, s'⟩
    cases result with
    | ok o =>
      simp only [Pass.on_bind, Pass.callsOn_bind, Pass.on_notify, Pass.callsOn_notify, ha.notify]
      exact ⟨rfl, rfl⟩
    | error f =>
      cases hm : f.tellsUnconfigured with
      | true =>
        simp only [afterApply, messageAfter, hm, ↓reduceIte]
        exact ⟨rfl, rfl⟩
      | false =>
        simp only [afterApply, messageAfter, hm, Bool.false_eq_true, ↓reduceIte, Pass.on_bind,
          Pass.callsOn_bind, Pass.on_notify, Pass.callsOn_notify, ha.notify]
        exact ⟨rfl, rfl⟩

end Bring

inductive Brought (manager : String) (p : Progress) (d : WantedObject) (s : MemoryStore) :
    Except Failure Progress × MemoryStore → List Call → Prop where
  | skipped (fit : d.fits s = true) : Brought manager p d s (.ok p.skip, s) [d.lookup]
  | applied (unfit : d.fits s = false) (free : s.refusedApplies.get d.object.name = none) :
      Brought manager p d s (.ok (p.apply d.object.key), (s.apply d.target d.object).2)
        [d.lookup, d.application manager, .notify (Notice.applied d.target.kind d.object)]
  | refused {message : String} (unfit : d.fits s = false)
      (told : s.refusedApplies.get d.object.name = some message)
      (mild : (MemoryStore.badRequest message).tellsUnconfigured = true) :
      Brought manager p d s
        (.ok (p.reject d.object.key (.notReady d.target.kind d.object.space d.object.name
          (MemoryStore.badRequest message).message)), s)
        [d.lookup, d.application manager]
  | failed {message : String} (unfit : d.fits s = false)
      (told : s.refusedApplies.get d.object.name = some message)
      (grave : (MemoryStore.badRequest message).tellsUnconfigured = false) :
      Brought manager p d s (.error (MemoryStore.badRequest message), s)
        [d.lookup, d.application manager,
          .notify (Notice.notApplied d.target.kind d.object (MemoryStore.badRequest message))]

theorem Typed.brought (h : d.Typed) (manager : String) (p : Progress) (s : MemoryStore) :
    Brought manager p d s (on serve (bring manager p d) s)
      (callsOn serve (bring manager p d) s) := by
  obtain ⟨hon, hcalls⟩ := h.on_bring manager p answering_serve s
  have happly : serve (d.application manager) s = s.apply d.target d.object := rfl
  rw [hon, hcalls]
  cases hf : d.fits s with
  | true => exact .skipped hf
  | false =>
    cases hr : s.refusedApplies.get d.object.name with
    | none =>
      obtain ⟨o, ho⟩ := MemoryStore.apply_of_free (r := d.target) hr
      rw [happly, ho]
      exact .applied hf hr
    | some message =>
      rw [happly, MemoryStore.apply_of_refused hr]
      cases hm : (MemoryStore.badRequest message).tellsUnconfigured with
      | true =>
        simp only [afterApply, messageAfter, hm, ↓reduceIte, Bool.false_eq_true]
        exact .refused hf hr hm
      | false =>
        simp only [afterApply, messageAfter, hm, ↓reduceIte, Bool.false_eq_true]
        exact .failed hf hr hm

variable {manager : String} {p p' : Progress} {calls calls' : List Call}

namespace BroughtAll

theorem of_unchanged (h : d.rejected s = false → d.fits s = true) : BroughtAll [d] s s where
  refusals := rfl
  elsewhere _ _ := rfl
  refused _ _ := rfl
  kept _ h := h
  fits x hx hr := by
    cases List.mem_singleton.1 hx.mem
    exact h hr

theorem of_applied (ht : d.Typed) (free : s.refusedApplies.get d.object.name = none) :
    BroughtAll [d] s (s.apply d.target d.object).2 := by
  have hfind (k : StoreKey) : (s.apply d.target d.object).2.find k
      = if k = d.place then some (s.successor d.place d.object) else s.find k := by
    rw [MemoryStore.find_apply_of_free free, ht.ofObject_target]
  exact {
    refusals := s.refusedApplies_answer (.apply d.target d.object "")
    elsewhere := fun k hk => (hfind k).trans (if_neg (Ne.symm (hk d List.mem_cons_self)))
    refused := fun k hk => by
      refine (hfind k).trans (if_neg fun he => ?_)
      rw [he] at hk
      nomatch (MemoryStore.refuses_eq_false_iff.2 free).symm.trans hk
    kept := fun k hk => by
      rw [hfind]
      split
      · exact Option.some_ne_none _
      · exact hk
    fits := fun x hx _ => by
      cases List.mem_singleton.1 hx.mem
      exact fits_iff.2 ⟨_, (hfind d.place).trans (if_pos rfl), d.differs_successor s _⟩ }

end BroughtAll

theorem firstRejection_of_not_rejected (h : d.rejected s = false) :
    firstRejection [d] s = none := by
  simp [firstRejection, h]

theorem firstRejection_of_rejected (h : d.rejected s = true) :
    firstRejection [d] s = d.rejection s := by
  simp [firstRejection, h]

theorem Brought.stored (h : Brought manager p d s (.ok p', s') calls) (ht : d.Typed) :
    BroughtAll [d] s s' ∧ p'.rejection = p.rejection.or (firstRejection [d] s) := by
  cases h with
  | skipped fit =>
    refine ⟨.of_unchanged fun _ => fit, ?_⟩
    rw [firstRejection_of_not_rejected (rejected_of_fits fit), Option.or_none]
    rfl
  | applied unfit free =>
    refine ⟨.of_applied ht free, ?_⟩
    rw [firstRejection_of_not_rejected (rejected_of_free free), Option.or_none]
    rfl
  | refused unfit told mild =>
    have hrej := rejected_of_refused unfit told
    refine ⟨.of_unchanged fun hnot => (nomatch hnot.symm.trans hrej), ?_⟩
    rw [firstRejection_of_rejected hrej, rejection, told, target_kind]
    rfl

/-- Where a run over the documents comes to its end, the store and the rejection are told by what
the store was at the beginning. -/
theorem bringEach_stored (hds : ∀ d ∈ ds, d.Typed)
    (h : on serve (bringEach manager p ds) s = (.ok p', s')) :
    BroughtAll ds s s' ∧ p'.rejection = p.rejection.or (firstRejection ds s) := by
  induction ds generalizing p s with
  | nil =>
    cases h
    exact ⟨.nil _, (Option.or_none).symm⟩
  | cons d ds ih =>
    obtain ⟨ht, hds⟩ := List.forall_mem_cons.1 hds
    have hd := ht.brought manager p s
    rw [bringEach, Pass.on_bind] at h
    cases hon : on serve (bring manager p d) s with
    | mk result s₁ =>
      rw [hon] at h hd
      cases result with
      | error f => nomatch h
      | ok p₁ =>
        -- the first document changes nothing about which of the others are rejected
        obtain ⟨h₁, hp₁⟩ := hd.stored ht
        obtain ⟨h₂, hp₂⟩ := ih hds h
        refine ⟨h₁.append h₂, ?_⟩
        rw [hp₂, hp₁, firstRejection_congr (fun d _ => h₁.rejected_eq d) h₁.refusals,
          Option.or_assoc, ← firstRejection_append]
        rfl

theorem bringEach_idle (manager : String) (p : Progress) (hds : ∀ d ∈ ds, d.Typed)
    (hfit : ∀ d ∈ ds, d.fits s = true) :
    on serve (bringEach manager p ds) s
        = (.ok { p with report := { p.report with
            unchanged := p.report.unchanged + ds.length } }, s) ∧
      callsOn serve (bringEach manager p ds) s = ds.map lookup := by
  induction ds generalizing p with
  | nil => exact ⟨rfl, rfl⟩
  | cons d ds ih =>
    obtain ⟨ht, hds⟩ := List.forall_mem_cons.1 hds
    obtain ⟨hd, hfit⟩ := List.forall_mem_cons.1 hfit
    have hskip : on serve (bring manager p d) s = (.ok p.skip, s) ∧
        callsOn serve (bring manager p d) s = [d.lookup] := by
      have hb := ht.brought manager p s
      generalize on serve (bring manager p d) s = result at hb
      generalize callsOn serve (bring manager p d) s = calls at hb
      cases hb with
      | skipped _ => exact ⟨rfl, rfl⟩
      | applied unfit _ => nomatch hd.symm.trans unfit
      | refused unfit _ _ => nomatch hd.symm.trans unfit
      | failed unfit _ _ => nomatch hd.symm.trans unfit
    obtain ⟨hrest, hcalls⟩ := ih p.skip hds hfit
    rw [bringEach, Pass.on_bind, Pass.callsOn_bind, hskip.1, hskip.2]
    refine ⟨hrest.trans ?_, congrArg (d.lookup :: ·) hcalls⟩
    simp only [Progress.skip, List.length_cons, Nat.add_assoc, Nat.add_comm 1]

end WantedObject

end MeshRollout
