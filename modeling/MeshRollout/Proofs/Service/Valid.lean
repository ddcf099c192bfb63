import MeshRollout.Proofs.Name
import MeshRollout.Service.Flaw

/-!
What the checks leave: a service of which every part is well formed, with two revisions wherever
requests are shared, and a route in which no service stands twice.
-/
set_option autoImplicit false

namespace MeshRollout

namespace Service

theorem firstOf_eq_none_iff {α : Type} {l : List (Option α)} :
    firstOf l = none ↔ ∀ x ∈ l, x = none := by
  induction l with
  | nil => simp [firstOf]
  | cons x r ih => cases x <;> simp [firstOf, ih]

theorem validate_eq_ok_iff {s : Service} : s.validate = .ok () ↔ s.flaw? = none := by
  unfold validate
  split <;> simp_all

/-- The checks that a service has passed, one field for each part of the configuration. -/
structure Passed (s : Service) : Prop where
  name : labelFault? s.name = none
  space : labelFault? s.space = none
  revisionCount : s.revisions ≠ [] ∧ s.revisions.length ≤ 2
  revisions : revisionFlaw? .revision s.revisions = none
  distinct : equalRevisions? s.revisions = none
  ratio : s.ratioFlaw? = none
  twoRevisions : s.type.sharesRequests = true → s.revisions.length = 2
  session : s.sessionFlaw? = none
  dependencies : dependencyFlaw? 0 [] s.dependencies = none
  darkReleases : darkFlaw? 0 s.darkReleases = none

theorem flaw?_eq_none_iff {s : Service} : s.flaw? = none ↔ s.Passed := by
  simp only [flaw?, firstOf_eq_none_iff, List.forall_mem_cons, Option.map_eq_none_iff,
    ite_eq_right_iff, reduceCtorEq, imp_false, Bool.or_eq_true, Bool.and_eq_true, decide_eq_true_eq,
    List.isEmpty_iff, not_or, not_and, Nat.not_lt, gt_iff_lt, ne_eq, Decidable.not_not]
  constructor
  · rintro ⟨h1, h2, h3, h4, h5, h6, h7, h8, h9, h10, -⟩
    exact ⟨h1, h2, h3, h4, h5, h6, h7, h8, h9, h10⟩
  · rintro ⟨h1, h2, h3, h4, h5, h6, h7, h8, h9, h10⟩
    exact ⟨h1, h2, h3, h4, h5, h6, h7, h8, h9, h10, by simp⟩

theorem passed_of_validate {s : Service} (h : s.validate = .ok ()) : s.Passed :=
  flaw?_eq_none_iff.1 (validate_eq_ok_iff.1 h)

theorem Passed.validate {s : Service} (h : s.Passed) : s.validate = .ok () :=
  validate_eq_ok_iff.2 (flaw?_eq_none_iff.2 h)

theorem revisionFlaw?_eq_none_iff {flaw : String → RevisionFault → Flaw} {revisions : List String} :
    revisionFlaw? flaw revisions = none ↔ ∀ r ∈ revisions, revisionFault? r = none := by
  simp [revisionFlaw?, List.findSome?_eq_none_iff]

theorem dependency_of_passed {i : Nat} {seen : List (String × String)} {ds : List Dependency}
    (h : dependencyFlaw? i seen ds = none) {d : Dependency} (hd : d ∈ ds) :
    labelFault? d.name = none ∧ labelFault? d.space = none ∧
      ∀ r ∈ d.revisions, revisionFault? r = none := by
  induction ds generalizing i seen with
  | nil => nomatch hd
  | cons d' ds ih =>
    simp only [dependencyFlaw?, firstOf_eq_none_iff, List.forall_mem_cons,
      Option.map_eq_none_iff, revisionFlaw?_eq_none_iff] at h
    obtain ⟨hname, hspace, -, hrevisions, hrest, -⟩ := h
    rcases List.mem_cons.1 hd with rfl | hd
    · exact ⟨hname, hspace, hrevisions⟩
    · exact ih hrest hd

theorem dark_of_passed {i : Nat} {rs : List DarkRelease} (h : darkFlaw? i rs = none)
    {r : DarkRelease} (hr : r ∈ rs) :
    revisionFault? r.revision = none ∧ ∀ ip ∈ r.ips, Address.valid ip = true := by
  induction rs generalizing i with
  | nil => nomatch hr
  | cons r' rs ih =>
    simp only [darkFlaw?, firstOf_eq_none_iff, List.forall_mem_cons, Option.map_eq_none_iff,
      List.findSome?_eq_none_iff, ite_eq_left_iff, reduceCtorEq, imp_false,
      Bool.not_eq_true, Bool.not_eq_false] at h
    obtain ⟨hrevision, -, hips, hrest, -⟩ := h
    rcases List.mem_cons.1 hr with rfl | hr
    · exact ⟨hrevision, hips⟩
    · exact ih hrest hr

theorem dependencies_nodup {i : Nat} {seen : List (String × String)} {ds : List Dependency}
    (h : dependencyFlaw? i seen ds = none) :
    (ds.map fun d => (d.space, d.name)).Nodup ∧ ∀ d ∈ ds, (d.space, d.name) ∉ seen := by
  induction ds generalizing i seen with
  | nil => simp
  | cons d ds ih =>
    simp only [dependencyFlaw?, firstOf_eq_none_iff, List.forall_mem_cons, ite_eq_right_iff,
      List.contains_eq_mem, decide_eq_true_eq, reduceCtorEq, imp_false] at h
    obtain ⟨-, -, hseen, -, hrest, -⟩ := h
    obtain ⟨hn, hnew⟩ := ih hrest
    refine ⟨List.nodup_cons.2 ⟨?_, hn⟩, List.forall_mem_cons.2 ⟨hseen, ?_⟩⟩
    · intro hm
      obtain ⟨e, he, heq⟩ := List.mem_map.1 hm
      exact hnew e he (heq ▸ List.mem_cons_self)
    · exact fun e he hm => hnew e he (List.mem_cons_of_mem _ hm)

namespace Passed

theorem ratio_eq {s : Service} (h : s.Passed) (hs : s.type.sharesRequests = true) :
    ∃ r, s.ratio = some r := by
  have hr := h.ratio
  rw [ratioFlaw?, hs] at hr
  cases he : s.ratio with
  | none => simp [he] at hr
  | some r => exact ⟨r, rfl⟩

/-- A service that shares its requests has a stable revision and a canary, and no third one. -/
theorem revisions_eq {s : Service} (h : s.Passed) (hs : s.type.sharesRequests = true) :
    ∃ stable canary, s.revisions = [stable, canary] := by
  have hl := h.twoRevisions hs
  match hr : s.revisions with
  | [] => simp [hr] at hl
  | [_] => simp [hr] at hl
  | [stable, canary] => exact ⟨stable, canary, rfl⟩
  | _ :: _ :: _ :: _ => simp [hr] at hl

end Passed

end Service

namespace RouteSpec

theorem flawFrom?_eq_none_iff {i : Nat} {seen : List (String × String)} {ss : List Service} :
    flawFrom? i seen ss = none ↔
      (∀ s ∈ ss, s.Passed) ∧ (ss.map fun s => (s.space, s.name)).Nodup ∧
        ∀ s ∈ ss, (s.space, s.name) ∉ seen := by
  induction ss generalizing i seen with
  | nil => simp [flawFrom?]
  | cons s ss ih =>
    cases hf : s.flaw? with
    | some f =>
      have hn : ¬ s.Passed := fun h => by simp [Service.flaw?_eq_none_iff.2 h] at hf
      simp [flawFrom?, hf, hn]
    | none =>
      have hp := Service.flaw?_eq_none_iff.1 hf
      by_cases hs : (s.space, s.name) ∈ seen
      · simp [flawFrom?, hf, hs]
      · simp only [flawFrom?, hf, List.contains_eq_mem, hs, decide_false, Bool.false_eq_true,
          ↓reduceIte, ih, List.mem_cons, forall_eq_or_imp, hp, true_and, List.map_cons,
          List.nodup_cons, List.mem_map, not_exists, not_and, not_or, not_false_eq_true]
        constructor
        · rintro ⟨h1, h2, h3⟩
          exact ⟨h1, ⟨fun t ht => (h3 t ht).1, h2⟩, fun t ht => (h3 t ht).2⟩
        · rintro ⟨h1, ⟨h2, h3⟩, h4⟩
          exact ⟨h1, h3, fun t ht => ⟨h2 t ht, h4 t ht⟩⟩

/-- A route passes if all its services do and no two have the same namespace and name. -/
theorem validate_eq_ok_iff {spec : RouteSpec} :
    spec.validate = .ok () ↔
      (∀ s ∈ spec.services, s.Passed) ∧ (spec.services.map fun s => (s.space, s.name)).Nodup := by
  have h := @flawFrom?_eq_none_iff 0 [] spec.services
  simp only [List.not_mem_nil, not_false_eq_true, implies_true, and_true] at h
  rw [← h, validate]
  split <;> simp_all

end RouteSpec

end MeshRollout
