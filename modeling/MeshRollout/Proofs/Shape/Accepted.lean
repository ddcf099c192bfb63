import MeshRollout.Route.Basic

/-!
What holds of everything that a reading accepts, put together from its parts. The numbers of a route
have 32 bits.
-/
set_option autoImplicit false

namespace MeshRollout

namespace Reading
variable {α : Type} {r : Reading α} {P : α → Prop}

def Ensures (r : Reading α) (P : α → Prop) : Prop :=
  ∀ v x, r v = .ok x → P x

theorem ensures_nat32 : nat32.Ensures (· < Nat.pow 2 32) := by
  intro v n h
  simp only [nat32, whole] at h
  split at h
  · rename_i i
    split at h
    · rename_i hbound
      cases h
      simp only [Bool.and_eq_true, decide_eq_true_eq] at hbound
      have hpow : Int.pow 2 32 = (Nat.pow 2 32 : Nat) := rfl
      rw [hpow] at hbound
      omega
    · cases h
  · cases h

theorem Ensures.nullable (h : r.Ensures P) : r.nullable.Ensures fun x => ∀ y ∈ x, P y := by
  intro v x hv
  unfold Reading.nullable at hv
  split at hv
  · cases hv
    simp
  · cases hr : r v with
    | error m =>
      rw [hr] at hv
      cases hv
    | ok y =>
      rw [hr] at hv
      cases hv
      simpa using h v y hr

theorem Ensures.list (h : r.Ensures P) : (Reading.list r).Ensures fun xs => ∀ x ∈ xs, P x := by
  have hitems (vs : List Value) : ∀ xs, items r vs = .ok xs → ∀ x ∈ xs, P x := by
    induction vs with
    | nil =>
      intro xs hxs
      cases hxs
      simp
    | cons v vs ih =>
      intro xs hxs
      rw [items] at hxs
      cases hv : r v with
      | error m =>
        rw [hv] at hxs
        cases hxs
      | ok x =>
        cases hvs : items r vs with
        | error m =>
          rw [hv, hvs] at hxs
          cases hxs
        | ok rest =>
          rw [hv, hvs] at hxs
          cases hxs
          exact List.forall_mem_cons.2 ⟨h v x hv, ih rest hvs⟩
  intro v xs hv
  cases v with
  | list vs => exact hitems vs xs hv
  | _ => cases hv

end Reading

namespace Fields
variable {α β : Type} {source : Nat → Option Value} {missing : Nat → Mismatch}

theorem build_map_eq_ok {g : α → β} {f : Fields α} {y : β} :
    (g <$> f).build source missing = .ok y ↔ ∃ x, f.build source missing = .ok x ∧ y = g x := by
  change (f.build source missing).map g = .ok y ↔ _
  cases f.build source missing <;> simp [Except.map, eq_comm]

theorem build_seq_eq_ok {f : Fields (α → β)} {x : Fields α} {z : β} :
    (f <*> x).build source missing = .ok z ↔
      ∃ g y, f.build source missing = .ok g ∧
        x.build (fun i => source (f.slots.length + i)) (fun i => missing (f.slots.length + i))
          = .ok y ∧ z = g y := by
  change (f.build source missing >>= fun g =>
    x.build (fun i => source (f.slots.length + i)) (fun i => missing (f.slots.length + i)) >>=
      fun y => pure (g y)) = .ok z ↔ _
  cases f.build source missing with
  | error => simp [bind, Except.bind]
  | ok g =>
    cases x.build (fun i => source (f.slots.length + i)) (fun i => missing (f.slots.length + i)) with
    | error => simp [bind, Except.bind]
    | ok y => simp [bind, Except.bind, pure, Except.pure, eq_comm]

theorem of_build_field {name : String} {aliases : List String} {r : Reading α} {absent : Option α}
    {P : α → Prop} (hr : r.Ensures P) (ha : ∀ x ∈ absent, P x) {x : α}
    (h : (field name aliases r absent).build source missing = .ok x) : P x := by
  simp only [field] at h
  split at h
  · exact hr _ x h
  · cases h
    exact ha x rfl
  · cases h

theorem of_build_optional {name : String} {r : Reading α} {P : α → Prop} (hr : r.Ensures P)
    {x : Option α} (h : (optional name r).build source missing = .ok x) : ∀ y ∈ x, P y :=
  of_build_field (P := fun x => ∀ y ∈ x, P y) hr.nullable (by simp) h

theorem exists_build_of_ofRecord {f : Fields α} {fs : List (String × Value)} {x : α}
    (h : f.ofRecord fs = .ok x) : ∃ source missing, f.build source missing = .ok x := by
  rw [ofRecord] at h
  cases hv : visit f.slots [] fs with
  | error m =>
    rw [hv] at h
    cases h
  | ok _ =>
    rw [hv] at h
    exact ⟨_, _, h⟩

theorem exists_build_of_ofList {title : String} {f : Fields α} {vs : List Value} {x : α}
    (h : f.ofList title vs = .ok x) : ∃ source missing, f.build source missing = .ok x := by
  simp only [ofList, bind, Except.bind] at h
  split at h
  · cases h
  · rename_i y hy
    split at h
    · cases h
    · cases h
      exact ⟨_, _, hy⟩

theorem exists_build_of_read {title : String} {f : Fields α} {v : Value} {x : α}
    (h : f.read title v = .ok x) : ∃ source missing, f.build source missing = .ok x := by
  cases v with
  | record fs => exact exists_build_of_ofRecord h
  | list vs => exact exists_build_of_ofList h
  | _ => cases h

end Fields

def OutlierDetection.Bounded (o : OutlierDetection) : Prop :=
  (∀ n ∈ o.consecutive5xxErrors, n < Nat.pow 2 32) ∧
    ∀ n ∈ o.consecutiveGatewayErrors, n < Nat.pow 2 32

theorem OutlierDetection.ensures_bounded : OutlierDetection.read.Ensures Bounded := by
  intro v o h
  obtain ⟨source, missing, h⟩ := Fields.exists_build_of_read h
  simp only [Fields.build_seq_eq_ok, Fields.build_map_eq_ok] at h
  obtain ⟨_, _, ⟨_, _, ⟨_, hserver, rfl⟩, hgateway, rfl⟩, -, rfl⟩ := h
  exact ⟨Fields.of_build_optional Reading.ensures_nat32 hserver,
    Fields.of_build_optional Reading.ensures_nat32 hgateway⟩

def Service.Bounded (s : Service) : Prop :=
  ∀ o ∈ s.outlierDetection, o.Bounded

theorem Service.ensures_bounded : Service.read.Ensures Bounded := by
  intro v s h
  obtain ⟨source, missing, h⟩ := Fields.exists_build_of_read h
  simp only [Fields.build_seq_eq_ok, Fields.build_map_eq_ok] at h
  obtain ⟨_, _, ⟨_, _, ⟨_, _, ⟨_, _, ⟨_, _, ⟨_, _, ⟨_, _, ⟨_, _, ⟨_, -, rfl⟩, -, rfl⟩, -, rfl⟩, -,
    rfl⟩, -, rfl⟩, -, rfl⟩, -, rfl⟩, houtlier, rfl⟩, -, rfl⟩ := h
  exact Fields.of_build_optional OutlierDetection.ensures_bounded houtlier

theorem Route.ensures_bounded : Route.read.Ensures fun r => ∀ s ∈ r.spec.services, s.Bounded := by
  have hspec : RouteSpec.read.Ensures fun x => ∀ s ∈ x.services, s.Bounded := by
    intro v x h
    obtain ⟨source, missing, h⟩ := Fields.exists_build_of_read h
    rw [Fields.build_map_eq_ok] at h
    obtain ⟨services, hservices, rfl⟩ := h
    exact Fields.of_build_field Service.ensures_bounded.list (by simp) hservices
  intro v r h
  obtain ⟨source, missing, h⟩ := Fields.exists_build_of_read h
  simp only [Fields.build_seq_eq_ok, Fields.build_map_eq_ok] at h
  obtain ⟨_, _, ⟨_, _, ⟨_, -, rfl⟩, hbuild, rfl⟩, -, rfl⟩ := h
  exact Fields.of_build_field hspec (by simp) hbuild

end MeshRollout
