import Mathlib.Logic.Function.Basic
import MeshRollout.Proofs.Desired.Agreement
import MeshRollout.Proofs.Mesh.Plain
import MeshRollout.Proofs.Rollout.Produced

/-!
Different specifications are written differently, although empty parts are left out. So an object
that is left alone because it looks like the wanted one is the wanted one.
-/
set_option autoImplicit false

namespace MeshRollout

namespace Value

theorem filterMap_fields_inj {fs gs : List (String × Option Value)}
    (hk : fs.map Prod.fst = gs.map Prod.fst) (hd : (fs.map Prod.fst).Nodup)
    (h : fs.filterMap (fun p => p.2.map fun v => (p.1, v))
      = gs.filterMap fun p => p.2.map fun v => (p.1, v)) : fs = gs := by
  have key_mem {l : List (String × Option Value)} {k : String} {v : Value}
      (hm : (k, v) ∈ l.filterMap fun p => p.2.map fun v => (p.1, v)) : k ∈ l.map Prod.fst :=
    (sublist_keys_object l).mem (List.mem_map_of_mem hm)
  induction fs generalizing gs with
  | nil => exact (List.map_eq_nil_iff.1 hk.symm).symm
  | cons f fs ih =>
    obtain ⟨k, v⟩ := f
    cases gs with
    | nil => cases hk
    | cons g gs =>
      obtain ⟨k', v'⟩ := g
      obtain ⟨hkey, hk'⟩ := List.cons.inj hk
      obtain rfl : k = k' := hkey
      obtain ⟨hnot, hd'⟩ := List.nodup_cons.1 hd
      -- a field that is written on one side only would have to be another field of the other side
      cases v with
      | none =>
        cases v' with
        | none => rw [ih hk' hd' h]
        | some w' =>
          have hm : (k, w') ∈ fs.filterMap fun p => p.2.map fun v => (p.1, v) := by
            have h : fs.filterMap _ = (k, w') :: _ := h
            rw [h]
            exact List.mem_cons_self
          exact absurd (key_mem hm) hnot
      | some w =>
        cases v' with
        | none =>
          have hm : (k, w) ∈ gs.filterMap fun p => p.2.map fun v => (p.1, v) := by
            have h : (k, w) :: _ = gs.filterMap _ := h
            rw [← h]
            exact List.mem_cons_self
          exact absurd (hk' ▸ key_mem hm) hnot
        | some w' =>
          obtain ⟨hw, hrest⟩ := List.cons.inj h
          rw [(Prod.mk.inj hw).2, ih hk' hd' hrest]

/-- Of two records with the same fields in view, the ones that are left out can be told. -/
theorem object_inj {fs gs : List (String × Option Value)} (hk : fs.map Prod.fst = gs.map Prod.fst)
    (hd : (fs.map Prod.fst).Nodup) : object fs = object gs ↔ fs = gs :=
  ⟨fun h => filterMap_fields_inj hk hd (Value.record.inj h), congrArg object⟩

theorem str_inj {s t : String} : str s = str t ↔ s = t := by
  rw [Value.str.injEq]

@[simp] theorem nat_inj {m n : Nat} : nat m = nat n ↔ m = n := by
  rw [nat, nat, Value.int.injEq, Int.ofNat_inj]

@[simp] theorem strings_inj {xs ys : List String} : strings xs = strings ys ↔ xs = ys := by
  simp only [strings, Value.list.injEq]
  exact List.map_inj_right fun _ _ => Value.str.inj

theorem ofTexts_inj {d e : Dict String} : ofTexts d = ofTexts e ↔ d = e := by
  simp only [ofTexts, Value.record.injEq]
  refine List.map_inj_right fun p q h => ?_
  obtain ⟨hk, hv⟩ := Prod.mk.inj h
  exact Prod.ext hk (Value.str.inj hv)

theorem list_map_inj {α : Type} {write : α → Value} (hw : ∀ x y, write x = write y ↔ x = y)
    {xs ys : List α} : Value.list (xs.map write) = .list (ys.map write) ↔ xs = ys := by
  rw [Value.list.injEq]
  exact List.map_inj_right fun x y => (hw x y).1

theorem map_inj {α : Type} {write : α → Value} (hw : ∀ x y, write x = write y ↔ x = y)
    {x y : Option α} : x.map write = y.map write ↔ x = y :=
  Option.map_inj_right fun a b => (hw a b).1

end Value

/-- What is left out is empty, so it is told from what is written. -/
theorem MeshMeta.unlessEmpty_inj {α : Type} {write : List α → Value}
    (hw : ∀ l m, write l = write m ↔ l = m) {l m : List α} :
    unlessEmpty write l = unlessEmpty write m ↔ l = m := by
  cases l <;> cases m <;> simp [unlessEmpty, hw]

section VirtualServices

theorem StringMatch.toValue_inj (a b : StringMatch) : a.toValue = b.toValue ↔ a = b := by
  cases a <;> cases b <;> simp [toValue]

theorem HeaderMatch.toValue_inj (a b : HeaderMatch) : a.toValue = b.toValue ↔ a = b := by
  have hwrite (d e : Dict StringMatch) :
      Value.record (d.map fun p => (p.1, p.2.toValue))
        = .record (e.map fun p => (p.1, p.2.toValue)) ↔ d = e := by
    rw [Value.record.injEq]
    refine List.map_inj_right fun p q h => ?_
    obtain ⟨hk, hv⟩ := Prod.mk.inj h
    exact Prod.ext hk ((StringMatch.toValue_inj _ _).1 hv)
  refine Iff.trans (Value.object_inj (by rfl) (by simp)) ?_
  cases a
  cases b
  simp [MeshMeta.unlessEmpty_inj hwrite]

theorem Destination.toValue_inj (a b : Destination) : a.toValue = b.toValue ↔ a = b := by
  refine Iff.trans (Value.object_inj (by rfl) (by simp)) ?_
  cases a
  cases b
  simp [Value.map_inj]

theorem WeightedDestination.toValue_inj (a b : WeightedDestination) :
    a.toValue = b.toValue ↔ a = b := by
  refine Iff.trans (Value.object_inj (by rfl) (by simp)) ?_
  cases a
  cases b
  simp [Value.map_inj, Destination.toValue_inj]

theorem HttpRule.toValue_inj (a b : HttpRule) : a.toValue = b.toValue ↔ a = b := by
  have hname (s t : String) :
      (if s.isEmpty then none else some (Value.str s)) = (if t.isEmpty then none else some (.str t))
        ↔ s = t := by
    by_cases hs : s = ""
    · by_cases ht : t = ""
      · simp [hs, ht]
      · simp [hs, ht, Ne.symm ht]
    · by_cases ht : t = "" <;> simp [hs, ht]
  have hconditions (l m : List HeaderMatch) :
      Value.list (l.map HeaderMatch.toValue) = .list (m.map HeaderMatch.toValue) ↔ l = m :=
    Value.list_map_inj HeaderMatch.toValue_inj
  refine Iff.trans (Value.object_inj (by rfl) (by simp)) ?_
  cases a
  cases b
  simp only [List.cons.injEq, Prod.mk.injEq, true_and, and_true, Option.some.injEq, hname,
    MeshMeta.unlessEmpty_inj hconditions, Value.list_map_inj WeightedDestination.toValue_inj,
    mk.injEq]
  exact and_left_comm

theorem VirtualServiceSpec.toValue_inj (a b : VirtualServiceSpec) :
    a.toValue = b.toValue ↔ a = b := by
  refine Iff.trans (Value.object_inj (by rfl) (by simp)) ?_
  cases a
  cases b
  simp only [List.cons.injEq, Prod.mk.injEq, true_and, and_true, Option.some.injEq,
    MeshMeta.unlessEmpty_inj fun _ _ => Value.strings_inj, Value.strings_inj,
    Value.list_map_inj HttpRule.toValue_inj, mk.injEq]
  exact and_left_comm

end VirtualServices

section Gateways

theorem GatewayServer.toValue_inj (a b : GatewayServer) : a.toValue = b.toValue ↔ a = b := by
  obtain ⟨⟨number, name, protocol⟩, hosts⟩ := a
  obtain ⟨⟨number', name', protocol'⟩, hosts'⟩ := b
  simp only [toValue, GatewayPort.toValue, Value.record.injEq, List.cons.injEq, Prod.mk.injEq,
    true_and, and_true, Value.str.injEq, Value.nat_inj, Value.strings_inj, mk.injEq,
    GatewayPort.mk.injEq]
  tauto

theorem GatewaySpec.toValue_inj (a b : GatewaySpec) : a.toValue = b.toValue ↔ a = b := by
  cases a
  cases b
  simp only [toValue, Value.record.injEq, List.cons.injEq, Prod.mk.injEq, true_and, and_true,
    Value.ofTexts_inj, Value.list_map_inj GatewayServer.toValue_inj, mk.injEq]

end Gateways

section DestinationRules

theorem LoadBalancer.toValue_inj (a b : LoadBalancer) : a.toValue = b.toValue ↔ a = b := by
  obtain ⟨⟨header⟩⟩ := a
  obtain ⟨⟨header'⟩⟩ := b
  simp [toValue, ConsistentHash.toValue]

theorem EjectionPolicy.toValue_inj (a b : EjectionPolicy) : a.toValue = b.toValue ↔ a = b := by
  refine Iff.trans (Value.object_inj (by rfl) (by simp)) ?_
  cases a
  cases b
  simp only [List.cons.injEq, Prod.mk.injEq, true_and, and_true, Option.some.injEq,
    Value.str.injEq, Value.nat_inj, mk.injEq, Value.map_inj fun _ _ => Value.nat_inj,
    Value.map_inj fun _ _ => Value.str_inj]
  tauto

theorem TrafficPolicy.toValue_inj (a b : TrafficPolicy) : a.toValue = b.toValue ↔ a = b := by
  refine Iff.trans (Value.object_inj (by rfl) (by simp)) ?_
  cases a
  cases b
  simp [Value.map_inj LoadBalancer.toValue_inj, Value.map_inj EjectionPolicy.toValue_inj]

theorem Subset.toValue_inj (a b : Subset) : a.toValue = b.toValue ↔ a = b := by
  cases a
  cases b
  simp [toValue, Value.ofTexts_inj, and_comm]

theorem DestinationRuleSpec.toValue_inj (a b : DestinationRuleSpec) :
    a.toValue = b.toValue ↔ a = b := by
  cases a
  cases b
  simp only [toValue, Value.record.injEq, List.cons.injEq, Prod.mk.injEq, true_and, and_true,
    Value.str.injEq, TrafficPolicy.toValue_inj, Value.list_map_inj Subset.toValue_inj, mk.injEq]
  exact and_congr_right fun _ => and_comm

end DestinationRules

section EnvoyFilters

theorem LuaFilter.toValue_inj (a b : LuaFilter) : a.toValue = b.toValue ↔ a = b := by
  obtain ⟨name, ⟨typeUrl, code⟩⟩ := a
  obtain ⟨name', ⟨typeUrl', code'⟩⟩ := b
  simp [toValue, LuaConfig.toValue]

theorem FilterPlace.listener_inj (a b : FilterPlace) : a.listener = b.listener ↔ a = b := by
  have hsub (s t : String) :
      Value.record [("name", .str s)] = .record [("name", .str t)] ↔ s = t := by simp
  have hplace : a.toValue = b.toValue ↔ a = b := by
    refine Iff.trans (Value.object_inj (by rfl) (by simp)) ?_
    cases a
    cases b
    simp [Value.map_inj hsub]
  simpa [listener] using hplace

theorem ConfigPatch.toValue_inj (a b : ConfigPatch) : a.toValue = b.toValue ↔ a = b := by
  obtain ⟨applyTo, ⟨context, filter⟩, ⟨operation, value⟩⟩ := a
  obtain ⟨applyTo', ⟨context', filter'⟩, ⟨operation', value'⟩⟩ := b
  simp [toValue, PatchPlace.toValue, Patch.toValue, FilterPlace.listener_inj, LuaFilter.toValue_inj]

theorem EnvoyFilterSpec.toValue_inj (a b : EnvoyFilterSpec) : a.toValue = b.toValue ↔ a = b := by
  cases a
  cases b
  simp only [toValue, Value.record.injEq, List.cons.injEq, Prod.mk.injEq, true_and, and_true,
    Value.ofTexts_inj, Value.list_map_inj ConfigPatch.toValue_inj, mk.injEq]
  exact and_comm

end EnvoyFilters

namespace MeshObject
variable {σ : Type} (write : σ → Value) (x : MeshObject σ)

theorem annotations_toObject : (x.toObject write).annotations = x.metadata.annotations := by
  simp only [Object.annotations, ObjectMeta.annotationDict, toObject, MeshMeta.toObjectMeta,
    MeshMeta.nonempty]
  cases x.metadata.annotations <;> rfl

theorem spec_toObject : (x.toObject write).spec = some (write x.spec) := rfl

end MeshObject

/-- Objects of a kind can be written, different specifications differently, and one that does not
look outdated beside another one says the same. -/
structure ShowsChanges {σ : Type} (write : σ → Value) : Prop where
  injective : Function.Injective write
  unchanged : ∀ x y : MeshObject σ, ∃ live wanted,
    Object.ofValue (x.toValue write) = .ok live ∧ Object.ofValue (y.toValue write) = .ok wanted ∧
      (live.isOutdated wanted = false ↔
        x.metadata.labels = y.metadata.labels ∧ x.metadata.annotations = y.metadata.annotations ∧
          x.spec = y.spec)

theorem showsChanges_of_plain {σ : Type} {write : σ → Value}
    (hw : ∀ s t, write s = write t ↔ s = t) (hp : ∀ s, (write s).Plain) : ShowsChanges write where
  injective s t := (hw s t).1
  unchanged x y := by
    refine ⟨_, _, x.ofValue_toValue write, y.ofValue_toValue write, ?_⟩
    have hspec : Value.sameOption (x.toObject write).spec (y.toObject write).spec = true ↔
        x.spec = y.spec := by
      rw [x.spec_toObject, y.spec_toObject, Value.sameOption]
      refine ⟨fun h => (hw _ _).1 (Value.eq_of_same _ _ (hp _) h), fun h => ?_⟩
      rw [h]
      exact (Value.same_iff _ _).2 rfl
    rw [Object.isOutdated_eq_false_iff, ← x.labels_toObject write, ← y.labels_toObject write,
      ← x.annotations_toObject write, ← y.annotations_toObject write, ← hspec]
    exact ⟨fun h => ⟨h.labels, h.annotations, h.spec⟩, fun h => ⟨h.1, h.2.1, h.2.2⟩⟩

/-- An object of the mesh that is left alone differs in nothing that matters. -/
theorem mesh_shows_changes :
    ShowsChanges VirtualServiceSpec.toValue ∧ ShowsChanges GatewaySpec.toValue ∧
      ShowsChanges DestinationRuleSpec.toValue ∧ ShowsChanges EnvoyFilterSpec.toValue :=
  ⟨showsChanges_of_plain VirtualServiceSpec.toValue_inj VirtualServiceSpec.plain_toValue,
    showsChanges_of_plain GatewaySpec.toValue_inj GatewaySpec.plain_toValue,
    showsChanges_of_plain DestinationRuleSpec.toValue_inj DestinationRuleSpec.plain_toValue,
    showsChanges_of_plain EnvoyFilterSpec.toValue_inj EnvoyFilterSpec.plain_toValue⟩

end MeshRollout
