import MeshRollout.Proofs.Rollout.DryRun
import MeshRollout.Proofs.Shape.Accepted
import MeshRollout.Proofs.Traffic.Legible

/-!
A preview reads back as the objects it shows, unless a name or a revision that is filled in stands
without quotation marks and reads as a number: one that is too large, or one with a sign behind the
mark of its base.
-/
set_option autoImplicit false

namespace MeshRollout
open Yaml

theorem IsDnsName.isPortable {s : String} (h : IsDnsName s) : IsPortable s :=
  h.plain.isPortable

namespace RouteSpec
variable {spec : RouteSpec} {o : Owner} {edgeSpace : String} (hv : spec.validate = .ok ())
include hv

theorem isDocument_planned (hb : ∀ s ∈ spec.services, s.Bounded) (ho : o.Portable)
    (he : IsPortable edgeSpace) :
    ∀ b ∈ spec.planned o none edgeSpace, IsDocument b.object.toValue := by
  intro b hmem
  obtain ⟨s, hs, hmem⟩ := List.mem_flatMap.1 hmem
  exact ((validate_eq_ok_iff.1 hv).1 s hs).isDocument_objects (hb s hs) ho he b hmem

theorem legible_planned_iff :
    (∀ b ∈ spec.planned o none edgeSpace, Legible b.object.toValue) ↔
      ∀ s ∈ spec.services, ∀ t ∈ s.filledTexts o edgeSpace, IsLegible t := by
  have hpassed := (validate_eq_ok_iff.1 hv).1
  simp only [planned, List.forall_mem_flatMap]
  exact forall₂_congr fun s hs => (hpassed s hs).legible_objects_iff

end RouteSpec

namespace Preview

def routeOf? (v : Value) : Option Route :=
  if (v.field "kind").bind Value.text? = some Route.kind then (Route.read v).toOption else none

def routes (text : String) : List Route :=
  ((Yaml.decode text).toOption.getD []).filterMap routeOf?

variable {edgeSpace text out : String} {os : List PlannedObject}

def planOf (edgeSpace : String) (r : Route) : List PlannedObject :=
  r.spec.planned (owner r) none edgeSpace

theorem Adds.eq_planOf {v : Value} (h : Adds edgeSpace v os) :
    os = (routeOf? v).toList.flatMap (planOf edgeSpace) ∧
      ∀ r ∈ routeOf? v, r.spec.validate = .ok () ∧ ∀ s ∈ r.spec.services, s.Bounded := by
  rw [Adds] at h
  rw [routeOf?]
  split
  · rename_i hkind
    rw [if_pos hkind] at h
    obtain ⟨r, hread, hobjects⟩ := h
    rw [routeObjects_eq] at hobjects
    cases hv : r.spec.validate with
    | error f => simp [hv, Except.map] at hobjects
    | ok _ =>
      rw [hv] at hobjects
      cases hobjects
      simpa [hread, Except.toOption, planOf, hv] using Route.ensures_bounded v r hread
  · rename_i hkind
    rw [if_neg hkind] at h
    simp [h]

theorem objects_eq_planned (h : objects edgeSpace text = .ok os) :
    os = (routes text).flatMap (planOf edgeSpace) ∧
      ∀ r ∈ routes text, r.spec.validate = .ok () ∧ ∀ s ∈ r.spec.services, s.Bounded := by
  cases hd : Yaml.decode text with
  | error f => simp [objects, hd, bind, Except.bind] at h
  | ok docs =>
    have hfrom : objectsFrom edgeSpace 0 docs = .ok os := by
      simpa [objects, hd, bind, Except.bind] using h
    obtain ⟨parts, hparts, rfl⟩ := objectsFrom_eq_ok_iff.1 hfrom
    have hroutes : routes text = docs.filterMap routeOf? := by simp [routes, hd, Except.toOption]
    rw [hroutes]
    clear h hd hfrom hroutes
    induction hparts with
    | nil => simp
    | @cons v os docs parts hfirst _ ih =>
      obtain ⟨hplan, hroute⟩ := hfirst.eq_planOf
      have hcons : (v :: docs).filterMap routeOf?
          = (routeOf? v).toList ++ docs.filterMap routeOf? := by
        cases hv : routeOf? v <;> simp [hv]
      rw [hcons, List.flatten_cons, List.flatMap_append, ← hplan, ← ih.1]
      exact ⟨rfl, List.forall_mem_append.2
        ⟨fun r hr => hroute r (Option.mem_toList.1 hr), ih.2⟩⟩

structure IsNamed (r : Route) : Prop where
  name : IsDnsName (owner r).name
  space : IsDnsName (owner r).space
  uid : IsPortable (owner r).uid

def IsFilledLegibly (edgeSpace : String) (r : Route) : Prop :=
  ∀ s ∈ r.spec.services, ∀ t ∈ s.filledTexts (owner r) edgeSpace, IsLegible t

instance (edgeSpace : String) (r : Route) : Decidable (IsFilledLegibly edgeSpace r) :=
  List.decidableBAll _ r.spec.services

/-- The documents of a preview are its objects again exactly if what is filled into them stands for
itself. -/
theorem decode_objects_iff (h : objects edgeSpace text = .ok os) (he : IsDnsName edgeSpace)
    (hr : ∀ r ∈ routes text, IsNamed r) :
    Yaml.decode (Text.joinWith "---\n" (os.map fun b => Yaml.text b.object.toValue))
        = .ok (os.map fun b => b.object.toValue) ↔
      ∀ r ∈ routes text, IsFilledLegibly edgeSpace r := by
  obtain ⟨rfl, hroutes⟩ := objects_eq_planned h
  have hdocuments : ∀ b ∈ (routes text).flatMap (planOf edgeSpace),
      IsDocument b.object.toValue := by
    intro b hb
    obtain ⟨r, hmem, hb⟩ := List.mem_flatMap.1 hb
    have hnamed := hr r hmem
    exact RouteSpec.isDocument_planned (hroutes r hmem).1 (hroutes r hmem).2
      ⟨hnamed.name.isPortable, hnamed.space.isPortable, hnamed.uid⟩ he.isPortable b hb
  have hdecode := decode_texts_iff (List.forall_mem_map.2 hdocuments)
  rw [List.map_map] at hdecode
  refine hdecode.trans ?_
  simp only [List.forall_mem_map, List.forall_mem_flatMap]
  exact forall₂_congr fun r hmem => RouteSpec.legible_planned_iff (hroutes r hmem).1

theorem objects_of_manifest (h : manifest edgeSpace text = .ok out) :
    ∃ os, objects edgeSpace text = .ok os ∧
      out = Text.joinWith "---\n" (os.map fun b => Yaml.text b.object.toValue) := by
  rw [manifest] at h
  cases ho : objects edgeSpace text with
  | error f => simp [ho, Except.map] at h
  | ok os =>
    rw [ho] at h
    cases h
    exact ⟨os, rfl, rfl⟩

/-- What a preview shows reads back: for every manifest that is accepted and whose routes have names
of the domain name system, the text is decoded to the objects that its routes plan, one after
another, exactly if every name, namespace, uid and revision in them that is written without
quotation marks is read as a text. -/
theorem manifest_reads_back (h : manifest edgeSpace text = .ok out) (he : IsDnsName edgeSpace)
    (hr : ∀ r ∈ routes text, IsNamed r) :
    Yaml.decode out
        = .ok (((routes text).flatMap (planOf edgeSpace)).map fun b => b.object.toValue) ↔
      ∀ r ∈ routes text, IsFilledLegibly edgeSpace r := by
  obtain ⟨os, ho, rfl⟩ := objects_of_manifest h
  rw [← (objects_eq_planned ho).1]
  exact decode_objects_iff ho he hr

def rolloutManifest (revision : String) : String :=
  Text.joinWith "\n" [
    "kind: IstioRoute",
    "metadata:",
    "  name: rollout",
    "  namespace: shop",
    "spec:",
    "  services:",
    "  - name: checkout",
    "    namespace: shop",
    "    commitHashes: ['" ++ revision ++ "']"]

def isPrintable (edgeSpace text : String) : Bool :=
  (objects edgeSpace text).toOption.isSome && (routes text).all fun r =>
    decide (IsDnsName (owner r).name) && decide (IsDnsName (owner r).space)
      && decide (Unbroken (owner r).uid)

theorem exists_of_isPrintable (h : isPrintable edgeSpace text = true) :
    (∃ os, objects edgeSpace text = .ok os) ∧ ∀ r ∈ routes text, IsNamed r := by
  simp only [isPrintable, Bool.and_eq_true, List.all_eq_true, decide_eq_true_eq] at h
  refine ⟨?_, fun r hr => ⟨(h.2 r hr).1.1, (h.2 r hr).1.2, (h.2 r hr).2.isPortable⟩⟩
  cases ho : objects edgeSpace text with
  | error f => simp [ho, Except.toOption] at h
  | ok os => exact ⟨os, rfl⟩

/-- A revision that looks like a number is written in quotes. -/
theorem rolloutManifest_reads_back :
    ∃ out, manifest "istio-system" (rolloutManifest "1234e56") = .ok out ∧
      Yaml.decode out
        = .ok (((routes (rolloutManifest "1234e56")).flatMap (planOf "istio-system")).map
            fun b => b.object.toValue) := by
  have hchecked : isPrintable "istio-system" (rolloutManifest "1234e56") = true ∧
      ∀ r ∈ routes (rolloutManifest "1234e56"), IsFilledLegibly "istio-system" r := by
    decide +kernel
  obtain ⟨⟨os, ho⟩, hnamed⟩ := exists_of_isPrintable hchecked.1
  have hout : manifest "istio-system" (rolloutManifest "1234e56")
      = .ok (Text.joinWith "---\n" (os.map fun b => Yaml.text b.object.toValue)) := by
    rw [manifest, ho]
    rfl
  exact ⟨_, hout, (manifest_reads_back hout (by decide) hnamed).2 hchecked.2⟩

/-- A revision that is larger than every number is not, and comes back as nothing. -/
theorem overflowing_revision_is_lost :
    (Node.ofPlain "4e08721").toValue = .ok .null ∧
      ∃ out os, manifest "istio-system" (rolloutManifest "4e08721") = .ok out ∧
        objects "istio-system" (rolloutManifest "4e08721") = .ok os ∧
        (∀ r ∈ routes (rolloutManifest "4e08721"), IsNamed r) ∧
        Yaml.decode out ≠ .ok (os.map fun b => b.object.toValue) := by
  refine ⟨by rfl, ?_⟩
  have hchecked : isPrintable "istio-system" (rolloutManifest "4e08721") = true ∧
      ¬ ∀ r ∈ routes (rolloutManifest "4e08721"), IsFilledLegibly "istio-system" r := by
    decide +kernel
  obtain ⟨⟨os, ho⟩, hnamed⟩ := exists_of_isPrintable hchecked.1
  refine ⟨_, os, by rw [manifest, ho]; rfl, ho, hnamed, fun hread => ?_⟩
  exact hchecked.2 ((decode_objects_iff ho (by decide) hnamed).1 hread)

end Preview

end MeshRollout
