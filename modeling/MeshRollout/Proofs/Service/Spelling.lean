import MeshRollout.Proofs.Json.Readback
import MeshRollout.Proofs.Shape.Spelling
import MeshRollout.Service.Basic

/-!
A route that is written as JSON text and read again is the same route, and so is one whose fields are
given under their other names, in another order or among entries that mean nothing to it.
-/
set_option autoImplicit false

namespace MeshRollout

namespace Reading

theorem nat32_nat {n : Nat} (h : n < Nat.pow 2 32) : nat32 (.nat n) = .ok n := by
  have hpow : Int.pow 2 32 = (Nat.pow 2 32 : Nat) := rfl
  have hbounds : (decide ((0 : Int) ≤ n) && decide ((n : Int) ≤ Int.pow 2 32 - 1)) = true := by
    rw [hpow, Bool.and_eq_true, decide_eq_true_eq, decide_eq_true_eq]
    omega
  simp only [nat32, whole, Value.nat, hbounds, if_true]
  rfl

theorem list_strings (xs : List String) : list text (.strings xs) = .ok xs :=
  list_map fun x _ => text_str x

theorem nullable_nat32 {n : Nat} (h : n < Nat.pow 2 32) :
    nat32.nullable (.nat n) = .ok (some n) := by
  change (nat32 (.nat n)).map some = _
  rw [nat32_nat h]
  rfl

end Reading

theorem Strategy.read_text (t : Strategy) : Strategy.read (.str t.text) = .ok t := by
  cases t <;> rfl

theorem Fields.Yields.unlessEmpty {α : Type} {name : String} {r : Reading α} {write : α → Value}
    {l : List α} (h : ∀ x ∈ l, r (write x) = .ok x) :
    (defaulted name (.list r) []).Yields [Service.unlessEmpty write l] l := by
  cases l with
  | nil => exact .absent
  | cons x l => exact .given (Reading.list_map h)

namespace Dependency

def forms : List FieldForm :=
  [.plain ["name"], .plain ["namespace"], .plain ["commitHashes", "revisions"]]

theorem read_toValue (d : Dependency) : read d.toValue = .ok d := by
  refine Fields.ofRecord_of_yields (by decide)
    (.seq (.seq (.map (.given (Reading.text_str d.name)) Dependency.mk)
      (.given (Reading.text_str d.space))) (.given (Reading.list_strings d.revisions))) ?_
  rfl

theorem exact_toValue (depth : Nat) (d : Dependency) : Json.Exact (depth + 2) d.toValue := by
  refine Json.exact_fields
    (show List.Pairwise (· < ·) ["commitHashes", "name", "namespace"] by decide) ?_
  simpa using ⟨Json.exact_strings d.revisions, .str _ d.name, .str _ d.space⟩

theorem read_respects : read.Respects (Respelled forms) :=
  Fields.read_respects (.seq (.seq (.map .plain _) .plain) .plain) (by decide) _

end Dependency

namespace OutlierDetection

def forms : List FieldForm :=
  [.plain ["consecutive5xxErrors"], .plain ["consecutiveGatewayErrors"], .plain ["interval"]]

theorem read_toValue {o : OutlierDetection} (h : o.Bounded) : read o.toValue = .ok o := by
  refine Fields.ofRecord_of_yields (by decide)
    (.seq (.seq (.map (.optional fun n hn => Reading.nullable_nat32 (h.1 n hn)) OutlierDetection.mk)
      (.optional fun n hn => Reading.nullable_nat32 (h.2 n hn)))
      (.optional fun s _ => Reading.nullable_str s)) ?_
  change [valuesUnder ["consecutive5xxErrors"] _, valuesUnder ["consecutiveGatewayErrors"] _,
    valuesUnder ["interval"] _] = _
  simp [valuesUnder_written_cons]

theorem exact_toValue (depth : Nat) {o : OutlierDetection} (h : o.Bounded) :
    Json.Exact (depth + 1) o.toValue := by
  refine Json.exact_object (show List.Pairwise (· < ·)
    ["consecutive5xxErrors", "consecutiveGatewayErrors", "interval"] by decide) ?_
  simpa using ⟨fun n hn => Json.exact_nat32 (h.1 n hn), fun n hn => Json.exact_nat32 (h.2 n hn),
    fun s _ => .str _ s⟩

theorem nullable_read_toValue {o : OutlierDetection} (h : o.Bounded) :
    read.nullable o.toValue = .ok (some o) := by
  change (read o.toValue).map some = _
  rw [read_toValue h]
  rfl

theorem read_respects : read.Respects (Respelled forms) :=
  Fields.read_respects (.seq (.seq (.map .plain _) .plain) .plain) (by decide) _

end OutlierDetection

namespace DarkRelease

def forms : List FieldForm :=
  [.plain ["commitHash", "revision"], .plain ["ips"]]

theorem read_toValue (r : DarkRelease) : read r.toValue = .ok r := by
  refine Fields.ofRecord_of_yields (by decide)
    (.seq (.map (.given (Reading.text_str r.revision)) DarkRelease.mk)
      (.given (Reading.list_strings r.ips))) ?_
  rfl

theorem exact_toValue (depth : Nat) (r : DarkRelease) : Json.Exact (depth + 2) r.toValue := by
  refine Json.exact_fields (show List.Pairwise (· < ·) ["commitHash", "ips"] by decide) ?_
  simpa using ⟨.str _ r.revision, Json.exact_strings r.ips⟩

theorem read_respects : read.Respects (Respelled forms) :=
  Fields.read_respects (.seq (.map .plain _) .plain) (by decide) _

end DarkRelease

namespace Service

def forms : List FieldForm := [
  .plain ["name"],
  .plain ["namespace"],
  .plain ["type"],
  .plain ["commitHashes", "revisions"],
  .plain ["ratio"],
  .items "dependencies" Dependency.forms,
  .plain ["sessionDuration"],
  .nested "outlierDetection" OutlierDetection.forms,
  .items "darknessReleases" DarkRelease.forms]

structure InRange (s : Service) : Prop where
  ratio : ∀ n ∈ s.ratio, n < Nat.pow 2 32
  sessionSeconds : ∀ n ∈ s.sessionSeconds, n < Nat.pow 2 32
  outlierDetection : s.Bounded

theorem read_toValue {s : Service} (h : s.InRange) : read s.toValue = .ok s := by
  refine Fields.ofRecord_of_yields (by decide)
    (.seq (.seq (.seq (.seq (.seq (.seq (.seq (.seq (.map
      (.given (Reading.text_str s.name)) Service.mk)
      (.given (Reading.text_str s.space)))
      (.given (Strategy.read_text s.type)))
      (.given (Reading.list_strings s.revisions)))
      (.optional fun n hn => Reading.nullable_nat32 (h.ratio n hn)))
      (.unlessEmpty fun d _ => d.read_toValue))
      (.optional fun n hn => Reading.nullable_nat32 (h.sessionSeconds n hn)))
      (.optional fun o ho => o.nullable_read_toValue (h.outlierDetection o ho)))
      (.unlessEmpty fun r _ => r.read_toValue)) ?_
  change [valuesUnder ["name"] _, valuesUnder ["namespace"] _, valuesUnder ["type"] _,
    valuesUnder ["commitHashes", "revisions"] _, valuesUnder ["ratio"] _,
    valuesUnder ["dependencies"] _, valuesUnder ["sessionDuration"] _,
    valuesUnder ["outlierDetection"] _, valuesUnder ["darknessReleases"] _] = _
  simp [valuesUnder_written_cons, -List.filterMap_cons_some]

theorem exact_unlessEmpty {α : Type} {depth : Nat} {write : α → Value} {l : List α}
    (h : ∀ x ∈ l, Json.Exact depth (write x)) :
    ∀ v ∈ unlessEmpty write l, Json.Exact (depth + 1) v := by
  intro v hv
  rw [unlessEmpty] at hv
  split at hv
  · cases hv
  · cases hv
    exact Json.exact_list_map h

theorem exact_toValue (depth : Nat) {s : Service} (h : s.InRange) :
    Json.Exact (depth + 4) s.toValue := by
  refine Json.exact_object (show List.Pairwise (· < ·) ["commitHashes", "darknessReleases",
    "dependencies", "name", "namespace", "outlierDetection", "ratio", "sessionDuration", "type"]
    by decide) ?_
  have hdark := exact_unlessEmpty fun r (_ : r ∈ s.darkReleases) => r.exact_toValue depth
  have hdependencies := exact_unlessEmpty fun d (_ : d ∈ s.dependencies) => d.exact_toValue depth
  simpa using ⟨Json.exact_strings s.revisions, hdark, hdependencies, .str _ s.name, .str _ s.space,
    fun o ho => o.exact_toValue _ (h.outlierDetection o ho),
    fun n hn => Json.exact_nat32 (h.ratio n hn),
    fun n hn => Json.exact_nat32 (h.sessionSeconds n hn), .str _ s.type.text⟩

theorem read_respects : read.Respects (Respelled forms) :=
  Fields.read_respects (.seq (.seq (.seq (.seq (.seq (.seq (.seq (.seq (.map .plain _) .plain)
    .plain) .plain) .plain) (.items Dependency.read_respects)) .plain)
    (.nested OutlierDetection.read_respects)) (.items DarkRelease.read_respects)) (by decide) _

end Service

namespace RouteSpec

def forms : List FieldForm :=
  [.items "services" Service.forms]

def InRange (spec : RouteSpec) : Prop :=
  ∀ s ∈ spec.services, s.InRange

theorem read_toValue {spec : RouteSpec} (h : spec.InRange) : read spec.toValue = .ok spec := by
  refine Fields.ofRecord_of_yields (by decide)
    (.map (.given (Reading.list_map fun s hs => Service.read_toValue (h s hs)))
      RouteSpec.mk) ?_
  rfl

theorem exact_toValue {spec : RouteSpec} (h : spec.InRange) :
    Json.Exact Json.maxDepth spec.toValue := by
  change Json.Exact (126 + 1) spec.toValue
  refine Json.exact_fields (show List.Pairwise (· < ·) ["services"] by decide) ?_
  simpa using Json.exact_list_map fun s hs => s.exact_toValue 121 (h s hs)

theorem read_respects : read.Respects (Respelled forms) :=
  Fields.read_respects (.map (.items Service.read_respects) _) (by decide) _

/-- A route comes back from the JSON text that it is written as. Whatever is read as a route is read
as the same route in any other spelling. -/
theorem read_of_any_spelling :
    (∀ spec : RouteSpec, spec.InRange →
      Json.read? (Json.text spec.toValue) = some spec.toValue ∧ read spec.toValue = .ok spec) ∧
      ∀ (v v' : Value) (spec : RouteSpec),
        Respelled forms v v' → read v = .ok spec → read v' = .ok spec :=
  ⟨fun _ h => ⟨Json.read?_text (exact_toValue h), read_toValue h⟩, read_respects⟩

def sampleRoute : RouteSpec where
  services := [{
    name := "web"
    space := "shop"
    type := .canary
    revisions := ["v1", "v2"]
    ratio := some 4294967295
    dependencies := [⟨"db", "data", []⟩]
    darkReleases := [⟨"v3", ["10.0.0.1"]⟩] }]

/-- The same route by hand, with the other names of its fields and with remarks. -/
def sampleRouteByHand : Value :=
  .record [
    ("remark", .null),
    ("services", .list [.record [
      ("name", .str "web"),
      ("namespace", .str "shop"),
      ("type", .str "Canary"),
      ("revisions", .strings ["v1", "v2"]),
      ("ratio", .nat 4294967295),
      ("commitHash", .str "v9"),
      ("dependencies", .list [.record [
        ("name", .str "db"), ("revisions", .strings []), ("namespace", .str "data")]]),
      ("darknessReleases", .list [.record [
        ("revision", .str "v3"), ("ips", .strings ["10.0.0.1"]), ("until", .int 7)]])]])]

theorem sampleRoute_read_of_any_spelling :
    sampleRoute.InRange ∧ Json.read? (Json.text sampleRoute.toValue) = some sampleRoute.toValue ∧
      Respelled forms sampleRoute.toValue sampleRouteByHand ∧
      read sampleRouteByHand = .ok sampleRoute := by
  have hrange : sampleRoute.InRange := by
    refine List.forall_mem_singleton.2 ⟨?_, ?_, ?_⟩
    · rintro n ⟨⟩
      decide
    · rintro n ⟨⟩
    · rintro o ⟨⟩
  have hdependency : Respelled Dependency.forms (Dependency.toValue ⟨"db", "data", []⟩)
      (.record [("name", .str "db"), ("revisions", .strings []), ("namespace", .str "data")]) := by
    refine .record ?_
    simp [Dependency.forms, FieldForm.plain, valuesUnder]
  have hdark : Respelled DarkRelease.forms (DarkRelease.toValue ⟨"v3", ["10.0.0.1"]⟩)
      (.record [("revision", .str "v3"), ("ips", .strings ["10.0.0.1"]), ("until", .int 7)]) := by
    refine .record ?_
    simp [DarkRelease.forms, FieldForm.plain, valuesUnder]
  have hrespelled : Respelled forms sampleRoute.toValue sampleRouteByHand := by
    refine .record (List.forall_mem_singleton.2 (.cons (.list (.cons (.record ?_) .nil)) .nil))
    have hdependencies := EachRespelled.list (.cons hdependency .nil)
    have hreleases := EachRespelled.list (.cons hdark .nil)
    simpa [Service.forms, FieldForm.plain, FieldForm.items, FieldForm.nested, valuesUnder,
      Service.unlessEmpty] using ⟨rfl, hdependencies, hreleases⟩
  obtain ⟨htext, hread⟩ := read_of_any_spelling.1 sampleRoute hrange
  exact ⟨hrange, htext, hrespelled, read_of_any_spelling.2 _ _ _ hrespelled hread⟩

end RouteSpec

end MeshRollout
