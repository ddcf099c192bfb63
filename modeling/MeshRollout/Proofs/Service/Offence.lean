import Mathlib.Data.List.Nodup
import MeshRollout.Proofs.Service.Valid

/-!
What a route is refused for. The services are checked in their order, and the failure is the one of
the first service that is at fault, at its position in the list.
-/
set_option autoImplicit false

namespace MeshRollout

/-- What is wrong with a service that comes after others. If it fails its own checks, the part that
is at fault is told under the position of the service; else a service before it has its namespace
and name. -/
inductive Offence (before : List Service) (s : Service) : Failure → Prop where
  | flawed {key message field : String}
      (h : s.validate = .error (.validation key message (some field))) :
      Offence before s
        (.validation key message (some (Flaw.entry "services" before.length ++ "." ++ field)))
  | twice (valid : s.validate = .ok ())
      (h : (s.space, s.name) ∈ before.map fun t => (t.space, t.name)) :
      Offence before s
        (.validation s.key "service listed more than once"
          (some (Flaw.entry "services" before.length)))

structure FirstOffence (before : List Service) (s : Service) (f : Failure) : Prop where
  valid : ∀ t ∈ before, t.validate = .ok ()
  distinct : (before.map fun t => (t.space, t.name)).Nodup
  offence : Offence before s f

namespace RouteSpec

/-- The induction is on the services that are still to be checked; nothing is wrong with those that
were. -/
theorem firstOffence_of_flawFrom? {before ss : List Service} {key : String} {flaw : SpecFlaw}
    (hvalid : ∀ t ∈ before, t.validate = .ok ())
    (hdistinct : (before.map fun t => (t.space, t.name)).Nodup)
    (h : flawFrom? before.length (before.map fun t => (t.space, t.name)).reverse ss
      = some (key, flaw)) :
    ∃ checked s after, before ++ ss = checked ++ s :: after ∧
      FirstOffence checked s (.validation key flaw.message (some flaw.field)) := by
  induction ss generalizing before with
  | nil => nomatch h
  | cons s ss ih =>
    cases hs : s.flaw? with
    | some f =>
      have hf : (s.key, SpecFlaw.service before.length f) = (key, flaw) := by
        simpa [flawFrom?, hs] using h
      cases hf
      have hv : s.validate = .error (.validation s.key f.message (some f.field)) := by
        simp [Service.validate, hs]
      exact ⟨before, s, ss, rfl, hvalid, hdistinct, .flawed hv⟩
    | none =>
      have hv : s.validate = .ok () := Service.validate_eq_ok_iff.2 hs
      by_cases hm : (s.space, s.name) ∈ before.map fun t => (t.space, t.name)
      · have hf : (s.key, SpecFlaw.twice before.length) = (key, flaw) := by
          simpa [flawFrom?, hs, hm] using h
        cases hf
        exact ⟨before, s, ss, rfl, hvalid, hdistinct, .twice hv hm⟩
      · have hvalid' : ∀ t ∈ before ++ [s], t.validate = .ok () := by
          simpa [or_imp, forall_and] using ⟨hvalid, hv⟩
        have hdistinct' : ((before ++ [s]).map fun t => (t.space, t.name)).Nodup := by
          rw [List.map_append]
          exact hdistinct.append (List.nodup_singleton _) (List.disjoint_singleton.2 hm)
        have hrest := ih hvalid' hdistinct' (by simpa [flawFrom?, hs, hm] using h)
        simpa using hrest

theorem firstOffence_of_validate {spec : RouteSpec} {f : Failure} (h : spec.validate = .error f) :
    ∃ before s after, spec.services = before ++ s :: after ∧ FirstOffence before s f := by
  rw [validate] at h
  cases hf : flawFrom? 0 [] spec.services with
  | none => simp [hf] at h
  | some p =>
    simp only [hf, Except.error.injEq] at h
    subst h
    have hvalid : ∀ t ∈ ([] : List Service), t.validate = .ok () := by simp
    exact firstOffence_of_flawFrom? hvalid .nil hf

theorem exists_validate_error {spec : RouteSpec}
    (h : (∃ s ∈ spec.services, s.validate ≠ .ok ()) ∨
      ¬ (spec.services.map fun s => (s.space, s.name)).Nodup) :
    ∃ f, spec.validate = .error f := by
  cases hv : spec.validate with
  | error f => exact ⟨f, rfl⟩
  | ok _ =>
    obtain ⟨hpassed, hdistinct⟩ := validate_eq_ok_iff.1 hv
    rcases h with ⟨s, hs, hne⟩ | hdup
    · exact absurd (hpassed s hs).validate hne
    · exact absurd hdistinct hdup

end RouteSpec

end MeshRollout
