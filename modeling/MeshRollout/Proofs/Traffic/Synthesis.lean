import MeshRollout.Proofs.Mesh.Readback
import MeshRollout.Proofs.Service.Valid

/-!
The checks of a service leave nothing that its synthesis could fail on: a service that has passed
them is routed, with a script exactly if it shares its requests.
-/
set_option autoImplicit false

namespace MeshRollout

theorem Strategy.sharesRequests_iff {t : Strategy} :
    t.sharesRequests = true ↔ t = .canary ∨ t = .stickyCanary := by
  cases t <;> decide

namespace Service

theorem scriptInput?_isSome {s : Service} (h : s.Passed) :
    s.scriptInput?.isSome = s.type.sharesRequests := by
  cases hs : s.type.sharesRequests with
  | false => simp [scriptInput?, ScriptForm.ofService?, hs]
  | true =>
    obtain ⟨stable, canary, hr⟩ := h.revisions_eq hs
    simp [scriptInput?, ScriptForm.ofService?, hs, hr]

theorem edgeFilter?_eq_ok {s : Service} (h : s.Passed) (edgeSpace : String) :
    s.edgeFilter? edgeSpace = .ok (s.bundle edgeSpace).edgeFilter := by
  have hsome := scriptInput?_isSome h
  cases hi : s.scriptInput? with
  | none =>
    have hs : s.type.sharesRequests = false := by rw [← hsome, hi]; rfl
    simp [edgeFilter?, bundle, hs, hi]
  | some i =>
    have hs : s.type.sharesRequests = true := by rw [← hsome, hi]; rfl
    simp [edgeFilter?, bundle, hs, hi]

theorem routing_eq_ok {s : Service} (h : s.validate = .ok ()) (edgeSpace : String) :
    s.routing edgeSpace = .ok (s.bundle edgeSpace) := by
  rw [routing, h, edgeFilter?_eq_ok (passed_of_validate h)]
  rfl

end Service

end MeshRollout
