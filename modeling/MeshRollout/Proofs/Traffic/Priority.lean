import MeshRollout.Proofs.Traffic.Consistency
import MeshRollout.Proofs.Traffic.Tagged

/-!
Where any request goes, tagged or not. The rules of a service come to one order of priority: the
callers of dark releases, the revision that the tag names, the bound dependencies, and last the
first revision that is not launched in the dark.
-/
set_option autoImplicit false

namespace MeshRollout

namespace Service

section Conditions
variable {s : Service} (h : s.Passed) (headers : Dict String)
include h

theorem Passed.mem_dependencyHeaders {p : String × StringMatch} :
    p ∈ s.dependencyHeaders ↔ ∃ q ∈ s.boundDependencies, (q.1, StringMatch.exact q.2) = p := by
  rw [h.dependencyHeaders_perm.mem_iff, bindings_eq, List.mem_map]

end Conditions

end Service

end MeshRollout
