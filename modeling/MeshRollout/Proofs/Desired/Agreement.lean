import MeshRollout.Desired.Convergence
import MeshRollout.Proofs.Cluster.StoreView
import MeshRollout.Proofs.Value

/-!
When a live object agrees with a wanted one, and where the calls about an object look for it.
-/
set_option autoImplicit false

namespace MeshRollout

namespace Object

theorem spaceArg_getD (o : Object) : o.spaceArg.getD "" = o.space := by
  rw [spaceArg]
  by_cases h : o.space.isEmpty = true
  · rw [if_pos h]
    exact (String.isEmpty_iff.1 h).symm
  · rw [if_neg h]
    rfl

/-- Labels, annotations and specification are those of the other object, where the two
floating-point zeros count as one. -/
structure Agrees (live o : Object) : Prop where
  labels : live.labels = o.labels
  annotations : live.annotations = o.annotations
  spec : Value.sameOption live.spec o.spec = true

theorem isOutdated_eq_false_iff (live o : Object) : live.isOutdated o = false ↔ live.Agrees o := by
  simp only [isOutdated, Bool.not_eq_false', Bool.and_eq_true, beq_iff_eq]
  constructor
  · rintro ⟨⟨hl, ha⟩, hs⟩
    exact ⟨hl, ha, hs⟩
  · exact fun h => ⟨⟨h.labels, h.annotations⟩, h.spec⟩

theorem Carries.agrees {live o : Object} (h : live.Carries o) : live.Agrees o where
  labels := h.labels
  annotations := h.annotations
  spec := (Value.sameOption_iff _ _).2 (by rw [h.spec])

namespace Agrees

variable {a b c : Object}

theorem refl (a : Object) : a.Agrees a :=
  ⟨rfl, rfl, (Value.sameOption_iff _ _).2 rfl⟩

theorem symm (h : a.Agrees b) : b.Agrees a where
  labels := h.labels.symm
  annotations := h.annotations.symm
  spec := (Value.sameOption_iff _ _).2 ((Value.sameOption_iff _ _).1 h.spec).symm

theorem trans (h : a.Agrees b) (h' : b.Agrees c) : a.Agrees c where
  labels := h.labels.trans h'.labels
  annotations := h.annotations.trans h'.annotations
  spec := (Value.sameOption_iff _ _).2
    (((Value.sameOption_iff _ _).1 h.spec).trans ((Value.sameOption_iff _ _).1 h'.spec))

end Agrees

end Object

end MeshRollout
