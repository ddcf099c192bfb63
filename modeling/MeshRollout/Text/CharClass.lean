/-!
Sets of characters, given by the code points at which membership changes.
-/
set_option autoImplicit false

namespace MeshRollout

/-- A set of characters as the increasing list of code points at which membership changes.
Nothing below the first of them belongs to the set. -/
structure CharClass where
  turns : List Nat

namespace CharClass

/-- A character belongs to the set when an odd number of turns lie at or below it. -/
def holds (k : CharClass) (c : Char) : Bool :=
  (k.turns.takeWhile fun n => decide (n ≤ c.toNat)).length % 2 == 1

end CharClass

end MeshRollout
