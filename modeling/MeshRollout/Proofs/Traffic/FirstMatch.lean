import MeshRollout.Proofs.Dict
import MeshRollout.Traffic.Rules

/-!
What rules do with a request: the first rule that holds decides. The expression for an address is
read by what it stands for, and as addresses give different expressions this reading is the same
as looking for the address among the elements of the header.
-/
set_option autoImplicit false

namespace MeshRollout

namespace StringMatch

/-- Whether a header value is as it has to be. An expression holds if one of the elements of the
value has it. -/
def holds : StringMatch → String → Bool
  | .exact s, value => value == s
  | .regex r, value =>
    (Text.splitOn ',' value.toList).any fun element =>
      addressRegex (String.ofList (Text.trim element)) == r

end StringMatch

def HeaderMatch.holds (m : HeaderMatch) (headers : Dict String) : Bool :=
  m.headers.all fun (name, c) => ((headers.get name).map c.holds).getD false

def HttpRule.holds (r : HttpRule) (headers : Dict String) : Bool :=
  r.conditions.isEmpty || r.conditions.any fun m => m.holds headers

namespace Service

end Service

end MeshRollout
