import MeshRollout.Shape.Mismatch

/-!
Readings of values: text, numbers, lists, maps and variants. Of several faults the first one in the
order of the value is reported.
-/
set_option autoImplicit false

namespace MeshRollout

abbrev Reading (α : Type) := Value → Except Mismatch α

namespace Reading
variable {α : Type}

def part (s : Step) (x : Except Mismatch α) : Except Mismatch α :=
  x.mapError (.under s)

def text : Reading String
  | .str s => .ok s
  | v => .error (.wrongType v "a string")

def bool : Reading Bool
  | .bool b => .ok b
  | v => .error (.wrongType v "a boolean")

def whole (title : String) (least most : Int) : Reading Int
  | .int n => if least ≤ n && n ≤ most then .ok n else .error (.outOfRange n title)
  | v => .error (.wrongType v title)

def nat16 : Reading Nat := fun v => (whole "u16" 0 (Int.pow 2 16 - 1) v).map Int.toNat
def nat32 : Reading Nat := fun v => (whole "u32" 0 (Int.pow 2 32 - 1) v).map Int.toNat
def int64 : Reading Int := whole "i64" (-(Int.pow 2 63)) (Int.pow 2 63 - 1)

def any : Reading Value := .ok

/-- `null` stands for a value that is absent. -/
def nullable (r : Reading α) : Reading (Option α)
  | .null => .ok none
  | v => (r v).map some

def items (r : Reading α) : List Value → Except Mismatch (List α)
  | [] => .ok []
  | v :: vs => do
    let x ← Reading.part .head (r v)
    let xs ← Reading.part .tail (items r vs)
    pure (x :: xs)

def list (r : Reading α) : Reading (List α)
  | .list vs => items r vs
  | v => .error (.wrongType v "a sequence")

def entries (r : Reading α) : List (String × Value) → Except Mismatch (Dict α)
  | [] => .ok []
  | (k, v) :: fs => do
    let x ← Reading.part (.field k) (r v)
    let xs ← entries r fs
    pure ((k, x) :: xs)

def map (r : Reading α) : Reading (Dict α)
  | .record fs => entries r fs
  | v => .error (.wrongType v "a map")

def find (given : String) (known : List (String × α)) : Except Mismatch α :=
  match known.lookup given with
  | some x => .ok x
  | none => .error (.unknownVariant given (known.map Prod.fst))

/-- One of several names. It may also be the only key of a record with nothing under it. -/
def variant (known : List (String × α)) : Reading α
  | .str s => find s known
  | .record [(k, v)] => do
    let x ← find k known
    match v with
    | .null => pure x
    | v => Reading.part (.field k) (.error (.wrongType v "unit"))
  | .record _ => .error .notOneKey
  | v => .error (.wrongType v "string or map")

/-- A record with one of several names as its only key, and that variant's content under it. -/
def tagged (known : List (String × Reading α)) : Reading α
  | .str s => do
    let _ ← find s known
    throw .bareVariant
  | .record [(k, v)] => do
    let r ← find k known
    Reading.part (.field k) (r v)
  | .record _ => .error .notOneKey
  | v => .error (.wrongType v "string or map")

def instant : Reading Instant
  | .str s => (Instant.read s).mapError .badInstant
  | v => .error (.wrongType v "an RFC 3339 formatted date and time string")

end Reading

end MeshRollout
