import MeshRollout.Shape.Reading

/-!
Readings of records by named fields. Keys are visited in their order and the first fault wins;
fields that are missing come after all faults of keys that are there, in the order of declaration.
Keys that no field answers to are passed over. A record may also be written as a list of its fields
in the order of declaration.
-/
set_option autoImplicit false

namespace MeshRollout

structure Slot where
  name : String
  aliases : List String
  check : Value → Except Mismatch Unit

namespace Slot

def answersTo (s : Slot) (key : String) : Bool :=
  s.name == key || s.aliases.contains key

def find (s : Slot) (fields : List (String × Value)) : Option Value :=
  (fields.find? fun p => s.answersTo p.1).map Prod.snd

end Slot

/-- A description of the fields of a record, and how to build the record from the values at their
positions. What is reported for an absent field depends on how the record is written. -/
structure Fields (α : Type) where
  slots : List Slot
  build : (Nat → Option Value) → (Nat → Mismatch) → Except Mismatch α

namespace Fields
variable {α β : Type}

def field (name : String) (aliases : List String) (r : Reading α) (absent : Option α) : Fields α where
  slots := [⟨name, aliases, fun v => (r v).map fun _ => ()⟩]
  build source missing :=
    match source 0, absent with
    | some v, _ => r v
    | none, some x => .ok x
    | none, none => .error (missing 0)

def required (name : String) (r : Reading α) : Fields α :=
  field name [] r none

def defaulted (name : String) (r : Reading α) (default : α) : Fields α :=
  field name [] r (some default)

def optional (name : String) (r : Reading α) : Fields (Option α) :=
  field name [] r.nullable (some none)

protected def pure (x : α) : Fields α where
  slots := []
  build _ _ := .ok x

protected def map (g : α → β) (f : Fields α) : Fields β where
  slots := f.slots
  build source missing := (f.build source missing).map g

protected def seq (f : Fields (α → β)) (x : Fields α) : Fields β where
  slots := f.slots ++ x.slots
  build source missing := do
    let g ← f.build source missing
    let n := f.slots.length
    let y ← x.build (fun i => source (n + i)) (fun i => missing (n + i))
    pure (g y)

instance : Applicative Fields where
  pure := Fields.pure
  map := Fields.map
  seq f x := Fields.seq f (x ())

/-- Visits the keys in their order; `seen` holds the fields that were already given. -/
def visit (slots : List Slot) (seen : List String) : List (String × Value) → Except Mismatch Unit
  | [] => .ok ()
  | (k, v) :: r =>
    match slots.find? fun s => s.answersTo k with
    | none => visit slots seen r
    | some s =>
      if seen.contains s.name then .error (.duplicate s.name)
      else do
        Reading.part (.field k) (s.check v)
        visit slots (s.name :: seen) r

def ofRecord (f : Fields α) (fields : List (String × Value)) : Except Mismatch α := do
  visit f.slots [] fields
  f.build (fun i => f.slots[i]?.bind fun s => s.find fields)
    (fun i => .missing ((f.slots[i]?.map Slot.name).getD ""))

def ofList (title : String) (f : Fields α) (vs : List Value) : Except Mismatch α := do
  let n := f.slots.length
  let elements := if n = 1 then "1 element" else toString n ++ " elements"
  let x ← f.build (fun i => vs[i]?)
    (fun i => .wrongLength i ("struct " ++ title ++ " with " ++ elements))
  if vs.length > n then throw (.wrongLength vs.length "fewer elements in array")
  pure x

def read (title : String) (f : Fields α) : Reading α
  | .record fields => f.ofRecord fields
  | .list vs => f.ofList title vs
  | v => .error (.wrongType v ("struct " ++ title))

def readRecord (title : String) (f : Fields α) : Reading α
  | .record fields => f.ofRecord fields
  | v => .error (.wrongType v title)

end Fields

end MeshRollout
