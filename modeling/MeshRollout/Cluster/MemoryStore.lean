import MeshRollout.Cluster.Program
import MeshRollout.Text.Blank

/-!
A store of objects in memory. Every write gets a version of its own, a write on an old version is
refused, and deleting what is not there does nothing. The writes are logged.
-/
set_option autoImplicit false

namespace MeshRollout

/-- Where an object is kept: its resource without the version, its namespace and its name. -/
structure StoreKey where
  resource : String
  space : String
  name : String
  deriving DecidableEq, Repr

namespace StoreKey

def before (a b : StoreKey) : Bool :=
  a.resource < b.resource
    || (a.resource == b.resource
      && (a.space < b.space || (a.space == b.space && a.name < b.name)))

def resourceText (r : Resource) : String :=
  r.group ++ "/" ++ r.plural

def of (r : Resource) (space name : String) : StoreKey :=
  ⟨resourceText r, space, name⟩

def ofObject (r : Resource) (o : Object) : StoreKey :=
  of r o.space o.name

end StoreKey

structure MemoryStore where
  /-- In the order of their keys. -/
  objects : List (StoreKey × Object) := []
  /-- Counted without a bound; a counter of 64 bits agrees with it for the first `2 ^ 64` writes. -/
  version : Nat := 0
  writes : List String := []
  /-- Names whose writes by application, or whose deletion, fail with a message. -/
  refusedApplies : Dict String := []
  refusedDeletions : Dict String := []
  deriving Repr

namespace MemoryStore

def put (k : StoreKey) (o : Object) : List (StoreKey × Object) → List (StoreKey × Object)
  | [] => [(k, o)]
  | (k', o') :: r =>
    if k = k' then (k, o) :: r
    else if k.before k' then (k, o) :: (k', o') :: r
    else (k', o') :: put k o r

def find (s : MemoryStore) (k : StoreKey) : Option Object :=
  s.objects.lookup k

def remove (s : MemoryStore) (k : StoreKey) : MemoryStore :=
  { s with objects := s.objects.filter fun p => p.1 ≠ k }

/-- Gives an object the next version, and an identity if it has none. -/
def stamp (s : MemoryStore) (o : Object) : Object :=
  let v := toString (s.version + 1)
  { o with
    metadata := { o.metadata with
      resourceVersion := some v
      uid := some (o.metadata.uid.getD ("uid-" ++ v)) } }

def keep (s : MemoryStore) (r : Resource) (o : Object) : MemoryStore :=
  let o := s.stamp o
  { s with objects := put (.ofObject r o) o s.objects, version := s.version + 1 }

def insert (s : MemoryStore) (r : Resource) (o : Object) : MemoryStore :=
  s.keep r o

def logLine (verb : String) (r : Resource) (space name : String) : String :=
  verb ++ " " ++ r.kind ++ " " ++ space ++ "/" ++ name

def write (s : MemoryStore) (verb : String) (r : Resource) (o : Object) : Object × MemoryStore :=
  (s.stamp o,
    { s.keep r o with writes := s.writes ++ [logLine verb r o.space o.name] })

/-- The terms of a selector; a term without an equals sign says nothing. -/
def readSelector (selector : String) : List (String × String) :=
  (Text.splitOn ',' selector.toList).filterMap fun term =>
    (Text.splitOnce '=' term).map fun (k, v) =>
      (String.ofList (Text.trim k), String.ofList (Text.trim v))

def selected (selector : Option String) (o : Object) : Bool :=
  match selector with
  | none => true
  | some s => (readSelector s).all fun (k, v) => o.labels.get k == some v

def list (s : MemoryStore) (r : Resource) (space selector : Option String) : List Object :=
  (s.objects.filter fun (k, o) =>
    k.resource == StoreKey.resourceText r
      && (match space with
        | none => true
        | some sp => k.space == sp)
      && selected selector o).map Prod.snd

def names (s : MemoryStore) (r : Resource) : List String :=
  (s.objects.filter fun p => p.1.resource == StoreKey.resourceText r).map fun p =>
    p.1.space ++ "/" ++ p.1.name

def apiFailure (code : Nat) (reason message : String) : Failure :=
  .cluster (.api ⟨"Failure", message, reason, code⟩)

def withUid (uid : Option String) (o : Object) : Object :=
  { o with metadata := { o.metadata with uid } }

def conflict (r : Resource) (o : Object) (message : String) : Failure :=
  .conflict r.kind o.space o.name message

def modified : String :=
  "the object has been modified; please apply your changes to the latest version"

def create (s : MemoryStore) (r : Resource) (o : Object) : Except Failure Object × MemoryStore :=
  match s.find (.ofObject r o) with
  | some _ => (.error (conflict r o "already exists"), s)
  | none =>
    let (o, s) := s.write "create" r (withUid none o)
    (.ok o, s)

def update (s : MemoryStore) (r : Resource) (o : Object) : Except Failure Object × MemoryStore :=
  match s.find (.ofObject r o) with
  | none => (.error (apiFailure 404 "NotFound" (r.kind ++ " " ++ o.name ++ " not found")), s)
  | some live =>
    if o.metadata.resourceVersion ≠ live.metadata.resourceVersion then
      (.error (conflict r o modified), s)
    else
      let (o, s) := s.write "update" r (withUid live.metadata.uid o)
      (.ok o, s)

def apply (s : MemoryStore) (r : Resource) (o : Object) : Except Failure Object × MemoryStore :=
  match s.refusedApplies.get o.name with
  | some message => (.error (apiFailure 400 "BadRequest" message), s)
  | none =>
    let uid := (s.find (.ofObject r o)).bind fun live => live.metadata.uid
    let (o, s) := s.write "apply" r (withUid uid o)
    (.ok o, s)

def delete (s : MemoryStore) (r : Resource) (space : Option String) (name : String) :
    Except Failure Bool × MemoryStore :=
  match s.refusedDeletions.get name with
  | some message => (.error (apiFailure 500 "InternalError" message), s)
  | none =>
    let k := StoreKey.of r (space.getD "") name
    match s.find k with
    | none => (.ok false, s)
    | some _ =>
      (.ok true,
        { s.remove k with writes := s.writes ++ [logLine "delete" r (space.getD "") name] })

def answer (c : StoreCall) (s : MemoryStore) : c.Answer × MemoryStore :=
  match c with
  | .get r space name => (.ok (s.find (.of r (space.getD "") name)), s)
  | .list r space selector => (.ok (s.list r space selector), s)
  | .create r o => s.create r o
  | .update r o => s.update r o
  | .apply r o _ => s.apply r o
  | .delete r space name => s.delete r space name

end MemoryStore

end MeshRollout
