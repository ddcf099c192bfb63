import MeshRollout.Cluster.MemoryStore

/-!
A cluster to rehearse programs on. It keeps objects and routes in memory and writes down every call.
Calls can be made to fail, objects to be changed right after they were read, and the program to be
stopped in the middle.
-/
set_option autoImplicit false

namespace MeshRollout

/-- Calls of one sort that will fail, a number of times. An empty kind or name stands for any. -/
structure Fault where
  verb : String
  kind : String
  name : String
  times : Nat
  failure : Failure
  deriving Repr

def Fault.concerns (f : Fault) (verb kind name : String) : Bool :=
  f.times > 0 && f.verb == verb && (f.kind.isEmpty || f.kind == kind)
    && (f.name.isEmpty || f.name == name)

inductive Sink where
  | silent
  | recording
  /-- Messages are recorded, but sending them fails. -/
  | failing
  deriving DecidableEq, Repr

structure Rehearsal where
  store : MemoryStore := {}
  /-- Routes by namespace and name. -/
  routes : List ((String × String) × Route) := []
  faults : List Fault := []
  /-- Names of objects that change right after they are read. -/
  races : List String := []
  /-- After how many calls the program is asked to stop. -/
  countdown : Nat := 0
  stopped : Bool := false
  sink : Sink := .recording
  /-- What is fetched, one after another. -/
  manifests : List (Except Failure String) := []
  clock : Instant
  calls : List String := []
  notes : List String := []
  statuses : List RouteStatus := []

namespace Rehearsal

def enter (verb kind space name : String) (w : Rehearsal) : Rehearsal :=
  { w with
    calls := w.calls ++ [verb ++ " " ++ kind ++ " " ++ space ++ " " ++ name]
    countdown := w.countdown - 1
    stopped := w.stopped || w.countdown == 1 }

def takeFault (verb kind name : String) : List Fault → Option Failure × List Fault
  | [] => (none, [])
  | f :: fs =>
    if f.concerns verb kind name then (some f.failure, { f with times := f.times - 1 } :: fs)
    else
      let (found, fs) := takeFault verb kind name fs
      (found, f :: fs)

def attempt {α : Type} (verb kind space name : String)
    (act : Rehearsal → Except Failure α × Rehearsal) (w : Rehearsal) :
    Except Failure α × Rehearsal :=
  let w := w.enter verb kind space name
  match takeFault verb kind name w.faults with
  | (some f, faults) => (.error f, { w with faults })
  | (none, _) => act w

def onStore {α : Type} (act : MemoryStore → Except Failure α × MemoryStore) (w : Rehearsal) :
    Except Failure α × Rehearsal :=
  let (a, store) := act w.store
  (a, { w with store })

/-- Changes an object that was read, if it is to change. -/
def race (r : Resource) (name : String) (found : Option Object) (w : Rehearsal) : Rehearsal :=
  match found with
  | some o =>
    if w.races.contains name then
      { w with races := w.races.erase name, store := w.store.insert r o }
    else w
  | none => w

def readObject (r : Resource) (space : Option String) (name : String) (w : Rehearsal) :
    Except Failure (Option Object) × Rehearsal :=
  let found := w.store.find (.of r (space.getD "") name)
  (.ok found, w.race r name found)

def orDash (s : Option String) : String :=
  s.getD "-"

def answerStore (c : StoreCall) (w : Rehearsal) : c.Answer × Rehearsal :=
  match c with
  | .get r space name => w.attempt "get" r.kind (orDash space) name (readObject r space name)
  | .list r space selector =>
    w.attempt "list" r.kind (orDash space) (orDash selector)
      (onStore fun s => (.ok (s.list r space selector), s))
  | .create r o =>
    w.attempt "create" r.kind (orDash o.metadata.space) o.name (onStore fun s => s.create r o)
  | .update r o =>
    w.attempt "update" r.kind (orDash o.metadata.space) o.name (onStore fun s => s.update r o)
  | .apply r o manager =>
    w.attempt "apply" r.kind (orDash o.metadata.space) o.name fun w =>
      onStore (fun s => s.apply r o) { w with calls := w.calls ++ ["  as " ++ manager] }
  | .delete r space name =>
    w.attempt "delete" r.kind (orDash space) name (onStore fun s => s.delete r space name)

def findRoute (space name : String) (w : Rehearsal) : Option Route :=
  w.routes.lookup (space, name)

def dropRoute (space name : String) (w : Rehearsal) : Rehearsal :=
  { w with routes := w.routes.filter fun p => p.1 ≠ (space, name) }

def setRoute (r : Route) (w : Rehearsal) : Rehearsal :=
  let w := w.dropRoute r.spaceOrEmpty r.name
  { w with routes := ((r.spaceOrEmpty, r.name), r) :: w.routes }

def editRoute (space name : String) (edit : Route → Route) (w : Rehearsal) : Rehearsal :=
  { w with routes := w.routes.map fun p => if p.1 = (space, name) then (p.1, edit p.2) else p }

def editFinalizers (edit : List String → List String) (r : Route) : Route :=
  let finalizers := some (edit (r.metadata.finalizers.getD []))
  { r with metadata := { r.metadata with finalizers } }

/-- Whether a route goes away: it is marked for deletion and nothing holds it. -/
def isGone (r : Route) : Bool :=
  r.isLeaving && (r.metadata.finalizers.getD []).isEmpty

def removeGone (w : Rehearsal) : Rehearsal :=
  { w with routes := w.routes.filter fun p => !isGone p.2 }

def answerRoute (c : RouteCall) (w : Rehearsal) : c.Answer × Rehearsal :=
  match c with
  | .get space name =>
    w.attempt "get_route" Route.kind space name fun w => (.ok (w.findRoute space name), w)
  | .hold space name finalizer =>
    w.attempt "add_finalizer" Route.kind space name fun w =>
      (.ok (), w.editRoute space name (editFinalizers (· ++ [finalizer])))
  | .release space name finalizer =>
    w.attempt "remove_finalizer" Route.kind space name fun w =>
      (.ok (),
        (w.editRoute space name (editFinalizers fun fs => fs.filter (· != finalizer))).removeGone)
  | .patchStatus space name s =>
    w.attempt "patch_route_status" Route.kind space name fun w =>
      (.ok (), { w.editRoute space name fun r => { r with status := some s } with
        statuses := w.statuses ++ [s] })

def notify (message : String) (w : Rehearsal) : Except Failure Unit × Rehearsal :=
  match w.sink with
  | .silent => (.ok (), w)
  | .recording => (.ok (), { w with notes := w.notes ++ [message] })
  | .failing =>
    (.error (.notification "sink unavailable"), { w with notes := w.notes ++ [message] })

def fetch (w : Rehearsal) : Except Failure String × Rehearsal :=
  match w.manifests with
  | [] => (.error (.internal Failure.unknown "no manifest"), w)
  | m :: rest => (m, { w with manifests := rest })

def answer (c : Call) (w : Rehearsal) : c.Answer × Rehearsal :=
  match c with
  | .store c => w.answerStore c
  | .route c => w.answerRoute c
  | .notify message => w.notify message
  | .cancelled => (w.stopped, w)
  | .now => (w.clock, w)
  | .fetch => w.fetch

/-- Answers as before, but asks the program to stop when there is nothing left to fetch. -/
def answerWhileFed (c : Call) (w : Rehearsal) : c.Answer × Rehearsal :=
  match c with
  | .cancelled => (w.manifests.isEmpty, w)
  | c => w.answer c

def run {α : Type} (p : Pass α) (w : Rehearsal) : Except Failure α × Rehearsal :=
  Program.run answer p w

end Rehearsal

end MeshRollout
