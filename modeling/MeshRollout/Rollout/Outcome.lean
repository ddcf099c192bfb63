import MeshRollout.Cluster.Program

/-!
What the status of a route tells about the last pass. It is written only if it would change, and
people are told when the phase changes.
-/
set_option autoImplicit false

namespace MeshRollout

structure Outcome where
  phase : Phase
  message : String
  ready : Bool
  reason : String
  /-- Whether people are told of a new phase. -/
  announced : Bool
  deriving DecidableEq, Repr

namespace Outcome

def success (services : Nat) : Outcome where
  phase := .ready
  message := toString services ++ " service(s) routed"
  ready := true
  reason := "BundlesApplied"
  announced := true

/-- A failure. That the cluster is not ready yet is not announced. -/
def failure (f : Failure) : Outcome where
  phase := .failed
  message := f.message
  ready := false
  reason := "ReconcileFailed"
  announced := !f.awaitsPrerequisite

/-- Whether a status tells the outcome already, for the current generation of the route. -/
def isToldBy (x : Outcome) (generation : Option Int) (s : RouteStatus) : Bool :=
  s.phase == x.phase && s.message == some x.message && s.observedGeneration == generation

def isTold (x : Outcome) (r : Route) : Bool :=
  (r.status.map (x.isToldBy r.metadata.generation)).getD false

def condition (x : Outcome) (t : Instant) : Condition where
  type := Condition.readyType
  status := .ofBool x.ready
  reason := x.reason
  message := x.message
  lastTransition := t

def status (x : Outcome) (r : Route) (t : Instant) : RouteStatus where
  phase := x.phase
  message := some x.message
  observedGeneration := r.metadata.generation
  conditions := [(x.condition t).since ((r.status.map RouteStatus.conditions).getD [])]

def announcement (x : Outcome) (r : Route) : String :=
  Route.kind ++ " `" ++ r.spaceOrEmpty ++ "/" ++ r.name ++ "` is " ++ x.phase.text ++ ": "
    ++ x.message

/-- Writes the outcome to the status and announces a new phase. -/
def record (x : Outcome) (r : Route) : Pass Unit := do
  if x.isTold r then return
  let t ← Pass.now
  Pass.patchStatus r.spaceOrEmpty r.name (x.status r t)
  if x.announced && (r.status.map RouteStatus.phase) != some x.phase then
    Pass.notify (x.announcement r)

end Outcome

end MeshRollout
