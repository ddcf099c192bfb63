import MeshRollout.Rollout.Outcome
import MeshRollout.Rollout.Sweep

/-!
One pass over a route: the objects of all its services are written, and what the route no longer
produces is swept away. The route is held by a finalizer from before its first object until after
its last one, so that no object stays behind.
-/
set_option autoImplicit false

namespace MeshRollout

inductive Action where
  | awaitChange
  | requeue (seconds : Nat)
  deriving DecidableEq, Repr

def resyncSeconds : Nat := 300

def retrySeconds : Nat := 30

/-- What follows a failed pass: a failure that may pass is tried again. -/
def Action.afterFailure (f : Failure) : Action :=
  if f.retryable then .requeue retrySeconds else .awaitChange

namespace Reconciliation

def bundles (o : Owner) (reference : Option OwnerReference) (edgeSpace : String) :
    List Service → Except Failure (List Bundle)
  | [] => .ok []
  | s :: ss => do
    let b ← s.routing edgeSpace
    let bs ← bundles o reference edgeSpace ss
    pure (b.markedFor o reference :: bs)

def writeAll : List PlannedObject → Pass Unit
  | [] => pure ()
  | b :: rest => do
    Pass.checkpoint "write bundle"
    let _ ← Convergence.writeObject b.resource b.object
    writeAll rest

def writeBundles : List Bundle → Pass (List PlannedObject)
  | [] => pure []
  | b :: rest => do
    let bs ← Pass.ofExcept b.serialized
    writeAll bs
    let more ← writeBundles rest
    return bs ++ more

def identities (bs : List PlannedObject) : List Identity :=
  bs.map fun b => .of b.resource b.object

/-- Writes what the route asks for and sweeps the rest. -/
def bringIntoPlace (edgeSpace : String) (o : Owner) (r : Route) : Pass Unit := do
  Pass.ofExcept r.spec.validate
  let bundles ← Pass.ofExcept (bundles o r.ownerReference? edgeSpace r.spec.services)
  let written ← writeBundles bundles
  let _ ← sweep o (identities written)

def letGo (o : Owner) (r : Route) : Pass Unit := do
  let _ ← sweep o []
  Pass.release o.space r.name edgeCleanup

/-- Tells the outcome of an attempt in the status of the route. A pass that was asked to stop tells
nothing, and that a failure could not be told does not hide the failure. -/
def conclude (r : Route) : Except Failure Unit → Pass Action
  | .ok () => do
    (Outcome.success r.spec.services.length).record r
    return .requeue resyncSeconds
  | .error (.cancelled stage) => throw (.cancelled stage)
  | .error f => do
    let _ ← ((Outcome.failure f).record r).attempt
    throw f

def passOver (edgeSpace : String) (o : Owner) (r : Route) : Pass Action := do
  if r.isLeaving then
    if r.metadata.isHeldBy edgeCleanup then letGo o r
    return .awaitChange
  if !r.metadata.isHeldBy edgeCleanup then
    Pass.checkpoint "add finalizer"
    Pass.hold o.space o.name edgeCleanup
    return .requeue 0
  conclude r (← (bringIntoPlace edgeSpace o r).attempt)

end Reconciliation

/-- A pass over the route that metadata names. One without a namespace is not looked for. -/
def reconcile (edgeSpace : String) (m : ObjectMeta) : Pass Action := do
  let some space := m.space | return .awaitChange
  Pass.checkpoint "fetch"
  match ← Pass.getRoute space m.anyName with
  | none => return .awaitChange
  | some r => Reconciliation.passOver edgeSpace ⟨m.anyName, space, r.uidOrEmpty⟩ r

end MeshRollout
