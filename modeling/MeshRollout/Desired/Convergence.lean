import MeshRollout.Cluster.Program
import MeshRollout.Desired.Manifest
import MeshRollout.Desired.Notice

/-!
Bringing the cluster to a desired state. Objects of one kind are deleted where nobody wants them and
applied where they differ; objects of other kinds are only ever applied. An object that the cluster
is not ready for yet does not stop a pass, but the pass tells of the first such object at its end.
-/
set_option autoImplicit false

namespace MeshRollout

/-- What a pass did, where objects are told by namespace and name. -/
structure Report where
  applied : List String := []
  deleted : List String := []
  unchanged : Nat := 0
  rejected : List String := []
  deriving DecidableEq, Repr

namespace Report

def wroteNothing (r : Report) : Bool :=
  r.applied.isEmpty && r.deleted.isEmpty

def merge (a b : Report) : Report where
  applied := a.applied ++ b.applied
  deleted := a.deleted ++ b.deleted
  unchanged := a.unchanged + b.unchanged
  rejected := a.rejected ++ b.rejected

end Report

inductive WriteResult where
  | created
  | updated
  | unchanged
  deriving DecidableEq, Repr

namespace Object

/-- Whether labels, annotations or specification differ. The status and what the server keeps do not
count. -/
def isOutdated (live desired : Object) : Bool :=
  !(live.labels == desired.labels && live.annotations == desired.annotations
    && Value.sameOption live.spec desired.spec)

/-- Whether labels, annotations or any field but the status differ. -/
def contentDiffers (live desired : Object) : Bool :=
  !(live.labels == desired.labels && live.annotations == desired.annotations
    && Value.sameFields (live.data.drop "status") (desired.data.drop "status"))

def spaceArg (o : Object) : Option String :=
  if o.space.isEmpty then none else some o.space

end Object

structure Progress where
  report : Report := {}
  rejection : Option Failure := none
  deriving Repr

namespace Progress

def apply (p : Progress) (key : String) : Progress :=
  { p with report := { p.report with applied := p.report.applied ++ [key] } }

def skip (p : Progress) : Progress :=
  { p with report := { p.report with unchanged := p.report.unchanged + 1 } }

def delete (p : Progress) (key : String) : Progress :=
  { p with report := { p.report with deleted := p.report.deleted ++ [key] } }

def reject (p : Progress) (key : String) (f : Failure) : Progress where
  report := { p.report with rejected := p.report.rejected ++ [key] }
  rejection := p.rejection.or (some f)

def finish (p : Progress) : Except Failure Report :=
  match p.rejection with
  | some f => .error f
  | none => .ok p.report

end Progress

namespace Convergence

/-- Deletes an object and tells of it first. -/
def prune (r : Resource) (live : Object) (p : Progress) : Pass Progress := do
  Pass.notify (Notice.deleted r.kind live.space live.name)
  if ← Pass.delete r live.spaceArg live.name then pure (p.delete live.key) else pure p

def pruneAll (r : Resource) (p : Progress) : List Object → Pass Progress
  | [] => pure p
  | live :: rest => do
    pruneAll r (← prune r live p) rest

/-- The wanted names in each namespace, in the order of the namespaces. -/
def wanted (desired : List Object) : Dict (List String) :=
  desired.foldl (fun d o => d.put o.space ((d.get o.space).getD [] ++ [o.name])) []

/-- A live object of a namespace that nobody wants there. -/
def isUnwanted (space : String) (names : List String) (live : Object) : Bool :=
  live.space == space && !names.contains live.name

def pruneSpaces (r : Resource) (p : Progress) : Dict (List String) → Pass Progress
  | [] => pure p
  | (space, names) :: rest => do
    let live ← Pass.list r (if space.isEmpty then none else some space) none
    let p ← pruneAll r p (live.filter (isUnwanted space names))
    pruneSpaces r p rest

/-- Applies an object unless the live one already agrees with it. -/
def applyUnlessSame (manager : String) (r : Resource) (differs : Object → Object → Bool)
    (o : Object) (p : Progress) : Pass Progress := do
  let live ← Pass.get r o.spaceArg o.name
  if (live.map fun l => differs l o) == some false then return p.skip
  match ← (Pass.apply r o manager).attempt with
  | .ok _ =>
    Pass.notify (Notice.applied r.kind o)
    return p.apply o.key
  | .error f =>
    if f.tellsUnconfigured then
      return p.reject o.key (.notReady r.kind o.space o.name f.message)
    Pass.notify (Notice.notApplied r.kind o f)
    throw f

def applyAll (manager : String) (r : Resource) (p : Progress) : List Object → Pass Progress
  | [] => pure p
  | o :: rest => do
    applyAll manager r (← applyUnlessSame manager r Object.isOutdated o p) rest

/-- An object of another kind than the one of the pass. An object that does not tell its kind is
none. -/
def stray? (r : Resource) (desired : List Object) : Option Object :=
  desired.find? fun o => (o.types.map fun t => t.2 != r.kind).getD false

def strayFailure (r : Resource) (o : Object) : Failure :=
  .internal "reconcile_kind" (o.key ++ " passed to a " ++ r.kind ++ " pass")

/-- Brings the objects of one kind to the desired ones. Where nothing is desired, every object of
the kind is deleted; else only namespaces in which something is desired are looked at. -/
def converge (manager : String) (r : Resource) (desired : List Object) : Pass Report := do
  if let some o := stray? r desired then throw (strayFailure r o)
  if desired.isEmpty then
    let live ← Pass.list r none none
    let p ← pruneAll r {} live
    return p.report
  let p ← pruneSpaces r {} (wanted desired)
  let p ← applyAll manager r p desired
  Pass.ofExcept p.finish

/-- Applies objects of several kinds. Nothing is deleted. -/
def applyEach (manager : String) (p : Progress) : List WantedObject → Pass Progress
  | [] => pure p
  | d :: rest => do
    applyEach manager
      (← applyUnlessSame manager d.identity.resource Object.contentDiffers d.object p) rest

def applyOthers (manager : String) (ds : List WantedObject) : Pass Report := do
  let p ← applyEach manager {} ds
  Pass.ofExcept p.finish

/-- Creates an object, or replaces a live one that differs. The replacement carries the version that
was seen, so that a change in between is noticed. -/
def writeObject (r : Resource) (o : Object) : Pass WriteResult := do
  match ← Pass.get r o.spaceArg o.name with
  | none =>
    let _ ← Pass.create r o
    return .created
  | some live =>
    if !live.isOutdated o then return .unchanged
    let version := live.metadata.resourceVersion
    let _ ← Pass.update r { o with metadata := { o.metadata with resourceVersion := version } }
    return .updated

end Convergence

end MeshRollout
