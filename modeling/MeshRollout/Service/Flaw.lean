import MeshRollout.Address
import MeshRollout.Failure
import MeshRollout.Name
import MeshRollout.Service.Basic

/-!
Which services can be routed. The rules are checked in a fixed order, and the first one that is
broken is reported with the part of the configuration that breaks it.
-/
set_option autoImplicit false

namespace MeshRollout

def maxSessionSeconds : Nat := 3600

inductive Flaw where
  | name (s : String) (f : LabelFault)
  | space (s : String) (f : LabelFault)
  | revisionCount (n : Nat)
  | revision (s : String) (f : RevisionFault)
  | revisionsEqual (s : String)
  | ratioMissing (t : Strategy)
  | ratioUnused
  | ratioTooLarge (n : Nat)
  | twoRevisions (t : Strategy)
  | session (n : Nat)
  | dependencyName (i : Nat) (s : String) (f : LabelFault)
  | dependencySpace (i : Nat) (s : String) (f : LabelFault)
  | dependencyTwice (i : Nat) (space name : String)
  | dependencyRevision (i : Nat) (s : String) (f : RevisionFault)
  | darkRevision (i : Nat) (s : String) (f : RevisionFault)
  | darkNoAddress (i : Nat)
  | darkAddress (i : Nat) (s : String)
  deriving DecidableEq, Repr

namespace Flaw

def entry (list : String) (i : Nat) : String :=
  list ++ "[" ++ toString i ++ "]"

def field : Flaw → String
  | .name .. => "name"
  | .space .. => "namespace"
  | .revisionCount _ | .revision .. | .revisionsEqual _ | .twoRevisions _ => "commitHashes"
  | .ratioMissing _ | .ratioUnused | .ratioTooLarge _ => "ratio"
  | .session _ => "sessionDuration"
  | .dependencyName i .. | .dependencySpace i .. | .dependencyTwice i ..
  | .dependencyRevision i .. => entry "dependencies" i
  | .darkRevision i .. | .darkNoAddress i | .darkAddress i _ => entry "darknessReleases" i

def message : Flaw → String
  | .name s f => f.message "name" s
  | .space s f => f.message "namespace" s
  | .revisionCount n => "expected 1 or 2 revisions, got " ++ toString n
  | .revision s f => f.message s
  | .revisionsEqual s => "revisions must be distinct: " ++ s
  | .ratioMissing t => "ratio is required for " ++ t.text
  | .ratioUnused => "ratio is only valid for canary types"
  | .ratioTooLarge n => "ratio must be 0-100, got " ++ toString n
  | .twoRevisions t => t.text ++ " requires exactly 2 revisions"
  | .session n =>
    "sessionDuration must be 1-" ++ toString maxSessionSeconds ++ ", got " ++ toString n
  | .dependencyName _ s f => f.message "dependency name" s
  | .dependencySpace _ s f => f.message "dependency namespace" s
  | .dependencyTwice _ outer inner =>
    "dependency " ++ outer ++ "/" ++ inner ++ " listed more than once"
  | .dependencyRevision _ s f => f.message s
  | .darkRevision _ s f => f.message s
  | .darkNoAddress _ => "darkness release needs at least one ip"
  | .darkAddress _ s => "invalid ip address: " ++ s

end Flaw

namespace Service

def firstOf {α : Type} : List (Option α) → Option α
  | [] => none
  | some x :: _ => some x
  | none :: r => firstOf r

def revisionFlaw? (flaw : String → RevisionFault → Flaw) (revisions : List String) : Option Flaw :=
  revisions.findSome? fun r => (revisionFault? r).map (flaw r)

def equalRevisions? : List String → Option Flaw
  | [a, b] => if a = b then some (.revisionsEqual a) else none
  | _ => none

def ratioFlaw? (s : Service) : Option Flaw :=
  match s.type.sharesRequests, s.ratio with
  | true, none => some (.ratioMissing s.type)
  | false, some _ => some .ratioUnused
  | true, some r => if r > 100 then some (.ratioTooLarge r) else none
  | false, none => none

def sessionFlaw? (s : Service) : Option Flaw :=
  s.sessionSeconds.bind fun n => if n = 0 || n > maxSessionSeconds then some (.session n) else none

/-- Checks the dependencies from position `i` on, where `seen` came before. -/
def dependencyFlaw? (i : Nat) (seen : List (String × String)) : List Dependency → Option Flaw
  | [] => none
  | d :: ds =>
    firstOf [
      (labelFault? d.name).map (.dependencyName i d.name),
      (labelFault? d.space).map (.dependencySpace i d.space),
      if seen.contains (d.space, d.name) then some (.dependencyTwice i d.space d.name) else none,
      revisionFlaw? (.dependencyRevision i) d.revisions,
      dependencyFlaw? (i + 1) ((d.space, d.name) :: seen) ds]

def darkFlaw? (i : Nat) : List DarkRelease → Option Flaw
  | [] => none
  | r :: rs =>
    firstOf [
      (revisionFault? r.revision).map (.darkRevision i r.revision),
      if r.ips.isEmpty then some (.darkNoAddress i) else none,
      r.ips.findSome? fun ip => if Address.valid ip then none else some (.darkAddress i ip),
      darkFlaw? (i + 1) rs]

def flaw? (s : Service) : Option Flaw :=
  firstOf [
    (labelFault? s.name).map (.name s.name),
    (labelFault? s.space).map (.space s.space),
    if s.revisions.isEmpty || s.revisions.length > 2 then some (.revisionCount s.revisions.length)
    else none,
    revisionFlaw? .revision s.revisions,
    equalRevisions? s.revisions,
    s.ratioFlaw?,
    if s.type.sharesRequests && s.revisions.length ≠ 2 then some (.twoRevisions s.type) else none,
    s.sessionFlaw?,
    dependencyFlaw? 0 [] s.dependencies,
    darkFlaw? 0 s.darkReleases]

def validate (s : Service) : Except Failure Unit :=
  match s.flaw? with
  | none => .ok ()
  | some f => .error (.validation s.key f.message (some f.field))

end Service

/-- A broken rule of a route: one of a service at a position, or a service that was listed before.
-/
inductive SpecFlaw where
  | service (i : Nat) (f : Flaw)
  | twice (i : Nat)
  deriving DecidableEq, Repr

namespace SpecFlaw

def field : SpecFlaw → String
  | .service i f => Flaw.entry "services" i ++ "." ++ f.field
  | .twice i => Flaw.entry "services" i

def message : SpecFlaw → String
  | .service _ f => f.message
  | .twice _ => "service listed more than once"

end SpecFlaw

namespace RouteSpec

/-- Checks the services from position `i` on, where `seen` came before. Gives the service's key too.
-/
def flawFrom? (i : Nat) (seen : List (String × String)) : List Service → Option (String × SpecFlaw)
  | [] => none
  | s :: ss =>
    match s.flaw? with
    | some f => some (s.key, .service i f)
    | none =>
      if seen.contains (s.space, s.name) then some (s.key, .twice i)
      else flawFrom? (i + 1) ((s.space, s.name) :: seen) ss

def validate (spec : RouteSpec) : Except Failure Unit :=
  match flawFrom? 0 [] spec.services with
  | none => .ok ()
  | some (key, f) => .error (.validation key f.message (some f.field))

end RouteSpec

end MeshRollout
