import MeshRollout.Failure
import MeshRollout.Object.Basic
import MeshRollout.Route.Basic

/-!
Messages to people about what was done to the cluster. A route that was applied is told service by
service; of other objects only their identity is told.
-/
set_option autoImplicit false

namespace MeshRollout.Notice

def code (s : String) : String :=
  "`" ++ s ++ "`"

def item (title content : String) : String :=
  "*" ++ title ++ "*: " ++ content

def identity (space name : String) : List String :=
  ["> " ++ item "Namespace" (code space), "> " ++ item "Name" (code name)]

def text (lines : List String) : String :=
  Text.joinWith "\n" lines

def deleted (kind space name : String) : String :=
  text ((":wastebasket: " ++ kind ++ " deleted") :: identity space name)

def darkness (r : DarkRelease) : String :=
  code r.revision ++ " (IPs: " ++ Text.joinWith ", " r.ips ++ ")"

/-- A session of no length is not told. -/
def session (s : Service) : List String :=
  match s.sessionSeconds with
  | some (n + 1) => [item "Session" (code (toString (n + 1) ++ "s"))]
  | _ => []

def details (s : Service) : List String :=
  [item "Type" (code s.type.text)]
    ++ (if s.revisions.isEmpty then []
        else [item "Revisions" (Text.joinWith ", " (s.revisions.map code))])
    ++ (s.ratio.map fun n => item "Ratio" (code (toString n ++ "%"))).toList
    ++ session s
    ++ (if s.darkReleases.isEmpty then []
        else [item "Darkness" (Text.joinWith ", " (s.darkReleases.map darkness))])

def service (s : Service) : List String :=
  (">   - " ++ item "Service" (code s.key)) :: (details s).map (">     - " ++ ·)

def aboutRoute (o : Object) (spec : RouteSpec) : String :=
  text ([":white_check_mark: *" ++ Route.kind ++ " applied*"] ++ identity o.space o.name
      ++ ["> *Services*:"]) ++ "\n" ++ text (spec.services.flatMap service)

def routeSpec? (kind : String) (o : Object) : Option RouteSpec :=
  if kind = Route.kind then o.spec.bind fun v => (RouteSpec.read v).toOption else none

def applied (kind : String) (o : Object) : String :=
  match routeSpec? kind o with
  | some spec => aboutRoute o spec
  | none => text ((":white_check_mark: " ++ kind ++ " applied") :: identity o.space o.name)

def notApplied (kind : String) (o : Object) (f : Failure) : String :=
  text ([":exclamation: " ++ kind ++ " apply failed"] ++ identity o.space o.name
    ++ ["> " ++ item "Error" (code f.message)])

end MeshRollout.Notice
