import MeshRollout.Shape.Fields

/-!
What a route asks for: services with their revisions, how requests are shared between two revisions,
which revisions of other services travel along, and who sees a revision before everybody else.
-/
set_option autoImplicit false

namespace MeshRollout

inductive Strategy where
  | standard
  | canary
  | stickyCanary
  deriving DecidableEq, Repr

namespace Strategy

def text : Strategy → String
  | .standard => "Standard"
  | .canary => "Canary"
  | .stickyCanary => "StickyCanary"

def all : List Strategy :=
  [.standard, .canary, .stickyCanary]

/-- Whether requests are shared between two revisions. -/
def sharesRequests : Strategy → Bool
  | .standard => false
  | _ => true

def read : Reading Strategy :=
  .variant (all.map fun t => (t.text, t))

end Strategy

/-- Another service whose revision travels with the request. -/
structure Dependency where
  name : String
  space : String
  revisions : List String
  deriving DecidableEq, Repr

namespace Dependency

/-- The revision that requests are bound to; without one the dependency is free. -/
def boundRevision (d : Dependency) : Option String :=
  d.revisions.head?

def revisionsField : Fields (List String) :=
  Fields.field "commitHashes" ["revisions"] (.list .text) (some [])

def read : Reading Dependency :=
  (Dependency.mk <$> Fields.required "name" .text <*> Fields.required "namespace" .text
    <*> revisionsField).read "Dependency"

def toValue (d : Dependency) : Value :=
  .record [
    ("commitHashes", .strings d.revisions),
    ("name", .str d.name),
    ("namespace", .str d.space)]

end Dependency

/-- When failing instances are taken out. The interval is a text that need not be a duration. -/
structure OutlierDetection where
  consecutive5xxErrors : Option Nat
  consecutiveGatewayErrors : Option Nat
  interval : Option String
  deriving DecidableEq, Repr

namespace OutlierDetection

def read : Reading OutlierDetection :=
  (OutlierDetection.mk <$> Fields.optional "consecutive5xxErrors" .nat32
    <*> Fields.optional "consecutiveGatewayErrors" .nat32
    <*> Fields.optional "interval" .text).read "OutlierDetection"

def toValue (o : OutlierDetection) : Value :=
  .object [
    ("consecutive5xxErrors", o.consecutive5xxErrors.map .nat),
    ("consecutiveGatewayErrors", o.consecutiveGatewayErrors.map .nat),
    ("interval", o.interval.map .str)]

end OutlierDetection

/-- A revision that only callers from certain addresses see. -/
structure DarkRelease where
  revision : String
  ips : List String
  deriving DecidableEq, Repr

namespace DarkRelease

def read : Reading DarkRelease :=
  (DarkRelease.mk <$> Fields.field "commitHash" ["revision"] .text none
    <*> Fields.defaulted "ips" (.list .text) []).read "DarknessRelease"

def toValue (r : DarkRelease) : Value :=
  .record [("commitHash", .str r.revision), ("ips", .strings r.ips)]

end DarkRelease

structure Service where
  name : String
  space : String
  type : Strategy := .standard
  /-- The second one is the canary. -/
  revisions : List String := []
  /-- The share of requests in percent that the canary gets. -/
  ratio : Option Nat := none
  dependencies : List Dependency := []
  sessionSeconds : Option Nat := none
  outlierDetection : Option OutlierDetection := none
  darkReleases : List DarkRelease := []
  deriving DecidableEq, Repr

namespace Service

def read : Reading Service :=
  (Service.mk <$> Fields.required "name" .text <*> Fields.required "namespace" .text
    <*> Fields.defaulted "type" Strategy.read .standard
    <*> Dependency.revisionsField
    <*> Fields.optional "ratio" .nat32
    <*> Fields.defaulted "dependencies" (.list Dependency.read) []
    <*> Fields.optional "sessionDuration" .nat32
    <*> Fields.optional "outlierDetection" OutlierDetection.read
    <*> Fields.defaulted "darknessReleases" (.list DarkRelease.read) []).read "ServiceConfig"

def unlessEmpty {α : Type} (write : α → Value) (l : List α) : Option Value :=
  if l.isEmpty then none else some (.list (l.map write))

def toValue (s : Service) : Value :=
  .object [
    ("commitHashes", some (.strings s.revisions)),
    ("darknessReleases", unlessEmpty DarkRelease.toValue s.darkReleases),
    ("dependencies", unlessEmpty Dependency.toValue s.dependencies),
    ("name", some (.str s.name)),
    ("namespace", some (.str s.space)),
    ("outlierDetection", s.outlierDetection.map OutlierDetection.toValue),
    ("ratio", s.ratio.map .nat),
    ("sessionDuration", s.sessionSeconds.map .nat),
    ("type", some (.str s.type.text))]

def key (s : Service) : String :=
  s.space ++ "/" ++ s.name

def share (s : Service) : Nat :=
  s.ratio.getD 0

/-- The revisions of dark releases, each once, in the order of declaration. -/
def revisionsKeptDark (s : Service) : List String :=
  s.darkReleases.foldl
    (fun seen r => if seen.contains r.revision then seen else seen ++ [r.revision]) []

end Service

structure RouteSpec where
  services : List Service
  deriving DecidableEq, Repr

namespace RouteSpec

def read : Reading RouteSpec :=
  (RouteSpec.mk <$> Fields.defaulted "services" (.list Service.read) []).read "IstioRouteSpec"

def toValue (s : RouteSpec) : Value :=
  .record [("services", .list (s.services.map Service.toValue))]

end RouteSpec

end MeshRollout
