import MeshRollout.Mesh.DestinationRule
import MeshRollout.Mesh.VirtualService
import MeshRollout.Time.Duration
import MeshRollout.Traffic.Script

/-!
The rules for the requests of one service. Callers of dark releases come first, then the revisions
that tags select, then bound dependencies, and last a rule for all other requests. A service whose
sessions stick has no such last rule.
-/
set_option autoImplicit false

namespace MeshRollout.Service

def allTo (host : String) (subset : Option String) : List WeightedDestination :=
  [⟨⟨host, subset⟩, none⟩]

def dependencyHeaders (s : Service) : Dict StringMatch :=
  Dict.ofList (s.boundDependencies.map fun (header, revision) => (header, .exact revision))

def darkPairs (s : Service) : List (String × String) :=
  s.darkReleases.flatMap fun r => r.ips.map fun ip => (r.revision, ip)

def darkRule (host : String) (i : Nat) (revision ip : String) : HttpRule where
  name := "dark-" ++ revision ++ "-" ++ toString i
  conditions := [⟨[(Header.forwardedFor, .regex (addressRegex ip))]⟩]
  route := allTo host (some revision)

def darkRulesFrom (host : String) (i : Nat) : List (String × String) → List HttpRule
  | [] => []
  | (revision, ip) :: r => darkRule host i revision ip :: darkRulesFrom host (i + 1) r

def canaryRule (s : Service) (revision : String) : HttpRule where
  name := "canary-" ++ revision
  conditions := [⟨s.dependencyHeaders.put Header.selector (.exact revision)⟩]
  route := allTo s.host (some revision)

def dependencyRule (s : Service) : HttpRule where
  name := "dependencies"
  conditions := [⟨s.dependencyHeaders⟩]
  route := allTo s.host none

/-- The first revision that is not dark, or the first one if all are. -/
def fallbackRevision (s : Service) : Option String :=
  (s.revisions.find? fun r => !s.revisionsKeptDark.contains r).or s.revisions.head?

def defaultRule (s : Service) (revision : String) : HttpRule where
  name := "default"
  conditions := []
  route := allTo s.host (some revision)

def rules (s : Service) : List HttpRule :=
  darkRulesFrom s.host 0 s.darkPairs
    ++ (if s.type.sharesRequests then s.revisions.map s.canaryRule
        else if s.dependencyHeaders.isEmpty then [] else [s.dependencyRule])
    ++ (if s.type = .stickyCanary then []
        else (s.fallbackRevision.map s.defaultRule).toList)

/-- All revisions that rules may name, each once. -/
def subsetNames (s : Service) : List String :=
  (s.revisions ++ s.revisionsKeptDark).foldl
    (fun seen r => if seen.contains r then seen else seen ++ [r]) []

def revisionLabel : String := "revision"

def subsets (s : Service) : List Subset :=
  s.subsetNames.map fun r => ⟨r, [(revisionLabel, r)]⟩

/-- An interval that is no duration is left out. -/
def ejectionPolicy (o : OutlierDetection) : EjectionPolicy where
  consecutive5xxErrors := o.consecutive5xxErrors
  consecutiveGatewayErrors := o.consecutiveGatewayErrors
  interval := o.interval.bind fun s => (Duration.normalize s).toOption
  baseEjectionTime := "30s"
  maxEjectionPercent := 100
  minHealthPercent := 50

/-- Failing instances are not taken out while a canary is tried, nor if a dependency is free. -/
def ejects (s : Service) : Bool :=
  s.type ≠ .canary && s.dependencies.all fun d => d.boundRevision.isSome

def trafficPolicy (s : Service) : TrafficPolicy where
  loadBalancer := if s.type = .stickyCanary then some ⟨⟨Header.session⟩⟩ else none
  outlierDetection := if s.ejects then s.outlierDetection.map ejectionPolicy else none

end MeshRollout.Service
