import MeshRollout.Route.Basic

/-!
The definition of routes that the cluster is given, with a schema of their fields.
-/
set_option autoImplicit false

namespace MeshRollout.Schema

def typed (type description : String) (more : List (String × Value)) : Value :=
  .record (Dict.ofList ([("description", .str description), ("type", .str type)] ++ more))

def text (description : String) : Value :=
  typed "string" description []

def optionalText (description : String) : Value :=
  typed "string" description [("nullable", .bool true)]

def optionalCount (description : String) : Value :=
  typed "integer" description
    [("format", .str "uint32"), ("minimum", .float ⟨0⟩), ("nullable", .bool true)]

def choice (description : String) (names : List String) (more : List (String × Value)) : Value :=
  typed "string" description ([("enum", .strings names)] ++ more)

def list (description : String) (items : Value) : Value :=
  typed "array" description [("items", items)]

/-- A list that is empty where it is absent. -/
def defaultedList (description : String) (items : Value) : Value :=
  typed "array" description [("items", items), ("default", .list [])]

def texts (description : String) : Value :=
  defaultedList description (.record [("type", .str "string")])

def record (description : String) (properties : List (String × Value)) (required : List String)
    (more : List (String × Value)) : Value :=
  typed "object" description
    ([("properties", .record (Dict.ofList properties))]
      ++ (if required.isEmpty then [] else [("required", .strings required)]) ++ more)

def dependency : Value :=
  record "A dependency whose revision travels with the request" [
    ("name", text "Dependency service name"),
    ("namespace", text "Dependency namespace"),
    ("commitHashes", texts "Pinned revisions; the first one is used, none means unconstrained")]
    ["name", "namespace"] []

def outlierDetection : Value :=
  record "Failure ejection policy" [
    ("consecutive5xxErrors", optionalCount "Consecutive 5xx responses before ejection"),
    ("consecutiveGatewayErrors", optionalCount "Consecutive gateway errors before ejection"),
    ("interval", optionalText "Analysis interval as a duration string (e.g. \"10s\", \"1m30s\")")]
    [] [("nullable", .bool true)]

def darkRelease : Value :=
  record "Dark launch of a revision to an enumerated set of caller addresses" [
    ("commitHash", text "Revision served to the listed callers"),
    ("ips", texts "Caller addresses")]
    ["commitHash"] []

def service : Value :=
  record "One service's rollout intent" [
    ("name", text "Service name"),
    ("namespace", text "Service namespace"),
    ("type", choice "Routing strategy" (Strategy.all.map Strategy.text)
      [("default", .str Strategy.standard.text)]),
    ("commitHashes", texts "Revision identifiers in play (commit hashes); index 1 is the canary"),
    ("ratio", optionalCount "Percentage of traffic sent to `revisions[1]`"),
    ("dependencies", list "Services whose revision is pinned through request headers" dependency),
    ("sessionDuration", optionalCount "Sticky session TTL in seconds"),
    ("outlierDetection", outlierDetection),
    ("darknessReleases",
      list "IP-scoped dark launches, evaluated before any other rule" darkRelease)]
    ["name", "namespace"] []

def spec : Value :=
  record "Spec for an IstioRoute"
    [("services", defaultedList "Services whose routing this route owns" service)] [] []

def condition : Value :=
  record "One entry of `status.conditions`" [
    ("type", text "Condition type, e.g. `Ready`"),
    ("status",
      choice "Whether the condition holds" (ConditionStatus.all.map ConditionStatus.text) []),
    ("reason", text "CamelCase machine-readable reason"),
    ("message", text "Human-readable detail"),
    ("lastTransitionTime",
      typed "string" "When `status` last flipped" [("format", .str "date-time")])]
    ["lastTransitionTime", "message", "reason", "status", "type"] []

def status : Value :=
  record "Status of an IstioRoute" [
    ("phase", choice "Current phase" (Phase.all.map Phase.text)
      [("default", .str Phase.pending.text)]),
    ("message", optionalText "Human-readable message"),
    ("observedGeneration",
      typed "integer" "Last observed generation"
        [("format", .str "int64"), ("nullable", .bool true)]),
    ("conditions", defaultedList "Status conditions" condition)]
    [] [("nullable", .bool true)]

def route : Value :=
  record "Auto-generated derived type for IstioRouteSpec via `CustomResource`"
    [("spec", spec), ("status", status)] ["spec"] [("title", .str Route.kind)]

def column (name path : String) : Value :=
  .record [("jsonPath", .str path), ("name", .str name), ("type", .str "string")]

def version : Value :=
  .record [
    ("additionalPrinterColumns",
      .list [column "Phase" ".status.phase", column "Message" ".status.message"]),
    ("name", .str Route.version),
    ("schema", .record [("openAPIV3Schema", route)]),
    ("served", .bool true),
    ("storage", .bool true),
    ("subresources", .record [("status", .record [])])]

def definition : Value :=
  .record [
    ("apiVersion", .str "apiextensions.k8s.io/v1"),
    ("kind", .str "CustomResourceDefinition"),
    ("metadata", .record [("name", .str (Route.resource.plural ++ "." ++ Route.group))]),
    ("spec", .record [
      ("group", .str Route.group),
      ("names", .record [
        ("categories", .list []),
        ("kind", .str Route.kind),
        ("plural", .str Route.resource.plural),
        ("shortNames", .strings ["ir"]),
        ("singular", .str "istioroute")]),
      ("scope", .str "Namespaced"),
      ("versions", .list [version])])]

end MeshRollout.Schema
