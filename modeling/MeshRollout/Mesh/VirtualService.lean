import MeshRollout.Mesh.Meta

/-!
Virtual services: rules that send the requests for a host to destinations. The first rule whose
conditions hold decides; a rule without conditions always holds.
-/
set_option autoImplicit false

namespace MeshRollout

inductive StringMatch where
  | exact (s : String)
  | regex (s : String)
  deriving DecidableEq, Repr

namespace StringMatch

def read : Reading StringMatch :=
  .tagged [
    ("exact", fun v => (Reading.text v).map .exact),
    ("regex", fun v => (Reading.text v).map .regex)]

def toValue : StringMatch → Value
  | .exact s => .record [("exact", .str s)]
  | .regex s => .record [("regex", .str s)]

end StringMatch

/-- A condition on headers, all of which have to match. -/
structure HeaderMatch where
  headers : Dict StringMatch
  deriving DecidableEq, Repr

namespace HeaderMatch

def read : Reading HeaderMatch :=
  (HeaderMatch.mk <$> Fields.defaulted "headers" (.map StringMatch.read) []).read "HttpMatchRequest"

def toValue (m : HeaderMatch) : Value :=
  .object [
    ("headers",
      MeshMeta.unlessEmpty (fun d => .record (d.map fun p => (p.1, p.2.toValue))) m.headers)]

end HeaderMatch

structure Destination where
  host : String
  subset : Option String
  deriving DecidableEq, Repr

namespace Destination

def read : Reading Destination :=
  (Destination.mk <$> Fields.required "host" .text
    <*> Fields.optional "subset" .text).read "Destination"

def toValue (d : Destination) : Value :=
  .object [("host", some (.str d.host)), ("subset", d.subset.map .str)]

end Destination

structure WeightedDestination where
  destination : Destination
  weight : Option Nat
  deriving DecidableEq, Repr

namespace WeightedDestination

def read : Reading WeightedDestination :=
  (WeightedDestination.mk <$> Fields.required "destination" Destination.read
    <*> Fields.optional "weight" .nat32).read "HttpRouteDestination"

def toValue (d : WeightedDestination) : Value :=
  .object [("destination", some d.destination.toValue), ("weight", d.weight.map .nat)]

end WeightedDestination

/-- A rule holds if one of its conditions does. -/
structure HttpRule where
  name : String
  conditions : List HeaderMatch
  route : List WeightedDestination
  deriving DecidableEq, Repr

namespace HttpRule

def read : Reading HttpRule :=
  (HttpRule.mk <$> Fields.defaulted "name" .text ""
    <*> Fields.defaulted "match" (.list HeaderMatch.read) []
    <*> Fields.required "route" (.list WeightedDestination.read)).read "HttpRoute"

def toValue (r : HttpRule) : Value :=
  .object [
    ("match", MeshMeta.unlessEmpty (fun l => .list (l.map HeaderMatch.toValue)) r.conditions),
    ("name", if r.name.isEmpty then none else some (.str r.name)),
    ("route", some (.list (r.route.map WeightedDestination.toValue)))]

end HttpRule

structure VirtualServiceSpec where
  hosts : List String
  gateways : List String
  http : List HttpRule
  deriving DecidableEq, Repr

namespace VirtualServiceSpec

def kind : MeshKind :=
  ⟨"networking.istio.io/v1beta1", "VirtualService"⟩

def read : Reading VirtualServiceSpec :=
  (VirtualServiceSpec.mk <$> Fields.required "hosts" (.list .text)
    <*> Fields.defaulted "gateways" (.list .text) []
    <*> Fields.defaulted "http" (.list HttpRule.read) []).read "VirtualServiceSpec"

def toValue (s : VirtualServiceSpec) : Value :=
  .object [
    ("gateways", MeshMeta.unlessEmpty .strings s.gateways),
    ("hosts", some (.strings s.hosts)),
    ("http", some (.list (s.http.map HttpRule.toValue)))]

end VirtualServiceSpec

abbrev VirtualService := MeshObject VirtualServiceSpec

end MeshRollout
