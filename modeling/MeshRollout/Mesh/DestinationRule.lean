import MeshRollout.Mesh.Meta

/-!
Destination rules: the subsets of a host and how traffic is shared among its instances.
-/
set_option autoImplicit false

namespace MeshRollout

structure ConsistentHash where
  httpHeaderName : String
  deriving DecidableEq, Repr

namespace ConsistentHash

def read : Reading ConsistentHash :=
  (ConsistentHash.mk <$> Fields.required "httpHeaderName" .text).read "ConsistentHashLb"

def toValue (h : ConsistentHash) : Value :=
  .record [("httpHeaderName", .str h.httpHeaderName)]

end ConsistentHash

structure LoadBalancer where
  consistentHash : ConsistentHash
  deriving DecidableEq, Repr

namespace LoadBalancer

def read : Reading LoadBalancer :=
  (LoadBalancer.mk <$> Fields.required "consistentHash" ConsistentHash.read).read
    "LoadBalancerSettings"

def toValue (b : LoadBalancer) : Value :=
  .record [("consistentHash", b.consistentHash.toValue)]

end LoadBalancer

structure EjectionPolicy where
  consecutive5xxErrors : Option Nat
  consecutiveGatewayErrors : Option Nat
  interval : Option String
  baseEjectionTime : String
  maxEjectionPercent : Nat
  minHealthPercent : Nat
  deriving DecidableEq, Repr

namespace EjectionPolicy

def read : Reading EjectionPolicy :=
  (EjectionPolicy.mk <$> Fields.optional "consecutive5xxErrors" .nat32
    <*> Fields.optional "consecutiveGatewayErrors" .nat32 <*> Fields.optional "interval" .text
    <*> Fields.required "baseEjectionTime" .text <*> Fields.required "maxEjectionPercent" .nat32
    <*> Fields.required "minHealthPercent" .nat32).read "OutlierDetectionPolicy"

def toValue (p : EjectionPolicy) : Value :=
  .object [
    ("baseEjectionTime", some (.str p.baseEjectionTime)),
    ("consecutive5xxErrors", p.consecutive5xxErrors.map .nat),
    ("consecutiveGatewayErrors", p.consecutiveGatewayErrors.map .nat),
    ("interval", p.interval.map .str),
    ("maxEjectionPercent", some (.nat p.maxEjectionPercent)),
    ("minHealthPercent", some (.nat p.minHealthPercent))]

end EjectionPolicy

structure TrafficPolicy where
  loadBalancer : Option LoadBalancer
  outlierDetection : Option EjectionPolicy
  deriving DecidableEq, Repr

namespace TrafficPolicy

def empty : TrafficPolicy := ⟨none, none⟩

def isEmpty (p : TrafficPolicy) : Bool :=
  p.loadBalancer.isNone && p.outlierDetection.isNone

def read : Reading TrafficPolicy :=
  (TrafficPolicy.mk <$> Fields.optional "loadBalancer" LoadBalancer.read
    <*> Fields.optional "outlierDetection" EjectionPolicy.read).read "TrafficPolicy"

def toValue (p : TrafficPolicy) : Value :=
  .object [
    ("loadBalancer", p.loadBalancer.map LoadBalancer.toValue),
    ("outlierDetection", p.outlierDetection.map EjectionPolicy.toValue)]

end TrafficPolicy

structure Subset where
  name : String
  labels : Dict String
  deriving DecidableEq, Repr

namespace Subset

def read : Reading Subset :=
  (Subset.mk <$> Fields.required "name" .text
    <*> Fields.required "labels" (.map .text)).read "Subset"

def toValue (s : Subset) : Value :=
  .record [("labels", .ofTexts s.labels), ("name", .str s.name)]

end Subset

structure DestinationRuleSpec where
  host : String
  trafficPolicy : TrafficPolicy
  subsets : List Subset
  deriving DecidableEq, Repr

namespace DestinationRuleSpec

def kind : MeshKind :=
  ⟨"networking.istio.io/v1beta1", "DestinationRule"⟩

def read : Reading DestinationRuleSpec :=
  (DestinationRuleSpec.mk <$> Fields.required "host" .text
    <*> Fields.defaulted "trafficPolicy" TrafficPolicy.read .empty
    <*> Fields.defaulted "subsets" (.list Subset.read) []).read "DestinationRuleSpec"

def toValue (s : DestinationRuleSpec) : Value :=
  .record [
    ("host", .str s.host),
    ("subsets", .list (s.subsets.map Subset.toValue)),
    ("trafficPolicy", s.trafficPolicy.toValue)]

end DestinationRuleSpec

abbrev DestinationRule := MeshObject DestinationRuleSpec

end MeshRollout
