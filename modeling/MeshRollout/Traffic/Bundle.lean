import MeshRollout.Mesh.EnvoyFilter
import MeshRollout.Mesh.Gateway
import MeshRollout.Object.Basic
import MeshRollout.Service.Flaw
import MeshRollout.Traffic.Rules

/-!
All objects that route one service: rules inside the mesh, rules at the edge with their gateway, the
subsets of the host, and the script that tags requests if the service is split.
-/
set_option autoImplicit false

namespace MeshRollout

def defaultEdgeSpace : String := "istio-system"

namespace MeshKind

def resource (k : MeshKind) : Resource :=
  .named k.apiVersion k.kind

end MeshKind

namespace MeshMeta

def nonempty {α : Type} (l : List α) : Option (List α) :=
  if l.isEmpty then none else some l

def toObjectMeta (m : MeshMeta) : ObjectMeta where
  name := some m.name
  space := some m.space
  labels := nonempty m.labels
  annotations := nonempty m.annotations
  ownerReferences := nonempty m.ownerReferences

end MeshMeta

def MeshObject.toObject {σ : Type} (spec : σ → Value) (o : MeshObject σ) : Object where
  types := some (o.apiVersion, o.kind)
  metadata := o.metadata.toObjectMeta
  data := [("spec", spec o.spec)]

structure Bundle where
  virtualService : VirtualService
  gateway : Gateway
  ingressService : VirtualService
  destinationRule : DestinationRule
  edgeFilter : Option EnvoyFilter
  deriving Repr

structure PlannedObject where
  resource : Resource
  object : Object
  deriving Repr

namespace Bundle

/-- The objects in the order in which they are written. -/
def objects (b : Bundle) : List PlannedObject :=
  [⟨VirtualServiceSpec.kind.resource, b.virtualService.toObject VirtualServiceSpec.toValue⟩,
   ⟨GatewaySpec.kind.resource, b.gateway.toObject GatewaySpec.toValue⟩,
   ⟨VirtualServiceSpec.kind.resource, b.ingressService.toObject VirtualServiceSpec.toValue⟩,
   ⟨DestinationRuleSpec.kind.resource, b.destinationRule.toObject DestinationRuleSpec.toValue⟩]
    ++ (b.edgeFilter.map fun f =>
        ⟨EnvoyFilterSpec.kind.resource, f.toObject EnvoyFilterSpec.toValue⟩).toList

def item {σ : Type} (k : MeshKind) (spec : σ → Value) (o : MeshObject σ) :
    Except Failure PlannedObject := do
  let object ← Object.ofValue (o.toValue spec)
  pure ⟨k.resource, object⟩

/-- The objects as they go to the cluster, each of them through its value. -/
def serialized (b : Bundle) : Except Failure (List PlannedObject) := do
  let virtualService ← item VirtualServiceSpec.kind VirtualServiceSpec.toValue b.virtualService
  let gateway ← item GatewaySpec.kind GatewaySpec.toValue b.gateway
  let ingressService ← item VirtualServiceSpec.kind VirtualServiceSpec.toValue b.ingressService
  let destinationRule ← item DestinationRuleSpec.kind DestinationRuleSpec.toValue b.destinationRule
  let written := [virtualService, gateway, ingressService, destinationRule]
  match b.edgeFilter with
  | none => pure written
  | some f =>
    let edgeFilter ← item EnvoyFilterSpec.kind EnvoyFilterSpec.toValue f
    pure (written ++ [edgeFilter])

/-- Marks metadata as produced for a route. The route can own objects of its own namespace only. -/
def own (o : Owner) (reference : Option OwnerReference) (m : MeshMeta) : MeshMeta :=
  let m := m.mark o
  match reference with
  | some r => if m.space = o.space then { m with ownerReferences := [r] } else m
  | none => m

def markedFor (o : Owner) (reference : Option OwnerReference) (b : Bundle) : Bundle where
  virtualService := { b.virtualService with metadata := own o reference b.virtualService.metadata }
  gateway := { b.gateway with metadata := own o reference b.gateway.metadata }
  ingressService := { b.ingressService with metadata := own o reference b.ingressService.metadata }
  destinationRule :=
    { b.destinationRule with metadata := own o reference b.destinationRule.metadata }
  edgeFilter := b.edgeFilter.map fun f => { f with metadata := own o reference f.metadata }

end Bundle

def edgeSelector : Dict String :=
  [("istio", "ingressgateway")]

namespace Service

def gatewayName (s : Service) : String :=
  s.name ++ "-gateway"

def ingressName (s : Service) : String :=
  s.name ++ "-ingress"

def filterName (s : Service) : String :=
  s.space ++ "." ++ s.name ++ ".bucketing"

def virtualService (s : Service) : VirtualService :=
  .new VirtualServiceSpec.kind { name := s.name, space := s.space } ⟨[s.host], [], s.rules⟩

def ingressService (s : Service) : VirtualService :=
  .new VirtualServiceSpec.kind { name := s.ingressName, space := s.space }
    ⟨[s.host], [s.gatewayName], s.rules⟩

def gateway (s : Service) : Gateway :=
  .new GatewaySpec.kind { name := s.gatewayName, space := s.space }
    ⟨edgeSelector, [⟨⟨80, "http", "HTTP"⟩, [s.host]⟩]⟩

def destinationRule (s : Service) : DestinationRule :=
  .new DestinationRuleSpec.kind { name := s.name, space := s.space }
    ⟨s.host, s.trafficPolicy, s.subsets⟩

/-- Where the script goes: in front of the router that takes the requests at the edge. -/
def scriptPlace : PatchPlace :=
  ⟨"GATEWAY",
    ⟨"envoy.filters.network.http_connection_manager", some "envoy.filters.http.router"⟩⟩

def edgeFilter (s : Service) (edgeSpace : String) (i : ScriptInput) : EnvoyFilter :=
  .new EnvoyFilterSpec.kind { name := s.filterName, space := edgeSpace }
    ⟨edgeSelector,
      [⟨"HTTP_FILTER", scriptPlace, ⟨"INSERT_BEFORE", LuaFilter.inline i.source⟩⟩]⟩

def bundle (s : Service) (edgeSpace : String) : Bundle where
  virtualService := s.virtualService
  gateway := s.gateway
  ingressService := s.ingressService
  destinationRule := s.destinationRule
  edgeFilter := s.scriptInput?.map (s.edgeFilter edgeSpace)

/-- The filter of a service that shares its requests. Without a canary there is no script for it. -/
def edgeFilter? (s : Service) (edgeSpace : String) : Except Failure (Option EnvoyFilter) :=
  if s.type.sharesRequests then
    match s.scriptInput? with
    | some i => .ok (some (s.edgeFilter edgeSpace i))
    | none =>
      let flaw := Flaw.twoRevisions s.type
      .error (.validation s.key flaw.message (some flaw.field))
  else .ok none

def routing (s : Service) (edgeSpace : String) : Except Failure Bundle := do
  s.validate
  let edgeFilter ← s.edgeFilter? edgeSpace
  pure { s.bundle edgeSpace with edgeFilter }

end Service

end MeshRollout
