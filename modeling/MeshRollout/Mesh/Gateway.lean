import MeshRollout.Mesh.Meta

/-!
Gateways: where the edge of the mesh takes requests, and the hosts it takes them for.
-/
set_option autoImplicit false

namespace MeshRollout

structure GatewayPort where
  number : Nat
  name : String
  protocol : String
  deriving DecidableEq, Repr

namespace GatewayPort

def read : Reading GatewayPort :=
  (GatewayPort.mk <$> Fields.required "number" .nat16 <*> Fields.required "name" .text
    <*> Fields.required "protocol" .text).read "Port"

def toValue (p : GatewayPort) : Value :=
  .record [("name", .str p.name), ("number", .nat p.number), ("protocol", .str p.protocol)]

end GatewayPort

structure GatewayServer where
  entrance : GatewayPort
  hosts : List String
  deriving DecidableEq, Repr

namespace GatewayServer

def read : Reading GatewayServer :=
  (GatewayServer.mk <$> Fields.required "port" GatewayPort.read
    <*> Fields.required "hosts" (.list .text)).read "Server"

def toValue (s : GatewayServer) : Value :=
  .record [("hosts", .strings s.hosts), ("port", s.entrance.toValue)]

end GatewayServer

structure GatewaySpec where
  selector : Dict String
  servers : List GatewayServer
  deriving DecidableEq, Repr

namespace GatewaySpec

def kind : MeshKind :=
  ⟨"networking.istio.io/v1beta1", "Gateway"⟩

def read : Reading GatewaySpec :=
  (GatewaySpec.mk <$> Fields.required "selector" (.map .text)
    <*> Fields.required "servers" (.list GatewayServer.read)).read "GatewaySpec"

def toValue (s : GatewaySpec) : Value :=
  .record [
    ("selector", .ofTexts s.selector),
    ("servers", .list (s.servers.map GatewayServer.toValue))]

end GatewaySpec

abbrev Gateway := MeshObject GatewaySpec

end MeshRollout
