import MeshRollout.Mesh.Meta

/-!
Filters of the edge proxy: patches of its configuration that put a script in front of its router.
-/
set_option autoImplicit false

namespace MeshRollout

structure LuaConfig where
  typeUrl : String
  inlineCode : String
  deriving DecidableEq, Repr

namespace LuaConfig

def read : Reading LuaConfig :=
  (LuaConfig.mk <$> Fields.required "@type" .text
    <*> Fields.required "inline_code" .text).read "LuaTypedConfig"

def toValue (c : LuaConfig) : Value :=
  .record [("@type", .str c.typeUrl), ("inline_code", .str c.inlineCode)]

end LuaConfig

structure LuaFilter where
  name : String
  typedConfig : LuaConfig
  deriving DecidableEq, Repr

namespace LuaFilter

def read : Reading LuaFilter :=
  (LuaFilter.mk <$> Fields.required "name" .text
    <*> Fields.required "typed_config" LuaConfig.read).read "LuaHttpFilter"

def toValue (f : LuaFilter) : Value :=
  .record [("name", .str f.name), ("typed_config", f.typedConfig.toValue)]

def inline (code : String) : LuaFilter :=
  ⟨"envoy.filters.http.lua",
    ⟨"type.googleapis.com/envoy.extensions.filters.http.lua.v3.Lua", code⟩⟩

end LuaFilter

structure FilterPlace where
  name : String
  subFilter : Option String
  deriving DecidableEq, Repr

namespace FilterPlace

def readSub : Reading String :=
  (Fields.required "name" .text).read "SubFilterMatch"

def read : Reading FilterPlace :=
  (FilterPlace.mk <$> Fields.required "name" .text
    <*> Fields.optional "subFilter" readSub).read "FilterMatch"

def toValue (m : FilterPlace) : Value :=
  .object [
    ("name", some (.str m.name)),
    ("subFilter", m.subFilter.map fun s => .record [("name", .str s)])]

def readChain : Reading FilterPlace :=
  (Fields.required "filter" read).read "FilterChainMatch"

def readListener : Reading FilterPlace :=
  (Fields.required "filterChain" readChain).read "ListenerMatch"

def listener (m : FilterPlace) : Value :=
  .record [("filterChain", .record [("filter", m.toValue)])]

end FilterPlace

structure PatchPlace where
  context : String
  filter : FilterPlace
  deriving DecidableEq, Repr

namespace PatchPlace

def read : Reading PatchPlace :=
  (PatchPlace.mk <$> Fields.required "context" .text
    <*> Fields.required "listener" FilterPlace.readListener).read "EnvoyPatchMatch"

def toValue (p : PatchPlace) : Value :=
  .record [("context", .str p.context), ("listener", p.filter.listener)]

end PatchPlace

structure Patch where
  operation : String
  value : LuaFilter
  deriving DecidableEq, Repr

namespace Patch

def read : Reading Patch :=
  (Patch.mk <$> Fields.required "operation" .text
    <*> Fields.required "value" LuaFilter.read).read "EnvoyPatch"

def toValue (p : Patch) : Value :=
  .record [("operation", .str p.operation), ("value", p.value.toValue)]

end Patch

structure ConfigPatch where
  applyTo : String
  place : PatchPlace
  patch : Patch
  deriving DecidableEq, Repr

namespace ConfigPatch

def read : Reading ConfigPatch :=
  (ConfigPatch.mk <$> Fields.required "applyTo" .text <*> Fields.required "match" PatchPlace.read
    <*> Fields.required "patch" Patch.read).read "EnvoyConfigPatch"

def toValue (p : ConfigPatch) : Value :=
  .record [("applyTo", .str p.applyTo), ("match", p.place.toValue), ("patch", p.patch.toValue)]

end ConfigPatch

structure EnvoyFilterSpec where
  workloadLabels : Dict String
  configPatches : List ConfigPatch
  deriving DecidableEq, Repr

namespace EnvoyFilterSpec

def kind : MeshKind :=
  ⟨"networking.istio.io/v1alpha3", "EnvoyFilter"⟩

def readWorkload : Reading (Dict String) :=
  (Fields.required "labels" (.map .text)).read "WorkloadSelector"

def read : Reading EnvoyFilterSpec :=
  (EnvoyFilterSpec.mk <$> Fields.required "workloadSelector" readWorkload
    <*> Fields.required "configPatches" (.list ConfigPatch.read)).read "EnvoyFilterSpec"

def toValue (s : EnvoyFilterSpec) : Value :=
  .record [
    ("configPatches", .list (s.configPatches.map ConfigPatch.toValue)),
    ("workloadSelector", .record [("labels", .ofTexts s.workloadLabels)])]

end EnvoyFilterSpec

abbrev EnvoyFilter := MeshObject EnvoyFilterSpec

end MeshRollout
