import MeshRollout.Desired.Alignment
import MeshRollout.Text.Blank
import MeshRollout.Traffic.Bundle

/-!
The settings of the agent. They are checked before anything is done with them.
-/
set_option autoImplicit false

namespace MeshRollout

structure Settings where
  /-- Under which name the agent finds its manifest. -/
  agentName : Option String := none
  /-- Where manifests are found; without it the desired state is left alone. -/
  desiredStateUrl : Option String := none
  syncIntervalSeconds : Nat := 60
  edgeSpace : String := defaultEdgeSpace
  /-- Under which name objects are written. -/
  fieldManager : String := "mesh-agent"
  deriving DecidableEq, Repr

inductive SettingFlaw where
  | noInterval
  | noEdgeSpace
  | noFieldManager
  | badUrl (url : String)
  | noAgentName
  deriving DecidableEq, Repr

namespace SettingFlaw

def field : SettingFlaw → String
  | .noInterval => "sync_interval_secs"
  | .noEdgeSpace => "edge_namespace"
  | .noFieldManager => "field_manager"
  | .badUrl _ => "desired_state_url"
  | .noAgentName => "agent_name"

def message : SettingFlaw → String
  | .noInterval => "must be greater than zero"
  | .noEdgeSpace | .noFieldManager => "cannot be empty"
  | .badUrl url => "must be an http or https URL: " ++ url
  | .noAgentName => "required when desired_state_url is set"

def failure (f : SettingFlaw) : Failure :=
  .validation "OperatorConfig" f.message (some f.field)

end SettingFlaw

namespace Settings

def isBlank (s : String) : Bool :=
  Text.isBlankText s.toList

def isWebUrl (url : String) : Bool :=
  Text.startsWith "http://".toList url.toList || Text.startsWith "https://".toList url.toList

def urlFlaw? (s : Settings) : Option SettingFlaw :=
  match s.desiredStateUrl with
  | none => none
  | some url =>
    if !isWebUrl url then some (.badUrl url)
    else if (s.agentName.map isBlank).getD true then some .noAgentName
    else none

def flaw? (s : Settings) : Option SettingFlaw :=
  if s.syncIntervalSeconds = 0 then some .noInterval
  else if isBlank s.edgeSpace then some .noEdgeSpace
  else if isBlank s.fieldManager then some .noFieldManager
  else s.urlFlaw?

def validate (s : Settings) : Except Failure Unit :=
  match s.flaw? with
  | some f => .error f.failure
  | none => .ok ()

def hasManifest (s : Settings) : Bool :=
  s.desiredStateUrl.isSome

def syncMillis (s : Settings) : Nat :=
  s.syncIntervalSeconds * 1000

def manifestPlace (s : Settings) : Except Failure (Option String) :=
  match s.desiredStateUrl, s.agentName with
  | some url, some agent => .ok (some (Alignment.manifestAddress url agent))
  | some _, none => .error SettingFlaw.noAgentName.failure
  | none, _ => .ok none

end Settings

end MeshRollout
