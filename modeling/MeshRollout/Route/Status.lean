import MeshRollout.Shape.Fields

/-!
The status of a route: its phase, and conditions that remember when they last changed.
-/
set_option autoImplicit false

namespace MeshRollout

inductive ConditionStatus where
  | yes
  | no
  | unknown
  deriving DecidableEq, Repr

namespace ConditionStatus

def text : ConditionStatus → String
  | .yes => "True"
  | .no => "False"
  | .unknown => "Unknown"

def all : List ConditionStatus :=
  [.yes, .no, .unknown]

def ofBool (b : Bool) : ConditionStatus :=
  if b then .yes else .no

def read : Reading ConditionStatus :=
  .variant (all.map fun s => (s.text, s))

end ConditionStatus

structure Condition where
  type : String
  status : ConditionStatus
  reason : String
  message : String
  lastTransition : Instant
  deriving DecidableEq, Repr

namespace Condition

def readyType : String := "Ready"

/-- Keeps the time of the last change if the status is as it was before. -/
def since (c : Condition) (previous : List Condition) : Condition :=
  match previous.find? fun p => p.type == c.type && p.status == c.status with
  | some p => { c with lastTransition := p.lastTransition }
  | none => c

def read : Reading Condition :=
  (Condition.mk <$> Fields.required "type" .text <*> Fields.required "status" ConditionStatus.read
    <*> Fields.required "reason" .text <*> Fields.required "message" .text
    <*> Fields.required "lastTransitionTime" .instant).read "Condition"

def toValue (c : Condition) : Value :=
  .record [
    ("lastTransitionTime", .str c.lastTransition.text),
    ("message", .str c.message),
    ("reason", .str c.reason),
    ("status", .str c.status.text),
    ("type", .str c.type)]

end Condition

inductive Phase where
  | pending
  | ready
  | failed
  deriving DecidableEq, Repr

namespace Phase

def text : Phase → String
  | .pending => "Pending"
  | .ready => "Ready"
  | .failed => "Failed"

def all : List Phase :=
  [.pending, .ready, .failed]

def read : Reading Phase :=
  .variant (all.map fun p => (p.text, p))

end Phase

structure RouteStatus where
  phase : Phase := .pending
  message : Option String := none
  observedGeneration : Option Int := none
  conditions : List Condition := []
  deriving DecidableEq, Repr

namespace RouteStatus

def read : Reading RouteStatus :=
  (RouteStatus.mk <$> Fields.defaulted "phase" Phase.read .pending
    <*> Fields.optional "message" .text <*> Fields.optional "observedGeneration" .int64
    <*> Fields.defaulted "conditions" (.list Condition.read) []).read "IstioRouteStatus"

def toValue (s : RouteStatus) : Value :=
  .object [
    ("conditions", some (.list (s.conditions.map Condition.toValue))),
    ("message", s.message.map .str),
    ("observedGeneration", s.observedGeneration.map .int),
    ("phase", some (.str s.phase.text))]

end RouteStatus

end MeshRollout
