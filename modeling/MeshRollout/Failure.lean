import MeshRollout.Text.Quoted
import MeshRollout.Text.Split

/-!
What can go wrong while routing is brought into the cluster. Faults of configuration stay until the
configuration changes; faults of the cluster and of transport may pass, so trying again makes sense.
-/
set_option autoImplicit false

namespace MeshRollout

structure ErrorResponse where
  status : String
  message : String
  reason : String
  code : Nat
  deriving DecidableEq, Repr

/-- An error of the cluster: an answer that reports it, no answer, a request that cannot be sent, or
an answer that cannot be read. -/
inductive ClusterError where
  | api (r : ErrorResponse)
  | service (text : String)
  | badRequest (text : String)
  | badAnswer (text : String)
  deriving DecidableEq, Repr

inductive Failure where
  | cluster (e : ClusterError)
  | validation (resource message : String) (field : Option String)
  | store (kind message : String)
  | conflict (kind space name message : String)
  | notReady (kind space name message : String)
  | decode (document : Nat) (message : String)
  | transport (endpoint message : String)
  | notification (message : String)
  | cancelled (stage : String)
  | serialization (message : String) (kind : Option String)
  | internal (context message : String)
  deriving DecidableEq, Repr

def ErrorResponse.account (r : ErrorResponse) : String :=
  "ApiError: " ++ r.message ++ ": " ++ r.reason ++ " (ErrorResponse \x7b status: "
    ++ Text.quoted r.status ++ ", message: " ++ Text.quoted r.message ++ ", reason: "
    ++ Text.quoted r.reason ++ ", code: " ++ toString r.code ++ " \x7d)"

namespace ClusterError

def message : ClusterError → String
  | .api r => r.account
  | .service text => "ServiceError: " ++ text
  | .badRequest text => "Error building request: failed to validate request: " ++ text
  | .badAnswer text => "Error deserializing response: " ++ text

/-- Conflicts, overload and faults of the server pass; other answers stay the same. -/
def retryable : ClusterError → Bool
  | .api r => r.code == 409 || r.code == 429 || decide (500 ≤ r.code)
  | _ => true

/-- The object asked for does not exist, whatever the code of the answer. -/
def isNotFound : ClusterError → Bool
  | .api r => r.reason == "NotFound"
  | _ => false

end ClusterError

namespace Failure

def unknown : String := "unknown"

/-- The word by which the cluster says that a prerequisite is missing. -/
def unconfiguredMark : String := "unconfigured"

def message : Failure → String
  | .cluster e => "kubernetes error: " ++ e.message
  | .validation resource message _ => "validation error for " ++ resource ++ ": " ++ message
  | .store kind message => "store error [" ++ kind ++ "]: " ++ message
  | .conflict kind space name message =>
    "conflict updating " ++ kind ++ " " ++ space ++ "/" ++ name ++ ": " ++ message
  | .notReady kind space name message =>
    kind ++ " " ++ space ++ "/" ++ name ++ " rejected, prerequisite not configured: " ++ message
  | .decode document message =>
    "decode error in document " ++ toString document ++ ": " ++ message
  | .transport endpoint message => "transport error [" ++ endpoint ++ "]: " ++ message
  | .notification message => "notification error: " ++ message
  | .cancelled stage => "cancelled during " ++ stage
  | .serialization message _ => "serialization error: " ++ message
  | .internal context message => "internal error [" ++ context ++ "]: " ++ message

def retryable : Failure → Bool
  | .cluster e => e.retryable
  | .validation .. | .decode .. | .serialization .. => false
  | _ => true

def awaitsPrerequisite : Failure → Bool
  | .notReady .. => true
  | _ => false

def isOfConfiguration : Failure → Bool
  | .validation .. => true
  | _ => false

def tellsUnconfigured (f : Failure) : Bool :=
  Text.contains unconfiguredMark.toList f.message.toList

def context : Failure → Option String
  | .internal context _ => some context
  | .cancelled stage => some stage
  | _ => none

end Failure

end MeshRollout
