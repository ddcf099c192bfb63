import MeshRollout.Failure
import MeshRollout.Json.Span
import MeshRollout.Resource
import MeshRollout.ApiServer.StatusCode
import MeshRollout.Shape.Fields

/-!
Requests to the API server and what its replies mean. An exchange is a tree: it is done, or it sends
a request and goes on with the reply.
-/
set_option autoImplicit false

namespace MeshRollout

inductive Method where
  | get
  | post
  | put
  | patch
  | delete
  deriving DecidableEq, Repr

def Method.text : Method → String
  | .get => "GET"
  | .post => "POST"
  | .put => "PUT"
  | .patch => "PATCH"
  | .delete => "DELETE"

structure Payload where
  contentType : String
  value : Value
  deriving Repr

structure Request where
  method : Method
  path : String
  query : List (String × String) := []
  payload : Option Payload := none
  deriving Repr

inductive Reply where
  | answer (status : Nat) (body : String)
  | failure (text : String)
  deriving DecidableEq, Repr

inductive Exchange (α : Type) where
  | done (x : α)
  | send (q : Request) (next : Reply → Exchange α)

namespace Exchange
variable {α β σ : Type}

protected def bind (e : Exchange α) (f : α → Exchange β) : Exchange β :=
  match e with
  | .done x => f x
  | .send q next => .send q fun r => (next r).bind f

instance : Monad Exchange where
  pure := .done
  bind := Exchange.bind

def run (reply : Request → σ → Reply × σ) : Exchange α → σ → α × σ
  | .done x, s => (x, s)
  | .send q next, s =>
    let (r, s) := reply q s
    (next r).run reply s

end Exchange

abbrev Dialogue (α : Type) := ExceptT ClusterError Exchange α

namespace Resource

def path (r : Resource) (space : Option String) : String :=
  (if r.group.isEmpty then "/api/" else "/apis/") ++ r.apiVersion ++ "/"
    ++ (space.map fun s => "namespaces/" ++ s ++ "/").getD "" ++ r.plural

def objectPath (r : Resource) (space : Option String) (name : String) : String :=
  r.path space ++ "/" ++ name

end Resource

namespace ErrorResponse

def read : Reading ErrorResponse :=
  (ErrorResponse.mk <$> Fields.required "status" .text <*> Fields.defaulted "message" .text ""
    <*> Fields.defaulted "reason" .text "" <*> Fields.required "code" .nat16).read "ErrorResponse"

/-- The error that a reply reports; a body of another form is quoted. -/
def ofReply (status : Nat) (body : String) : ErrorResponse :=
  match (Json.read? body).map read with
  | some (.ok r) => r
  | _ => ⟨StatusCode.text status, Text.quoted body, "Failed to parse error data", status⟩

end ErrorResponse

namespace Reply

def body : Reply → Except ClusterError String
  | .failure text => .error (.service text)
  | .answer status body =>
    if StatusCode.isError status then .error (.api (.ofReply status body)) else .ok body

def decode {α : Type} (read : Reading α) (r : Reply) : Except ClusterError α := do
  let text := (← r.body).toList
  let v ← (Json.whole text).mapError fun stop => .badAnswer (stop.message text)
  (read v).mapError fun m => .badAnswer (Json.locate text m)

end Reply

namespace Dialogue
variable {α : Type}

def ofExcept (r : Except ClusterError α) : Dialogue α :=
  ExceptT.mk (.done r)

def ask (q : Request) (read : Reading α) : Dialogue α :=
  ExceptT.mk (.send q fun r => .done (r.decode read))

def json (v : Value) : Option Payload :=
  some ⟨"application/json", v⟩

def checkName (name : String) : Dialogue Unit :=
  if name.isEmpty then throw (.badRequest "A non-empty name is required") else pure ()

/-- The longest name of a manager in bytes. -/
def maxManager : Nat := 128

def checkManager (manager : String) : Dialogue Unit :=
  if manager.utf8ByteSize > maxManager then
    throw (.badRequest "Failed to validate PatchParams::field_manager!")
  else pure ()

/-- What is not found counts as absent. -/
def found (d : Dialogue α) : Dialogue (Option α) := do
  let attempt : Exchange (Except ClusterError α) := d
  match ← ExceptT.lift attempt with
  | .ok x => return some x
  | .error e => if e.isNotFound then return none else throw e

end Dialogue

end MeshRollout
