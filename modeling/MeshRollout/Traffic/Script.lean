import MeshRollout.Traffic.Tagging

/-!
The script that the edge runs to tag requests. It hashes the credential as the tags do, in one of
four forms: the session may stick to its bucket, and dependencies may have to be bound.
-/
set_option autoImplicit false

namespace MeshRollout

def clusterHost (name space : String) : String :=
  name ++ "." ++ space ++ ".svc.cluster.local"

def Service.host (s : Service) : String :=
  clusterHost s.name s.space

/-- Which script a service needs: whether sessions stick to their bucket, and whether dependencies
are bound. -/
structure ScriptForm where
  sticky : Bool
  binding : Bool
  deriving DecidableEq, Repr

namespace ScriptForm

def words (f : ScriptForm) : List String :=
  (if f.binding then ["dependent"] else []) ++ (if f.sticky then ["sticky"] else []) ++ ["canary"]

def text (f : ScriptForm) : String :=
  Text.joinWith "-" f.words

def fileName (f : ScriptForm) : String :=
  Text.joinWith "_" f.words ++ ".lua.j2"

def ofService? (s : Service) : Option ScriptForm :=
  if s.type.sharesRequests then some ⟨s.type = .stickyCanary, !s.dependencies.isEmpty⟩ else none

end ScriptForm

structure ScriptInput where
  form : ScriptForm
  host : String
  ratio : Nat
  stable : String
  canary : String
  dependencies : List (String × String)
  deriving DecidableEq, Repr

namespace ScriptInput

/-- Text as a literal of the script; it is not escaped. -/
def literal (s : String) : String :=
  "\"" ++ s ++ "\""

def replace (header value : String) : String :=
  "headers:replace(" ++ literal header ++ ", " ++ value ++ ")"

def prelude (i : ScriptInput) : List String := [
  "-- mesh-agent bucketing script for " ++ i.host ++ " (" ++ i.form.text ++ ")",
  "local HOST = " ++ literal i.host,
  "local RATIO = " ++ toString i.ratio,
  "local STABLE = " ++ literal i.stable,
  "local CANARY = " ++ literal i.canary,
  "",
  "local function targets_service(headers)",
  "  local authority = headers:get(\":authority\")",
  "  if authority == nil then",
  "    return false",
  "  end",
  "  authority = string.gsub(authority, \":%d+$\", \"\")",
  "  return authority == HOST",
  "end",
  "",
  "local function credential(headers)",
  "  local value = headers:get(" ++ literal Header.credential ++ ")",
  "  if value == nil then",
  "    return nil",
  "  end",
  "  local prefix = " ++ literal bearerMark,
  "  if string.sub(value, 1, string.len(prefix)) == prefix then",
  "    value = string.sub(value, string.len(prefix) + 1)",
  "  end",
  "  if value == \"\" then",
  "    return nil",
  "  end",
  "  return value",
  "end",
  "",
  "local function bucket(value)",
  "  local hash = 0",
  "  for i = 1, string.len(value) do",
  "    hash = (hash * " ++ toString hashBase ++ " + string.byte(value, i)) % "
    ++ toString bucketTotal,
  "  end",
  "  return hash",
  "end",
  "",
  "local function select_revision(b)",
  "  if b < RATIO then",
  "    return CANARY",
  "  end",
  "  return STABLE",
  "end"]

def binding (i : ScriptInput) : List String :=
  ["local function pin_dependencies(headers)"]
    ++ (i.dependencies.map fun (header, revision) => "  " ++ replace header (literal revision))
    ++ ["end", ""]

def handler (i : ScriptInput) : List String :=
  ["function envoy_on_request(request_handle)",
   "  local headers = request_handle:headers()",
   "  if not targets_service(headers) then",
   "    return",
   "  end"]
    ++ (if i.form.binding then ["  pin_dependencies(headers)"] else [])
    ++ (if i.form.sticky then ["  headers:remove(" ++ literal Header.session ++ ")"] else [])
    ++ ["  local token = credential(headers)",
        "  if token == nil then",
        "    " ++ replace Header.selector "STABLE",
        "    return",
        "  end"]
    ++ (if i.form.sticky then
          ["  local b = bucket(token)",
           "  " ++ replace Header.selector "select_revision(b)",
           "  " ++ replace Header.session "tostring(b)"]
        else ["  " ++ replace Header.selector "select_revision(bucket(token))"])
    ++ ["end"]

def lines (i : ScriptInput) : List String :=
  i.prelude ++ (if i.form.binding then i.binding else []) ++ i.handler

def source (i : ScriptInput) : String :=
  Text.joinWith "\n" i.lines

end ScriptInput

namespace Service

def scriptInput? (s : Service) : Option ScriptInput :=
  match ScriptForm.ofService? s, s.revisions with
  | some form, stable :: canary :: _ =>
    some {
      form, host := s.host, ratio := s.share, stable, canary
      dependencies := s.boundDependencies }
  | _, _ => none

end Service

end MeshRollout
