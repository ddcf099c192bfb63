import MeshRollout.Text.LowerCase
import MeshRollout.Text.Split
import MeshRollout.Value

/-!
Kinds of objects as the API server names them: group, version, kind and the plural that stands in
paths.
-/
set_option autoImplicit false

namespace MeshRollout

structure Resource where
  group : String
  version : String
  kind : String
  apiVersion : String
  plural : String
  deriving DecidableEq, Repr

namespace Resource

/-- Group and version; what has no slash is a version of the core group. -/
def splitVersion (apiVersion : String) : String × String :=
  match Text.splitOnce '/' apiVersion.toList with
  | some (group, version) => (String.ofList group, String.ofList version)
  | none => ("", apiVersion)

def pluralOf (kind : String) : String :=
  let lower := Text.lowerCase kind
  let cs := lower.toList
  let ends (s : String) : Bool := Text.endsWith s.toList cs
  if lower == "endpoints" then "endpoints"
  else if lower == "ingress" then "ingresses"
  else if ends "s" || ends "ch" || ends "sh" then lower ++ "es"
  else if ends "y" && !ends "ay" && !ends "ey" then String.ofList cs.dropLast ++ "ies"
  else lower ++ "s"

def named (apiVersion kind : String) : Resource :=
  let (group, version) := splitVersion apiVersion
  { group, version, kind, apiVersion, plural := pluralOf kind }

end Resource

end MeshRollout
