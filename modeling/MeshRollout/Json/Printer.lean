import MeshRollout.Number.Shortest
import MeshRollout.Value

/-!
Writing JSON text without blanks.
-/
set_option autoImplicit false

namespace MeshRollout.Json

def escaped (c : Char) : String :=
  if c = '"' then "\\\""
  else if c = '\\' then "\\\\"
  else if c = '\n' then "\\n"
  else if c = '\r' then "\\r"
  else if c = '\t' then "\\t"
  else if c = '\x08' then "\\b"
  else if c = '\x0c' then "\\f"
  else if c.toNat < 0x20 then
    "\\u00" ++ String.ofList [Nat.digitChar (c.toNat / 16), Nat.digitChar (c.toNat % 16)]
  else c.toString

def string (s : String) : String :=
  s.foldl (fun t c => t ++ escaped c) "\"" ++ "\""

mutual

def write (out : String) : Value → String
  | .null => out ++ "null"
  | .bool b => out ++ (if b then "true" else "false")
  | .int n => out ++ toString n
  | .float x => out ++ (if x.isFinite then x.text else "null")
  | .str s => out ++ string s
  | .list vs => writeItems (out ++ "[") "" vs ++ "]"
  | .record fs => writeFields (out ++ "\x7b") "" fs ++ "\x7d"

def writeItems (out sep : String) : List Value → String
  | [] => out
  | v :: vs => writeItems (write (out ++ sep) v) "," vs

def writeFields (out sep : String) : List (String × Value) → String
  | [] => out
  | (k, v) :: fs => writeFields (write (out ++ sep ++ string k ++ ":") v) "," fs

end

def text (v : Value) : String :=
  write "" v

end MeshRollout.Json
