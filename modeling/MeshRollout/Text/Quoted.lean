import MeshRollout.Text.Hidden

/-!
Quoted text for messages: the quote and the backslash are escaped, the common controls have letters,
and every other hidden character is written by its number.
-/
set_option autoImplicit false

namespace MeshRollout.Text

def hexDigits (n : Nat) : String :=
  String.ofList (Nat.toDigits 16 n)

def quotedChar (quote c : Char) : String :=
  if c = quote then String.ofList ['\\', c]
  else if c = '\\' then "\\\\"
  else if c = '\n' then "\\n"
  else if c = '\r' then "\\r"
  else if c = '\t' then "\\t"
  else if c.toNat = 0 then "\\0"
  else if c.toNat < 0x7f then
    if c.toNat < 0x20 then "\\u\x7b" ++ hexDigits c.toNat ++ "\x7d" else c.toString
  else if hidden.holds c then "\\u\x7b" ++ hexDigits c.toNat ++ "\x7d"
  else c.toString

def quoted (s : String) : String :=
  "\"" ++ String.join (s.toList.map (quotedChar '"')) ++ "\""

def quotedSingle (c : Char) : String :=
  "'" ++ quotedChar (Char.ofNat 39) c ++ "'"

end MeshRollout.Text
