import Templating.Decimal.Style
import Templating.Json.Basic
import Templating.Text.Hex

/-!
# Writing JSON

Compact text: no blanks, members in the order of the object. Strings escape quotes, backslashes
and control characters only. A float has a fraction or an exponent, so that it is not read back as
a whole number.
-/

namespace Templating.Json

/-- Floats in JSON text: positional from `0.00001` up to sixteen whole digits. -/
def realStyle : Decimal.Style := ⟨some (-4), some 16, true, true⟩

def escaped (c : Char) : List Char :=
  if c = '"' then ['\\', '"']
  else if c = '\\' then ['\\', '\\']
  else if c = '\n' then ['\\', 'n']
  else if c = '\r' then ['\\', 'r']
  else if c = '\t' then ['\\', 't']
  else if c.toNat = 8 then ['\\', 'b']
  else if c.toNat = 12 then ['\\', 'f']
  else if c.toNat < 0x20 then '\\' :: 'u' :: Text.hexDigits 4 c.toNat
  else [c]

def quoted (s : String) : String := String.ofList ('"' :: s.toList.flatMap escaped ++ ['"'])

mutual

def write : Json → String
  | .null => "null"
  | .bool true => "true"
  | .bool false => "false"
  | .int n => toString n
  | .real x => realStyle.render x
  | .str s => quoted s
  | .arr items => "[" ++ ",".intercalate (writeItems items) ++ "]"
  | .obj members => "\x7b" ++ ",".intercalate (writeMembers members) ++ "\x7d"

def writeItems : List Json → List String
  | [] => []
  | v :: items => write v :: writeItems items

def writeMembers : List (String × Json) → List String
  | [] => []
  | (name, v) :: members => (quoted name ++ ":" ++ write v) :: writeMembers members

end

end Templating.Json
