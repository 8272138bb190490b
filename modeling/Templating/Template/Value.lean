import Templating.Decimal.Style
import Templating.Json.Basic
import Templating.Text.Hidden

/-!
# Values in templates

What an expression evaluates to, how it is printed, and what it counts as. Numbers are always
printed positionally; strings stand as they are, but in quotes within a list or map. In templates
for markup, printed text is escaped unless it is marked as markup already.
-/

namespace Templating.Template

inductive Value
  | undefined
  | data (value : Json)
  /-- Text that is markup already. -/
  | markup (text : String)
  /-- A function, by its name. -/
  | function (name : String)

namespace Value

/-- Floats by themselves: never with an exponent, whole numbers with `.0`. -/
def realStyle : Decimal.Style := ⟨none, none, true, false⟩

/-- Floats within lists and maps. -/
def innerRealStyle : Decimal.Style := ⟨some (-3), some 16, true, false⟩

def quotedChar (c : Char) : List Char :=
  if c = '"' then ['\\', '"']
  else if c = '\\' then ['\\', '\\']
  else if c = '\n' then ['\\', 'n']
  else if c = '\r' then ['\\', 'r']
  else if c = '\t' then ['\\', 't']
  else if c.toNat = 0 then ['\\', '0']
  else if Text.isHidden c then ['\\', 'u', '\x7b'] ++ Nat.toDigits 16 c.toNat ++ ['\x7d']
  else [c]

def quoted (s : String) : String := String.ofList ('"' :: s.toList.flatMap quotedChar ++ ['"'])

mutual

/-- A value within a list or map. -/
def inner : Json → String
  | .null => "None"
  | .bool true => "True"
  | .bool false => "False"
  | .int n => toString n
  | .real x => innerRealStyle.render x
  | .str s => quoted s
  | .arr items => "[" ++ ", ".intercalate (innerItems items) ++ "]"
  | .obj members => "\x7b" ++ ", ".intercalate (innerMembers members) ++ "\x7d"

def innerItems : List Json → List String
  | [] => []
  | v :: items => inner v :: innerItems items

def innerMembers : List (String × Json) → List String
  | [] => []
  | (name, v) :: members => (quoted name ++ ": " ++ inner v) :: innerMembers members

end

def text : Value → String
  | undefined => ""
  | markup s | function s => s
  | data (.str s) => s
  | data (.real x) => realStyle.render x
  | data v => inner v

/-- Whether a template is one for markup, by its name: the part behind the last dot, where `.j2` at
the very end does not count. -/
def isMarkupName (name : String) : Bool :=
  let cs := name.toList.reverse
  let cs := if cs.take 3 = ['2', 'j', '.'] then cs.drop 3 else cs
  ["html", "htm", "xml"].contains (String.ofList (cs.takeWhile (· != '.')).reverse)

def escapedChar (c : Char) : List Char :=
  if c = '<' then "&lt;".toList
  else if c = '>' then "&gt;".toList
  else if c = '&' then "&amp;".toList
  else if c = '"' then "&quot;".toList
  else if c = '\'' then "&#x27;".toList
  else if c = '/' then "&#x2f;".toList
  else [c]

def escaped (s : String) : String := String.ofList (s.toList.flatMap escapedChar)

def printed (forMarkup : Bool) : Value → String
  | markup s => s
  | v => if forMarkup then escaped v.text else v.text

def isTrue : Value → Bool
  | undefined | data .null => false
  | function _ => true
  | data (.bool b) => b
  | data (.int n) => n != 0
  | data (.real x) => x != 0
  | data (.str s) | markup s => s != ""
  | data (.arr items) => !items.isEmpty
  | data (.obj members) => !members.isEmpty

/-- What kind of value it is, in messages. -/
def kind : Value → String
  | undefined => "undefined"
  | function _ => "plain object"
  | data .null => "none"
  | data (.bool _) => "bool"
  | data (.int _) | data (.real _) => "number"
  | data (.str _) | markup _ => "string"
  | data (.arr _) => "sequence"
  | data (.obj _) => "map"

/-- The attribute of a value other than `undefined`. -/
def attr (field : String) : Value → Value
  | data v => ((v.member? field).map data).getD undefined
  | _ => undefined

/-- The items that a loop goes through: those of a list, the names in a map, the characters of a
string. -/
def items? : Value → Option (List Value)
  | undefined | data .null => some []
  | data (.arr items) => some (items.map data)
  | data (.obj members) => some (members.map fun m => data (.str m.1))
  | data (.str s) | markup s => some (s.toList.map fun c => data (.str (String.singleton c)))
  | data (.bool _) | data (.int _) | data (.real _) | function _ => none

def isContainer : Value → Bool
  | data (.arr _) | data (.obj _) => true
  | _ => false

def string? : Value → Option String
  | data (.str s) | markup s => some s
  | _ => none

end Value

end Templating.Template
