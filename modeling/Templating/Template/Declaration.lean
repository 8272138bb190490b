import Templating.Text.Blank
import Templating.Text.Cut

/-!
# Layout declarations

A template may name its layout in a marker at its very start, `{#< name #}`. The marker is a
comment of the template language, so it leaves no trace in the output.
-/

namespace Templating.Template

/-- What the start of a template says about its layout. -/
inductive Declaration
  /-- There is no marker. -/
  | absent
  /-- The marker names a layout. -/
  | named (name : String)
  /-- There is a marker, but what it holds is no name. -/
  | malformed (text : String)
  deriving DecidableEq

namespace Declaration

def opener : List Char := ['\x7b', '#', '<']

/-- The end of a layout marker, and of any comment. -/
def closer : List Char := ['#', '\x7d']

def isNameStart (c : Char) : Bool := c.isAlpha || c == '_'

def isNameChar (c : Char) : Bool := c.isAlphanum || c == '_'

/-- An ASCII letter or underscore, then letters, digits and underscores. -/
def isName : List Char → Bool
  | [] => false
  | c :: cs => isNameStart c && cs.all isNameChar

def firstLine (cs : List Char) : List Char := cs.takeWhile (· != '\n')

def scan (source : String) : Declaration :=
  match Text.dropMark opener source.toList with
  | none => .absent
  | some rest =>
    match Text.breakOn closer rest with
    | none => .malformed (String.ofList (Text.trimChars (firstLine rest)))
    | some (inside, _) =>
      let name := Text.trimChars inside
      if isName name then .named (String.ofList name) else .malformed (String.ofList name)

def name? : Declaration → Option String
  | .named name => some name
  | _ => none

end Declaration

end Templating.Template
