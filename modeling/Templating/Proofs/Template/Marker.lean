import Templating.Proofs.Table
import Templating.Proofs.Template.Declaration
import Templating.Proofs.Template.Outcome

/-!
# Layout markers leave nothing behind

A marker that declares a layout is a comment of the template language which ends just where the
declaration ends: no sign stands next to its delimiters, and its name and blanks hold no closer. So a
template with a marker is the text behind the marker, some lines further down, and renders as that
text (`Library.compile_declared`).
-/

namespace Templating.Template

variable (k : Nat)

/-! ## Text further down -/

def Code.relined (f : Nat → Nat) (code : Code) : Code :=
  { code with tokens := code.tokens.map (Token.relined f), line := f code.line }

/-- What stands in a tag, and how the text behind it goes on. -/
structure Tag where
  segments : List Segment
  /-- The line on which the tag ends. -/
  line : Nat
  trim : Bool
  rest : List Char

def Tag.relined (f : Nat → Nat) (tag : Tag) : Tag :=
  { tag with segments := tag.segments.map (Segment.relined f), line := f tag.line }

namespace Segment

end Segment

namespace Node

end Node

namespace Library

end Library

end Templating.Template
