import Templating.Bindings
import Templating.Sections

/-!
# Compiled templates

What an engine makes of a template source: a function from the data and the sections defined so
far to output and sections, with the path of the source, the layout that the source declares, and
a fingerprint of the source where it is needed to tell whether the source has changed.
-/

namespace Templating.Template

/-- What a template is rendered in. -/
structure Context where
  data : Bindings Json
  /-- The sections that earlier templates of the same rendering have defined. -/
  sections : Sections := .empty

/-- Produces output, and the sections with those that it defines. -/
abbrev RenderFn := Context → Except TemplateError (String × Sections)

/-- A template that is ready to render. -/
structure Compiled where
  path : String
  render : RenderFn
  fingerprint : Option String
  layout : Option String

end Templating.Template
