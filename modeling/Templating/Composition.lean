import Templating.Template.Compiled

/-!
# Views with layouts

A view is rendered first; then each of its layouts, innermost first, finds the output so far as the
value `body` among the data. All of them share one store of sections. The first template that fails
ends the rendering.
-/

namespace Templating

open Template (Compiled Context)

/-- A view and the layouts around it, innermost first. -/
structure Composition where
  view : Compiled
  layouts : List Compiled

namespace Composition

def chain (c : Composition) : List String := (c.view :: c.layouts).map Compiled.path

/-- Wraps `output` into layouts. -/
def wrap (output : String) (context : Context) : List Compiled → Except TemplateError String
  | [] => .ok output
  | layout :: layouts => do
    let data := context.data.insert Bindings.bodyName (.str output)
    let (output, sections) ← layout.render { context with data }
    wrap output ⟨data, sections⟩ layouts

def render (c : Composition) (data : Bindings Json) : Except TemplateError String := do
  let (output, sections) ← c.view.render { data }
  wrap output ⟨data, sections⟩ c.layouts

end Composition

end Templating
