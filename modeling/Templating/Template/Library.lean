import Templating.Template.Compiled
import Templating.Template.Render

/-!
# Libraries of templates

A library knows named templates and global values. A template is compiled against the library as
it is at that time: what is registered later does not change what was compiled before. A source
that is not well formed is refused and leaves the library as it was.
-/

namespace Templating.Template

/-- Named templates and the values known to all of them. -/
structure Library where
  templates : Table (List Node) := .empty
  globals : Table String := .empty

namespace Library

/-- Whether a template of this name is registered. -/
def has (l : Library) (name : String) : Bool := l.templates.contains name

/-- Adds a template, in place of one with the same name. -/
def register (l : Library) (name source : String) : Except TemplateError Library :=
  match Node.ofSource? source with
  | some nodes => .ok { l with templates := l.templates.put name nodes }
  | none => .error (.compile name "the source is not a well-formed template")

/-- Renders nodes as those of the named template. `room` bounds how many templates may still be
embedded in one another. -/
def renderNodes (l : Library) (data : Bindings Json) (room : Nat) (name : String)
    (nodes : List Node) (p : Progress) : Except Fault Progress :=
  match room with
  | 0 => .error (.at .recursionLimit name 1)
  | room + 1 =>
    Setting.renderNodes
      { template := name
        data
        globals := l.globals
        find := l.templates.get?
        embed := renderNodes l data room }
      {} p nodes

/-- How many templates can be embedded in one another, and one more. -/
def room : Nat := maxDepth / embedCost + 1

def render (l : Library) (name : String) (nodes : List Node) : RenderFn := fun context =>
  match l.renderNodes context.data room name nodes { sections := context.sections } with
  | .ok p => .ok (p.output, p.sections)
  | .error fault => .error (.render name fault.message)

/-- Compiles a template under its path. It sees the library with itself added. -/
def compile (l : Library) (path source : String) : Except TemplateError RenderFn :=
  match Node.ofSource? source with
  | some nodes => .ok (render { l with templates := l.templates.put path nodes } path nodes)
  | none => .error (.compile path "the source is not a well-formed template")

end Library

end Templating.Template
