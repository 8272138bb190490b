import Templating.Composition
import Templating.Engine.Lookup

/-!
# Resolving names

A name is looked for in the folders of a group, in order. A name that starts with `~/` is a path of
its own and must carry the template extension. Layouts follow one another, each declared by the one
before it, until one declares none; a path that comes up a second time is an error. That bounds the
chain: no more layouts can be found than there are files, cached templates and folders to look in.
-/

namespace Templating

inductive Resolution
  | found (view : Composition)
  /-- The paths that were tried, in order. -/
  | notFound (searched : List String)

namespace Engine

variable {W : Type}

def candidates (e : Engine W) (name : String) (folders : List String) : List String :=
  if Text.startsWith rootMark name then
    if hasExtension e.options.extension name then [name] else []
  else folders.map fun folder => folder ++ name ++ e.options.extension

/-- The template at the first of some paths where there is one, and the paths tried for it behind
those tried before. -/
def search (e : Engine W) (now : Instant) (g : Group) (c : GroupConfig) (searched : List String) :
    List String → Resolving W (Option Template.Compiled × List String)
  | [] => return (none, searched)
  | path :: paths => do
    match ← e.lookup now g c path with
    | some template => return (some template, searched ++ [path])
    | none => search e now g c (searched ++ [path]) paths

/-- Adds layouts to a view, from the one called `next` on. -/
def follow (e : Engine W) (now : Instant) (g : Group) (c : GroupConfig) :
    (fuel : Nat) → (view : Template.Compiled) → (layouts : List Template.Compiled) →
      (searched : List String) → (next : Option String) →
      Resolving W (Except ViewError Resolution)
  | _, view, layouts, _, none => return .ok (.found ⟨view, layouts⟩)
  | 0, _, _, searched, some _ => return .ok (.notFound searched)
  | fuel + 1, view, layouts, searched, some name => do
    let paths := e.candidates name (e.options.folders.layoutFolders g)
    let (layout?, searched) ← e.search now g c searched paths
    match layout? with
    | none => return .ok (.notFound searched)
    | some layout =>
      if layouts.any (·.path == layout.path) then
        return .error (.recursiveLayout name layout.path)
      else follow e now g c fuel view (layouts ++ [layout]) searched layout.layout

/-- More layouts than can be found. -/
def chainBound (e : Engine W) (g : Group) (s : Session Entry (Poller W) W) : Nat :=
  (e.options.folders.layoutFolders g).length * e.source.capacity s.scene.world + s.cache.size + 2

/-- Resolves a view and its layouts. The first layout is the given one, unless it is empty, and
otherwise the one that the view declares. -/
def resolve (e : Engine W) (now : Instant) (g : Group) (name : String)
    (layout : Option String) : Resolving W (Except ViewError Resolution) := do
  match requireName "name" name with
  | .error err => return .error err
  | .ok () =>
    let c ← e.config now g
    let paths := e.candidates name (e.options.folders.viewFolders g)
    match ← e.search now g c [] paths with
    | (none, searched) => return .ok (.notFound searched)
    | (some view, searched) =>
      let first := (layout.filter (· != "")).or view.layout
      e.follow now g c (e.chainBound g (← get)) view [] searched first

def resolvePartial (e : Engine W) (now : Instant) (g : Group) (name : String) :
    Resolving W (Except ViewError Resolution) := do
  match requireName "name" name with
  | .error err => return .error err
  | .ok () =>
    let c ← e.config now g
    let paths := e.candidates name (e.options.folders.viewFolders g)
    match ← e.search now g c [] paths with
    | (none, searched) => return .ok (.notFound searched)
    | (some view, _) => return .ok (.found ⟨view, []⟩)

def resolvePath (e : Engine W) (now : Instant) (g : Group) (path : String) :
    Resolving W (Except ViewError (Option Template.Compiled)) := do
  match requireName "path" path with
  | .error err => return .error err
  | .ok () =>
    let c ← e.config now g
    return .ok (← e.lookup now g c path)

end Engine

end Templating
