import Templating.Cache.Timings
import Templating.Engine.Poller
import Templating.Failure
import Templating.Folders

/-!
# Engines

An engine finds, compiles and caches the templates of one source. Several engines may share a
cache; each keeps to its own keys, all of which hang off its global key, so that dropping that
entry drops everything the engine has cached.
-/

namespace Templating

/-- How an engine looks for templates and keeps them. -/
structure EngineOptions where
  folders : FolderNames := {}
  /-- The extension of template files, with its dot. -/
  extension : String := ".hbs"
  /-- How long a compiled view lives after its last use; none means that views are not kept. -/
  viewsSliding : Option Duration := some (.ofSeconds 300)
  /-- The text in front of all keys; none asks for one of the engine's own. -/
  keyPrefix : Option String := none
  timings : Timings := {}

structure Engine (W : Type) where
  source : Source W
  /-- The templates of the whole site. -/
  site : Template.Library
  options : EngineOptions
  keys : KeySpace

namespace Engine

variable {W : Type}

/-- The poller that guards the engine's groups. -/
def poller (e : Engine W) : Poller W :=
  ⟨e.source, e.options.extension, e.options.timings.poll⟩

/-- Makes sure that the entry is there that all others hang off. -/
def ensureGlobal (e : Engine W) (now : Instant) : Resolving W String := do
  let _ ← Session.insertIfAbsent (Poller.moment now) e.keys.global .global {}
  return e.keys.global

def clear (e : Engine W) (now : Instant) : Resolving W Unit := do
  let _ ← Session.remove (Poller.moment now) e.keys.global
  let _ ← Session.insert (Poller.moment now) e.keys.global .global {}

/-- Refuses options that no engine can work with. -/
def checkOptions (options : EngineOptions) : Except ViewError Unit :=
  if options.extension.utf8ByteSize < 2 || options.extension.toList.head? != some '.' then
    .error (.invalidArgument "extension"
      s!"`{options.extension}` must be a dot followed by a name")
  else if options.keyPrefix = some "" then
    .error (.invalidArgument "key_prefix" "must not be empty")
  else .ok ()

/-- An engine over a source, with the templates of its site. -/
def create (source : Source W) (site : Template.Library) (options : EngineOptions)
    (now : Instant) : Resolving W (Except ViewError (Engine W)) := do
  match checkOptions options with
  | .error e => return .error e
  | .ok () =>
    let keys ←
      match options.keyPrefix with
      | some text => pure ⟨text⟩
      | none => KeySpace.unique <$> Session.onScene (modifyGet Scene.takeSerial)
    let engine : Engine W := ⟨source, site, options, keys⟩
    let _ ← engine.ensureGlobal now
    return .ok engine

def requireName (field value : String) : Except ViewError Unit :=
  if Text.trim value = "" then .error (.invalidArgument field "must not be empty") else .ok ()

/-- Registers a template for the whole site. It takes the place of partials with its name, so all
that was cached is dropped. -/
def register (e : Engine W) (now : Instant) (name source : String) :
    Resolving W (Except ViewError (Engine W)) := do
  match requireName "name" name with
  | .error err => return .error err
  | .ok () =>
    match e.site.register name source with
    | .error err => return .error (.template err)
    | .ok site =>
      e.clear now
      return .ok { e with site }

end Engine

end Templating
