import Templating.Engine.Basic

/-!
# Putting a group's partials together

A group sees the templates of the site and its own partials. Of several partial files with one name
the first that is well formed counts, and none takes the place of a template of the site. What was
put together is kept until a watched file or folder changes; where there is nothing to watch, a
poller is set beside it.
-/

namespace Templating

variable {W : Type}

/-- A group's templates while they are put together. -/
structure Gathering where
  library : Template.Library
  /-- The tokens of folders and files. -/
  tokens : List Token
  partials : List String := []
  ignored : List String := []
  /-- The files that were read, well formed or not. -/
  attempted : List String := []

namespace Gathering

/-- The outcome of registering a partial file under a name: noted, and part of what was gathered. -/
def withPartial (g : Gathering) (name path : String) (token : Option Token)
    (registered : Option Template.Library) : Gathering :=
  { library := registered.getD g.library
    tokens := g.tokens ++ token.toList
    partials := if registered.isSome then g.partials ++ [name] else g.partials
    ignored := g.ignored
    attempted := g.attempted ++ [path] }

/-- Registers a partial file, unless its name is taken. The token is taken before the file is
read. -/
def add (s : Source W) (extension : String) (g : Gathering) (path : String) :
    Act W Gathering := do
  let name := partialName extension path
  if g.library.has name then return { g with ignored := g.ignored ++ [path] }
  else
    let token ← s.changeToken? path
    let registered :=
      match ← s.read path with
      | .ok source => (g.library.register name source).toOption
      | .error _ => none
    modify fun scene => scene.note (.compiled .partialView registered.isSome)
    return g.withPartial name path token registered

/-- Puts a group's templates together. The tokens of the folders are taken before the folders are
listed. -/
def gather (s : Source W) (extension : String) (site : Template.Library)
    (folders : List String) : Act W Gathering := do
  let tokens ← folders.filterMapM s.changeToken?
  let paths ← scanPartials s extension folders
  paths.foldlM (add s extension) { library := site, tokens }

def config (g : Gathering) : GroupConfig := ⟨g.library, g.partials, g.ignored⟩

/-- The digests of the files that were read, as far as they can be had. -/
def fingerprints (s : Source W) (g : Gathering) : Act W (List (String × String)) := do
  let digests ← g.attempted.filterMapM fun path => do
    match ← s.fingerprint path with
    | .ok digest => return some (path, digest)
    | .error _ => return none
  return Sorted.ofList digests

end Gathering

namespace Engine

def arm (e : Engine W) (now : Instant) (snap : Snapshot) : Resolving W Unit := do
  let serial ← Session.onScene (modifyGet Scene.takeSerial)
  let _ ← Session.insert (Poller.moment now) (KeySpace.poller snap.configKey serial) (.poll snap)
    (e.poller.options now snap.configKey)

/-- Puts a group's templates together and keeps them. -/
def build (e : Engine W) (now : Instant) (g : Group) : Resolving W GroupConfig := do
  let key := e.keys.config g
  let global ← e.ensureGlobal now
  let folders := e.options.folders.partialFolders g
  let found ← Session.onScene (Gathering.gather e.source e.options.extension e.site folders)
  let stored ← Session.insert (Poller.moment now) key (.config found.config)
    { keys := [global], tokens := found.tokens }
  if found.tokens.isEmpty && stored then
    let fingerprints ← Session.onScene (found.fingerprints e.source)
    e.arm now ⟨folders, fingerprints, found.ignored.eraseDups, key⟩
  Session.note .built
  return found.config

/-- The partials of a group, from the cache if they are there. -/
def cachedConfig? (e : Engine W) (now : Instant) (g : Group) :
    Resolving W (Option GroupConfig) := do
  match ← Session.get (Poller.moment now) (e.keys.config g) with
  | some (.config c) => return some c
  | _ => return none

/-- The partials of a group. The cache is asked twice before they are put together, since another
request may have just done so. -/
def config (e : Engine W) (now : Instant) (g : Group) : Resolving W GroupConfig := do
  match ← e.cachedConfig? now g with
  | some c => return c
  | none =>
    match ← e.cachedConfig? now g with
    | some c => return c
    | none => e.build now g

end Engine

end Templating
