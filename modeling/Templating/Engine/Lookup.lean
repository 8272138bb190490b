import Templating.Engine.Groups
import Templating.Template.Declaration

/-!
# Looking up a path

A path is answered from the cache as long as the entry is known to be good: by a change token, or,
where the source has none, by comparing fingerprints. Otherwise the file is compiled and the answer
kept. A file that is not there or not well formed is kept as missing, for a shorter time.
-/

namespace Templating.Engine

variable {W : Type}

/-- How the answer for a path is kept: it hangs off its group's partials, and either the token
tells when it is out of date or it is looked at again after a while. -/
def guarded (e : Engine W) (now : Instant) (g : Group) (token : Option Token)
    (sliding recheck : Duration) : Options (Poller W) where
  keys := [e.keys.config g]
  tokens := token.toList
  expiration := if token.isSome then .sliding sliding else .absolute (now + recheck)

/-- Keeps the note that there is no file. -/
def rememberMissing (e : Engine W) (now : Instant) (g : Group) (path : String)
    (token : Option Token) : Resolving W Unit := do
  let t := e.options.timings
  let _ ← Session.insert (Poller.moment now) (e.keys.path g path) .missing
    (e.guarded now g token t.missingSliding t.missingRetry)

/-- Keeps the note that a file is not well formed. It hangs off nothing and is soon forgotten. -/
def rememberBroken (e : Engine W) (now : Instant) (g : Group) (path : String) :
    Resolving W Unit := do
  let _ ← Session.insert (Poller.moment now) (e.keys.path g path) .missing
    { expiration := .absolute (now + e.options.timings.compileFailureRetry) }

/-- Keeps a compiled template, if the engine keeps views. -/
def rememberCompiled (e : Engine W) (now : Instant) (g : Group) (token : Option Token)
    (template : Template.Compiled) : Resolving W Unit := do
  match e.options.viewsSliding with
  | none => return
  | some sliding =>
    let _ ← Session.insert (Poller.moment now) (e.keys.path g template.path) (.compiled template)
      (e.guarded now g token sliding e.options.timings.viewRecheck)

/-- Compiles the file at a path. Without a token the result carries the file's fingerprint; when
that cannot be had, the result is not kept. -/
def compile (e : Engine W) (now : Instant) (g : Group) (c : GroupConfig) (path : String)
    (token : Option Token) : Resolving W (Option Template.Compiled) := do
  let compiled :=
    match ← Session.onScene (e.source.read path) with
    | .ok source =>
      ((c.library.compile path source).toOption).map fun render =>
        (render, (Template.Declaration.scan source).name?)
    | .error _ => none
  Session.note (.compiled .view compiled.isSome)
  match compiled with
  | none =>
    e.rememberBroken now g path
    return none
  | some (render, layout) =>
    if token.isSome then
      let template : Template.Compiled := ⟨path, render, none, layout⟩
      e.rememberCompiled now g token template
      return some template
    else
      match ← Session.onScene (e.source.fingerprint path) with
      | .error _ => return some ⟨path, render, none, layout⟩
      | .ok fingerprint =>
        let template : Template.Compiled := ⟨path, render, some fingerprint, layout⟩
        e.rememberCompiled now g token template
        return some template

/-- Asks the source about a path. The token is taken before anything else is asked. -/
def ask (e : Engine W) (now : Instant) (g : Group) (c : GroupConfig) (path : String) :
    Resolving W (Option Template.Compiled) := do
  let token ← Session.onScene (e.source.changeToken? path)
  if ← Session.onScene (e.source.isFile path) then e.compile now g c path token
  else
    e.rememberMissing now g path token
    return none

/-- Whether the file at a path still has a fingerprint. -/
def hasFingerprint (e : Engine W) (path expected : String) : Resolving W Bool := do
  match ← Session.onScene (e.source.fingerprint path) with
  | .ok current => return current == expected
  | .error _ => return false

def lookup (e : Engine W) (now : Instant) (g : Group) (c : GroupConfig) (path : String) :
    Resolving W (Option Template.Compiled) := do
  let key := e.keys.path g path
  match ← Session.get (Poller.moment now) key with
  | some .missing => return none
  | some (.compiled template) =>
    match template.fingerprint with
    | none => return some template
    | some expected =>
      if ← e.hasFingerprint path expected then return some template
      else
        let _ ← Session.remove (Poller.moment now) key
        e.ask now g c path
  | _ => e.ask now g c path

end Templating.Engine
