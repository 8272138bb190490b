import Templating.Cache.Keys
import Templating.Cache.Session
import Templating.Engine.Entry
import Templating.Engine.Partials

/-!
# Polling

Where changes are not signalled, a poller looks at a group's partial folders again whenever its
interval is over. It is the hook of a cache entry that holds a snapshot of the folders and expires
after the interval: if the folders are as they were, the entry is put back; if not, the group's
partials are evicted, so that the next request puts them together anew.
-/

namespace Templating

/-- What a poller needs to look again. -/
structure Poller (W : Type) where
  source : Source W
  extension : String
  interval : Duration

namespace Snapshot

variable {W : Type}

/-- Compares the files found now with the snapshot, and counts those whose digest is the same and
those ignored before. None if one differs. -/
def compare (snap : Snapshot) (s : Source W) (known ignored : Nat) :
    List String → Act W (Option (Nat × Nat))
  | [] => return some (known, ignored)
  | path :: paths => do
    match snap.fingerprints.lookup path with
    | some expected =>
      match ← s.fingerprint path with
      | .ok current =>
        if current = expected then snap.compare s (known + 1) ignored paths else return none
      | .error _ => return none
    | none =>
      if snap.ignored.contains path then snap.compare s known (ignored + 1) paths
      else return none

/-- Whether the folders are as they were: the same files with the same digests, and the same ones
ignored. -/
def isUnchanged (snap : Snapshot) (s : Source W) (extension : String) : Act W Bool := do
  let paths ← scanPartials s extension snap.folders
  return (← snap.compare s 0 0 paths) == some (snap.fingerprints.length, snap.ignored.length)

end Snapshot

namespace Poller

variable {W : Type}

/-- How a snapshot is kept: beside the partials it guards, until the interval is over. -/
def options (p : Poller W) (now : Instant) (configKey : String) : Options (Poller W) where
  keys := [configKey]
  expiration := .absolute (now + p.interval)
  hook := some p

/-- What happens when a snapshot leaves the cache. -/
def check (p : Poller W) (now : Instant) (snap : Snapshot) :
    Reason → Act W (Action Entry (Poller W))
  | .dependencyChanged => do
    modify fun scene => scene.note (.polled .released)
    return .remove [snap.configKey]
  | .expired => do
    if ← snap.isUnchanged p.source p.extension then
      modify fun scene => scene.note (.polled .rearmed)
      return .reinsert (.poll snap) (p.options now snap.configKey)
    else
      modify fun scene => scene.note (.polled .changed)
      return .remove [snap.configKey]

/-- The present, for a cache whose hooks are pollers. -/
def moment (now : Instant) : Moment Entry (Poller W) W where
  now
  decide := fun p _ value reason =>
    match value with
    | .poll snap => p.check now snap reason
    | _ => return .remove []

end Poller

/-- A computation over the cache of an engine. -/
abbrev Resolving (W : Type) := Work Entry (Poller W) W

end Templating
