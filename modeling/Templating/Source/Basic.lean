import Templating.Scene
import Templating.Source.Error

/-!
# Sources

A `Source` gives read access to template files under paths that start with `~/`. Its operations
act on a scene, in whose world the files live. A source that can tell of changes hands out change
tokens; for one that cannot, callers compare fingerprints.
-/

namespace Templating

/-- Access to template files in a world `W`. -/
structure Source (W : Type) where
  /-- Whether there is a file at a path. -/
  isFile : String → Act W Bool
  isFolder : String → Act W Bool
  /-- The paths of the files directly in a folder, in ascending order. -/
  list : String → Act W (List String)
  read : String → Act W (Except StoreError String)
  /-- A digest of a file's content. -/
  fingerprint : String → Act W (Except StoreError String)
  /-- A token that fires when the path, or for a folder anything in it, changes. -/
  watch : String → Act W (Except StoreError (Option Token))
  /-- No more files than this can be found in a world. -/
  capacity : W → Nat

namespace Source

variable {W U : Type}

/-- A token for a path, if the source hands one out. A failure counts as having none. -/
def changeToken? (s : Source W) (path : String) : Act W (Option Token) := do
  match ← s.watch path with
  | .ok token => return token
  | .error _ => return none

/-- An action on a part of the world, as one on the world. -/
def within {α : Type} (part : W → U) (update : W → U → W) (act : Act U α) : Act W α := fun scene =>
  let (a, inner) := act { scene with world := part scene.world }
  (a, { inner with world := update scene.world inner.world })

/-- A source in a part of the world, as one in the world. -/
def focus (part : W → U) (update : W → U → W) (s : Source U) : Source W where
  isFile path := within part update (s.isFile path)
  isFolder path := within part update (s.isFolder path)
  list path := within part update (s.list path)
  read path := within part update (s.read path)
  fingerprint path := within part update (s.fingerprint path)
  watch path := within part update (s.watch path)
  capacity w := s.capacity (part w)

end Source

end Templating
