import Templating.Group
import Templating.Text.Hex

/-!
# Keys

Engines that share a cache keep their entries apart by a leading text of their own. Behind it, a
key names the group and what is stored for it: the group's partials under the word `config`, and
templates under their paths, which start with `~/`.
-/

namespace Templating

/-- The keys of one engine. -/
structure KeySpace where
  /-- The text in front of every key. -/
  keyPrefix : String
  deriving DecidableEq

namespace KeySpace

/-- A space of its own for each number. -/
def unique (serial : Nat) : KeySpace := ⟨"space-" ++ Text.hex 32 serial⟩

/-- The key of the entry that all others hang off. -/
def global (k : KeySpace) : String := s!"{k.keyPrefix}:global"

/-- The key of what is stored for a group under a path. -/
def path (k : KeySpace) (g : Group) (p : String) : String := s!"{k.keyPrefix}:{g.display}:{p}"

def config (k : KeySpace) (g : Group) : String := k.path g "config"

/-- A key for the poller beside a group's partials, different for each number. -/
def poller (configKey : String) (serial : Nat) : String := configKey ++ Text.hex 32 serial

end KeySpace

end Templating
