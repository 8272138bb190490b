import Templating.Journal
import Templating.Signal

/-!
# The scene

Caches and engines work in a scene: the change signals, the journal, a supply of unique numbers,
and the world that the stores of template files live in. Time is counted in nanoseconds; the
present instant is an argument of what depends on it, since no operation moves the clock.
-/

namespace Templating

/-- A point in time, in nanoseconds. -/
abbrev Instant := Nat

/-- A span of time, in nanoseconds. -/
abbrev Duration := Nat

namespace Duration

def ofMicros (n : Nat) : Duration := n * 1000

def ofMillis (n : Nat) : Duration := n * 1000000

def ofSeconds (n : Nat) : Duration := n * 1000000000

end Duration

/-- What surrounds the caches. -/
structure Scene (W : Type) where
  signals : Signals := {}
  /-- What has happened, last first. -/
  journal : List Event := []
  /-- The next unique number. -/
  serial : Nat := 0
  world : W

namespace Scene

variable {W : Type}

def note (s : Scene W) (e : Event) : Scene W := { s with journal := e :: s.journal }

def noteIf (s : Scene W) (condition : Bool) (e : Event) : Scene W :=
  if condition then s.note e else s

/-- Takes a number that was not taken before. -/
def takeSerial (s : Scene W) : Nat × Scene W := (s.serial, { s with serial := s.serial + 1 })

end Scene

/-- A computation that may see and change the scene. -/
abbrev Act (W : Type) := StateM (Scene W)

end Templating
