/-!
# Change signals

A store hands out a token for a path that a caller wants to watch, and fires it once when the path
changes. A cache that keeps an entry with such a token subscribes its flag to it; firing raises the
flags of all subscribers, so that a cache learns of a change without asking every token.
-/

namespace Templating

/-- A change notification for one request to watch a path. -/
structure Token where
  id : Nat
  deriving DecidableEq

/-- The flag of one cache, raised when a token it holds has fired. -/
structure Flag where
  id : Nat
  deriving DecidableEq

/-- The state of all tokens and flags. -/
structure Signals where
  /-- How many tokens and flags were issued. -/
  issued : Nat := 0
  fired : List Token := []
  /-- Who is told when a token fires. -/
  listeners : List (Token × Flag) := []
  raised : List Flag := []

namespace Signals

def issueToken (s : Signals) : Token × Signals := (⟨s.issued⟩, { s with issued := s.issued + 1 })

def issueFlag (s : Signals) : Flag × Signals := (⟨s.issued⟩, { s with issued := s.issued + 1 })

def hasFired (s : Signals) (t : Token) : Bool := s.fired.contains t

def isRaised (s : Signals) (f : Flag) : Bool := s.raised.contains f

def raise (s : Signals) (f : Flag) : Signals :=
  if s.isRaised f then s else { s with raised := f :: s.raised }

def lower (s : Signals) (f : Flag) : Signals := { s with raised := s.raised.filter (· != f) }

def listenersOf (s : Signals) (t : Token) : List Flag :=
  (s.listeners.filter fun l => l.1 == t).map Prod.snd

/-- Fires a token. Its listeners are told once and then forgotten. -/
def fire (s : Signals) (t : Token) : Signals :=
  let told := (s.listenersOf t).foldl raise s
  { told with
    fired := if s.hasFired t then s.fired else t :: s.fired
    listeners := s.listeners.filter fun l => l.1 != t }

/-- Asks that `f` be raised when `t` fires; at once, if it has fired. -/
def subscribe (s : Signals) (t : Token) (f : Flag) : Signals :=
  if s.hasFired t then s.raise f
  else if s.listeners.contains (t, f) then s
  else { s with listeners := (t, f) :: s.listeners }

end Signals

end Templating
