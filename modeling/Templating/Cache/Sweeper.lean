import Templating.Cache.Session

/-!
# Sweeping

A sweeper purges a cache at fixed intervals, so that entries leave also when nobody reads.
-/

namespace Templating

/-- Purges at every whole multiple of the period after its start. -/
structure Sweeper where
  start : Instant
  period : Duration

namespace Sweeper

/-- The instants after `since` and up to `till` at which a purge is due, in order. -/
def ticks (w : Sweeper) (since till : Instant) : List Instant :=
  let done := (since - w.start) / w.period
  let due := (till - w.start) / w.period
  (List.range' (done + 1) (due - done)).map fun k => w.start + k * w.period

variable {V C W : Type}

/-- Lets time pass from `since` till `till` with a purge at every tick on the way. -/
def pass (w : Sweeper) (moment : Instant → Moment V C W) (since till : Instant)
    (s : Session V C W) : Session V C W :=
  (w.ticks since till).foldl (fun s tick => (Session.purge (moment tick) s).2) s

end Sweeper

end Templating
