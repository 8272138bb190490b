import Templating.Json.Basic
import Templating.Scene

/-!
# Cache timings

How long the entries of an engine live and how often it looks again. Intervals of polling and
sweeping are at least one millisecond.
-/

namespace Templating

/-- Life times and intervals, in the units of their names. -/
structure Timings where
  pollMs : Nat := 5000
  missingRetryMs : Nat := 3000
  missingSlidingSecs : Nat := 900
  viewRecheckMs : Nat := 30000
  compileFailureRetryMs : Nat := 2000
  sweepMs : Nat := 1000
  deriving DecidableEq

namespace Timings

/-- Time between two looks at a group's partial folders. -/
def poll (t : Timings) : Duration := .ofMillis (max 1 t.pollMs)

/-- Life time of a note that a file is missing, where changes are not signalled. -/
def missingRetry (t : Timings) : Duration := .ofMillis t.missingRetryMs

/-- Time without a read after which a note that a file is missing is dropped, where changes are
signalled. -/
def missingSliding (t : Timings) : Duration := .ofSeconds t.missingSlidingSecs

/-- Life time of a compiled view where changes are not signalled. -/
def viewRecheck (t : Timings) : Duration := .ofMillis t.viewRecheckMs

/-- Life time of a note that a view did not compile. -/
def compileFailureRetry (t : Timings) : Duration := .ofMillis t.compileFailureRetryMs

def sweep (t : Timings) : Duration := .ofMillis (max 1 t.sweepMs)

/-- The timings with their names, as they are in force. -/
def report (t : Timings) : List (String × Nat) :=
  [("poll_interval_ms", max 1 t.pollMs), ("missing_retry_ms", t.missingRetryMs),
    ("missing_sliding_secs", t.missingSlidingSecs), ("view_recheck_ms", t.viewRecheckMs),
    ("compile_failure_retry_ms", t.compileFailureRetryMs), ("sweep_interval_ms", max 1 t.sweepMs)]

/-- A count: a whole number below `2 ^ 64`. -/
def count? : Json → Option Nat
  | .int (.ofNat n) => if n < Nat.pow 2 64 then some n else none
  | _ => none

/-- The count under `name`, or `default` when there is no such member. -/
def field? (members : List (String × Json)) (name : String) (default : Nat) : Option Nat :=
  match members.lookup name with
  | none => some default
  | some v => count? v

/-- Timings from an object, where each may be missing and other members are passed over, or from
an array, which gives them in order and may stop early. -/
def ofJson? : Json → Option Timings
  | .obj members => do
    let base : Timings := {}
    return {
      pollMs := ← field? members "poll_interval_ms" base.pollMs
      missingRetryMs := ← field? members "missing_retry_ms" base.missingRetryMs
      missingSlidingSecs := ← field? members "missing_sliding_secs" base.missingSlidingSecs
      viewRecheckMs := ← field? members "view_recheck_ms" base.viewRecheckMs
      compileFailureRetryMs := ← field? members "compile_failure_retry_ms"
        base.compileFailureRetryMs
      sweepMs := ← field? members "sweep_interval_ms" base.sweepMs }
  | .arr items => do
    let counts ← items.mapM count?
    let base : Timings := {}
    guard (counts.length ≤ 6)
    return {
      pollMs := counts.getD 0 base.pollMs
      missingRetryMs := counts.getD 1 base.missingRetryMs
      missingSlidingSecs := counts.getD 2 base.missingSlidingSecs
      viewRecheckMs := counts.getD 3 base.viewRecheckMs
      compileFailureRetryMs := counts.getD 4 base.compileFailureRetryMs
      sweepMs := counts.getD 5 base.sweepMs }
  | _ => none

end Timings

end Templating
