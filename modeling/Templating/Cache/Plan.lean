import Templating.Cache.Session

/-!
# Plans

A `Plan` says how an entry is to be inserted, with its expiry counted from the insertion, and what
is to happen when the entry leaves: for each reason, the removal of further keys or an insertion
under the same key, by another plan or the same one. A plan is data, so that a caller can set up
entries that renew themselves without writing a hook. The scene of a cache with plans keeps a log
of the entries that were asked.
-/

namespace Templating

inductive Lifetime
  | unlimited
  /-- From its insertion. -/
  | fixed (span : Duration)
  /-- From its last read. -/
  | sliding (window : Duration)

mutual

inductive Plan
  | mk (keys : List String) (tokens : List Token) (lifetime : Lifetime) (replies : Option Replies)

/-- What happens when an entry leaves for each of the two reasons. -/
inductive Replies
  | mk (expired dependencyChanged : Reply)

inductive Reply
  /-- Insert again; by default the same value, by the same plan. -/
  | reinsert (value : Option String) (plan : Option Plan)
  /-- Remove these keys too. -/
  | evict (keys : List String)

end

/-- An entry that was asked: its key, its value and why it left. -/
structure Farewell where
  key : String
  value : String
  reason : Reason

def Replies.reply : Replies → Reason → Reply
  | .mk expired _, .expired => expired
  | .mk _ dependencyChanged, .dependencyChanged => dependencyChanged

namespace Plan

/-- The options for an insertion at the given instant. The hook of an entry is its own plan. -/
def options (now : Instant) : Plan → Options (Plan × Replies)
  | .mk keys tokens lifetime replies =>
    { keys, tokens
      expiration :=
        match lifetime with
        | .unlimited => .never
        | .fixed span => .absolute (now + span)
        | .sliding window => .sliding window
      hook := replies.map fun r => (.mk keys tokens lifetime replies, r) }

/-- The decision about an entry inserted by `plan`. -/
def decide (now : Instant) (plan : Plan) (value : String) : Reply → Action String (Plan × Replies)
  | .evict keys => .remove keys
  | .reinsert value? plan? => .reinsert (value?.getD value) ((plan?.getD plan).options now)

/-- The present, for a cache whose hooks are plans. -/
def moment (now : Instant) : Moment String (Plan × Replies) (List Farewell) where
  now
  decide := fun (plan, replies) key value reason => do
    modify fun scene => { scene with world := ⟨key, value, reason⟩ :: scene.world }
    return plan.decide now value (replies.reply reason)

end Plan

end Templating
