/-!
# The journal

What happens in caches and engines is noted in a journal, event by event. The metrics are counts
over it.
-/

namespace Templating

/-- Why an entry leaves a cache by itself. -/
inductive Reason
  /-- Its own deadline has passed. -/
  | expired
  /-- A token it holds has fired, or an entry it depends on has left. -/
  | dependencyChanged
  deriving DecidableEq

/-- Why an entry was evicted. -/
inductive Cause
  | removed
  | expired
  | dependency
  deriving DecidableEq

def Reason.cause : Reason → Cause
  | .expired => .expired
  | .dependencyChanged => .dependency

/-- What a compiled template is for. -/
inductive TemplateKind
  | view
  | partialView
  deriving DecidableEq

inductive PollOutcome
  | rearmed
  | changed
  | released
  deriving DecidableEq

inductive Event
  | hit (key : String)
  | miss (key : String)
  /-- An entry was put into a cache. -/
  | stored (key : String)
  /-- An insertion dropped the entry that was there before. -/
  | replaced (key : String)
  /-- All entries, this many, were dropped at once. -/
  | cleared (count : Nat)
  | evicted (key : String) (cause : Cause)
  /-- The entry's hook was asked what to do. -/
  | consulted (key : String) (reason : Reason)
  | compiled (kind : TemplateKind) (ok : Bool)
  /-- A group's partials were put together. -/
  | built
  | polled (outcome : PollOutcome)
  deriving DecidableEq

inductive MetricUnit
  | count
  | milliseconds
  deriving DecidableEq

inductive Metric
  | cacheHit
  | cacheMiss
  | cacheEvict
  | viewCompile
  | groupBuild
  | pollCheck
  deriving DecidableEq

namespace Metric

def all : List Metric := [cacheHit, cacheMiss, cacheEvict, viewCompile, groupBuild, pollCheck]

def name : Metric → String
  | cacheHit => "vellum_cache_hit_total"
  | cacheMiss => "vellum_cache_miss_total"
  | cacheEvict => "vellum_cache_evict_total"
  | viewCompile => "vellum_view_compile_total"
  | groupBuild => "vellum_group_config_build_ms"
  | pollCheck => "vellum_poll_check_total"

def unit : Metric → MetricUnit
  | groupBuild => .milliseconds
  | _ => .count

def description : Metric → String
  | cacheHit => "Total number of view cache hits."
  | cacheMiss => "Total number of view cache misses."
  | cacheEvict => "Total number of view cache evictions, labelled by reason."
  | viewCompile => "Total number of view and partial compilations, labelled by kind and outcome."
  | groupBuild => "Group partial configuration build latency in milliseconds."
  | pollCheck => "Total number of partial folder poll checks, labelled by outcome."

end Metric

def MetricUnit.name : MetricUnit → String
  | .count => "count"
  | .milliseconds => "milliseconds"

namespace Event

def causeLabel : Cause → String
  | .removed => "removed"
  | .expired => "expired"
  | .dependency => "dependency"

def kindLabel : TemplateKind → String
  | .view => "view"
  | .partialView => "partial"

def outcomeLabel : PollOutcome → String
  | .rearmed => "rearmed"
  | .changed => "changed"
  | .released => "released"

/-- The metric that an event counts into, and its labels. -/
def metric? : Event → Option (Metric × List (String × String))
  | .hit _ => some (.cacheHit, [])
  | .miss _ => some (.cacheMiss, [])
  | .evicted _ cause => some (.cacheEvict, [("reason", causeLabel cause)])
  | .compiled kind ok =>
    some (.viewCompile, [("kind", kindLabel kind), ("outcome", if ok then "ok" else "error")])
  | .built => some (.groupBuild, [])
  | .polled outcome => some (.pollCheck, [("outcome", outcomeLabel outcome)])
  | _ => none

/-- The series that an event counts into: the name of its metric with its labels in braces. -/
def series? (e : Event) : Option String :=
  e.metric?.map fun (metric, labels) =>
    if labels.isEmpty then metric.name
    else
      let pairs := labels.map fun (label, value) => label ++ "=" ++ value
      metric.name ++ "\x7b" ++ ",".intercalate pairs ++ "\x7d"

end Event

/-- How often each series was counted in a journal. -/
def tally (journal : List Event) : List (String × Nat) :=
  let names := journal.filterMap Event.series?
  names.eraseDups.map fun name => (name, names.count name)

end Templating
