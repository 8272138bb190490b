import Templating.Table

/-!
# The dependency index

The index answers, for a key, which entries were built on it. It keeps the relation in both
directions: under each key its direct dependents, and under each dependent its parents. No key
stands there with an empty set.
-/

namespace Templating.Cache

/-- Which entries depend on which, in both directions. -/
structure Index where
  dependents : Table (List String) := .empty
  parents : Table (List String) := .empty

namespace Index

def dependentsOf (i : Index) (key : String) : List String := (i.dependents.get? key).getD []

def parentsOf (i : Index) (key : String) : List String := (i.parents.get? key).getD []

def addDependent (key : String) (dependents : Table (List String)) (parent : String) :
    Table (List String) :=
  let children := (dependents.get? parent).getD []
  dependents.put parent (if children.contains key then children else key :: children)

/-- Takes out a dependent of `parent`, and `parent` with its last dependent. -/
def dropDependent (key : String) (dependents : Table (List String)) (parent : String) :
    Table (List String) :=
  match dependents.get? parent with
  | none => dependents
  | some children =>
    let left := children.filter (· != key)
    if left.isEmpty then dependents.erase parent else dependents.put parent left

/-- Records that `key` depends on each of `parents`. -/
def register (i : Index) (key : String) (parents : List String) : Index :=
  if parents.isEmpty then i
  else
    { dependents := parents.foldl (addDependent key) i.dependents
      parents := i.parents.put key parents }

/-- Forgets what `key` depends on. What depends on `key` stays recorded. -/
def unregister (i : Index) (key : String) : Index :=
  match i.parents.get? key with
  | none => i
  | some parents =>
    { dependents := parents.foldl (dropDependent key) i.dependents
      parents := i.parents.erase key }

end Index

end Templating.Cache
