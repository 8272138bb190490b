/-!
# Rows in ascending order

Lists of keys with values in which the keys ascend and none is there twice.
-/

namespace Templating.Sorted

/-- Puts a value under a key, in place of one that was there. -/
def put {α : Type} (key : String) (value : α) : List (String × α) → List (String × α)
  | [] => [(key, value)]
  | (k, v) :: rows =>
    if key = k then (key, value) :: rows
    else if key < k then (key, value) :: (k, v) :: rows
    else (k, v) :: put key value rows

/-- The rows with the given keys and values; of two with one key the later counts. -/
def ofList {α : Type} (rows : List (String × α)) : List (String × α) :=
  rows.foldl (fun acc (key, value) => put key value acc) []

end Templating.Sorted
