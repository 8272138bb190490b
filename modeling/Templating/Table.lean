/-!
# Tables

A `Table` holds values under text keys. Its rows have no order that matters: every operation is
described by `get?`, and `keys` lists each key once as long as rows are only added by `put`.
-/

namespace Templating

/-- Values under text keys. -/
structure Table (α : Type) where
  rows : List (String × α) := []

namespace Table

variable {α : Type}

def empty : Table α := ⟨[]⟩

def get? (t : Table α) (key : String) : Option α := t.rows.lookup key

def contains (t : Table α) (key : String) : Bool := (t.get? key).isSome

def erase (t : Table α) (key : String) : Table α := ⟨t.rows.filter fun row => row.1 != key⟩

/-- Puts a value under `key`, in place of one that was there. -/
def put (t : Table α) (key : String) (value : α) : Table α := ⟨(key, value) :: (t.erase key).rows⟩

/-- Changes the value under `key`, if there is one. -/
def modify (t : Table α) (key : String) (f : α → α) : Table α :=
  ⟨t.rows.map fun row => if row.1 = key then (row.1, f row.2) else row⟩

def keys (t : Table α) : List String := t.rows.map Prod.fst

def size (t : Table α) : Nat := t.rows.length

theorem size_erase_lt {t : Table α} {key : String} (h : (t.get? key).isSome = true) :
    (t.erase key).size < t.size := by
  unfold size erase
  refine List.length_filter_lt_length_iff_exists.2 ?_
  simp only [get?, List.lookup_isSome_iff] at h
  simpa using h

theorem size_erase_le (t : Table α) (key : String) : (t.erase key).size ≤ t.size :=
  List.length_filter_le ..

theorem size_put_le (t : Table α) (key : String) (value : α) :
    (t.put key value).size ≤ t.size + 1 := by
  have := t.size_erase_le key
  simp only [put, size, List.length_cons]
  exact Nat.succ_le_succ this

end Table

end Templating
