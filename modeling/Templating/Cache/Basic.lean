import Templating.Cache.Index
import Templating.Scene

/-!
# Caches

A cache holds values under keys. An entry may depend on other entries of the cache and on change
tokens, may expire, and may have a hook that decides what happens when it leaves by itself. An
entry never outlives an entry that it depends on: taking one out takes out, by `cascade`, all that
was built on it. This file has the operations that ask no hook; they report what they evicted.
-/

namespace Templating

/-- When an entry expires by itself. -/
inductive Expiration
  | never
  /-- At the given instant. -/
  | absolute (instant : Instant)
  /-- When it was not read for the given time. -/
  | sliding (window : Duration)
  deriving DecidableEq

/-- What an entry is inserted with. `C` is the type of hooks. -/
structure Options (C : Type) where
  /-- The entries it depends on. -/
  keys : List String := []
  /-- The tokens it depends on. -/
  tokens : List Token := []
  expiration : Expiration := .never
  hook : Option C := none

/-- An entry: its value, what it was inserted with, and the millisecond of the cache's time in which
it was inserted or last read. -/
structure Slot (V C : Type) where
  value : V
  options : Options C
  touched : Nat

/-- An entry that was taken out and whose hook was not asked yet. -/
structure Evicted (V C : Type) where
  key : String
  slot : Slot V C
  reason : Reason

inductive Action (V C : Type)
  /-- Put an entry under the same key. -/
  | reinsert (value : V) (options : Options C)
  /-- Let the entry go, and remove further keys. -/
  | remove (also : List String)

/-- A cache of values `V` with hooks `C`. -/
structure Cache (V C : Type) where
  /-- The instant from which the cache counts milliseconds. -/
  epoch : Instant
  /-- The flag that tokens held by entries raise. -/
  flag : Flag
  entries : Table (Slot V C) := .empty
  index : Cache.Index := {}
  /-- A millisecond before which no entry expires; none when no entry has a deadline. -/
  hint : Option Nat := none

namespace Slot

variable {V C : Type}

/-- The instant at which an entry expires, if it does. -/
def deadline? (slot : Slot V C) (epoch : Instant) : Option Instant :=
  match slot.options.expiration with
  | .never => none
  | .absolute instant => some instant
  | .sliding window => some (epoch + Duration.ofMillis slot.touched + window)

def isExpired (slot : Slot V C) (epoch now : Instant) : Bool :=
  (slot.deadline? epoch).any (· ≤ now)

def hasFired (slot : Slot V C) (signals : Signals) : Bool :=
  slot.options.tokens.any signals.hasFired

/-- Whether the entry is neither expired nor invalidated by a token of its own. -/
def isLive (slot : Slot V C) (epoch now : Instant) (signals : Signals) : Bool :=
  !slot.isExpired epoch now && !slot.hasFired signals

def doom? (slot : Slot V C) (epoch now : Instant) (signals : Signals) : Option Reason :=
  if slot.hasFired signals then some .dependencyChanged
  else if slot.isExpired epoch now then some .expired
  else none

end Slot

namespace Cache

variable {V C : Type}

/-- The milliseconds of the cache's time that are over at an instant. -/
def millis (c : Cache V C) (now : Instant) : Nat := (now - c.epoch) / 1000000

/-- The last millisecond that a hint can name. -/
def lastHint : Nat := Nat.pow 2 64 - 2

/-- The hint for an entry with the given deadline. -/
def hintFor (c : Cache V C) (deadline : Instant) : Nat := min (c.millis deadline) lastHint

/-- The stored keys, also of entries that are due to leave. -/
def keys (c : Cache V C) : List String := c.entries.keys

def size (c : Cache V C) : Nat := c.entries.size

/-- Whether a live entry is stored under `key`. -/
def contains (c : Cache V C) (now : Instant) (signals : Signals) (key : String) : Bool :=
  (c.entries.get? key).any fun slot => slot.isLive c.epoch now signals

/-- Takes out every stored key of `pending` and all that depends on one of them. -/
def cascade (c : Cache V C) (pending : List String) : Cache V C × List (Evicted V C) :=
  match pending with
  | [] => (c, [])
  | child :: pending =>
    match _h : c.entries.get? child with
    | none => cascade { c with index := c.index.unregister child } pending
    | some slot =>
      let index := c.index.unregister child
      let rest :=
        cascade { c with entries := c.entries.erase child, index }
          (index.dependentsOf child ++ pending)
      (rest.1, ⟨child, slot, .dependencyChanged⟩ :: rest.2)
termination_by (c.entries.size, pending.length)
decreasing_by
  · exact Prod.Lex.right _ (Nat.lt_succ_self _)
  · exact Prod.Lex.left _ _ (Table.size_erase_lt (by rw [_h]; rfl))

/-- An entry that was taken out, what is left, and the dependents that left with it. -/
structure Detached (V C : Type) where
  slot : Slot V C
  cache : Cache V C
  evicted : List (Evicted V C)

/-- Takes out the entry under `key` and all that depends on it. -/
def detach (c : Cache V C) (key : String) : Option (Detached V C) :=
  (c.entries.get? key).map fun slot =>
    let index := c.index.unregister key
    let rest := { c with entries := c.entries.erase key, index }.cascade (index.dependentsOf key)
    ⟨slot, rest.1, rest.2⟩

theorem size_cascade_le (c : Cache V C) (pending : List String) :
    (c.cascade pending).1.size + (c.cascade pending).2.length ≤ c.size := by
  fun_induction cascade c pending with
  | case1 c => simp
  | case2 c child pending h ih => exact ih
  | case3 c child pending slot h index rest ih =>
    have herase : (c.entries.erase child).size < c.entries.size :=
      Table.size_erase_lt (by rw [h]; rfl)
    simp only [size, List.length_cons] at ih ⊢
    change rest.1.entries.size + rest.2.length ≤ _ at ih
    omega

theorem size_detach_lt {c : Cache V C} {key : String} {d : Detached V C}
    (h : c.detach key = some d) : d.cache.size + d.evicted.length < c.size := by
  simp only [detach, Option.map_eq_some_iff] at h
  obtain ⟨slot, hslot, rfl⟩ := h
  have herase : (c.entries.erase key).size < c.entries.size :=
    Table.size_erase_lt (by rw [hslot]; rfl)
  refine Nat.lt_of_le_of_lt (size_cascade_le ..) ?_
  exact herase

structure Placed (V C : Type) where
  cache : Cache V C
  signals : Signals
  /-- What left with the entry that was under the key before. -/
  evicted : List (Evicted V C)
  /-- Whether there was an entry under the key before. -/
  replaced : Bool
  /-- Whether the new entry was stored. -/
  stored : Bool

def earlier (a b : Option Nat) : Option Nat :=
  match a, b with
  | some a, some b => some (min a b)
  | some a, none => some a
  | none, b => b

/-- The cache without the entry under `key` and what depends on it. -/
def cleared (c : Cache V C) (key : String) : Cache V C × List (Evicted V C) × Bool :=
  match c.detach key with
  | none => (c, [], false)
  | some d => (d.cache, d.evicted, true)

/-- Whether an entry under `key` with these options would be invalid from the start: it depends on
itself, on a key that is not stored, or on a token that has fired. -/
def refuses (c : Cache V C) (signals : Signals) (key : String) (options : Options C) : Bool :=
  options.keys.any (fun parent => parent == key || !c.entries.contains parent) ||
    options.tokens.any signals.hasFired

/-- Stores an entry under a key that is free. -/
def link (c : Cache V C) (now : Instant) (key : String) (value : V) (options : Options C) :
    Cache V C :=
  let slot : Slot V C := ⟨value, options, c.millis now⟩
  { c with
    entries := c.entries.put key slot
    index := c.index.register key options.keys.eraseDups
    hint := earlier c.hint ((slot.deadline? c.epoch).map c.hintFor) }

/-- Puts an entry in. The entry that was under the key leaves first, with all that depends on it,
also when the new one is then refused. -/
def place (c : Cache V C) (now : Instant) (signals : Signals) (key : String) (value : V)
    (options : Options C) : Placed V C :=
  let (c, evicted, replaced) := c.cleared key
  if c.refuses signals key options then ⟨c, signals, evicted, replaced, false⟩
  else
    let signals := options.tokens.foldl (fun s t => s.subscribe t c.flag) signals
    ⟨c.link now key value options, signals, evicted, replaced, true⟩

/-- The entries that have to leave by themselves. -/
def doomed (c : Cache V C) (now : Instant) (signals : Signals) : List (String × Reason) :=
  c.entries.rows.filterMap fun (key, slot) =>
    (slot.doom? c.epoch now signals).map fun reason => (key, reason)

/-- Takes out each of the keys that is still stored, with what depends on it. -/
def evictEach (c : Cache V C) : List (String × Reason) → Cache V C × List (Evicted V C)
  | [] => (c, [])
  | (key, reason) :: rest =>
    match c.detach key with
    | none => c.evictEach rest
    | some d =>
      let r := d.cache.evictEach rest
      (r.1, d.evicted ++ ⟨key, d.slot, reason⟩ :: r.2)

def nextDeadline (c : Cache V C) : Option Instant :=
  c.entries.rows.foldl (fun m row => earlier m (row.2.deadline? c.epoch)) none

/-- Takes out the entries that have to leave, and all that depends on them. -/
def sweep (c : Cache V C) (now : Instant) (signals : Signals) :
    Cache V C × List (Evicted V C) :=
  let r := c.evictEach (c.doomed now signals)
  ({ r.1 with hint := r.1.nextDeadline.map r.1.hintFor }, r.2)

def dropAll (c : Cache V C) : Cache V C := { c with entries := .empty, index := {}, hint := none }

def touch (c : Cache V C) (now : Instant) (key : String) : Cache V C :=
  { c with entries := c.entries.modify key fun slot => { slot with touched := c.millis now } }

/-- Whether a sweep may find something: a deadline is near, or a token has fired. -/
def mayBeDue (c : Cache V C) (now : Instant) (signals : Signals) : Bool :=
  c.hint.any (· ≤ c.millis now) || signals.isRaised c.flag

theorem size_link_le (c : Cache V C) (now : Instant) (key : String) (value : V)
    (options : Options C) : (c.link now key value options).size ≤ c.size + 1 :=
  Table.size_put_le ..

/-- An insertion into a free place adds at most one entry and evicts none. Otherwise the entries it
leaves and those it evicts are together no more than there were. -/
theorem size_place (c : Cache V C) (now : Instant) (signals : Signals) (key : String) (value : V)
    (options : Options C) :
    ((c.place now signals key value options).evicted = [] ∧
        (c.place now signals key value options).cache.size ≤ c.size + 1) ∨
      (c.place now signals key value options).cache.size +
        (c.place now signals key value options).evicted.length ≤ c.size := by
  unfold place cleared
  cases hd : c.detach key with
  | none =>
    left
    simp only
    split
    · exact ⟨rfl, Nat.le_succ _⟩
    · exact ⟨rfl, size_link_le ..⟩
  | some d =>
    right
    have hlt := size_detach_lt hd
    simp only
    split
    · exact Nat.le_of_lt hlt
    · have := size_link_le d.cache now key value options
      simp only
      omega

end Cache

end Templating
