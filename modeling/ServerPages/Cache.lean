import Std.Data.HashMap

/-!
# Bounded caches

A cache forgets its oldest entry when it would hold more than its capacity. Age
counts from the insertion of a key that was absent: reading a key or writing it
again does not move it.
-/

namespace ServerPages

/-- Entries by key, with the keys in order of insertion, the oldest first. -/
structure Cache (V : Type) where
  capacity : Nat
  table : Std.HashMap String V
  order : List String

namespace Cache

variable {V : Type}

def empty (capacity : Nat) : Cache V :=
  ⟨capacity, ∅, []⟩

def get? (cache : Cache V) (key : String) : Option V :=
  cache.table[key]?

def contains (cache : Cache V) (key : String) : Bool :=
  cache.table.contains key

def size (cache : Cache V) : Nat :=
  cache.table.size

/-- Forgets the oldest entry of a cache above its capacity. -/
def evict (cache : Cache V) : Cache V :=
  if cache.capacity < cache.size then
    match cache.order with
    | [] => cache
    | oldest :: order => { cache with table := cache.table.erase oldest, order }
  else cache

/-- Writes a key; a key that was absent becomes the youngest. -/
def set (cache : Cache V) (key : String) (value : V) : Cache V :=
  let order := if cache.contains key then cache.order else cache.order ++ [key]
  evict { cache with table := cache.table.insert key value, order }

/-- The value of a key, or the given one after writing it; whether it was written goes with it. -/
def getOrInsert (cache : Cache V) (key : String) (create : Unit → V) : V × Bool × Cache V :=
  match cache.get? key with
  | some value => (value, false, cache)
  | none =>
      let value := create ()
      (value, true, cache.set key value)

def remove (cache : Cache V) (key : String) : Cache V :=
  if cache.contains key then
    { cache with table := cache.table.erase key, order := cache.order.filter (· ≠ key) }
  else cache

def clear (cache : Cache V) : Cache V :=
  empty cache.capacity

/-- The entries with their keys, the oldest first. -/
def toList (cache : Cache V) : List (String × V) :=
  cache.order.filterMap fun key => (cache.get? key).map (key, ·)

def defaultCapacity : Nat := 100

end Cache

end ServerPages
