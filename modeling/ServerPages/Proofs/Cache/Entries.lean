import Mathlib.Data.List.Nodup
import ServerPages.Cache

/-!
# Entries of caches

A cache keeps its values in a table and its keys in a queue. In a consistent cache the queue
names each key of the table once, and the entries are an association list in the order of
their insertion: what each change of a cache does to that list.
-/

namespace ServerPages.Cache

variable {V : Type} {cache : Cache V} {key other : String} {value found : V}

/-! ## Values -/

theorem contains_eq (cache : Cache V) (key : String) :
    cache.contains key = (cache.get? key).isSome :=
  Std.HashMap.contains_eq_isSome_getElem?

@[simp] theorem get?_empty (capacity : Nat) (key : String) :
    (empty capacity : Cache V).get? key = none :=
  Std.HashMap.getElem?_empty

@[simp] theorem get?_clear (cache : Cache V) (key : String) : cache.clear.get? key = none :=
  get?_empty _ key

def add (cache : Cache V) (key : String) (value : V) : Cache V :=
  { cache with
    table := cache.table.insert key value
    order := if cache.contains key then cache.order else cache.order ++ [key] }

theorem set_eq_evict_add (cache : Cache V) (key : String) (value : V) :
    cache.set key value = (cache.add key value).evict := rfl

theorem get?_add (cache : Cache V) (key : String) (value : V) (other : String) :
    (cache.add key value).get? other = if key = other then some value else cache.get? other := by
  simp [add, get?, Std.HashMap.getElem?_insert]

theorem contains_add (cache : Cache V) (key : String) (value : V) (other : String) :
    (cache.add key value).contains other = (key == other || cache.contains other) :=
  Std.HashMap.contains_insert

def forget (cache : Cache V) (oldest : String) (order : List String) : Cache V :=
  { cache with table := cache.table.erase oldest, order }

theorem get?_forget (cache : Cache V) (oldest : String) (order : List String) (key : String) :
    (cache.forget oldest order).get? key = if oldest = key then none else cache.get? key := by
  simp [forget, get?, Std.HashMap.getElem?_erase]

/-- What evicting makes of a cache: the cache itself, or the cache without its oldest entry. -/
theorem evict_cases (cache : Cache V) :
    cache.evict = cache ∧ (cache.capacity < cache.size → cache.order = []) ∨
      ∃ oldest order, cache.capacity < cache.size ∧ cache.order = oldest :: order ∧
        cache.evict = cache.forget oldest order := by
  unfold evict
  split
  · rename_i full
    split
    · rename_i none
      exact .inl ⟨rfl, fun _ => none⟩
    · rename_i oldest order queue
      exact .inr ⟨oldest, order, full, queue, rfl⟩
  · rename_i room
    exact .inl ⟨rfl, fun full => absurd full room⟩

theorem get?_of_evict (known : cache.evict.get? key = some value) :
    cache.get? key = some value := by
  rcases cache.evict_cases with ⟨same, -⟩ | ⟨oldest, order, -, -, evicted⟩
  · rwa [same] at known
  · rw [evicted, get?_forget] at known
    split at known
    · cases known
    · exact known

/-- The values of a cache after a write are the written one and values from before. -/
theorem get?_of_set (known : (cache.set key value).get? other = some found) :
    if key = other then found = value else cache.get? other = some found := by
  have added := get?_of_evict (set_eq_evict_add cache key value ▸ known)
  rw [get?_add] at added
  split
  · rename_i same
    rw [if_pos same] at added
    exact (Option.some.inj added).symm
  · rename_i apart
    rwa [if_neg apart] at added

/-- Where there is room a value is there once it was written, and the others are still there. -/
theorem get?_set_of_room (room : cache.size < cache.capacity) (key : String) (value : V)
    (other : String) :
    (cache.set key value).get? other = if key = other then some value else cache.get? other := by
  have fits : ¬ (cache.add key value).capacity < (cache.add key value).size := by
    have size : (cache.add key value).size ≤ cache.size + 1 := Std.HashMap.size_insert_le
    have capacity : (cache.add key value).capacity = cache.capacity := rfl
    omega
  rw [set_eq_evict_add, evict, if_neg fits, get?_add]

theorem get?_set_self (room : cache.size < cache.capacity) (value : V) :
    (cache.set key value).get? key = some value := by
  rw [get?_set_of_room room, if_pos rfl]

theorem get?_remove (cache : Cache V) (key other : String) :
    (cache.remove key).get? other = if key = other then none else cache.get? other := by
  unfold remove
  split
  · simp [get?, Std.HashMap.getElem?_erase]
  · rename_i absent
    split
    · rename_i same
      rw [contains_eq, Bool.not_eq_true, Option.isSome_eq_false_iff, Option.isNone_iff_eq_none]
        at absent
      rw [← same, absent]
    · rfl

theorem contains_remove (cache : Cache V) (key other : String) :
    (cache.remove key).contains other = (!key == other && cache.contains other) := by
  rw [contains_eq, get?_remove, contains_eq]
  split
  · rename_i same
    simp [same]
  · rename_i apart
    simp [apart]

theorem getOrInsert_of_get? (known : cache.get? key = some value) (create : Unit → V) :
    cache.getOrInsert key create = (value, false, cache) := by
  simp only [getOrInsert, known]

theorem getOrInsert_of_absent (absent : cache.get? key = none) (create : Unit → V) :
    cache.getOrInsert key create = (create (), true, cache.set key (create ())) := by
  simp only [getOrInsert, absent]

def Holds (property : String → V → Prop) (cache : Cache V) : Prop :=
  ∀ key value, cache.get? key = some value → property key value

namespace Holds

variable {property : String → V → Prop}

theorem empty (capacity : Nat) : Holds property (Cache.empty capacity) := by
  intro key value known
  rw [get?_empty] at known
  cases known

theorem set (holds : Holds property cache) (fits : property key value) :
    Holds property (cache.set key value) := by
  intro other found known
  have origin := get?_of_set known
  split at origin
  · rename_i same
    rw [← same, origin]
    exact fits
  · exact holds other found origin

theorem remove (holds : Holds property cache) (key : String) :
    Holds property (cache.remove key) := by
  intro other found known
  rw [get?_remove] at known
  split at known
  · cases known
  · exact holds other found known

/-- A value that is inserted unless there is one fits its key, whichever it is. -/
theorem getOrInsert (holds : Holds property cache) {key : String} (create : Unit → V)
    (fits : property key (create ())) :
    property key (cache.getOrInsert key create).1 ∧
      Holds property (cache.getOrInsert key create).2.2 := by
  cases known : cache.get? key with
  | some held =>
      rw [getOrInsert_of_get? known]
      exact ⟨holds key held known, holds⟩
  | none =>
      rw [getOrInsert_of_absent known]
      exact ⟨fits, holds.set fits⟩

end Holds

theorem capacity_evict (cache : Cache V) : cache.evict.capacity = cache.capacity := by
  rcases cache.evict_cases with ⟨same, -⟩ | ⟨oldest, order, -, -, evicted⟩
  · rw [same]
  · rw [evicted]
    rfl

theorem capacity_set (cache : Cache V) (key : String) (value : V) :
    (cache.set key value).capacity = cache.capacity :=
  capacity_evict _

theorem capacity_remove (cache : Cache V) (key : String) :
    (cache.remove key).capacity = cache.capacity := by
  unfold remove
  split <;> rfl

/-! ## Keys in order -/

/-- The order names each key of the table, each once, and no other key. -/
structure Consistent (cache : Cache V) : Prop where
  nodup : cache.order.Nodup
  ordered (key : String) : key ∈ cache.order ↔ cache.contains key = true

theorem order_add_of_contains (known : cache.contains key = true) (value : V) :
    (cache.add key value).order = cache.order := if_pos known

theorem order_add_of_absent (absent : cache.contains key = false) (value : V) :
    (cache.add key value).order = cache.order ++ [key] := by
  simp [add, absent]

namespace Consistent

theorem not_mem (consistent : Consistent cache) (absent : cache.contains key = false) :
    key ∉ cache.order := by
  rw [consistent.ordered, absent]
  decide

theorem size_eq (consistent : Consistent cache) : cache.size = cache.order.length := by
  have same : cache.order.Perm cache.table.keys :=
    (List.perm_ext_iff_of_nodup consistent.nodup Std.HashMap.nodup_keys).mpr fun key => by
      rw [consistent.ordered, Std.HashMap.mem_keys]
      exact Iff.rfl
  rw [same.length_eq, Std.HashMap.length_keys]
  rfl

theorem order_evict (consistent : Consistent cache) :
    cache.evict.order =
      if cache.capacity < cache.order.length then cache.order.tail else cache.order := by
  rw [← consistent.size_eq]
  rcases cache.evict_cases with ⟨same, idle⟩ | ⟨oldest, order, full, queue, evicted⟩
  · rw [same]
    split
    · rename_i full
      rw [idle full, List.tail_nil]
    · rfl
  · rw [if_pos full, evicted, queue]
    rfl

theorem order_remove (consistent : Consistent cache) (key : String) :
    (cache.remove key).order = cache.order.filter (· ≠ key) := by
  unfold remove
  split
  · rfl
  · rename_i absent
    rw [← consistent.ordered] at absent
    refine (List.filter_eq_self.mpr fun other member => ?_).symm
    exact decide_eq_true fun same => absent (same ▸ member)

theorem empty (capacity : Nat) : Consistent (Cache.empty capacity : Cache V) where
  nodup := List.nodup_nil
  ordered key := by simp [Cache.empty, contains]

theorem add (consistent : Consistent cache) (key : String) (value : V) :
    Consistent (cache.add key value) := by
  cases known : cache.contains key with
  | true =>
      have order := order_add_of_contains known value
      refine ⟨order ▸ consistent.nodup, fun other => ?_⟩
      rw [order, contains_add, consistent.ordered]
      grind
  | false =>
      have order := order_add_of_absent known value
      have absent := consistent.not_mem known
      refine ⟨?_, fun other => ?_⟩
      · rw [order]
        exact List.nodup_append.mpr ⟨consistent.nodup, List.nodup_singleton key, by grind⟩
      · rw [order, contains_add]
        grind [consistent.ordered other]

theorem evict (consistent : Consistent cache) : Consistent cache.evict := by
  rcases cache.evict_cases with ⟨same, -⟩ | ⟨oldest, order, -, queue, evicted⟩
  · rwa [same]
  · have once := queue ▸ consistent.nodup
    rw [evicted]
    refine ⟨(List.nodup_cons.mp once).2, fun key => ?_⟩
    have member := consistent.ordered key
    rw [contains_eq] at member ⊢
    rw [get?_forget]
    have apart := (List.nodup_cons.mp once).1
    grind [forget]

theorem set (consistent : Consistent cache) (key : String) (value : V) :
    Consistent (cache.set key value) :=
  (consistent.add key value).evict

theorem remove (consistent : Consistent cache) (key : String) :
    Consistent (cache.remove key) where
  nodup := by
    rw [consistent.order_remove]
    exact consistent.nodup.filter _
  ordered other := by
    rw [consistent.order_remove, List.mem_filter, consistent.ordered, contains_remove]
    grind

/-- A key that was absent becomes the youngest; for it a cache that is full forgets its oldest key,
which is the written key itself if the cache holds nothing. -/
theorem order_set (consistent : Consistent cache)
    (bounded : cache.order.length ≤ cache.capacity) (key : String) (value : V) :
    (cache.set key value).order =
      if cache.contains key then cache.order
      else if cache.order.length < cache.capacity then cache.order ++ [key]
      else (cache.order ++ [key]).tail := by
  rw [set_eq_evict_add, (consistent.add key value).order_evict]
  have capacity : (cache.add key value).capacity = cache.capacity := rfl
  cases known : cache.contains key with
  | true =>
      rw [order_add_of_contains known, capacity, if_neg (Nat.not_lt.mpr bounded)]
      rfl
  | false =>
      rw [order_add_of_absent known, capacity, List.length_append, List.length_singleton]
      grind

end Consistent

/-! ## Entries in order -/

def pair? (cache : Cache V) (key : String) : Option (String × V) :=
  (cache.get? key).map (key, ·)

theorem toList_eq (cache : Cache V) : cache.toList = cache.order.filterMap cache.pair? := rfl

theorem lookup_entries (cache : Cache V) (key : String) (keys : List String) :
    (keys.filterMap cache.pair?).lookup key = if key ∈ keys then cache.get? key else none := by
  induction keys with
  | nil => rfl
  | cons first rest ih =>
      cases known : cache.get? first with
      | none =>
          have entry : cache.pair? first = none := congrArg (Option.map (first, ·)) known
          rw [List.filterMap_cons_none entry, ih]
          grind
      | some value =>
          have entry : cache.pair? first = some (first, value) :=
            congrArg (Option.map (first, ·)) known
          rw [List.filterMap_cons_some entry, List.lookup_cons, ih]
          grind

theorem pair?_congr {before : Cache V} (same : cache.get? key = before.get? key) :
    cache.pair? key = before.pair? key :=
  congrArg (Option.map (key, ·)) same

namespace Consistent

theorem exists_entry (consistent : Consistent cache) (member : key ∈ cache.order) :
    ∃ value, cache.get? key = some value ∧ cache.pair? key = some (key, value) := by
  rw [consistent.ordered, contains_eq, Option.isSome_iff_exists] at member
  obtain ⟨value, known⟩ := member
  exact ⟨value, known, congrArg (Option.map (key, ·)) known⟩

theorem keys_toList (consistent : Consistent cache) :
    cache.toList.map Prod.fst = cache.order := by
  rw [toList_eq, List.map_filterMap]
  refine (List.filterMap_congr fun key member => ?_).trans List.filterMap_some
  obtain ⟨value, -, entry⟩ := consistent.exists_entry member
  rw [entry]
  rfl

theorem length_toList (consistent : Consistent cache) :
    cache.toList.length = cache.order.length := by
  rw [← consistent.keys_toList, List.length_map]

theorem lookup_toList (consistent : Consistent cache) (key : String) :
    cache.toList.lookup key = cache.get? key := by
  rw [toList_eq, lookup_entries]
  split
  · rfl
  · rename_i absent
    rw [consistent.ordered, contains_eq, Bool.not_eq_true, Option.isSome_eq_false_iff,
      Option.isNone_iff_eq_none] at absent
    rw [absent]

/-- Writing a key that has a value replaces the value where it stands. -/
theorem toList_add_of_contains (consistent : Consistent cache)
    (known : cache.contains key = true) (value : V) :
    (cache.add key value).toList =
      cache.toList.map fun entry => if entry.1 = key then (key, value) else entry := by
  rw [toList_eq, toList_eq, order_add_of_contains known, List.map_filterMap]
  refine List.filterMap_congr fun other member => ?_
  obtain ⟨found, -, entry⟩ := consistent.exists_entry member
  rw [entry, pair?, get?_add, Option.map_some]
  grind [pair?]

theorem toList_add_of_absent (consistent : Consistent cache)
    (absent : cache.contains key = false) (value : V) :
    (cache.add key value).toList = cache.toList ++ [(key, value)] := by
  rw [toList_eq, toList_eq, order_add_of_absent absent, List.filterMap_append]
  congr 1
  · refine List.filterMap_congr fun other member => pair?_congr ?_
    have apart : key ≠ other := fun same => consistent.not_mem absent (same ▸ member)
    rw [get?_add, if_neg apart]
  · simp [pair?, get?_add]

theorem toList_evict (consistent : Consistent cache) :
    cache.evict.toList =
      if cache.capacity < cache.order.length then cache.toList.tail else cache.toList := by
  rw [← consistent.size_eq]
  rcases cache.evict_cases with ⟨same, idle⟩ | ⟨oldest, order, full, queue, evicted⟩
  · rw [same]
    split
    · rename_i full
      rw [toList_eq, idle full]
      rfl
    · rfl
  · obtain ⟨value, -, entry⟩ := consistent.exists_entry (queue ▸ List.mem_cons_self)
    rw [if_pos full, evicted, toList_eq, toList_eq, queue, List.filterMap_cons_some entry]
    refine List.filterMap_congr fun key member => pair?_congr ?_
    have apart : oldest ≠ key := by
      have once := queue ▸ consistent.nodup
      exact fun same => (List.nodup_cons.mp once).1 (same ▸ member)
    rw [get?_forget, if_neg apart]

theorem toList_set (consistent : Consistent cache)
    (bounded : cache.order.length ≤ cache.capacity) (key : String) (value : V) :
    (cache.set key value).toList =
      if cache.contains key then
        cache.toList.map fun entry => if entry.1 = key then (key, value) else entry
      else if cache.order.length < cache.capacity then cache.toList ++ [(key, value)]
      else (cache.toList ++ [(key, value)]).tail := by
  have capacity : (cache.add key value).capacity = cache.capacity := rfl
  rw [set_eq_evict_add, (consistent.add key value).toList_evict, capacity]
  cases known : cache.contains key with
  | true =>
      rw [order_add_of_contains known, if_neg (Nat.not_lt.mpr bounded),
        consistent.toList_add_of_contains known]
      rfl
  | false =>
      rw [order_add_of_absent known, consistent.toList_add_of_absent known, List.length_append,
        List.length_singleton]
      grind

theorem toList_remove (consistent : Consistent cache) (key : String) :
    (cache.remove key).toList = cache.toList.filter (·.1 ≠ key) := by
  rw [toList_eq, toList_eq, consistent.order_remove, List.filter_filterMap,
    List.filterMap_filter]
  refine List.filterMap_congr fun other member => ?_
  obtain ⟨value, -, entry⟩ := consistent.exists_entry member
  rw [entry, Option.filter_some]
  grind [pair?, get?_remove]

end Consistent

end ServerPages.Cache
