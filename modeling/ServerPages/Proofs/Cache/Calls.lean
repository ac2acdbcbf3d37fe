import ServerPages.Proofs.Cache.Entries

/-!
# Calls of caches

A cache has clients. A call holds the lock of the cache from its first look at the cache to its
last change of it, so whatever several clients do is one list of calls, in the order in which
they got the lock. A cache that is used so is an association list in the order of insertion,
cut to its capacity.
-/

namespace ServerPages.Cache

variable {ι ω V : Type}

/-- What a client asks of a cache. The closure of a call makes its value from a world that it may
change. -/
inductive Call (ω V : Type)
  | set (key : String) (value : V)
  | get (key : String)
  | contains (key : String)
  | getOrInsert (key : String) (value : V)
  | getOrInsertWith (key : String) (create : ω → V × ω)
  | remove (key : String)
  | clear

inductive Reply (V : Type)
  | done
  | known (present : Bool)
  | found (value : Option V)
  | given (value : V)

namespace Call

def perform (cache : Cache V) (world : ω) : Call ω V → Reply V × Cache V × ω
  | .set key value => (.done, cache.set key value, world)
  | .get key => (.found (cache.get? key), cache, world)
  | .contains key => (.known (cache.contains key), cache, world)
  | .getOrInsert key value =>
      let (value, _, cache) := cache.getOrInsert key fun _ => value
      (.given value, cache, world)
  | .getOrInsertWith key create =>
      let (value, created, cache) := cache.getOrInsert key fun _ => (create world).1
      (.given value, cache, if created then (create world).2 else world)
  | .remove key => (.found (cache.get? key), cache.remove key, world)
  | .clear => (.done, cache.clear, world)

def written (cache : Cache V) (world : ω) : Call ω V → Option (String × V)
  | .set key value => some (key, value)
  | .getOrInsert key value => if cache.contains key then none else some (key, value)
  | .getOrInsertWith key create =>
      if cache.contains key then none else some (key, (create world).1)
  | .get _ | .contains _ | .remove _ | .clear => none

def forgets : Call ω V → Bool
  | .remove _ | .clear => true
  | .set _ _ | .get _ | .contains _ | .getOrInsert _ _ | .getOrInsertWith _ _ => false

def inserts? : Call ω V → Option String
  | .set key _ | .getOrInsert key _ | .getOrInsertWith key _ => some key
  | .get _ | .contains _ | .remove _ | .clear => none

end Call

/-- An entry written to an association list: in its place if the key is there, else at the end, with
the first entries dropped that are too many. -/
def enter (capacity : Nat) (entries : List (String × V)) (key : String) (value : V) :
    List (String × V) :=
  if (entries.lookup key).isSome then
    entries.map fun entry => if entry.1 = key then (key, value) else entry
  else (entries ++ [(key, value)]).drop (entries.length + 1 - capacity)

/-- What a call tells, and what it makes of an association list and the world. -/
def Call.answer (capacity : Nat) (entries : List (String × V)) (world : ω) :
    Call ω V → Reply V × List (String × V) × ω
  | .set key value => (.done, enter capacity entries key value, world)
  | .get key => (.found (entries.lookup key), entries, world)
  | .contains key => (.known (entries.lookup key).isSome, entries, world)
  | .getOrInsert key value =>
      match entries.lookup key with
      | some held => (.given held, entries, world)
      | none => (.given value, enter capacity entries key value, world)
  | .getOrInsertWith key create =>
      match entries.lookup key with
      | some held => (.given held, entries, world)
      | none =>
          let (value, world) := create world
          (.given value, enter capacity entries key value, world)
  | .remove key => (.found (entries.lookup key), entries.filter (·.1 ≠ key), world)
  | .clear => (.done, [], world)

def run {σ : Type} (step : σ → ω → Call ω V → Reply V × σ × ω) (start : σ) (world : ω) :
    List (ι × Call ω V) → List (ι × Reply V) × σ × ω
  | [] => ([], start, world)
  | (client, call) :: past =>
      let (told, state, world) := run step start world past
      let (reply, state, world) := step state world call
      ((client, reply) :: told, state, world)

/-- The cache of a capacity after calls, the latest first, and the world. -/
def after (capacity : Nat) (world : ω) (past : List (ι × Call ω V)) : Cache V × ω :=
  (run Call.perform (.empty capacity) world past).2

/-- After how many of the latest calls a key was there, without a gap. -/
def streak (capacity : Nat) (world : ω) (key : String) : List (ι × Call ω V) → Nat
  | [] => 0
  | turn :: past =>
      if (after capacity world (turn :: past)).1.contains key then
        streak capacity world key past + 1
      else 0

def latest (capacity : Nat) (world : ω) (key : String) : List (ι × Call ω V) → Option V
  | [] => none
  | (_, call) :: past =>
      match call.written (after capacity world past).1 (after capacity world past).2 with
      | some (other, value) =>
          if other = key then some value else latest capacity world key past
      | none => latest capacity world key past

/-- A cache that starts empty is after any calls what it is to its clients. -/
structure Faithful (capacity : Nat) (world : ω) (past : List (ι × Call ω V))
    (cache : Cache V) (now : ω) : Prop where
  /-- Clients are told what an association list tells, the entries are its entries, and the same
  closures were run. -/
  refines : run (Call.answer capacity) [] world past =
    ((run Call.perform (.empty capacity) world past).1, cache.toList, now)
  /-- The order names each key of the table once, and no other key. -/
  once (key : String) : cache.order.count key = if cache.contains key then 1 else 0
  /-- No more entries are held than the capacity. -/
  bounded : cache.order.length ≤ capacity
  /-- A key stands before the keys that were inserted after it was last absent. -/
  oldestFirst : cache.order.Pairwise fun older younger =>
    streak capacity world younger past < streak capacity world older past
  /-- A write inserts at the end, and forgets the first key if there would be too many. -/
  writes (call : Call ω V) (key : String) (value : V)
    (written : call.written cache now = some (key, value)) :
    (call.perform cache now).2.1.order =
      if cache.contains key then cache.order
      else if cache.order.length < capacity then cache.order ++ [key]
      else (cache.order ++ [key]).tail
  /-- What neither writes nor forgets changes nothing. -/
  reads (call : Call ω V) (unwritten : call.written cache now = none)
    (keeps : call.forgets = false) : (call.perform cache now).2 = (cache, now)
  /-- The value of a key is the latest that was written. -/
  latest (key : String) :
    cache.get? key = if cache.contains key then latest capacity world key past else none
  /-- A closure is run, and its value written, if there is no value; else nothing is changed. -/
  closures (key : String) (create : ω → V × ω) :
    (Call.getOrInsertWith key create).perform cache now =
      match cache.get? key with
      | some held => (.given held, cache, now)
      | none => (.given (create now).1, cache.set key (create now).1, (create now).2)
  /-- After insertions of distinct keys alone, as many as can be held remain, the latest. -/
  recent (keys : List String) (distinct : keys.Nodup)
    (inserts : past.map (·.2.inserts?) = keys.map some) :
    cache.order.reverse = keys.take capacity

/-! ## One call -/

theorem perform_getOrInsert (cache : Cache V) (world : ω) (key : String) (value : V) :
    (Call.getOrInsert key value).perform cache world =
      match cache.get? key with
      | some held => (.given held, cache, world)
      | none => (.given value, cache.set key value, world) := by
  cases known : cache.get? key with
  | some held => rw [Call.perform, getOrInsert_of_get? known]
  | none => rw [Call.perform, getOrInsert_of_absent known]

theorem perform_getOrInsertWith (cache : Cache V) (world : ω) (key : String)
    (create : ω → V × ω) :
    (Call.getOrInsertWith key create).perform cache world =
      match cache.get? key with
      | some held => (.given held, cache, world)
      | none => (.given (create world).1, cache.set key (create world).1, (create world).2) := by
  cases known : cache.get? key with
  | some held => rw [Call.perform, getOrInsert_of_get? known]; rfl
  | none => rw [Call.perform, getOrInsert_of_absent known]; rfl

inductive Effect (cache : Cache V) (world : ω) (call : Call ω V) : Cache V × ω → Prop
  | wrote {key : String} {value : V} {now : ω}
      (written : call.written cache world = some (key, value)) :
      Effect cache world call (cache.set key value, now)
  | read (unwritten : call.written cache world = none) (keeps : call.forgets = false) :
      Effect cache world call (cache, world)
  | removed {key : String} (unwritten : call.written cache world = none)
      (forgets : call.forgets = true) : Effect cache world call (cache.remove key, world)
  | cleared (unwritten : call.written cache world = none) (forgets : call.forgets = true) :
      Effect cache world call (cache.clear, world)

theorem Call.effect (cache : Cache V) (world : ω) (call : Call ω V) :
    Effect cache world call (call.perform cache world).2 := by
  cases call with
  | set => exact .wrote rfl
  | get | contains => exact .read rfl rfl
  | remove => exact .removed rfl rfl
  | clear => exact .cleared rfl rfl
  | getOrInsert key value =>
      have present := contains_eq cache key
      rw [perform_getOrInsert]
      cases known : cache.get? key with
      | some held => exact .read (by simp [written, present, known]) rfl
      | none => exact .wrote (by simp [written, present, known])
  | getOrInsertWith key create =>
      have present := contains_eq cache key
      rw [perform_getOrInsertWith]
      cases known : cache.get? key with
      | some held => exact .read (by simp [written, present, known]) rfl
      | none => exact .wrote (by simp [written, present, known])

/-- A cache of a capacity whose order is that of its keys and which is not above the capacity. -/
structure Bounded (capacity : Nat) (cache : Cache V) : Prop extends Consistent cache where
  capacity_eq : cache.capacity = capacity
  length_le : cache.order.length ≤ capacity

namespace Bounded

variable {capacity : Nat} {cache : Cache V}

theorem empty (capacity : Nat) : Bounded capacity (Cache.empty capacity : Cache V) :=
  ⟨Consistent.empty capacity, rfl, Nat.zero_le _⟩

theorem order_set (bounded : Bounded capacity cache) (key : String) (value : V) :
    (cache.set key value).order =
      if cache.contains key then cache.order
      else if cache.order.length < capacity then cache.order ++ [key]
      else (cache.order ++ [key]).tail := by
  have order := bounded.toConsistent.order_set
    (bounded.capacity_eq.symm ▸ bounded.length_le) key value
  rwa [bounded.capacity_eq] at order

theorem set (bounded : Bounded capacity cache) (key : String) (value : V) :
    Bounded capacity (cache.set key value) where
  toConsistent := bounded.toConsistent.set key value
  capacity_eq := by rw [capacity_set, bounded.capacity_eq]
  length_le := by
    have short := bounded.length_le
    rw [bounded.order_set]
    grind

theorem remove (bounded : Bounded capacity cache) (key : String) :
    Bounded capacity (cache.remove key) where
  toConsistent := bounded.toConsistent.remove key
  capacity_eq := by rw [capacity_remove, bounded.capacity_eq]
  length_le := by
    rw [bounded.order_remove]
    exact Nat.le_trans (List.length_filter_le _ _) bounded.length_le

theorem clear (bounded : Bounded capacity cache) : Bounded capacity cache.clear :=
  bounded.capacity_eq ▸ empty cache.capacity

theorem toList_set (bounded : Bounded capacity cache) (key : String) (value : V) :
    (cache.set key value).toList = enter capacity cache.toList key value := by
  rw [bounded.toConsistent.toList_set (bounded.capacity_eq.symm ▸ bounded.length_le),
    bounded.capacity_eq, enter, bounded.lookup_toList, ← contains_eq]
  have length := bounded.length_toList
  have short := bounded.length_le
  split
  · rfl
  · rw [length]
    split
    · rename_i room
      rw [Nat.sub_eq_zero_of_le room, List.drop_zero]
    · rename_i full
      have excess : cache.order.length + 1 - capacity = 1 := by omega
      rw [excess, List.drop_one]

/-- A call to a cache tells and does what it does to the association list of the entries. -/
theorem answer_eq (bounded : Bounded capacity cache) (call : Call ω V) (world : ω) :
    call.answer capacity cache.toList world =
      ((call.perform cache world).1, (call.perform cache world).2.1.toList,
        (call.perform cache world).2.2) := by
  cases call with
  | set key value => simp only [Call.answer, Call.perform, bounded.toList_set]
  | get key => simp only [Call.answer, Call.perform, bounded.lookup_toList]
  | contains key => simp only [Call.answer, Call.perform, bounded.lookup_toList, contains_eq]
  | getOrInsert key value =>
      rw [perform_getOrInsert, Call.answer, bounded.lookup_toList]
      cases cache.get? key with
      | some held => rfl
      | none => simp only [bounded.toList_set]
  | getOrInsertWith key create =>
      rw [perform_getOrInsertWith, Call.answer, bounded.lookup_toList]
      cases cache.get? key with
      | some held => rfl
      | none => simp only [bounded.toList_set]
  | remove key =>
      simp only [Call.answer, Call.perform, bounded.lookup_toList, bounded.toList_remove]
  | clear => rfl

theorem effect (bounded : Bounded capacity cache) {call : Call ω V} {world : ω}
    {after : Cache V × ω} (effect : Effect cache world call after) : Bounded capacity after.1 := by
  cases effect with
  | wrote => exact bounded.set _ _
  | read => exact bounded
  | removed => exact bounded.remove _
  | cleared => exact bounded.clear

end Bounded

namespace Effect

variable {cache : Cache V} {call : Call ω V} {world : ω} {after : Cache V × ω} {key : String}

/-- Of what is there after a call, the keys stand as before or at the end. -/
theorem order_sublist {capacity : Nat} (bounded : Bounded capacity cache)
    (effect : Effect cache world call after) :
    after.1.order.Sublist cache.order ∨
      ∃ key, cache.contains key = false ∧ after.1.order.Sublist (cache.order ++ [key]) := by
  cases effect with
  | read => exact .inl (List.Sublist.refl _)
  | removed =>
      rw [bounded.order_remove]
      exact .inl List.filter_sublist
  | cleared => exact .inl (List.nil_sublist _)
  | @wrote key value now written =>
      rw [bounded.order_set]
      split
      · exact .inl (List.Sublist.refl _)
      · rename_i absent
        refine .inr ⟨key, Bool.eq_false_iff.mpr absent, ?_⟩
        split
        · exact List.Sublist.refl _
        · exact List.tail_sublist _

/-- A value that is there after a call is the written one, or was there. -/
theorem get?_eq (effect : Effect cache world call after) {value : V}
    (known : after.1.get? key = some value) :
    (match call.written cache world with
      | some (other, fresh) => if other = key then some fresh else cache.get? key
      | none => cache.get? key) = some value := by
  cases effect with
  | @wrote other fresh now written =>
      have origin := get?_of_set known
      rw [written]
      grind
  | read unwritten => rwa [unwritten]
  | @removed other unwritten forgets =>
      rw [get?_remove] at known
      rw [unwritten]
      grind
  | cleared =>
      rw [get?_clear] at known
      cases known

end Effect

theorem Call.exists_written {cache : Cache V} {call : Call ω V} {key : String}
    (inserts : call.inserts? = some key) (absent : cache.contains key = false) (world : ω) :
    ∃ value, call.written cache world = some (key, value) := by
  cases call with
  | get | contains | remove | clear => cases inserts
  | set | getOrInsert | getOrInsertWith =>
      cases inserts
      simp [written, absent]

theorem Call.perform_of_unwritten {cache : Cache V} {world : ω} {call : Call ω V}
    (unwritten : call.written cache world = none) (keeps : call.forgets = false) :
    (call.perform cache world).2 = (cache, world) := by
  have effect := call.effect cache world
  generalize (call.perform cache world).2 = after at effect
  cases effect with
  | read => rfl
  | wrote written => cases unwritten.symm.trans written
  | removed _ forgets | cleared _ forgets => cases keeps.symm.trans forgets

theorem Bounded.order_written {capacity : Nat} {cache : Cache V} {world : ω} {call : Call ω V}
    {key : String} {value : V} (bounded : Bounded capacity cache)
    (written : call.written cache world = some (key, value)) :
    (call.perform cache world).2.1.order =
      if cache.contains key then cache.order
      else if cache.order.length < capacity then cache.order ++ [key]
      else (cache.order ++ [key]).tail := by
  have effect := call.effect cache world
  generalize (call.perform cache world).2 = after at effect
  cases effect with
  | wrote known =>
      cases written.symm.trans known
      exact bounded.order_set key value
  | read unwritten | removed unwritten | cleared unwritten =>
      cases unwritten.symm.trans written

/-- The latest keys, with a key that was absent before them, as many as can be held. -/
theorem Bounded.reverse_written {capacity : Nat} {cache : Cache V} {world : ω} {call : Call ω V}
    {key : String} {value : V} (bounded : Bounded capacity cache)
    (written : call.written cache world = some (key, value))
    (absent : cache.contains key = false) :
    (call.perform cache world).2.1.order.reverse = (key :: cache.order.reverse).take capacity := by
  have short := bounded.length_le
  rw [bounded.order_written written, if_neg (Bool.eq_false_iff.mp absent)]
  split
  · rename_i room
    rw [List.reverse_concat, List.take_of_length_le]
    simpa using Nat.succ_le_of_lt room
  · rename_i full
    have last : (key :: cache.order.reverse).length - 1 = capacity := by
      rw [List.length_cons, List.length_reverse]
      omega
    rw [← List.dropLast_reverse, List.reverse_concat, List.dropLast_eq_take, last]

/-! ## Runs of calls -/

section Runs

variable (capacity : Nat) (world : ω)

theorem effect_after (turn : ι × Call ω V) (past : List (ι × Call ω V)) :
    Effect (after capacity world past).1 (after capacity world past).2 turn.2
      (after capacity world (turn :: past)) :=
  turn.2.effect _ _

theorem get?_after_nil (key : String) :
    (after capacity world ([] : List (ι × Call ω V))).1.get? key = none :=
  get?_empty capacity key

theorem bounded_after (past : List (ι × Call ω V)) :
    Bounded capacity (after capacity world past).1 := by
  induction past with
  | nil => exact .empty capacity
  | cons turn past ih => exact ih.effect (effect_after capacity world turn past)

/-- A run of a cache tells and does what the run of the association list does. -/
theorem run_answer (past : List (ι × Call ω V)) :
    run (Call.answer capacity) [] world past =
      ((run Call.perform (.empty capacity) world past).1, (after capacity world past).1.toList,
        (after capacity world past).2) := by
  induction past with
  | nil => rfl
  | cons turn past ih =>
      have answer := (bounded_after capacity world past).answer_eq turn.2
        (after capacity world past).2
      rw [run, ih]
      simp only [answer]
      rfl

variable {key : String} {past : List (ι × Call ω V)}

theorem streak_of_absent (absent : (after capacity world past).1.contains key = false) :
    streak capacity world key past = 0 := by
  cases past with
  | nil => rfl
  | cons turn past => exact if_neg (Bool.eq_false_iff.mp absent)

theorem streak_cons {turn : ι × Call ω V}
    (known : (after capacity world (turn :: past)).1.contains key = true) :
    streak capacity world key (turn :: past) = streak capacity world key past + 1 :=
  if_pos known

theorem streak_pos (known : (after capacity world past).1.contains key = true) :
    0 < streak capacity world key past := by
  cases past with
  | nil =>
      rw [contains_eq, get?_after_nil] at known
      cases known
  | cons turn past =>
      rw [streak_cons capacity world known]
      exact Nat.succ_pos _

/-- Keys stand in the order of their ages. -/
theorem pairwise_streak (past : List (ι × Call ω V)) :
    (after capacity world past).1.order.Pairwise fun older younger =>
      streak capacity world younger past < streak capacity world older past := by
  induction past with
  | nil => exact .nil
  | cons turn past ih =>
      have before := bounded_after capacity world past
      have next := bounded_after capacity world (turn :: past)
      have aged : (after capacity world (turn :: past)).1.order.Pairwise fun older younger =>
          streak capacity world younger past < streak capacity world older past := by
        rcases (effect_after capacity world turn past).order_sublist before with
          kept | ⟨key, absent, kept⟩
        · exact ih.sublist kept
        · refine (List.pairwise_append.mpr ⟨ih, List.pairwise_singleton _ _, ?_⟩).sublist kept
          intro older member younger newest
          rw [List.mem_singleton.mp newest, streak_of_absent capacity world absent]
          exact streak_pos capacity world ((before.ordered older).mp member)
      refine aged.imp_of_mem fun {older younger} first second less => ?_
      rw [streak_cons capacity world ((next.ordered older).mp first),
        streak_cons capacity world ((next.ordered younger).mp second)]
      exact Nat.succ_lt_succ less

/-- A key has the value that was last written for it, as long as it is there. -/
theorem get?_after (key : String) (past : List (ι × Call ω V)) :
    (after capacity world past).1.get? key =
      if (after capacity world past).1.contains key then latest capacity world key past
      else none := by
  rw [contains_eq]
  induction past with
  | nil =>
      rw [get?_after_nil]
      rfl
  | cons turn past ih =>
      cases known : (after capacity world (turn :: past)).1.get? key with
      | none => rfl
      | some value =>
          have origin := (effect_after capacity world turn past).get?_eq known
          rw [Option.isSome_some, if_pos rfl, latest]
          cases written : turn.2.written (after capacity world past).1
              (after capacity world past).2 with
          | none =>
              rw [written] at origin
              grind
          | some entry =>
              rw [written] at origin
              grind

/-- Of distinct keys that were inserted alone, the latest remain. -/
theorem order_recent {keys : List String} (distinct : keys.Nodup)
    (inserts : past.map (·.2.inserts?) = keys.map some) :
    (after capacity world past).1.order.reverse = keys.take capacity := by
  induction past generalizing keys with
  | nil =>
      rw [List.map_eq_nil_iff.mp inserts.symm, List.take_nil]
      rfl
  | cons turn past ih =>
      obtain ⟨key, others, rfl, inserted, earlier⟩ := List.map_eq_cons_iff.mp inserts.symm
      have before := bounded_after capacity world past
      have queue := ih (List.nodup_cons.mp distinct).2 earlier.symm
      have absent : (after capacity world past).1.contains key = false := by
        refine Bool.eq_false_iff.mpr fun present => (List.nodup_cons.mp distinct).1 ?_
        have member := List.mem_reverse.mpr ((before.ordered key).mpr present)
        exact List.mem_of_mem_take (queue ▸ member)
      obtain ⟨value, written⟩ :=
        Call.exists_written inserted.symm absent (after capacity world past).2
      have latest : (after capacity world (turn :: past)).1.order.reverse =
          (key :: (after capacity world past).1.order.reverse).take capacity :=
        before.reverse_written written absent
      rw [latest, queue]
      cases capacity with
      | zero => rfl
      | succ room =>
          rw [List.take_succ_cons, List.take_succ_cons, List.take_take,
            Nat.min_eq_left (Nat.le_succ room)]

/-- Whatever clients ask of a cache that starts empty, it is the association list of the latest
entries in the order of their insertion. -/
theorem faithful_after (past : List (ι × Call ω V)) :
    Faithful capacity world past (after capacity world past).1 (after capacity world past).2 where
  refines := run_answer capacity world past
  once key := by
    have consistent := (bounded_after capacity world past).toConsistent
    split
    · rename_i present
      exact List.count_eq_one_of_mem consistent.nodup ((consistent.ordered key).mpr present)
    · rename_i absent
      exact List.count_eq_zero_of_not_mem fun member => absent ((consistent.ordered key).mp member)
  bounded := (bounded_after capacity world past).length_le
  oldestFirst := pairwise_streak capacity world past
  writes call key value written := (bounded_after capacity world past).order_written written
  reads call unwritten keeps := call.perform_of_unwritten unwritten keeps
  latest key := get?_after capacity world key past
  closures := perform_getOrInsertWith _ _
  recent keys distinct inserts := order_recent capacity world distinct inserts

/-- Neither reading a key nor writing it again makes it younger. -/
example :
    (run (ι := Unit) (Call.answer 2) [] () [((), .set "c" "3"), ((), .set "a" "one"),
      ((), .get "a"), ((), .set "b" "2"), ((), .set "a" "1")]).2.1 = [("b", "2"), ("c", "3")] := by
  decide

end Runs

end ServerPages.Cache
