import Mathlib.Data.List.Nodup
import Mathlib.Data.List.Pairwise
import ServerPages.Loader.Preload
import ServerPages.Proofs.Cache.Calls
import ServerPages.Proofs.Caching.Anew
import ServerPages.Proofs.Caching.Concurrent

/-!
# Controllers that are loaded ahead

Workers load the modules of a source in any order, and what they load arrives in any order. What
is reported and what is remembered depend on the results alone: these are gone through in the order
in which the source lists their names.
-/

namespace ServerPages

variable {σ ω : Type}

/-! ## Values set one after the other -/

namespace Cache

variable {V : Type} {cache : Cache V} {capacity : Nat} {entries : List (String × V)}

def setAll (cache : Cache V) : List (String × V) → Cache V
  | [] => cache
  | (key, value) :: entries => (cache.set key value).setAll entries

theorem setAll_append (cache : Cache V) (first second : List (String × V)) :
    cache.setAll (first ++ second) = (cache.setAll first).setAll second := by
  induction first generalizing cache with
  | nil => rfl
  | cons entry first ih => exact ih (cache.set entry.1 entry.2)

/-- A value that is there was there or was set. -/
theorem get?_setAll {key : String} {value : V}
    (known : (cache.setAll entries).get? key = some value) :
    cache.get? key = some value ∨ (key, value) ∈ entries := by
  induction entries generalizing cache with
  | nil => exact .inl known
  | cons entry entries ih =>
      rcases ih known with held | later
      · have before := get?_of_set held
        split at before
        · rename_i own
          subst own
          exact .inr (before ▸ List.mem_cons_self)
        · exact .inl before
      · exact .inr (List.mem_cons_of_mem entry later)

/-- A value of a key that was not set is there as before, or it is gone. -/
theorem get?_setAll_of_not_mem {key : String} (other : key ∉ entries.map Prod.fst) :
    (cache.setAll entries).get? key = none ∨
      (cache.setAll entries).get? key = cache.get? key := by
  cases known : (cache.setAll entries).get? key with
  | none => exact .inl rfl
  | some value =>
      rcases get?_setAll known with held | set
      · exact .inr held.symm
      · exact absurd (List.mem_map_of_mem set) other

namespace Bounded

theorem setAll (bounded : Bounded capacity cache) (entries : List (String × V)) :
    Bounded capacity (cache.setAll entries) := by
  induction entries generalizing cache with
  | nil => exact bounded
  | cons entry entries ih => exact ih (bounded.set entry.1 entry.2)

theorem toList_setAll (bounded : Bounded capacity cache) (entries : List (String × V)) :
    (cache.setAll entries).toList =
      entries.foldl (fun held entry => enter capacity held entry.1 entry.2) cache.toList := by
  induction entries generalizing cache with
  | nil => rfl
  | cons entry entries ih =>
      rw [List.foldl_cons, ← bounded.toList_set]
      exact ih (bounded.set entry.1 entry.2)

theorem mem_order_set (bounded : Bounded capacity cache) {key value other}
    (member : other ∈ (cache.set key value).order) : other ∈ cache.order ∨ other = key := by
  have added : other ∈ cache.order ++ [key] → other ∈ cache.order ∨ other = key := by
    intro member
    rwa [List.mem_append, List.mem_singleton] at member
  rw [bounded.order_set] at member
  split at member
  · exact .inl member
  · split at member
    · exact added member
    · exact added (List.mem_of_mem_tail member)

theorem mem_order_setAll (bounded : Bounded capacity cache) {key : String}
    (member : key ∈ (cache.setAll entries).order) :
    key ∈ cache.order ∨ key ∈ entries.map Prod.fst := by
  induction entries generalizing cache with
  | nil => exact .inl member
  | cons entry entries ih =>
      rw [List.map_cons, List.mem_cons]
      rcases ih (bounded.set entry.1 entry.2) member with old | later
      · rcases bounded.mem_order_set old with old | rfl
        · exact .inl old
        · exact .inr (.inl rfl)
      · exact .inr (.inr later)

/-- The latest keys remain, as many as can be held, where none that was set was there before. -/
theorem order_setAll_of_absent (bounded : Bounded capacity cache)
    (distinct : (entries.map Prod.fst).Nodup)
    (absent : ∀ key ∈ entries.map Prod.fst, key ∉ cache.order) :
    (cache.setAll entries).order =
      (cache.order ++ entries.map Prod.fst).drop
        (cache.order.length + entries.length - capacity) := by
  induction entries generalizing cache with
  | nil =>
      have short := bounded.length_le
      rw [List.map_nil, List.append_nil, List.length_nil, Nat.add_zero,
        Nat.sub_eq_zero_of_le short, List.drop_zero]
      rfl
  | cons entry entries ih =>
      obtain ⟨key, value⟩ := entry
      have fresh := List.nodup_cons.mp distinct
      have missing : key ∉ cache.order := absent key List.mem_cons_self
      have others : ∀ other ∈ entries.map Prod.fst, other ∉ (cache.set key value).order := by
        intro other member old
        rcases bounded.mem_order_set old with old | rfl
        · exact absent other (List.mem_cons_of_mem key member) old
        · exact fresh.1 member
      have rest := ih (bounded.set key value) fresh.2 others
      have unknown : ¬ cache.contains key = true := fun known =>
        missing ((bounded.ordered key).mpr known)
      have order := bounded.order_set key value
      have short := bounded.length_le
      rw [if_neg unknown] at order
      change ((cache.set key value).setAll entries).order = _
      rw [rest]
      split at order
      · rename_i room
        rw [order, List.length_append, List.append_assoc, List.length_singleton,
          List.length_cons, Nat.add_right_comm, Nat.add_assoc]
        rfl
      · rename_i full
        have length : cache.order.length = capacity := by omega
        have joined : (cache.order ++ [key]).tail ++ entries.map Prod.fst =
            (cache.order ++ key :: entries.map Prod.fst).tail := by
          rw [← List.tail_append_of_ne_nil (by simp), List.append_assoc]
          rfl
        rw [order, List.map_cons, joined, List.drop_tail, List.length_tail, List.length_append,
          List.length_singleton, List.length_cons]
        congr 1
        omega

/-- Of at least as many distinct keys as can be held the last remain, if they were not there. -/
theorem order_setAll_of_enough (bounded : Bounded capacity cache)
    (distinct : (entries.map Prod.fst).Nodup) (enough : capacity ≤ entries.length)
    (absent : ∀ key ∈ (entries.map Prod.fst).drop (entries.length - capacity),
      key ∉ cache.order) :
    (cache.setAll entries).order =
      (entries.map Prod.fst).drop (entries.length - capacity) := by
  obtain ⟨first, last, whole, length⟩ : ∃ first last, entries = first ++ last ∧
      last.length = capacity := by
    refine ⟨entries.take (entries.length - capacity), entries.drop (entries.length - capacity),
      (List.take_append_drop _ _).symm, ?_⟩
    rw [List.length_drop]
    omega
  have dropped : (entries.map Prod.fst).drop (entries.length - capacity) =
      last.map Prod.fst := by
    rw [whole, List.length_append, length, Nat.add_sub_cancel, List.map_append,
      List.drop_left' (List.length_map _)]
  rw [dropped] at absent ⊢
  rw [whole, List.map_append, List.nodup_append] at distinct
  have others : ∀ key ∈ last.map Prod.fst, key ∉ (cache.setAll first).order := by
    intro key member old
    rcases bounded.mem_order_setAll old with old | earlier
    · exact absent key member old
    · exact distinct.2.2 key earlier key member rfl
  rw [whole, setAll_append, (bounded.setAll first).order_setAll_of_absent distinct.2.1 others,
    length, Nat.add_sub_cancel, List.drop_left]

end Bounded

end Cache

/-! ## Loads in any order -/

abbrev LoadResult (σ ω : Type) := Except PageError (Loadable σ ω)

def controllersIn (results : List (String × LoadResult σ ω)) : List (String × Controller σ ω) :=
  results.filterMap fun entry =>
    match entry.2 with
    | .ok (.controller controller) => some (entry.1, controller)
    | .ok (.mixin _) | .error _ => none

theorem mem_controllersIn {results : List (String × LoadResult σ ω)} {name : String}
    {controller : Controller σ ω} :
    (name, controller) ∈ controllersIn results ↔
      (name, .ok (.controller controller)) ∈ results := by
  rw [controllersIn, List.mem_filterMap]
  constructor
  · rintro ⟨⟨found, error | ⟨held | mixin⟩⟩, member, same⟩
    · cases same
    · cases same
      exact member
    · cases same
  · intro member
    exact ⟨_, member, rfl⟩

theorem names_controllersIn (results : List (String × LoadResult σ ω)) :
    ((controllersIn results).map Prod.fst).Sublist (results.map Prod.fst) := by
  induction results with
  | nil => exact .slnil
  | cons entry results ih =>
      rcases entry with ⟨name, error | ⟨controller | mixin⟩⟩
      · exact ih.cons name
      · exact ih.cons_cons name
      · exact ih.cons name

namespace Loader

def placed : Nat → List (String × LoadResult σ ω) → List (Arrival σ ω)
  | _, [] => []
  | place, (name, result) :: results => ⟨place, name, result⟩ :: placed (place + 1) results

theorem le_place_of_mem_placed {place : Nat} {results : List (String × LoadResult σ ω)}
    {arrival : Arrival σ ω} (member : arrival ∈ placed place results) :
    place ≤ arrival.place := by
  induction results generalizing place with
  | nil => cases member
  | cons entry results ih =>
      rcases List.mem_cons.mp member with rfl | later
      · exact Nat.le_refl _
      · exact Nat.le_of_succ_le (ih later)

theorem pairwise_placed (place : Nat) (results : List (String × LoadResult σ ω)) :
    (placed place results).Pairwise fun first second => first.place < second.place := by
  induction results generalizing place with
  | nil => exact .nil
  | cons entry results ih =>
      refine List.pairwise_cons.mpr ⟨?_, ih (place + 1)⟩
      intro arrival member
      exact le_place_of_mem_placed member

theorem exists_mem_placed {results : List (String × LoadResult σ ω)}
    {entry : String × LoadResult σ ω} (member : entry ∈ results) (start : Nat) :
    ∃ place, ⟨place, entry.1, entry.2⟩ ∈ placed start results := by
  induction results generalizing start with
  | nil => cases member
  | cons first results ih =>
      rcases List.mem_cons.mp member with rfl | later
      · exact ⟨start, List.mem_cons_self⟩
      · obtain ⟨place, placed⟩ := ih later (start + 1)
        exact ⟨place, List.mem_cons_of_mem _ placed⟩

theorem eq_of_place_eq {place : Nat} {results : List (String × LoadResult σ ω)}
    {first second : Arrival σ ω} (here : first ∈ placed place results)
    (there : second ∈ placed place results) (same : first.place = second.place) :
    first = second := by
  have distinct : (placed place results).Pairwise fun first second => first.place ≠ second.place :=
    (pairwise_placed place results).imp Nat.ne_of_lt
  by_contra apart
  have symmetric : Std.Symm fun first second : Arrival σ ω => first.place ≠ second.place :=
    ⟨fun _ _ => Ne.symm⟩
  exact distinct.forall here there apart same

/-- However the loads arrive, they are put in the order of the source's list. -/
theorem inOrder_of_perm {arrivals : List (Arrival σ ω)} {place : Nat}
    {results : List (String × LoadResult σ ω)} (arrived : arrivals.Perm (placed place results)) :
    inOrder arrivals = placed place results := by
  have sorted : (inOrder arrivals).Perm (placed place results) :=
    (List.mergeSort_perm arrivals _).trans arrived
  have ordered : (inOrder arrivals).Pairwise fun first second => first.place ≤ second.place := by
    have pairs := @List.pairwise_mergeSort _
      (fun first second : Arrival σ ω => decide (first.place ≤ second.place))
      (by simp only [decide_eq_true_eq]; omega)
      (by simp only [Bool.or_eq_true, decide_eq_true_eq]; omega) arrivals
    exact pairs.imp of_decide_eq_true
  refine List.Perm.eq_of_pairwise ?_ ordered ((pairwise_placed place results).imp Nat.le_of_lt)
    sorted
  intro first second here there before after
  exact eq_of_place_eq (sorted.mem_iff.mp here) there (Nat.le_antisymm before after)

theorem run_record (name : String) (result : LoadResult σ ω) (cache : Cache (Controller σ ω)) :
    (record name result).run cache =
      (.of result, cache.setAll (controllersIn [(name, result)])) := by
  rcases result with error | ⟨controller | mixin⟩
  · rfl
  · rfl
  · rfl

/-- What is reported and remembered of loads that arrived in any order. -/
theorem run_collect {arrivals : List (Arrival σ ω)} {results : List (String × LoadResult σ ω)}
    (arrived : arrivals.Perm (placed 0 results)) (cache : Cache (Controller σ ω)) :
    (collect arrivals).run cache =
      (results.map fun entry => (entry.1, PreloadOutcome.of entry.2),
        cache.setAll (controllersIn results)) := by
  rw [collect, inOrder_of_perm arrived]
  generalize 0 = place
  clear arrived
  induction results generalizing cache place with
  | nil => rfl
  | cons entry results ih =>
      have joined : controllersIn (entry :: results) =
          controllersIn [entry] ++ controllersIn results :=
        List.filterMap_append (l := [entry])
      have first := run_record entry.1 entry.2 cache
      have others := ih (cache.setAll (controllersIn [entry])) (place + 1)
      rw [joined, Cache.setAll_append, placed, List.mapM_cons]
      rw [StateT.run_bind, StateT.run_bind, first]
      exact congrArg (fun ended : List (String × PreloadOutcome) × Cache (Controller σ ω) =>
        ((entry.1, PreloadOutcome.of entry.2) :: ended.1, ended.2)) others

/-! ## Workers -/

/-- Loads all modules of the first source by some workers, which take the names with their places
and yield what the loads came to. -/
def preloadBy (workers : List (String × Nat) → StateM ω (List (Arrival σ ω)))
    (loader : Loader σ ω) : StateM (Store σ ω) PreloadReport := do
  let source := loader.primary.label
  match loader.primary.names? with
  | none => return ⟨source, true, []⟩
  | some names =>
      let store ← get
      let loaded := (workers names.zipIdx).run store.shared
      let settled := (collect loaded.1).run store.controllers
      set { store with controllers := settled.2, shared := loaded.2 }
      return ⟨source, false, settled.1⟩

def work (loader : Loader σ ω) : List (String × Nat) → StateM ω (List (Arrival σ ω))
  | [] => pure []
  | (name, place) :: names => do
      let result ← (loader.load name).run
      return ⟨place, name, result⟩ :: (← loader.work names)

theorem work_zipIdx (loader : Loader σ ω) (names : List String) (place : Nat) :
    loader.work (names.zipIdx place) = loader.loadAll place names := by
  induction names generalizing place with
  | nil => rfl
  | cons name names ih =>
      rw [List.zipIdx_cons, work, loadAll, ih]

theorem preload_eq (loader : Loader σ ω) : loader.preload = loader.preloadBy loader.work := by
  rw [preload, preloadBy]
  cases loader.primary.names? with
  | none => rfl
  | some names =>
      have same : loader.work names.zipIdx = loader.loadAll 0 names := work_zipIdx loader names 0
      simp only [same]
      rfl

theorem exists_placed {arrivals : List (Arrival σ ω)} {names : List String} {place : Nat}
    (arrived : (arrivals.map fun arrival => (arrival.name, arrival.place)).Perm
      (names.zipIdx place)) :
    ∃ results : List (String × LoadResult σ ω),
      results.map Prod.fst = names ∧ arrivals.Perm (placed place results) := by
  induction names generalizing arrivals place with
  | nil =>
      rw [List.zipIdx_nil, List.perm_nil, List.map_eq_nil_iff] at arrived
      exact ⟨[], rfl, arrived ▸ .refl []⟩
  | cons name names ih =>
      rw [List.zipIdx_cons] at arrived
      obtain ⟨arrival, member, same⟩ := List.mem_map.mp
        (arrived.mem_iff.mpr List.mem_cons_self)
      obtain ⟨before, after, rfl⟩ := List.append_of_mem member
      have front : (before ++ arrival :: after).Perm (arrival :: (before ++ after)) :=
        List.perm_middle
      have others := (front.map fun arrival => (arrival.name, arrival.place)).symm.trans arrived
      rw [List.map_cons, same] at others
      obtain ⟨results, named, arrives⟩ := ih others.cons_inv
      have whole : ⟨place, name, arrival.result⟩ = arrival := by
        cases arrival
        cases same
        rfl
      refine ⟨(name, arrival.result) :: results, congrArg (name :: ·) named, ?_⟩
      rw [placed, whole]
      exact front.trans (arrives.cons arrival)

/-- What a worker yields: for each of its names the result of a load of that name. -/
theorem work_yields (loader : Loader σ ω) (names : List (String × Nat)) (shared : ω) :
    let arrivals := ((loader.work names).run shared).1
    arrivals.map (fun arrival => (arrival.name, arrival.place)) = names ∧
      ∀ arrival ∈ arrivals, ∃ before,
        arrival.result = ((loader.load arrival.name).runFrom before).1 := by
  induction names generalizing shared with
  | nil => exact ⟨rfl, fun arrival member => nomatch member⟩
  | cons entry names ih =>
      obtain ⟨name, place⟩ := entry
      obtain ⟨tasks, loads⟩ := ih ((loader.load name).runFrom shared).2
      refine ⟨congrArg ((name, place) :: ·) tasks, ?_⟩
      intro arrival member
      rcases List.mem_cons.mp member with rfl | later
      · exact ⟨shared, rfl⟩
      · exact loads arrival later

/-- What has become of the modules of a source, given what their loads came to, and of the store. -/
structure Preloaded (loader : Loader σ ω) (names : List String)
    (results : List (String × LoadResult σ ω)) (store : Store σ ω) (report : PreloadReport)
    (after : Store σ ω) : Prop where
  source : report.source = loader.primary.label ∧ report.missing = false
  listed : report.outcomes.map Prod.fst = names
  /-- What became of a name is told by its own load. -/
  outcomes : report.outcomes = results.map fun entry => (entry.1, .of entry.2)
  once (distinct : names.Nodup) (name : String) (result : LoadResult σ ω)
    (member : (name, result) ∈ results) :
    (report.outcomes.map Prod.fst).count name = 1 ∧ report.outcome? name = some (.of result)
  counted : report.successful + report.failed = names.length
  templates : after.templates = store.templates
  /-- The controllers were set one by one. -/
  controllers : after.controllers = store.controllers.setAll (controllersIn results)
  entered (name : String) (controller : Controller σ ω)
    (known : after.controllers.get? name = some controller) :
    store.controllers.get? name = some controller ∨
      (name, .ok (.controller controller)) ∈ results
  /-- The entry of a name for which no controller was loaded is as before, or it is gone. -/
  kept (name : String) (unset : name ∉ (controllersIn results).map Prod.fst) :
    after.controllers.get? name = none ∨
      after.controllers.get? name = store.controllers.get? name
  /-- Where at least as many controllers were loaded as can be held, the last of them remain, if
  none of these was held before. -/
  latest (capacity : Nat) (bounded : Cache.Bounded capacity store.controllers)
    (distinct : names.Nodup) (enough : capacity ≤ (controllersIn results).length) :
    let last := ((controllersIn results).map Prod.fst).drop
      ((controllersIn results).length - capacity)
    (∀ name ∈ last, name ∉ store.controllers.order) → after.controllers.order = last

theorem preloadBy_run {loader : Loader σ ω} {names : List String}
    (listed : loader.primary.names? = some names)
    (workers : List (String × Nat) → StateM ω (List (Arrival σ ω)))
    {results : List (String × LoadResult σ ω)} {store : Store σ ω}
    (arrived : ((workers names.zipIdx).run store.shared).1.Perm (placed 0 results)) :
    (loader.preloadBy workers).run store =
      (⟨loader.primary.label, false, results.map fun entry => (entry.1, .of entry.2)⟩,
        { store with
          controllers := store.controllers.setAll (controllersIn results)
          shared := ((workers names.zipIdx).run store.shared).2 }) := by
  have collected := run_collect arrived store.controllers
  rw [preloadBy, listed]
  exact congrArg (fun ended : List (String × PreloadOutcome) × Cache (Controller σ ω) =>
    (PreloadReport.mk loader.primary.label false ended.1,
      { store with
        controllers := ended.2
        shared := ((workers names.zipIdx).run store.shared).2 })) collected

theorem find?_outcome {results : List (String × LoadResult σ ω)} {name : String}
    {result : LoadResult σ ω} (distinct : (results.map Prod.fst).Nodup)
    (member : (name, result) ∈ results) :
    ((results.map fun entry => (entry.1, PreloadOutcome.of entry.2)).find? (·.1 = name)).map
      (·.2) = some (.of result) := by
  induction results with
  | nil => cases member
  | cons entry results ih =>
      have fresh := List.nodup_cons.mp distinct
      rw [List.map_cons]
      rcases List.mem_cons.mp member with rfl | later
      · rw [List.find?_cons_of_pos (by simp)]
        rfl
      · have apart : entry.1 ≠ name := by
          intro same
          exact fresh.1 (List.mem_map.mpr ⟨_, later, same.symm⟩)
        rw [List.find?_cons_of_neg (by simpa using apart)]
        exact ih fresh.2 later

theorem preloaded_of_arrived {loader : Loader σ ω} {names : List String}
    (listed : loader.primary.names? = some names)
    {workers : List (String × Nat) → StateM ω (List (Arrival σ ω))}
    {results : List (String × LoadResult σ ω)} (named : results.map Prod.fst = names)
    {store : Store σ ω}
    (arrived : ((workers names.zipIdx).run store.shared).1.Perm (placed 0 results)) :
    let ended := (loader.preloadBy workers).run store
    Preloaded loader names results store ended.1 ended.2 := by
  have names_outcomes :
      (results.map fun entry => (entry.1, PreloadOutcome.of entry.2)).map Prod.fst = names := by
    rw [List.map_map, ← named]
    rfl
  intro ended
  have run : ended = _ := preloadBy_run listed workers arrived
  rw [run]
  constructor
  case source => exact ⟨rfl, rfl⟩
  case listed => exact names_outcomes
  case outcomes => rfl
  case once =>
    intro distinct name result member
    constructor
    · rw [names_outcomes]
      exact List.count_eq_one_of_mem distinct (named ▸ List.mem_map.mpr ⟨_, member, rfl⟩)
    · exact find?_outcome (named ▸ distinct) member
  case counted =>
    rw [PreloadReport.successful_add_failed, ← named, List.length_map, List.length_map]
  case templates => rfl
  case controllers => rfl
  case entered =>
    intro name controller known
    exact (Cache.get?_setAll known).imp_right mem_controllersIn.mp
  case kept =>
    intro name unset
    exact Cache.get?_setAll_of_not_mem unset
  case latest =>
    intro capacity bounded distinct enough last fresh
    have once : ((controllersIn results).map Prod.fst).Nodup :=
      (named ▸ distinct).sublist (names_controllersIn results)
    exact bounded.order_setAll_of_enough once enough fresh

/-- Workers that take the names in any order yield for each what a load of it came to. -/
theorem exists_results (loader : Loader σ ω) {names : List String} {order : List (String × Nat)}
    (permuted : order.Perm names.zipIdx) (shared : ω) :
    ∃ results : List (String × LoadResult σ ω), results.map Prod.fst = names ∧
      ((loader.work order).run shared).1.Perm (placed 0 results) ∧
      ∀ entry ∈ results, ∃ before, entry.2 = ((loader.load entry.1).runFrom before).1 := by
  obtain ⟨tasks, loads⟩ := loader.work_yields order shared
  obtain ⟨results, named, arrived⟩ := exists_placed (tasks ▸ permuted)
  refine ⟨results, named, arrived, ?_⟩
  intro entry member
  obtain ⟨place, placed⟩ := exists_mem_placed member 0
  exact loads _ (arrived.mem_iff.mpr placed)

/-- What is reported and remembered does not depend on the order in which the loads arrive. -/
theorem preloaded (loader : Loader σ ω) (names : List String)
    (listed : loader.primary.names? = some names) :
    loader.preload = loader.preloadBy loader.work ∧
      (∀ order : List (String × Nat), order.Perm names.zipIdx → ∀ shared,
        ∃ results : List (String × LoadResult σ ω), results.map Prod.fst = names ∧
          ((loader.work order).run shared).1.Perm (placed 0 results) ∧
          ∀ entry ∈ results, ∃ before,
            entry.2 = ((loader.load entry.1).runFrom before).1) ∧
      ∀ (workers : List (String × Nat) → StateM ω (List (Arrival σ ω)))
        (results : List (String × LoadResult σ ω)) (store : Store σ ω),
        results.map Prod.fst = names →
        ((workers names.zipIdx).run store.shared).1.Perm (placed 0 results) →
        let ended := (loader.preloadBy workers).run store
        Preloaded loader names results store ended.1 ended.2 := by
  refine ⟨loader.preload_eq, ?_, ?_⟩
  · intro order permuted shared
    exact loader.exists_results permuted shared
  · intro workers results store named arrived
    exact preloaded_of_arrived listed named arrived

/-! Three controllers, a mixin and a module that cannot be loaded. -/

def shelved (name : String) : Controller Unit Unit :=
  ⟨name, fun _ => .ok (), .none, .empty, none, none⟩

def shelf : Loader Unit Unit where
  primary := (((((Source.named "shelf").withController "a" (shelved "a")).withMixin
    (.named "m")).withController "b" (shelved "b")).register "x"
      (throw (.of "torn"))).withController "c" (shelved "c")
  fallback := none

def shelfResults : List (String × LoadResult Unit Unit) :=
  ["a", "b", "c", "m", "x"].map fun name => (name, ((shelf.load name).runFrom ()).1)

/-- A worker that goes through the names from the end. -/
theorem preloaded_shelf :
    let names := ["a", "b", "c", "m", "x"]
    let backwards : List (String × Nat) → StateM Unit (List (Arrival Unit Unit)) :=
      fun names => shelf.work names.reverse
    shelf.primary.names? = some names ∧
      shelf.preload = shelf.preloadBy shelf.work ∧
      ∀ capacity, let ended := (shelf.preloadBy backwards).run (.empty capacity ())
        Preloaded shelf names shelfResults (.empty capacity ()) ended.1 ended.2 := by
  intro names backwards
  have listed : shelf.primary.names? = some names := by decide
  have all := preloaded shelf names listed
  refine ⟨listed, all.1, ?_⟩
  intro capacity
  refine all.2.2 backwards shelfResults (.empty capacity ()) (by decide) ?_
  exact List.reverse_perm (placed 0 shelfResults)

/-- A store for two controllers in which `b` was asked for and then `a`. -/
def shelfVisited : Store Unit Unit :=
  ⟨.empty 2, ((Cache.empty 2).set "b" (shelved "b")).set "a" (shelved "a"), ()⟩

theorem runFrom_visits :
    (shelf.resolve "b" >>= fun _ => shelf.resolve "a").runFrom (.empty 2 ()) =
      (.ok (shelved "a"), shelfVisited) := by
  have first : (shelf.resolve "b").runFrom (.empty 2 ()) =
      (.ok (shelved "b"), ⟨.empty 2, (Cache.empty 2).set "b" (shelved "b"), ()⟩) :=
    runFrom_resolve_of_absent (Cache.get?_empty 2 "b") rfl
  rw [Procedure.runFrom_bind_ok first]
  refine runFrom_resolve_of_absent ?_ rfl
  rw [Cache.get?_set_of_room (by simp [Cache.size, Cache.empty]), if_neg (by decide),
    Cache.get?_empty]

theorem order_preload_shelf :
    (shelf.preload.run shelfVisited).2.controllers.order = ["a", "c"] := by
  have listed : shelf.primary.names? = some ["a", "b", "c", "m", "x"] := by decide
  have arrived : ((shelf.work (["a", "b", "c", "m", "x"].zipIdx)).run ()).1.Perm
      (placed 0 shelfResults) := .refl _
  have bounded : Cache.Bounded 2 shelfVisited.controllers :=
    ((Cache.Bounded.empty 2).set "b" _).set "a" _
  have entries : shelfVisited.controllers.toList = [("b", shelved "b"), ("a", shelved "a")] := by
    rw [shelfVisited, ((Cache.Bounded.empty 2).set "b" _).toList_set,
      (Cache.Bounded.empty 2).toList_set]
    rfl
  rw [preload_eq, preloadBy_run listed shelf.work arrived, ← (bounded.setAll _).keys_toList,
    bounded.toList_setAll, entries]
  rfl

/-- Of a store for two, in which `b` and then `a` was asked for, the last two that are loaded ahead
do not remain: `a` stands after `b`, and it stays where it is. -/
theorem last_loaded_not_held :
    let visited := (shelf.resolve "b" >>= fun _ => shelf.resolve "a").runFrom (.empty 2 ())
    let loaded := (controllersIn shelfResults).map Prod.fst
    let order := (shelf.preload.run visited.2).2.controllers.order
    loaded = ["a", "b", "c"] ∧ order = ["a", "c"] ∧
      order ≠ loaded.drop (loaded.length - 2) := by
  intro visited loaded order
  have held : visited = (.ok (shelved "a"), shelfVisited) := runFrom_visits
  have same : order = ["a", "c"] := by
    change (shelf.preload.run visited.2).2.controllers.order = _
    rw [held, order_preload_shelf]
  have names : loaded = ["a", "b", "c"] := by decide
  refine ⟨names, same, ?_⟩
  rw [same, names]
  decide

end Loader

end ServerPages
