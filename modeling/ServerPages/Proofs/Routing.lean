import Mathlib.Data.Finset.Card
import ServerPages.Proofs.Dictionary
import ServerPages.Proofs.Path
import ServerPages.Routing

/-!
# Routes after additions

Routes are kept by the segments of their paths, and the first route of a path stays. After any
additions a path leads where the first addition with its segments leads, whatever slashes either
of them has; later additions with these segments are refused and leave no trace.
-/

namespace ServerPages.Routes

open ServerPages.Path

variable {σ ω : Type}

/-- The routes after an addition; one that is refused leaves them as they were. -/
def adding (routes : Routes σ ω) (entry : String × Route σ ω) : Routes σ ω :=
  match routes.add entry.1 entry.2 with
  | .ok added => added
  | .error _ => routes

/-- The routes after additions, one after the other, whatever becomes of each. -/
def addingAll (routes : Routes σ ω) (entries : List (String × Route σ ω)) : Routes σ ω :=
  entries.foldl adding routes

def accepted (routes : Routes σ ω) :
    List (String × Route σ ω) → List (String × Route σ ω)
  | [] => []
  | entry :: entries =>
      match routes.add entry.1 entry.2 with
      | .ok added => entry :: accepted added entries
      | .error _ => accepted routes entries

def firstAt? (entries : List (String × Route σ ω)) (path : String) :
    Option (String × Route σ ω) :=
  entries.find? fun entry => segments entry.1 = segments path

section

variable {routes added : Routes σ ω} {path message : String} {route : Route σ ω}

/-! ## One addition -/

theorem find?_congr (routes : Routes σ ω) {other : String}
    (same : segments path = segments other) : routes.find? path = routes.find? other := by
  rw [find?, find?, routeKey_eq_iff.mpr same]

theorem add_eq_error_iff :
    routes.add path route = .error message ↔
      ∃ old, routes.find? path = some old ∧ message = taken path old := by
  unfold add
  cases routes.find? path with
  | none => simp
  | some old => simp [eq_comm]

theorem add_eq_ok_iff :
    routes.add path route = .ok added ↔ routes.find? path = none ∧
      added = { routes with table := routes.table.put (routeKey path) route } := by
  unfold add
  cases routes.find? path with
  | none => simp [eq_comm]
  | some old => simp

theorem adding_of_error {entry : String × Route σ ω}
    (refused : routes.add entry.1 entry.2 = .error message) : routes.adding entry = routes := by
  rw [adding, refused]

theorem adding_of_ok {entry : String × Route σ ω}
    (accepts : routes.add entry.1 entry.2 = .ok added) : routes.adding entry = added := by
  rw [adding, accepts]

/-- A route that was added is found at the paths with the segments of its path. -/
theorem find?_add (accepts : routes.add path route = .ok added) (other : String) :
    added.find? other = if segments path = segments other then some route
      else routes.find? other := by
  obtain ⟨_, rfl⟩ := add_eq_ok_iff.mp accepts
  unfold find?
  split
  · rename_i same
    rw [← routeKey_eq_iff.mpr same, Dictionary.find?_put_self]
  · rename_i different
    exact Dictionary.find?_put_of_ne (fun same => different (routeKey_eq_iff.mp same).symm) _ _

theorem find?_adding (routes : Routes σ ω) (entry : String × Route σ ω) (other : String) :
    (routes.adding entry).find? other = (routes.find? other).or
      (if segments entry.1 = segments other then some entry.2 else none) := by
  cases sum : routes.add entry.1 entry.2 with
  | error message =>
      obtain ⟨old, found, _⟩ := add_eq_error_iff.mp sum
      rw [adding_of_error sum]
      split
      · rename_i same
        rw [← find?_congr routes same, found, Option.some_or]
      · rw [Option.or_none]
  | ok added =>
      obtain ⟨fresh, _⟩ := add_eq_ok_iff.mp sum
      rw [adding_of_ok sum, find?_add sum]
      split
      · rename_i same
        rw [← find?_congr routes same, fresh, Option.none_or]
      · rw [Option.or_none]

/-! ## Additions in turn -/

theorem find?_addingAll (routes : Routes σ ω) (entries : List (String × Route σ ω))
    (path : String) :
    (routes.addingAll entries).find? path =
      (routes.find? path).or ((firstAt? entries path).map (·.2)) := by
  induction entries generalizing routes with
  | nil => exact (Option.or_none).symm
  | cons entry entries ih =>
      rw [addingAll, List.foldl_cons, ← addingAll, ih, find?_adding, Option.or_assoc]
      by_cases same : segments entry.1 = segments path <;> simp [firstAt?, same]

/-- A path is taken after additions if it was taken before or an accepted one has its segments. -/
theorem isSome_find?_addingAll (routes : Routes σ ω) (entries : List (String × Route σ ω))
    (path : String) :
    ((routes.addingAll entries).find? path).isSome ↔ (routes.find? path).isSome ∨
      ∃ earlier ∈ routes.accepted entries, segments earlier.1 = segments path := by
  induction entries generalizing routes with
  | nil => simp [addingAll, accepted]
  | cons entry entries ih =>
      rw [addingAll, List.foldl_cons, ← addingAll, ih, accepted]
      cases sum : routes.add entry.1 entry.2 with
      | error message => rw [adding_of_error sum]
      | ok added =>
          rw [adding_of_ok sum, find?_add sum]
          by_cases same : segments entry.1 = segments path <;> simp [same]

/-! ## The number of routes -/

theorem increasing_adding (increasing : routes.table.Increasing)
    (entry : String × Route σ ω) : (routes.adding entry).table.Increasing := by
  cases sum : routes.add entry.1 entry.2 with
  | error message => rwa [adding_of_error sum]
  | ok added =>
      obtain ⟨_, rfl⟩ := add_eq_ok_iff.mp sum
      rw [adding_of_ok sum]
      exact Dictionary.increasing_put increasing _ _

theorem increasing_addingAll (increasing : routes.table.Increasing)
    (entries : List (String × Route σ ω)) : (routes.addingAll entries).table.Increasing := by
  induction entries generalizing routes with
  | nil => exact increasing
  | cons entry entries ih => exact ih (increasing_adding increasing entry)

theorem mem_keys_adding {key : String} {entry : String × Route σ ω} :
    key ∈ (routes.adding entry).table.keys ↔
      key = routeKey entry.1 ∨ key ∈ routes.table.keys := by
  cases sum : routes.add entry.1 entry.2 with
  | error message =>
      obtain ⟨old, found, _⟩ := add_eq_error_iff.mp sum
      have present : routeKey entry.1 ∈ routes.table.keys := by
        by_contra absent
        cases (Dictionary.find?_eq_none_iff.mpr absent).symm.trans found
      rw [adding_of_error sum]
      exact ⟨.inr, fun either => either.elim (· ▸ present) id⟩
  | ok added =>
      obtain ⟨_, rfl⟩ := add_eq_ok_iff.mp sum
      rw [adding_of_ok sum]
      exact Dictionary.mem_keys_put

theorem mem_keys_addingAll {key : String} {entries : List (String × Route σ ω)} :
    key ∈ (routes.addingAll entries).table.keys ↔
      (∃ entry ∈ entries, key = routeKey entry.1) ∨ key ∈ routes.table.keys := by
  induction entries generalizing routes with
  | nil => simp [addingAll]
  | cons entry entries ih =>
      rw [addingAll, List.foldl_cons, ← addingAll, ih, mem_keys_adding, List.exists_mem_cons_iff,
        or_left_comm, or_assoc]

/-- There is one route for each list of segments that was added. -/
theorem size_addingAll_empty (makeRoutes : Bool) (entries : List (String × Route σ ω)) :
    ((empty makeRoutes).addingAll entries).size =
      (entries.map fun entry => segments entry.1).toFinset.card := by
  have start : (empty makeRoutes : Routes σ ω).table.Increasing := List.Pairwise.nil
  have increasing := increasing_addingAll start entries
  have keys : ((empty makeRoutes).addingAll entries).table.keys.toFinset =
      (entries.map fun entry => segments entry.1).toFinset.image join := by
    ext key
    rw [List.mem_toFinset, mem_keys_addingAll]
    simp [empty, Dictionary.keys, routeKey, eq_comm]
  have apart : Set.InjOn join (entries.map fun entry => segments entry.1).toFinset := by
    intro first one second other same
    obtain ⟨entry, _, rfl⟩ := List.mem_map.mp (List.mem_toFinset.mp one)
    obtain ⟨later, _, rfl⟩ := List.mem_map.mp (List.mem_toFinset.mp other)
    exact routeKey_eq_iff.mp same
  calc ((empty makeRoutes).addingAll entries).size
      = ((empty makeRoutes).addingAll entries).table.keys.length := (List.length_map _).symm
    _ = ((empty makeRoutes).addingAll entries).table.keys.toFinset.card :=
        (List.toFinset_card_of_nodup increasing.nodup_keys).symm
    _ = (entries.map fun entry => segments entry.1).toFinset.card := by
        rw [keys, Finset.card_image_of_injOn apart]

/-! ## What routes are after additions -/

/-- After additions to no routes a path leads where the first addition with its segments leads. An
addition is refused exactly if an accepted one has its segments, with a message that shows the
first route, and leaves the routes as they were. There are as many routes as lists of segments.
Canonical forms are canonical and tell apart what segments tell apart. -/
theorem routed_after (makeRoutes : Bool) (entries : List (String × Route σ ω)) :
    let routes := (empty makeRoutes).addingAll entries
    (∀ path, routes.find? path = (firstAt? entries path).map (·.2)) ∧
      (∀ path route, (∃ message, routes.add path route = .error message) ↔
        ∃ earlier ∈ (empty makeRoutes).accepted entries, segments earlier.1 = segments path) ∧
      (∀ path route message, routes.add path route = .error message →
        (∃ first, firstAt? entries path = some first ∧ message = taken path first.2) ∧
          (empty makeRoutes).addingAll (entries ++ [(path, route)]) = routes) ∧
      routes.size = (entries.map fun entry => segments entry.1).toFinset.card ∧
      (∀ path, routeKey (routeKey path) = routeKey path) ∧
      ∀ path other, routeKey path = routeKey other ↔ segments path = segments other := by
  intro routes
  have leads (path : String) : routes.find? path = (firstAt? entries path).map (·.2) :=
    find?_addingAll (empty makeRoutes) entries path
  refine ⟨leads, fun path route => ?_, fun path route message refused => ⟨?_, ?_⟩,
    size_addingAll_empty makeRoutes entries, routeKey_routeKey, fun _ _ => routeKey_eq_iff⟩
  · have present := isSome_find?_addingAll (empty makeRoutes) entries path
    have none : ((empty makeRoutes : Routes σ ω).find? path).isSome ↔ False := by
      simp [find?, empty, Dictionary.find?]
    rw [none, false_or] at present
    rw [← present, Option.isSome_iff_exists]
    simp only [add_eq_error_iff]
    constructor
    · rintro ⟨_, old, found, _⟩
      exact ⟨old, found⟩
    · rintro ⟨old, found⟩
      exact ⟨_, old, found, rfl⟩
  · obtain ⟨old, found, rfl⟩ := add_eq_error_iff.mp refused
    obtain ⟨first, among, rfl⟩ := Option.map_eq_some_iff.mp ((leads path).symm.trans found)
    exact ⟨first, among, rfl⟩
  · rw [addingAll, List.foldl_append, List.foldl_cons, List.foldl_nil, ← addingAll]
    exact adding_of_error refused

end

end ServerPages.Routes
