import ServerPages.Loader.Preload
import ServerPages.Proofs.Lifecycle.Heeding

/-!
# Loaders that always load the same

A loader is steady where each source always yields the same for a name, and loading leaves
nothing behind that a controller sees. How often such a loader is asked makes no difference.
-/

namespace ServerPages

variable {σ ω ε α : Type} {related : ω → ω → Prop}

namespace Procedure

/-- From either of related states a procedure comes to a result, and to a state in the same relation
to the other. -/
structure Constantly (related : ω → ω → Prop) (result : Except ε α)
    (procedure : Procedure ω ε α) : Prop where
  outer {first second : ω} (alike : related first second) :
    (procedure.runFrom first).1 = result ∧ related (procedure.runFrom first).2 second
  inner {first second : ω} (alike : related first second) :
    (procedure.runFrom second).1 = result ∧ related first (procedure.runFrom second).2

namespace Constantly

variable {procedure : Procedure ω ε α} {result other : Except ε α}

theorem pure (value : α) :
    Constantly related (.ok value) (pure value : Procedure ω ε α) :=
  ⟨fun alike => ⟨rfl, alike⟩, fun alike => ⟨rfl, alike⟩⟩

/-- Once on either side. -/
theorem both (constantly : Constantly related result procedure) {first second : ω}
    (alike : related first second) :
    (procedure.runFrom first).1 = result ∧ (procedure.runFrom second).1 = result ∧
      related (procedure.runFrom first).2 (procedure.runFrom second).2 := by
  have outer := constantly.outer alike
  have inner := constantly.inner outer.2
  exact ⟨outer.1, inner.1, inner.2⟩

theorem unique (constantly : Constantly related result procedure)
    (again : Constantly related other procedure) {first second : ω}
    (alike : related first second) : result = other :=
  (constantly.outer alike).1.symm.trans (again.outer alike).1

end Constantly

end Procedure

open Procedure

namespace Loader

def sources (loader : Loader σ ω) : List (Source σ ω) :=
  loader.primary :: loader.fallback.toList

/-- Each source always yields the same for a name; controllers do not see how often it was asked. -/
def Steady (related : ω → ω → Prop) (loader : Loader σ ω) : Prop :=
  ∀ source ∈ loader.sources, ∀ name, ∃ result,
    Constantly related result (source.load name) ∧
      ∀ controller, result = .ok (some (.controller controller)) → controller.Heeds related

/-- Where nothing shared may differ, a loader is steady just if each load comes to the same and
leaves what is shared alone. -/
theorem steady_eq_iff (loader : Loader σ ω) :
    loader.Steady Eq ↔ ∀ source ∈ loader.sources, ∀ name, ∃ result, ∀ shared,
      (source.load name).runFrom shared = (result, shared) := by
  constructor
  · intro steady source member name
    obtain ⟨result, constantly, -⟩ := steady source member name
    refine ⟨result, fun shared => ?_⟩
    obtain ⟨same, kept⟩ := constantly.outer (rfl : shared = shared)
    exact Prod.ext same kept
  · intro loads source member name
    obtain ⟨result, same⟩ := loads source member name
    refine ⟨result, ⟨fun {first _} alike => ?_, fun {_ second} alike => ?_⟩, fun controller _ =>
      controller.heeds_eq⟩
    · rw [same first]
      exact ⟨rfl, alike⟩
    · rw [same second]
      exact ⟨rfl, alike⟩

/-- What a loader comes to for a name: the same each time. -/
structure Settled (related : ω → ω → Prop) (loader : Loader σ ω) (name : String)
    (result : Except PageError (Loadable σ ω)) : Prop where
  constantly : Constantly related result (loader.load name)
  heeds {controller : Controller σ ω} (found : result = .ok (.controller controller)) :
    controller.Heeds related

abbrev Yields (related : ω → ω → Prop) (loader : Loader σ ω) (name : String)
    (controller : Controller σ ω) : Prop :=
  loader.Settled related name (.ok (.controller controller))

theorem choose_eq_ok {loader : Loader σ ω} {name : String} {found : Loadable σ ω}
    {primary fallback : Except Failure (Option (Loadable σ ω))}
    (chosen : loader.choose name primary fallback = .ok found) :
    primary = .ok (some found) ∨ fallback = .ok (some found) := by
  unfold choose at chosen
  split at chosen
  · cases chosen
    exact .inl rfl
  · cases chosen
    exact .inr rfl
  all_goals cases chosen

/-- A load chooses from what the sources come to, and ends as the first source or the second
leaves it. -/
theorem runFrom_load (loader : Loader σ ω) (name : String) (shared : ω) :
    let first := (loader.primary.load name).runFrom shared
    let second := (loader.loadFallback name).runFrom first.2
    ((loader.load name).runFrom shared).1 = loader.choose name first.1 second.1 ∧
      (((loader.load name).runFrom shared).2 = first.2 ∨
        ((loader.load name).runFrom shared).2 = second.2) := by
  intro first second
  rw [load, runFrom_ofRun]
  split
  · rename_i found middle run
    have ended : first = (.ok (some found), middle) := run
    rw [ended]
    exact ⟨rfl, .inl rfl⟩
  · rename_i primary middle unfound run
    have ended : first = (primary, middle) := run
    have fell : second = (loader.loadFallback name).runFrom middle :=
      congrArg (fun run : _ × ω => (loader.loadFallback name).runFrom run.2) ended
    rw [fell, ended]
    exact ⟨rfl, .inr rfl⟩

/-- A loader comes to what its sources come to. -/
theorem constantly_load {loader : Loader σ ω} {name : String}
    {primary fallback : Except Failure (Option (Loadable σ ω))}
    (first : Constantly related primary (loader.primary.load name))
    (second : Constantly related fallback (loader.loadFallback name)) :
    Constantly related (loader.choose name primary fallback) (loader.load name) where
  outer {left right} alike := by
    obtain ⟨begun, middle⟩ := first.outer alike
    obtain ⟨ended, after⟩ := second.outer middle
    obtain ⟨result, states⟩ := loader.runFrom_load name left
    rw [result, begun, ended]
    refine ⟨rfl, ?_⟩
    rcases states with state | state <;> rwa [state]
  inner {left right} alike := by
    obtain ⟨begun, middle⟩ := first.inner alike
    obtain ⟨ended, after⟩ := second.inner middle
    obtain ⟨result, states⟩ := loader.runFrom_load name right
    rw [result, begun, ended]
    refine ⟨rfl, ?_⟩
    rcases states with state | state <;> rwa [state]

theorem Steady.exists_fallback {loader : Loader σ ω} (steady : loader.Steady related)
    (name : String) :
    ∃ result, Constantly related result (loader.loadFallback name) ∧
      ∀ controller, result = .ok (some (.controller controller)) → controller.Heeds related := by
  unfold loadFallback
  split
  · rename_i fallback known
    exact steady fallback (by simp [sources, known]) name
  · exact ⟨_, .pure none, nofun⟩

theorem Steady.exists_settled {loader : Loader σ ω} (steady : loader.Steady related)
    (name : String) : ∃ result, loader.Settled related name result := by
  obtain ⟨primary, first, heeds⟩ := steady loader.primary List.mem_cons_self name
  obtain ⟨fallback, second, heedsToo⟩ := steady.exists_fallback name
  refine ⟨_, constantly_load first second, fun chosen => ?_⟩
  rcases choose_eq_ok chosen with found | found
  · exact heeds _ found
  · exact heedsToo _ found

/-! ## Loading ahead -/

/-- Loads of names come to the same on either side. -/
theorem Steady.loadAll {loader : Loader σ ω} (steady : loader.Steady related)
    (names : List String) (place : Nat) {first second : ω} (alike : related first second) :
    ((loader.loadAll place names).run first).1 = ((loader.loadAll place names).run second).1 ∧
      related ((loader.loadAll place names).run first).2
        ((loader.loadAll place names).run second).2 ∧
      ∀ arrival ∈ ((loader.loadAll place names).run first).1,
        loader.Settled related arrival.name arrival.result := by
  induction names generalizing place first second with
  | nil => exact ⟨rfl, alike, nofun⟩
  | cons name names ih =>
      obtain ⟨result, settled⟩ := steady.exists_settled name
      obtain ⟨outer, inner, states⟩ := settled.constantly.both alike
      obtain ⟨same, after, each⟩ := ih (place + 1) states
      refine ⟨?_, after, fun arrival member => ?_⟩
      · exact congrArg₂ (fun result rest => ⟨place, name, result⟩ :: rest)
          (outer.trans inner.symm) same
      · rcases List.mem_cons.mp member with rfl | later
        · exact outer.symm ▸ settled
        · exact each arrival later

end Loader

end ServerPages
