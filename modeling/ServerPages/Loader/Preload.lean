import ServerPages.Loader.Load

/-!
# Loading controllers ahead

All modules of the first source are loaded before the first request. Loads may arrive
in any order; they are told and remembered in the order in which the source lists their
names. A load that fails is reported and stops nothing.
-/

namespace ServerPages

inductive PreloadOutcome
  | loaded
  | skippedMixin
  | failed (message : String)
  deriving DecidableEq, Repr

structure PreloadReport where
  source : String
  /-- The source does not exist; nothing was tried. -/
  missing : Bool
  /-- The outcomes by name, in the order of the source. -/
  outcomes : List (String × PreloadOutcome)
  deriving DecidableEq, Repr

namespace PreloadOutcome

def isFailure : PreloadOutcome → Bool
  | .failed _ => true
  | _ => false

end PreloadOutcome

namespace PreloadReport

def successful (report : PreloadReport) : Nat :=
  report.outcomes.countP fun entry => !entry.2.isFailure

def failed (report : PreloadReport) : Nat :=
  report.outcomes.countP fun entry => entry.2.isFailure

def outcome? (report : PreloadReport) (name : String) : Option PreloadOutcome :=
  (report.outcomes.find? (·.1 = name)).map (·.2)

theorem successful_add_failed (report : PreloadReport) :
    report.successful + report.failed = report.outcomes.length := by
  rw [List.length_eq_countP_add_countP fun entry : String × PreloadOutcome => entry.2.isFailure]
  simp [successful, failed, Nat.add_comm]

end PreloadReport

namespace Loader

variable {σ ω : Type}

/-- A load that arrived: the place of its name in the source's list, and what it came to. -/
structure Arrival (σ ω : Type) where
  place : Nat
  name : String
  result : Except PageError (Loadable σ ω)

/-- Remembers a module if it is a controller; what became of it. -/
def record (name : String) (result : Except PageError (Loadable σ ω)) :
    StateM (Cache (Controller σ ω)) PreloadOutcome := do
  match result with
  | .ok (.controller controller) =>
      modify fun cache => cache.set name controller
      return .loaded
  | .ok (.mixin _) => return .skippedMixin
  | .error error => return .failed error.message

def inOrder (arrivals : List (Arrival σ ω)) : List (Arrival σ ω) :=
  arrivals.mergeSort fun first second => first.place ≤ second.place

/-- What became of loads that arrived in any order. -/
def collect (arrivals : List (Arrival σ ω)) :
    StateM (Cache (Controller σ ω)) (List (String × PreloadOutcome)) :=
  (inOrder arrivals).mapM fun arrival => do
    return (arrival.name, ← record arrival.name arrival.result)

def loadAll (loader : Loader σ ω) : Nat → List String → StateM ω (List (Arrival σ ω))
  | _, [] => pure []
  | place, name :: names => do
      let result ← (loader.load name).run
      return ⟨place, name, result⟩ :: (← loadAll loader (place + 1) names)

def preload (loader : Loader σ ω) : StateM (Store σ ω) PreloadReport := do
  let source := loader.primary.label
  match loader.primary.names? with
  | none => return ⟨source, true, []⟩
  | some names =>
      let store ← get
      let (arrivals, shared) := (loader.loadAll 0 names).run store.shared
      let (outcomes, controllers) := (collect arrivals).run store.controllers
      set { store with controllers, shared }
      return ⟨source, false, outcomes⟩

end Loader

end ServerPages
