import ServerPages.Loader.Source
import ServerPages.Store

/-!
# Loading controllers

A module is looked for in one source and then in a second, where there is one. If
neither yields it, a failure of the first source is reported rather than one of the
second. Controllers of pages are remembered once they were loaded.
-/

namespace ServerPages

structure Loader (σ ω : Type) where
  primary : Source σ ω
  fallback : Option (Source σ ω)

namespace Loader

variable {σ ω : Type}

def tried (loader : Loader σ ω) : String :=
  match loader.fallback with
  | some fallback => loader.primary.label ++ ", " ++ fallback.label
  | none => loader.primary.label

def loadFallback (loader : Loader σ ω) (name : String) :
    Procedure ω Failure (Option (Loadable σ ω)) :=
  match loader.fallback with
  | some fallback => fallback.load name
  | none => pure none

/-- What two sources come to: the first module, else the first failure. -/
def choose (loader : Loader σ ω) (name : String) :
    Except Failure (Option (Loadable σ ω)) → Except Failure (Option (Loadable σ ω)) →
      Except PageError (Loadable σ ω)
  | .ok (some found), _ => .ok found
  | _, .ok (some found) => .ok found
  | .error failure, _ => .error (.controllerLoad name failure)
  | _, .error failure => .error (.controllerLoad name failure)
  | .ok none, .ok none => .error (.controllerNotFound name loader.tried)

/-- Loads the module of a name; the second source is asked only if the first does not yield it. -/
def load (loader : Loader σ ω) (name : String) : Procedure ω PageError (Loadable σ ω) :=
  .ofRun fun shared =>
    match (loader.primary.load name).runFrom shared with
    | (.ok (some found), shared) => (.ok found, shared)
    | (primary, shared) =>
        let (fallback, shared) := (loader.loadFallback name).runFrom shared
        (loader.choose name primary fallback, shared)

def remembered (name : String) : Procedure (Store σ ω) PageError (Option (Controller σ ω)) := do
  return (← get).controllers.get? name

/-- Remembers a controller, unless there is one for the name by now; the controller that is
remembered. -/
def remember (name : String) (controller : Controller σ ω) :
    Procedure (Store σ ω) PageError (Controller σ ω) := do
  let store ← get
  let (kept, _, controllers) := store.controllers.getOrInsert name fun _ => controller
  set { store with controllers }
  return kept

def resolve (loader : Loader σ ω) (name : String) :
    Procedure (Store σ ω) PageError (Controller σ ω) := do
  match ← remembered name with
  | some controller => return controller
  | none =>
      match ← Store.onShared (loader.load name) with
      | .controller controller => remember name controller
      | .mixin _ => throw (.notAController name)

end Loader

end ServerPages
