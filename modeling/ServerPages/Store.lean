import ServerPages.Cache
import ServerPages.Controller.Class

/-!
# What an application remembers

Between requests an application remembers the markup of templates and the controllers
that were loaded, each in a bounded cache, and what its own code shares.
-/

namespace ServerPages

structure Store (σ ω : Type) where
  templates : Cache String
  controllers : Cache (Controller σ ω)
  shared : ω

namespace Store

variable {σ ω : Type}

/-- A store whose caches hold a number of entries each. -/
def empty (capacity : Nat) (shared : ω) : Store σ ω :=
  ⟨.empty capacity, .empty capacity, shared⟩

def clear (store : Store σ ω) : Store σ ω :=
  { store with templates := store.templates.clear, controllers := store.controllers.clear }

def remove (store : Store σ ω) (name : String) : Store σ ω :=
  { store with
    templates := store.templates.remove name
    controllers := store.controllers.remove name }

def onShared {ε α : Type} (procedure : Procedure ω ε α) : Procedure (Store σ ω) ε α :=
  .within (·.shared) (fun shared store => { store with shared }) procedure

/-- The cached markup of a template; markup that was not cached is cached now. -/
def template {ε : Type} (name markup : String) : Procedure (Store σ ω) ε String := do
  let store ← get
  let (template, _, templates) := store.templates.getOrInsert name fun _ => markup
  set { store with templates }
  return template

end Store

end ServerPages
