import ServerPages.Controller.Class

/-!
# Sources of controllers

A source yields modules by name: controllers, and mixins, which are no page's controller.
A module is loaded anew each time it is asked for; loading it may fail, and may change
what all requests share. A source may also be missing altogether.
-/

namespace ServerPages

inductive Loadable (σ ω : Type)
  | controller (controller : Controller σ ω)
  | mixin (mixin : Mixin σ ω)

namespace Loadable

/-- Whether a module is no page's controller. -/
def isMixin {σ ω : Type} : Loadable σ ω → Bool
  | .controller _ => false
  | .mixin _ => true

end Loadable

/-- Modules by name, under a label for messages. -/
structure Source (σ ω : Type) where
  label : String
  /-- The modules, or none if the source is missing. -/
  modules : Option (Dictionary (Procedure ω Failure (Loadable σ ω)))

namespace Source

variable {σ ω : Type}

def named (label : String) : Source σ ω := ⟨label, some []⟩

def missing (label : String) : Source σ ω := ⟨label, none⟩

/-- Registers a module under a name, in place of one that has it. -/
def register (source : Source σ ω) (name : String)
    (loading : Procedure ω Failure (Loadable σ ω)) : Source σ ω :=
  { source with modules := source.modules.map (·.put name loading) }

def withController (source : Source σ ω) (name : String) (controller : Controller σ ω) :
    Source σ ω :=
  source.register name (pure (.controller controller))

def withMixin (source : Source σ ω) (mixin : Mixin σ ω) : Source σ ω :=
  source.register mixin.name (pure (.mixin mixin))

/-- The names of the modules, in order; none if the source is missing. -/
def names? (source : Source σ ω) : Option (List String) :=
  source.modules.map fun entries => entries.map (·.1)

def load (source : Source σ ω) (name : String) : Procedure ω Failure (Option (Loadable σ ω)) :=
  match source.modules.bind (Dictionary.find? name) with
  | some loading => loading.map some
  | none => pure none

end Source

end ServerPages
