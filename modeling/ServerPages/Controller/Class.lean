import ServerPages.Controller.Registry

/-!
# Controllers

A class describes a controller: how its state is made for a request, its hooks, and its
handlers. Handlers of mixins are added to those of the class, which win over them by
name wherever the mixin is included. A controller is a class with all its handlers.
-/

namespace ServerPages

/-- Handlers to be included in classes; no page's controller by itself. -/
structure Mixin (σ ω : Type) where
  name : String
  handlers : Registry σ ω

structure Invocation where
  handler : HandlerInfo
  event : ServerEvent
  args : List Json

/-- What a controller does at fixed points of a request. -/
structure Hooks (σ ω : Type) where
  /-- Runs before anything else of a page. -/
  init : Work σ ω Unit
  /-- Runs where a page is asked for without an event. -/
  start : Work σ ω Unit
  /-- Runs before a whole page is written. -/
  finish : Work σ ω Unit
  /-- Is told of an event or a start that failed. -/
  errored : PageError → Work σ ω Unit
  /-- Runs before a handler. -/
  beforeExec : Invocation → Work σ ω Unit

namespace Hooks

def none {σ ω : Type} : Hooks σ ω :=
  ⟨pure (), pure (), pure (), fun _ => pure (), fun _ => pure ()⟩

end Hooks

structure ControllerClass (σ ω : Type) where
  name : String
  construct : Request → Except Failure σ
  hooks : Hooks σ ω
  own : Registry σ ω
  included : Registry σ ω
  /-- The title of pages that start. -/
  title : Option String
  /-- The view of a path that the controller is attached to. -/
  view : Option String

structure Controller (σ ω : Type) where
  name : String
  construct : Request → Except Failure σ
  hooks : Hooks σ ω
  handlers : Registry σ ω
  title : Option String
  view : Option String

namespace Mixin

variable {σ ω α : Type}

def named (name : String) : Mixin σ ω := ⟨name, .empty⟩

/-- Adds a handler, in place of one of its name. -/
def handler (mixin : Mixin σ ω) (name : String) (callable : Bool) (parameters : Parameters α)
    (body : ServerEvent → α → Work σ ω Json) : Mixin σ ω :=
  { mixin with handlers := mixin.handlers.insert (.of mixin.name name callable parameters body) }

/-- Opens the handlers so far to scripts. -/
def allCallable (mixin : Mixin σ ω) : Mixin σ ω :=
  { mixin with handlers := mixin.handlers.allCallable }

end Mixin

namespace ControllerClass

variable {σ ω α : Type}

def named (name : String) (construct : Request → Except Failure σ) : ControllerClass σ ω :=
  ⟨name, construct, .none, .empty, .empty, none, none⟩

/-- Adds a handler, in place of an own one of its name. -/
def handler (cls : ControllerClass σ ω) (name : String) (callable : Bool)
    (parameters : Parameters α) (body : ServerEvent → α → Work σ ω Json) : ControllerClass σ ω :=
  { cls with own := cls.own.insert (.of cls.name name callable parameters body) }

/-- Includes a mixin; of handlers with one name that of the first mixin counts. -/
def including (cls : ControllerClass σ ω) (mixin : Mixin σ ω) : ControllerClass σ ω :=
  { cls with included := cls.included.mergeMissing mixin.handlers }

/-- The controller of a class: its own handlers, then those of mixins whose names it lacks. -/
def build (cls : ControllerClass σ ω) : Controller σ ω :=
  { name := cls.name, construct := cls.construct, hooks := cls.hooks,
    handlers := cls.own.mergeMissing cls.included, title := cls.title, view := cls.view }

end ControllerClass

namespace Controller

variable {σ ω : Type}

def handlerInfo? (controller : Controller σ ω) (name : String) : Option HandlerInfo :=
  (controller.handlers.find? name).map (·.info)

def callable (controller : Controller σ ω) : List String :=
  (controller.handlers.infos.filter (·.callable)).map (·.name)

end Controller

end ServerPages
