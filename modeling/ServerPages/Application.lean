import ServerPages.Lifecycle.Deliver
import ServerPages.Lifecycle.Open
import ServerPages.Loader.Preload
import ServerPages.Views.Basic

/-!
# Applications

An application renders views by name. A view that is a template is opened as a page of
the controller that it names; any other is passed through. The markup of a view is
remembered when it is first rendered for a request, and what is remembered decides
whether it is a template.

A page can be left open for its maker to finish, and scripts can call handlers without
a page.
-/

namespace ServerPages

structure Application (σ ω : Type) where
  views : Views
  loader : Loader σ ω
  assets : Assets

inductive Opened (σ ω : Type)
  | passThrough (markup : String)
  /-- An open page, and the update panel that its event asked for. -/
  | page (active : Instance σ ω) (panel : Option String)

namespace Application

variable {σ ω : Type}

def create {τ : Type} (controller : Controller σ ω) (request : Request) :
    Procedure τ (Halt PageError) (Instance σ ω) :=
  match Instance.create controller request with
  | .ok active => pure active
  | .error error => throw (.failed error)

def instanceFor (app : Application σ ω) (name : String) (request : Request)
    (given : Option (Instance σ ω)) : Procedure (Store σ ω) (Halt PageError) (Instance σ ω) :=
  match given with
  | some active => return active.withRequest request
  | none => do
      let controller ← (app.loader.resolve name).mapError .failed
      create controller request

/-- Opens the markup of a name as a page, if what is remembered for the name is a template. -/
def openMarkup (app : Application σ ω) (name markup : String) (request : Request)
    (given : Option (Instance σ ω)) : Procedure (Store σ ω) (Halt PageError) (Opened σ ω) := do
  let template ← Store.template name markup
  match (Document.parse template).takeControl with
  | (none, _) => return .passThrough markup
  | (some controllerName, doc) =>
      let active ← app.instanceFor controllerName request given
      let (panel, active) ←
        Store.onShared (active.run (Lifecycle.openPage app.assets request doc template))
      return .page active panel

/-- Renders the markup of a name; without a request it is passed through. -/
def renderMarkup (app : Application σ ω) (name markup : String) (request : Option Request)
    (given : Option (Instance σ ω)) : Procedure (Store σ ω) (Halt PageError) Outcome :=
  match request with
  | none => return .passThrough markup
  | some request => do
      match ← app.openMarkup name markup request given with
      | .passThrough markup => return .passThrough markup
      | .page active panel =>
          let (outcome, _) ← Store.onShared (active.run (Lifecycle.deliver panel))
          return outcome

def view {τ : Type} (app : Application σ ω) (name : String) :
    Procedure τ (Halt PageError) String :=
  match app.views.render name with
  | .ok markup => pure markup
  | .error failure => throw (.failed (.view name failure))

def render (app : Application σ ω) (name : String) (request : Option Request)
    (given : Option (Instance σ ω)) : Procedure (Store σ ω) (Halt PageError) Outcome := do
  app.renderMarkup name (← app.view name) request given

def compose (app : Application σ ω) (name : String) (request : Request)
    (given : Instance σ ω) : Procedure (Store σ ω) (Halt PageError) (Opened σ ω) := do
  app.openMarkup name (← app.view name) request (some given)

/-! ## Calls of scripts -/

def calledMethod (descriptor : Descriptor) : Except PageError String :=
  match descriptor.exec with
  | some exec => .ok exec
  | none => .error (.invalidDescriptor (.value (Json.missingMember "exec")))

/-- Runs a handler without a page: its value, else the result that it left, else null. The
controller is told of an error. -/
def runCall (descriptor : Descriptor) (exec : String) : Lifecycle σ ω Json :=
  Lifecycle.tellingErrors do
    match ← Lifecycle.dispatch exec ⟨none, descriptor⟩ descriptor.args with
    | some value => return value
    | none =>
        match (← Lifecycle.active).page.result with
        | some result => return result.toJson
        | none => return .null

def call (controller : Controller σ ω) (request : Request) :
    Procedure (Store σ ω) (Halt PageError) Json := do
  let descriptor ←
    match request.event with
    | .ok descriptor => pure (descriptor.getD .blank)
    | .error fault => throw (.failed (.invalidDescriptor fault))
  let exec ←
    match calledMethod descriptor with
    | .ok exec => pure exec
    | .error error => throw (.failed error)
  let active ← create controller request
  let (value, _) ← Store.onShared (active.run (runCall descriptor exec))
  return value

/-- Whether a request is a call of a script: no element was clicked, and the method is one that
scripts may call. -/
def isCall (controller : Controller σ ω) (request : Request) : Bool :=
  match request.event with
  | .ok (some descriptor) =>
      match descriptor.clicked, descriptor.exec with
      | none, some exec => ((controller.handlerInfo? exec).map (·.callable)).getD false
      | _, _ => false
  | _ => false

end Application

end ServerPages
