import ServerPages.Binding.Inject
import ServerPages.Controller.Class
import ServerPages.Document.Printer

/-!
# Pages at work

An instance is a controller with its own state and its page, at a stage of the request
that it serves. Failures of hooks and handlers are told by the hook or the handler that
they come from.
-/

namespace ServerPages

inductive Stage
  | controllerBound
  | populated
  | initialized
  | eventDispatched
  | started
  | finalized
  deriving DecidableEq, Repr

namespace Stage

def name : Stage → String
  | .controllerBound => "ControllerBound"
  | .populated => "Populated"
  | .initialized => "Initialized"
  | .eventDispatched => "EventDispatched"
  | .started => "Started"
  | .finalized => "Finalized"

end Stage

structure Instance (σ ω : Type) where
  controller : Controller σ ω
  object : σ
  page : Page
  stage : Stage

structure Running (σ ω : Type) where
  active : Instance σ ω
  shared : ω

/-- What happens to an instance in the course of a request. -/
abbrev Lifecycle (σ ω : Type) : Type → Type := Procedure (Running σ ω) (Halt PageError)

namespace Instance

variable {σ ω : Type}

def create (controller : Controller σ ω) (request : Request) : Except PageError (Instance σ ω) :=
  match controller.construct request with
  | .ok object => .ok ⟨controller, object, .of request, .controllerBound⟩
  | .error failure => .error (.lifecycle "constructor" failure)

def withRequest (active : Instance σ ω) (request : Request) : Instance σ ω :=
  { active with page := { active.page with request } }

end Instance

namespace Lifecycle

variable {σ ω α : Type}

def live (running : Running σ ω) : Live σ ω :=
  ⟨running.active.object, running.active.page, running.shared⟩

def withLive (live : Live σ ω) (running : Running σ ω) : Running σ ω :=
  { active := { running.active with object := live.object, page := live.page }
    shared := live.shared }

def perform (procedure : Procedure (Live σ ω) (Halt PageError) α) : Lifecycle σ ω α :=
  .within live withLive procedure

def performAs (toError : Failure → PageError) (work : Work σ ω α) : Lifecycle σ ω α :=
  perform (work.mapError (.map toError))

def onPage (procedure : Procedure Page PageError α) : Lifecycle σ ω α :=
  .within (·.active.page)
    (fun page running => { running with active := { running.active with page } })
    (procedure.mapError .failed)

def onDocument (procedure : Procedure Document PageError α) : Lifecycle σ ω α :=
  onPage (Page.withDocument procedure)

def active : Lifecycle σ ω (Instance σ ω) := do
  return (← get).active

def advance (stage : Stage) : Lifecycle σ ω Unit :=
  modify fun running => { running with active := { running.active with stage } }

def fail (error : PageError) : Lifecycle σ ω α :=
  throw (.failed error)

/-! ## Hooks and handlers -/

/-- The hook that runs before anything else of a page. -/
def init : Lifecycle σ ω Unit := do
  performAs (.lifecycle "init") (← active).controller.hooks.init

/-- Sets the title of the class and runs the hook of pages that start. -/
def start : Lifecycle σ ω Unit := do
  let controller := (← active).controller
  match controller.title with
  | some title => onPage (Page.setTitle title)
  | none => pure ()
  performAs (.lifecycle "start") controller.hooks.start

/-- The hook that runs before a whole page is written. -/
def finishHook : Lifecycle σ ω Unit := do
  performAs (.lifecycle "end") (← active).controller.hooks.finish

/-- Tells the controller of an error; a failure of that is dropped. -/
def errored (error : PageError) : Lifecycle σ ω Unit := do
  let controller := (← active).controller
  tryCatch (performAs .other (controller.hooks.errored error)) fun
    | .failed _ => pure ()
    | .brokeDown => throw .brokeDown

/-- Runs the handler of a name, after the hook that runs before handlers. -/
def dispatch (exec : String) (event : ServerEvent) (args : List Json) :
    Lifecycle σ ω (Option Json) := do
  let controller := (← active).controller
  match controller.handlers.find? exec with
  | none => fail (.handlerNotFound exec)
  | some handler =>
      performAs (.handlerExecution exec) (controller.hooks.beforeExec ⟨handler.info, event, args⟩)
      perform (handler.invoke event args)

/-- Runs the last hook, removes the marks of what runs at the server, and writes the document. -/
def finish : Lifecycle σ ω String := do
  finishHook
  match (← active).page.document with
  | none => fail .noDocument
  | some doc =>
      let doc : Document := doc.stripServerMarks Document.root
      onPage (modify fun page => { page with document := none })
      advance .finalized
      return doc.toHtml

end Lifecycle

namespace Instance

variable {σ ω α : Type}

/-- Something that happens to an instance, seen from what all requests share. If it ends with an
error, the instance is gone. -/
def run (active : Instance σ ω) (lifecycle : Lifecycle σ ω α) :
    Procedure ω (Halt PageError) (α × Instance σ ω) :=
  .ofRun fun shared =>
    let (result, running) := lifecycle.runFrom ⟨active, shared⟩
    (result.map (·, running.active), running.shared)

end Instance

end ServerPages
