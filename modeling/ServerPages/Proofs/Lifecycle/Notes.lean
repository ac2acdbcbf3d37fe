import ServerPages.Application
import ServerPages.Proofs.Lifecycle.Recording

/-!
# Rendering with a record

What happens to a page, written down as it happens: the calls of hooks and handlers,
with how they ended and the page that they left, the ends of binding and of the step in
which the event of the request is dispatched or the page starts, and the stages that the
instance reaches. The procedures of a page are repeated here with nothing else added.
-/

namespace ServerPages

open Procedure

inductive Call
  | init
  | start
  | beforeExec (invocation : Invocation)
  | handler (invocation : Invocation)
  | errored (error : PageError)
  | finish

/-- How something ended, apart from its value. -/
abbrev Ending := Except (Halt PageError) Unit

def ending {α : Type} (result : Except (Halt PageError) α) : Ending :=
  result.map fun _ => ()

@[simp] theorem ending_ok {α : Type} (value : α) : ending (.ok value) = .ok () := rfl

@[simp] theorem ending_error {α : Type} (halt : Halt PageError) :
    ending (.error halt : Except _ α) = .error halt := rfl

@[simp] theorem ending_map {α β : Type} (result : Except (Halt PageError) α) (view : α → β) :
    ending (result.map view) = ending result := by
  cases result <;> rfl

inductive Note
  /-- A call came to its end and left a page. -/
  | called (call : Call) (ending : Ending) (page : Page)
  /-- The clicks of the page were bound, or not. -/
  | bound (ending : Ending)
  /-- The event of the request was dispatched, or the page started, or not. -/
  | stepped (ending : Ending)
  | reached (stage : Stage)

abbrev Recorded (σ ω : Type) : Type → Type :=
  Procedure (Running σ ω × List Note) (Halt PageError)

namespace Recorded

variable {σ ω α : Type}

def advance (stage : Stage) : Recorded σ ω Unit :=
  noting (fun _ _ => .reached stage) (silently (Lifecycle.advance stage))

def calling (call : Call) (lifecycle : Lifecycle σ ω α) : Recorded σ ω α :=
  noting (fun result running => .called call (ending result) running.active.page)
    (silently lifecycle)

/-! ## Hooks and handlers -/

def init : Recorded σ ω Unit :=
  calling .init Lifecycle.init

def start : Recorded σ ω Unit := do
  let controller := (← silently Lifecycle.active).controller
  match controller.title with
  | some title => silently (Lifecycle.onPage (Page.setTitle title))
  | none => pure ()
  calling .start (Lifecycle.performAs (.lifecycle "start") controller.hooks.start)

def dispatch (exec : String) (event : ServerEvent) (args : List Json) :
    Recorded σ ω (Option Json) := do
  let controller := (← silently Lifecycle.active).controller
  match controller.handlers.find? exec with
  | none => throw (.failed (.handlerNotFound exec))
  | some handler =>
      let invocation : Invocation := ⟨handler.info, event, args⟩
      calling (.beforeExec invocation)
        (Lifecycle.performAs (.handlerExecution exec) (controller.hooks.beforeExec invocation))
      calling (.handler invocation) (Lifecycle.perform (handler.invoke event args))

def errored (error : PageError) : Recorded σ ω Unit :=
  calling (.errored error) (Lifecycle.errored error)

def finishHook : Recorded σ ω Unit :=
  calling .finish Lifecycle.finishHook

/-! ## Opening pages -/

def dispatchEvent (descriptor : Descriptor) : Recorded σ ω Unit :=
  match descriptor.exec with
  | none => pure ()
  | some exec => do
      let active ← silently Lifecycle.active
      let event : ServerEvent := ⟨Lifecycle.sourceOf active.page descriptor, descriptor⟩
      let _ ← dispatch exec event descriptor.args
      advance .eventDispatched

def eventOrStart (request : Request) : Recorded σ ω (Option String) := do
  match request.event with
  | .error fault => throw (.failed (.invalidDescriptor fault))
  | .ok none =>
      start
      advance .started
      return none
  | .ok (some descriptor) =>
      dispatchEvent descriptor
      return descriptor.updatePanel

def tellingErrors (recorded : Recorded σ ω α) : Recorded σ ω α :=
  tryCatch recorded fun
    | .failed error => do
        errored error
        throw (.failed error)
    | .brokeDown => throw .brokeDown

def bindPage (assets : Assets) : Recorded σ ω Unit :=
  noting (fun result _ => .bound (ending result)) (silently (Lifecycle.bindPage assets))

def lastStep (request : Request) : Recorded σ ω (Option String) :=
  noting (fun result _ => .stepped (ending result)) (eventOrStart request)

def openPage (assets : Assets) (request : Request) (doc : Document) (markup : String) :
    Recorded σ ω (Option String) := do
  silently (Lifecycle.onPage (modify fun page => page.attach doc markup))
  advance .controllerBound
  let _ ← silently (Lifecycle.onDocument (Document.populate request))
  advance .populated
  init
  advance .initialized
  bindPage assets
  tellingErrors (lastStep request)

/-! ## Delivering pages -/

def finish : Recorded σ ω String := do
  finishHook
  match (← silently Lifecycle.active).page.document with
  | none => throw (.failed .noDocument)
  | some doc =>
      let doc : Document := doc.stripServerMarks Document.root
      silently (Lifecycle.onPage (modify fun page => { page with document := none }))
      advance .finalized
      return doc.toHtml

def deliverPanel (panelId : String) : Recorded σ ω PanelReply := do
  let reply ← silently (Lifecycle.onDocument (modifyGet fun doc => doc.panelReply panelId))
  advance .finalized
  return reply

def deliver : Option String → Recorded σ ω Outcome
  | some panelId => do return .panel (← deliverPanel panelId)
  | none => do return .html (← finish)

/-! ## Rendering -/

def runOn (active : Instance σ ω) (recorded : Recorded σ ω α) :
    Procedure (ω × List Note) (Halt PageError) (α × Instance σ ω) :=
  .ofRun fun (shared, notes) =>
    let (result, running, notes) := recorded.runFrom (⟨active, shared⟩, notes)
    (result.map (·, running.active), running.shared, notes)

def onShared (recorded : Procedure (ω × List Note) (Halt PageError) α) :
    Procedure (Store σ ω × List Note) (Halt PageError) α :=
  .within (fun (store, notes) => (store.shared, notes))
    (fun (shared, notes) (store, _) => ({ store with shared }, notes)) recorded

def openMarkup (app : Application σ ω) (name markup : String) (request : Request)
    (given : Option (Instance σ ω)) :
    Procedure (Store σ ω × List Note) (Halt PageError) (Opened σ ω) := do
  let template ← silently (Store.template name markup)
  match (Document.parse template).takeControl with
  | (none, _) => return .passThrough markup
  | (some controllerName, doc) =>
      let active ← silently (app.instanceFor controllerName request given)
      let (panel, active) ← onShared (runOn active (openPage app.assets request doc template))
      return .page active panel

def renderMarkup (app : Application σ ω) (name markup : String) (request : Option Request)
    (given : Option (Instance σ ω)) :
    Procedure (Store σ ω × List Note) (Halt PageError) Outcome :=
  match request with
  | none => return .passThrough markup
  | some request => do
      match ← openMarkup app name markup request given with
      | .passThrough markup => return .passThrough markup
      | .page active panel =>
          let (outcome, _) ← onShared (runOn active (deliver panel))
          return outcome

end Recorded

end ServerPages
