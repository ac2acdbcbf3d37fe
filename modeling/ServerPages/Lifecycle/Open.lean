import ServerPages.Binding.Bind
import ServerPages.Lifecycle.Instance
import ServerPages.Page.Control
import ServerPages.Page.Populate

/-!
# Opening pages

A page is opened by attaching its document to an instance, filling in the fields of the
request, running the first hook, and binding its clicks. Then the event of the request
is dispatched, or, where there is none, the page starts. The controller is told of an
error in that last step alone.
-/

namespace ServerPages.Lifecycle

variable {σ ω : Type}

def sourceOf (page : Page) (descriptor : Descriptor) : Option NodeId := do
  let mark ← descriptor.clicked
  let doc ← page.document
  doc.find (Match.any.eq Binding.markName mark)

def dispatchEvent (descriptor : Descriptor) : Lifecycle σ ω Unit :=
  match descriptor.exec with
  | none => pure ()
  | some exec => do
      let event : ServerEvent := ⟨sourceOf (← active).page descriptor, descriptor⟩
      let _ ← dispatch exec event descriptor.args
      advance .eventDispatched

/-- Dispatches the event of a request, or starts the page; the update panel that the event asks
for. -/
def eventOrStart (request : Request) : Lifecycle σ ω (Option String) := do
  match request.event with
  | .error fault => fail (.invalidDescriptor fault)
  | .ok none =>
      start
      advance .started
      return none
  | .ok (some descriptor) =>
      dispatchEvent descriptor
      return descriptor.updatePanel

/-- Does something, telling the controller of an error before it is passed on. -/
def tellingErrors {α : Type} (lifecycle : Lifecycle σ ω α) : Lifecycle σ ω α :=
  tryCatch lifecycle fun
    | .failed error => do
        errored error
        throw (.failed error)
    | .brokeDown => throw .brokeDown

def bindPage (assets : Assets) : Lifecycle σ ω Unit := do
  let controller := (← active).controller
  onDocument do
    let code ← Document.bind controller.callable
    Document.inject (code.withAssets assets)

/-- Opens a page; the update panel that the event of the request asks for. -/
def openPage (assets : Assets) (request : Request) (doc : Document) (markup : String) :
    Lifecycle σ ω (Option String) := do
  onPage (modify fun page => page.attach doc markup)
  advance .controllerBound
  let _ ← onDocument (Document.populate request)
  advance .populated
  init
  advance .initialized
  bindPage assets
  tellingErrors (eventOrStart request)

end ServerPages.Lifecycle
