import ServerPages.Lifecycle.Deliver
import ServerPages.Lifecycle.Open
import ServerPages.Proofs.Binding.Steps
import ServerPages.Proofs.Document.Injection

/-!
# Documents of running pages

What the server does to the document of a page, seen from the running instance. A page
whose document is sound can be bound unless a click belongs to nothing, and its title can
be set.
-/

namespace ServerPages

open Procedure

def Page.Sound (page : Page) : Prop :=
  ∃ doc, page.document = some doc ∧ doc.Sound

/-- An edit at an element that runs at the server is done on the document of the page. -/
theorem Page.runFrom_editElement {page : Page} {doc next : Document} {id : String} {node : NodeId}
    {change : Document → NodeId → Except EditError Document}
    (indexed : page.element? id = some node) (known : page.document = some doc)
    (done : change doc node = .ok next) :
    (editElement id change).runFrom page = (.ok (), { page with document := some next }) := by
  unfold editElement
  rw [runFrom_bind_ok (runFrom_get page), indexed]
  dsimp only
  rw [withDocument, runFrom_ofRun, known]
  dsimp only
  rw [Document.runFrom_edit_ok done]

variable {σ ω α : Type}

def Running.withDocument (running : Running σ ω) (doc : Document) : Running σ ω :=
  { running with
    active := { running.active with page := { running.active.page with document := some doc } } }

/-- Work that ends well wherever the page has a document, and leaves the page with it. -/
def Leaves {ε : Type} (doc : Document) (work : Procedure (Live σ ω) ε α) : Prop :=
  ∀ live, live.page.document = some doc →
    ∃ value after, work.runFrom live = (.ok value, after) ∧ after.page.document = some doc

/-- Work on the page alone leaves the rest as it is. -/
theorem Work.runFrom_onPage_ok {procedure : Procedure Page PageError α} {live : Live σ ω}
    {value : α} {page : Page} (run : procedure.runFrom live.page = (.ok value, page)) :
    (onPage procedure).runFrom live = (.ok value, { live with page }) := by
  rw [onPage, within, runFrom_ofRun, mapError, runFrom_ofRun, run]
  rfl

def Running.withStage (running : Running σ ω) (stage : Stage) : Running σ ω :=
  { running with active := { running.active with stage } }

namespace Lifecycle

variable {running : Running σ ω} {doc next : Document}

theorem runFrom_active (running : Running σ ω) :
    (active : Lifecycle σ ω (Instance σ ω)).runFrom running = (.ok running.active, running) := rfl

theorem runFrom_advance (stage : Stage) (running : Running σ ω) :
    (advance stage).runFrom running = (.ok (), running.withStage stage) := rfl

theorem runFrom_onDocument (known : running.active.page.document = some doc)
    {procedure : Procedure Document PageError α} {result : Except PageError α}
    (run : procedure.runFrom doc = (result, next)) :
    (onDocument procedure).runFrom running =
      (result.mapError .failed, running.withDocument next) := by
  simp only [onDocument, onPage, within, mapError, runFrom_ofRun, Page.withDocument, known, run]
  rfl

theorem runFrom_onDocument_none (known : running.active.page.document = none)
    (procedure : Procedure Document PageError α) :
    (onDocument procedure).runFrom running = (.error (.failed .noDocument), running) := by
  simp only [onDocument, onPage, within, mapError, runFrom_ofRun, Page.withDocument, known]
  rfl

/-- The document of a sound page takes the title of the class. -/
theorem exists_setTitle (sound : running.active.page.Sound) (title : String) :
    ∃ after, (onPage (Page.setTitle title) : Lifecycle σ ω Unit).runFrom running =
      (.ok (), after) := by
  obtain ⟨doc, known, sound⟩ := sound
  cases found : doc.firstNamed "title" with
  | none =>
      refine ⟨running.withDocument doc, runFrom_onDocument known (Document.runFrom_edit_ok ?_)⟩
      simp only [found]
  | some node =>
      obtain ⟨element, named, _⟩ :=
        Document.exists_element_of_holds (Document.holds_of_findIn found)
      obtain ⟨next, done⟩ := Document.exists_setText sound.wellFormed named title
      refine ⟨running.withDocument next, runFrom_onDocument known (Document.runFrom_edit_ok ?_)⟩
      simp only [found, done]

/-- Work of a controller changes nothing else of an instance but its state and its page. -/
theorem controller_perform {work : Procedure (Live σ ω) (Halt PageError) α}
    {result : Except (Halt PageError) α} {after : Running σ ω}
    (run : (perform work).runFrom running = (result, after)) :
    after.active.controller = running.active.controller := by
  cases run
  rfl

/-- Work that leaves a document alone does so in the course of a request. -/
theorem exists_perform {work : Procedure (Live σ ω) (Halt PageError) α} (leaves : Leaves doc work)
    (known : running.active.page.document = some doc) :
    ∃ value after, (perform work).runFrom running = (.ok value, after) ∧
      after.active.page.document = some doc := by
  obtain ⟨value, after, run, left⟩ := leaves (live running) known
  refine ⟨value, withLive after running, ?_, left⟩
  simp only [perform, within, runFrom_ofRun, run]

theorem exists_performAs {work : Work σ ω α} (leaves : Leaves doc work)
    (known : running.active.page.document = some doc) (toError : Failure → PageError) :
    ∃ value after, (performAs toError work).runFrom running = (.ok value, after) ∧
      after.active.page.document = some doc := by
  refine exists_perform (fun live here => ?_) known
  obtain ⟨value, after, run, left⟩ := leaves live here
  refine ⟨value, after, ?_, left⟩
  rw [mapError, runFrom_ofRun, run]
  rfl

/-- Binding a page works on its document alone. -/
theorem runFrom_bindPage {assets : Assets} {code : ClientCode} {bound final : Document}
    (known : running.active.page.document = some doc)
    (binds : (Document.bind running.active.controller.callable).runFrom doc = (.ok code, bound))
    (injects : (Document.inject (code.withAssets assets)).runFrom bound = (.ok (), final)) :
    (bindPage assets).runFrom running = (.ok (), running.withDocument final) := by
  unfold bindPage
  rw [runFrom_bind_ok (runFrom_active running)]
  have whole : (Document.bind running.active.controller.callable >>= fun code =>
      Document.inject (code.withAssets assets)).runFrom doc = (.ok (), final) := by
    rw [runFrom_bind_ok binds]
    exact injects
  exact runFrom_onDocument known whole

/-- Binding a sound page ends well or finds a click that belongs to nothing. -/
theorem bindPage_cases (known : running.active.page.document = some doc) (sound : doc.Sound)
    (assets : Assets) :
    (∃ code bound final,
      (Document.bind running.active.controller.callable).runFrom doc = (.ok code, bound) ∧
      (bindPage assets).runFrom running = (.ok (), running.withDocument final) ∧
      Binding.Frame (doc.findAll Binding.interactive) doc bound ∧ bound.Extends final) ∨
    ∃ message bound,
      (Document.bind running.active.controller.callable).runFrom doc =
        (.error (.scope message), bound) ∧
      (bindPage assets).runFrom running =
        (.error (.failed (.scope message)), running.withDocument bound) := by
  rcases Binding.bind_cases sound.wellFormed running.active.controller.callable
      (fun _ _ _ => True) trivial (fun _ _ _ _ _ _ _ _ _ _ => trivial) with
    ⟨elements, after, run, -, frame, _⟩ | ⟨message, bound, run⟩
  · have top : after.doc.takesChildren Document.root = true := by
      rw [frame.takes _ (Document.has_of_takesChildren sound.top)]
      exact sound.top
    obtain ⟨final, injected, ext⟩ := Document.exists_inject frame.wellFormed top
      ((Binding.assemble running.active.controller.callable elements).withAssets assets)
    exact Or.inl ⟨_, after.doc, final, run, runFrom_bindPage known run injected, frame, ext⟩
  · refine Or.inr ⟨message, bound, run, ?_⟩
    unfold bindPage
    rw [runFrom_bind_ok (runFrom_active running)]
    exact runFrom_onDocument known (runFrom_bind_error run)

theorem sound_bindPage {assets : Assets} {after : Running σ ω}
    (sound : running.active.page.Sound)
    (run : (bindPage assets).runFrom running = (.ok (), after)) : after.active.page.Sound := by
  obtain ⟨doc, known, sound⟩ := sound
  rcases bindPage_cases known sound assets with
    ⟨code, bound, final, _, done, frame, ext⟩ | ⟨message, bound, _, refused⟩
  · cases done.symm.trans run
    have top : bound.takesChildren Document.root = true := by
      rw [frame.takes _ (Document.has_of_takesChildren sound.top)]
      exact sound.top
    exact ⟨final, rfl, ext.wellFormed, (ext.hosts frame.wellFormed ⟨.refl, top⟩).takes⟩
  · cases refused.symm.trans run

def attached (running : Running σ ω) (doc : Document) (markup : String) (filled : Document) :
    Running σ ω :=
  let page : Page := { running.active.page.attach doc markup with document := some filled }
  { running with active := { running.active with page, stage := .populated } }

/-- A page whose first hook ends well and whose clicks are bound comes to its event, or to its
start. -/
theorem runFrom_openPage {request : Request} {filled : Document} {count : Nat}
    (populated : (Document.populate request).runFrom doc = (.ok count, filled))
    {assets : Assets} {markup : String} {first ready : Running σ ω}
    (initialized : init.runFrom (attached running doc markup filled) = (.ok (), first))
    (bound : (bindPage assets).runFrom (first.withStage .initialized) = (.ok (), ready)) :
    (openPage assets request doc markup).runFrom running =
      (tellingErrors (eventOrStart request)).runFrom ready := by
  have attach : (onPage (modify fun page => page.attach doc markup) : Lifecycle σ ω Unit).runFrom
      running = (.ok (), { running with
        active := { running.active with page := running.active.page.attach doc markup } }) := rfl
  unfold openPage
  rw [runFrom_bind_ok attach, runFrom_bind_ok (runFrom_advance .controllerBound _),
    runFrom_bind_ok (runFrom_onDocument rfl populated),
    runFrom_bind_ok (runFrom_advance .populated _)]
  refine (runFrom_bind_ok initialized).trans ?_
  rw [runFrom_bind_ok (runFrom_advance .initialized first), runFrom_bind_ok bound]

/-! ## Events -/

section

variable {request : Request} {descriptor : Descriptor} {exec : String} {after : Running σ ω}
  (event : request.event = .ok (some descriptor)) (names : descriptor.exec = some exec)

include event names

/-- An event whose handler ends well asks for its update panel. -/
theorem runFrom_eventOrStart {value : Option Json}
    (dispatches : (dispatch exec ⟨sourceOf running.active.page descriptor, descriptor⟩
      descriptor.args).runFrom running = (.ok value, after)) :
    (eventOrStart request).runFrom running =
      (.ok descriptor.updatePanel, after.withStage .eventDispatched) := by
  unfold eventOrStart
  rw [event]
  dsimp only
  unfold dispatchEvent
  rw [names]
  dsimp only
  exact runFrom_bind_ok ((runFrom_bind_ok (runFrom_active running)).trans
    ((runFrom_bind_ok dispatches).trans (runFrom_advance .eventDispatched after)))

/-- An event ends with the error of its handler. -/
theorem runFrom_eventOrStart_error {halt : Halt PageError}
    (dispatches : (dispatch exec ⟨sourceOf running.active.page descriptor, descriptor⟩
      descriptor.args).runFrom running = (.error halt, after)) :
    (eventOrStart request).runFrom running = (.error halt, after) := by
  unfold eventOrStart
  rw [event]
  dsimp only
  unfold dispatchEvent
  rw [names]
  dsimp only
  exact runFrom_bind_error ((runFrom_bind_ok (runFrom_active running)).trans
    (runFrom_bind_error dispatches))

end

theorem runFrom_tellingErrors {lifecycle : Lifecycle σ ω α} {value : α} {after : Running σ ω}
    (ran : lifecycle.runFrom running = (.ok value, after)) :
    (tellingErrors lifecycle).runFrom running = (.ok value, after) := by
  rw [tellingErrors, runFrom_tryCatch, ran]

/-- The controller is not told that something broke down. -/
theorem runFrom_tellingErrors_brokeDown {lifecycle : Lifecycle σ ω α} {after : Running σ ω}
    (ran : lifecycle.runFrom running = (.error .brokeDown, after)) :
    (tellingErrors lifecycle).runFrom running = (.error .brokeDown, after) := by
  rw [tellingErrors, runFrom_tryCatch, ran]
  rfl

/-! ## Delivery -/

/-- The panel of a page is delivered as its document has it. -/
theorem runFrom_deliver_panel (known : running.active.page.document = some doc)
    (panelId : String) :
    (deliver (some panelId)).runFrom running =
      (.ok (.panel (doc.panelReply panelId).1),
        (running.withDocument (doc.panelReply panelId).2).withStage .finalized) := by
  have sends : (deliverPanel panelId).runFrom running =
      (.ok (doc.panelReply panelId).1,
        (running.withDocument (doc.panelReply panelId).2).withStage .finalized) := by
    rw [deliverPanel, runFrom_bind_ok (runFrom_onDocument known (runFrom_modifyGet _ _)),
      runFrom_bind_ok (runFrom_advance .finalized _), runFrom_pure]
  exact runFrom_bind_ok sends

end Lifecycle

end ServerPages
