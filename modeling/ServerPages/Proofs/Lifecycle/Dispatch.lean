import ServerPages.Proofs.Binding.Carriers
import ServerPages.Proofs.Binding.Replay
import ServerPages.Proofs.Event.Wire
import ServerPages.Proofs.Lifecycle.Order

/-!
# Clicks that come back

A function of the script of a page writes a descriptor, and a later request brings it along. The
page of that request is bound from the same template once more. What the descriptor names is
then the same element, the same method and the same panel as when it was written.
-/

namespace ServerPages

open Procedure
open Binding (mark markName)

variable {σ ω : Type}

/-- Courses in which an event comes to the handler of a name, after the hook before it and with
given arguments, and nothing else runs for an event. -/
structure Dispatches (handlers : Registry σ ω) (exec : String) (event : ServerEvent)
    (args : List Json) (course : List Note) : Prop where
  unknown (missing : handlers.find? exec = none) :
    Note.stepped (.error (.failed (.handlerNotFound exec))) ∈ course
  vetted {handler : Handler σ ω} (found : handlers.find? exec = some handler) :
    ∃ ending, (Call.beforeExec ⟨handler.info, event, args⟩, ending) ∈ calls course
  handled {handler : Handler σ ω} (found : handlers.find? exec = some handler)
    (passed : (Call.beforeExec ⟨handler.info, event, args⟩, .ok ()) ∈ calls course) :
    ∃ ending, (Call.handler ⟨handler.info, event, args⟩, ending) ∈ calls course
  only {invocation : Invocation} {ending : Ending}
    (called : (Call.beforeExec invocation, ending) ∈ calls course ∨
      (Call.handler invocation, ending) ∈ calls course) :
    ∃ handler, handlers.find? exec = some handler ∧ invocation = ⟨handler.info, event, args⟩

namespace Controller

/-- Controllers whose first hook leaves the document of the page alone. -/
def KeepsDocument (controller : Controller σ ω) : Prop :=
  ∀ live after, controller.hooks.init.runFrom live = (.ok (), after) →
    after.page.document = live.page.document

/-- Controllers that take up an event without failing and leave a document alone over it. -/
structure Quiet (controller : Controller σ ω) (doc : Document) (exec : String)
    (event : ServerEvent) (args : List Json) : Prop where
  init (live : Live σ ω) : ∃ after, controller.hooks.init.runFrom live = (.ok (), after)
  registered : ∃ handler, controller.handlers.find? exec = some handler ∧
    Leaves doc (controller.hooks.beforeExec ⟨handler.info, event, args⟩) ∧
    Leaves doc (handler.invoke event args)
  finish : Leaves doc controller.hooks.finish

end Controller

def EventScope.reply (doc : Document) : EventScope → Outcome
  | .panel node id => .panel (.panel id ((doc.stripServerMarks node).innerHtml node))
  | .form _ => .html (doc.stripServerMarks Document.root).toHtml

/-- A scope whose panel is the first one of its `id` is answered with what is delivered. -/
theorem EventScope.reply_eq_delivered {doc : Document} {scope : EventScope}
    (first : ∀ node id, scope = .panel node id → doc.panelById id = some node) :
    scope.reply doc = doc.delivered scope.panelId? := by
  cases scope with
  | form => rfl
  | panel node id =>
      have known := first node id rfl
      simp only [reply, panelId?, Document.delivered, Document.panelReply, known]

/-! ## The step in which the event is dispatched -/

namespace StepCourse

variable {running after : Running σ ω} {request : Request} {steps more : List Note}
  {result : Except (Halt PageError) (Option String)} {descriptor : Descriptor} {exec : String}
  (course : StepCourse running request steps result after)
  (event : request.event = .ok (some descriptor)) (names : descriptor.exec = some exec)

include course event names

/-- Once its clicks are bound, a page dispatches the event of its request. -/
theorem dispatches {whole : Bool} {outcome : Ending} (page : Page)
    (closing : Closing whole (ending result) more outcome) :
    Dispatches running.active.controller.handlers exec
      ⟨Lifecycle.sourceOf running.active.page descriptor, descriptor⟩ descriptor.args
      (steppedCourse page steps (ending result) more) := by
  constructor
  case unknown =>
    intro missing
    refine (stepped_mem course closing).mpr ?_
    cases course <;> simp_all
  case vetted =>
    intro handler found
    have inStep :
        ∃ made, (Call.beforeExec (Lifecycle.invocation running handler descriptor), made) ∈
        calls steps := by
      cases course <;> simp_all
    obtain ⟨made, called⟩ := inStep
    exact ⟨made, (call_mem_step closing (Or.inl rfl)).mpr called⟩
  case handled =>
    intro handler found passed
    rw [call_mem_step closing (Or.inl rfl)] at passed
    change (Call.beforeExec (Lifecycle.invocation running handler descriptor), _) ∈ _ at passed
    have inStep : ∃ made, (Call.handler (Lifecycle.invocation running handler descriptor), made) ∈
        calls steps := by
      cases course <;> simp_all
    obtain ⟨made, called⟩ := inStep
    exact ⟨made, (call_mem_step closing (Or.inr rfl)).mpr called⟩
  case only =>
    intro invocation made called
    rw [call_mem_step closing (Or.inl rfl), call_mem_step closing (Or.inr rfl)] at called
    obtain ⟨other, method, handler, same, method?, found, rfl⟩ := course.invocation_eq called
    cases same.symm.trans event
    cases method?.symm.trans names
    exact ⟨handler, found, rfl⟩

/-- The step ends well only if a handler ran; the panel of the event is due then. -/
theorem eq_of_ok {panel : Option String} (done : result = .ok panel) :
    panel = descriptor.updatePanel ∧ after.active.controller = running.active.controller ∧
      ∀ doc, Undisturbed doc steps → after.active.page.document = some doc := by
  cases course with
  | unreadable | untitled | unstarted | unknown | vetoed | unhandled => cases done
  | started other => cases other.symm.trans event
  | idle other none =>
      cases other.symm.trans event
      cases none.symm.trans names
  | @handled _ _ handler value vetted after other _ _ vets handles =>
      cases other.symm.trans event
      cases done
      refine ⟨rfl, ?_, fun doc calm => ?_⟩
      · unfold Lifecycle.vet Lifecycle.performAs at vets
        exact (Lifecycle.controller_perform handles).trans (Lifecycle.controller_perform vets)
      · exact (calm _ (.ok ()) after.active.page
          (List.mem_cons_of_mem _ List.mem_cons_self) (by simp)).2

/-- It does end well where nothing goes wrong. -/
theorem exists_ok {doc : Document}
    (registered : (running.active.controller.handlers.find? exec).isSome)
    (calm : Undisturbed doc steps) : ∃ panel, result = .ok panel := by
  cases course with
  | unreadable other | untitled other | unstarted other | started other =>
      cases other.symm.trans event
  | idle other none =>
      cases other.symm.trans event
      cases none.symm.trans names
  | unknown other same missing =>
      cases other.symm.trans event
      cases same.symm.trans names
      rw [missing] at registered
      cases registered
  | vetoed => cases (calm _ _ _ List.mem_cons_self (by simp)).1
  | unhandled => cases (calm _ _ _ (List.mem_cons_of_mem _ List.mem_cons_self) (by simp)).1
  | handled => exact ⟨_, rfl⟩

/-- Nothing goes wrong where a controller is quiet over the event. -/
theorem undisturbed {doc : Document} (known : running.active.page.document = some doc)
    (quiet : running.active.controller.Quiet doc exec
      ⟨Lifecycle.sourceOf running.active.page descriptor, descriptor⟩ descriptor.args) :
    Undisturbed doc steps := by
  obtain ⟨handler, registered, vets, handles⟩ := quiet.registered
  obtain ⟨_, vetted, vetRun, vettedDoc⟩ :=
    Lifecycle.exists_performAs vets known (.handlerExecution exec)
  obtain ⟨_, handled, handleRun, handledDoc⟩ := Lifecycle.exists_perform handles vettedDoc
  cases course with
  | unreadable other | untitled other | unstarted other | started other =>
      cases other.symm.trans event
  | idle other none =>
      cases other.symm.trans event
      cases none.symm.trans names
  | unknown other same missing =>
      cases other.symm.trans event
      cases same.symm.trans names
      cases missing.symm.trans registered
  | vetoed other same found failed =>
      cases other.symm.trans event
      cases same.symm.trans names
      cases found.symm.trans registered
      cases vetRun.symm.trans failed
  | unhandled other same found passed failed =>
      cases other.symm.trans event
      cases same.symm.trans names
      cases found.symm.trans registered
      cases vetRun.symm.trans passed
      cases handleRun.symm.trans failed
  | handled other same found passed done =>
      cases other.symm.trans event
      cases same.symm.trans names
      cases found.symm.trans registered
      cases vetRun.symm.trans passed
      cases handleRun.symm.trans done
      intro call made page member _
      simp only [List.mem_cons, Note.called.injEq, reduceCtorEq, List.not_mem_nil, or_false]
        at member
      rcases member with ⟨_, rfl, rfl⟩ | ⟨_, rfl, rfl⟩
      · exact ⟨rfl, vettedDoc⟩
      · exact ⟨rfl, handledDoc⟩

end StepCourse

/-! ## Opening the page -/

/-- A first hook that leaves the document alone changes neither it nor the controller. -/
theorem Lifecycle.eq_of_init {running after : Running σ ω}
    (keeps : running.active.controller.KeepsDocument)
    (run : Lifecycle.init.runFrom running = (.ok (), after)) :
    after.active.controller = running.active.controller ∧
      after.active.page.document = running.active.page.document := by
  unfold Lifecycle.init at run
  rw [runFrom_bind_ok (Lifecycle.runFrom_active running)] at run
  simp only [Lifecycle.performAs, Lifecycle.perform, within, mapError, runFrom_ofRun] at run
  rcases worked : running.active.controller.hooks.init.runFrom (Lifecycle.live running) with
    ⟨error | _, live⟩
  · rw [worked] at run
    cases run
  · rw [worked] at run
    cases run
    exact ⟨rfl, keeps _ live worked⟩

/-- A first hook that never fails does not fail in the course of a request. -/
theorem Lifecycle.exists_init {running : Running σ ω}
    (ends : ∀ live, ∃ after, running.active.controller.hooks.init.runFrom live = (.ok (), after)) :
    ∃ after, Lifecycle.init.runFrom running = (.ok (), after) := by
  obtain ⟨after, worked⟩ := ends (Lifecycle.live running)
  refine ⟨Lifecycle.withLive after running, ?_⟩
  unfold Lifecycle.init
  rw [runFrom_bind_ok (Lifecycle.runFrom_active running)]
  simp only [Lifecycle.performAs, Lifecycle.perform, within, mapError, runFrom_ofRun, worked]
  rfl

/-- What is undisturbed as a whole is so in its last step. -/
theorem Undisturbed.step {doc : Document} {page : Page} {steps more : List Note} {step : Ending}
    (calm : Undisturbed doc (steppedCourse page steps step more)) : Undisturbed doc steps :=
  fun call made page member => calm call made page (by simp [steppedCourse, member])

theorem Undisturbed.steppedCourse {doc : Document} {steps : List Note}
    (calm : Undisturbed doc steps) (page : Page) (step : Ending) :
    Undisturbed doc (steppedCourse page steps step []) := by
  intro call made page member apart
  have inSteps : Note.called call made page ∈ steps := by
    simpa [ServerPages.steppedCourse, begun, apart] using member
  exact calm call made page inSteps apart

section

variable {app : Application σ ω} {later : Request} {descriptor : Descriptor} {exec : String}
  {source : Option NodeId} {doc filled bound final : Document} {count : Nat} {code : ClientCode}
  (event : later.event = .ok (some descriptor)) (names : descriptor.exec = some exec)
  (clicked : descriptor.clicked.bind (fun mark => final.find (Match.any.eq markName mark)) = source)
  (populated : (Document.populate later).runFrom doc = (.ok count, filled))
  (injects : (Document.inject (code.withAssets app.assets)).runFrom bound = (.ok (), final))

include event names clicked populated injects

omit event names clicked injects in
variable (app) in
/-- Where the first hook fails, opening a page ends with it. -/
theorem exists_openPage_uninitialized {running first : Running σ ω} {halt : Halt PageError}
    {markup : String} (failed : Lifecycle.init.runFrom (Lifecycle.attached running doc markup
      filled) = (.error halt, first)) :
    ∃ course after,
      Traces (Lifecycle.openPage app.assets later doc markup)
        (Recorded.openPage app.assets later doc markup) running course (.error halt) after ∧
      (Call.init, .ok ()) ∉ calls course := by
  have initTraces : Traces Lifecycle.init Recorded.init _ _ _ first :=
    (Traces.silently failed).noting fun result running =>
      Note.called .init (ending result) running.active.page
  exact ⟨_, _, Recorded.traces_begun populated initTraces.bind_error, by simp [begun]⟩

omit event names clicked in
variable (app) in
/-- Where it ends well, the page comes to the step of its event in the document that was bound. -/
theorem exists_openPage_initialized {running first : Running σ ω} {markup : String}
    (keeps : running.active.controller.KeepsDocument)
    (binds : (Document.bind running.active.controller.callable).runFrom filled = (.ok code, bound))
    (initialized : Lifecycle.init.runFrom (Lifecycle.attached running doc markup filled) =
      (.ok (), first)) :
    first.active.controller = running.active.controller ∧ ∃ steps result after more outcome last,
      StepCourse ((first.withStage .initialized).withDocument final) later steps result after ∧
      Traces (Lifecycle.openPage app.assets later doc markup)
        (Recorded.openPage app.assets later doc markup) running
        (steppedCourse first.active.page steps (ending result) more) outcome last ∧
      ((∃ panel, result = .ok panel ∧ outcome = .ok panel ∧ more = [] ∧ last = after) ∨
        ∃ failed halt, result = .error failed ∧ outcome = .error halt ∧
          ∀ whole, Closing whole (.error failed) more (.error halt)) := by
  have kept : (Lifecycle.attached running doc markup filled).active.controller.KeepsDocument :=
    keeps
  obtain ⟨controller, known⟩ := Lifecycle.eq_of_init kept initialized
  replace controller : first.active.controller = running.active.controller := controller
  have known : (first.withStage .initialized).active.page.document = some filled := known
  have run := Lifecycle.runFrom_bindPage known
    (show (Document.bind (first.withStage .initialized).active.controller.callable).runFrom filled
      = _ from controller ▸ binds) injects
  obtain ⟨steps, result, after, traces, course⟩ :=
    Recorded.exists_eventOrStart ((first.withStage .initialized).withDocument final) later
  obtain ⟨more, outcome, last, opened, told⟩ :=
    Recorded.exists_opened populated initialized run traces
  exact ⟨controller, steps, result, after, more, outcome, last, course, opened, told⟩

/-- A page that is opened for an event dispatches it, as soon as its first hook ends well. It comes
to an error, or is open with the panel of the event due; it is open if a handler is registered
and nothing goes wrong. -/
theorem exists_openPage_dispatches {running : Running σ ω}
    (keeps : running.active.controller.KeepsDocument)
    (binds : (Document.bind running.active.controller.callable).runFrom filled = (.ok code, bound))
    (markup : String) :
    ∃ course result after,
      Traces (Lifecycle.openPage app.assets later doc markup)
        (Recorded.openPage app.assets later doc markup) running course result after ∧
      ((∃ halt, result = .error halt ∧ ((Call.init, .ok ()) ∈ calls course →
          Dispatches running.active.controller.handlers exec ⟨source, descriptor⟩ descriptor.args
            course ∧
          ((running.active.controller.handlers.find? exec).isSome →
            ¬ Undisturbed final course))) ∨
        result = .ok descriptor.updatePanel ∧
          after.active.controller = running.active.controller ∧
          (Undisturbed final course → after.active.page.document = some final) ∧
          ∀ whole more outcome, Closing whole (.ok ()) more outcome →
            Dispatches running.active.controller.handlers exec ⟨source, descriptor⟩
              descriptor.args (course ++ more)) ∧
      (running.active.controller.Quiet final exec ⟨source, descriptor⟩ descriptor.args →
        (Call.init, .ok ()) ∈ calls course ∧ Undisturbed final course ∧
          ∃ panel, result = .ok panel) := by
  rcases initialized : Lifecycle.init.runFrom (Lifecycle.attached running doc markup filled) with
    ⟨halt | _, first⟩
  · obtain ⟨course, after, opened, uninitialized⟩ :=
      exists_openPage_uninitialized app populated initialized
    refine ⟨course, _, after, opened, Or.inl ⟨halt, rfl, fun left => absurd left uninitialized⟩,
      fun quiet => ?_⟩
    have ends : ∀ live, ∃ after, (Lifecycle.attached running doc markup
        filled).active.controller.hooks.init.runFrom live = (.ok (), after) := quiet.init
    obtain ⟨after, other⟩ := Lifecycle.exists_init ends
    cases other.symm.trans initialized
  · obtain ⟨controller, steps, result, after, more, outcome, last, course, opened, told⟩ :=
      exists_openPage_initialized app populated injects keeps binds initialized
    -- the element is looked up by its mark in the document that was bound
    have found : Lifecycle.sourceOf
        ((first.withStage .initialized).withDocument final).active.page descriptor = source := by
      rw [← clicked]
      unfold Lifecycle.sourceOf
      cases descriptor.clicked <;> rfl
    have dispatches {whole : Bool} {rest : List Note} {last : Ending}
        (closing : Closing whole (ending result) rest last) :
        Dispatches running.active.controller.handlers exec ⟨source, descriptor⟩ descriptor.args
          (steppedCourse first.active.page steps (ending result) rest) := by
      have whole := course.dispatches event names first.active.page closing
      rw [found] at whole
      exact controller ▸ whole
    refine ⟨_, outcome, last, opened, ?_, fun quiet => ⟨by simp [steppedCourse, begun], ?_⟩⟩
    · rcases told with ⟨panel, done, rfl, rfl, rfl⟩ | ⟨failed, halt, done, rfl, closing⟩
      · obtain ⟨rfl, same, left⟩ := course.eq_of_ok event names done
        refine Or.inr ⟨rfl, same.trans controller, fun calm => left final calm.step, ?_⟩
        intro whole more outcome closing
        subst done
        have dispatched := dispatches closing
        simpa [steppedCourse] using dispatched
      · subst done
        refine Or.inl ⟨halt, rfl, fun _ => ⟨dispatches (closing true), fun registered calm => ?_⟩⟩
        obtain ⟨panel, done⟩ := course.exists_ok event names (controller ▸ registered) calm.step
        cases done
    · have calm := course.undisturbed event names rfl (found ▸ controller ▸ quiet)
      rcases told with ⟨panel, _, rfl, rfl, _⟩ | ⟨_, _, rfl, _, _⟩
      · exact ⟨calm.steppedCourse _ _, panel, rfl⟩
      · obtain ⟨handler, registered, _⟩ := quiet.registered
        have isSome : (running.active.controller.handlers.find? exec).isSome := by
          rw [registered]
          rfl
        obtain ⟨panel, done⟩ := course.exists_ok event names (controller ▸ isSome) calm
        cases done

/-- So does a view that is opened as a page. If it is delivered too, nothing goes wrong and the
document is left alone, it comes to what the document is delivered as. -/
theorem exists_answer {name markup template controllerName : String}
    {given : Option (Instance σ ω)} {store cached ready : Store σ ω} {active : Instance σ ω}
    (known : (Store.template name markup : Procedure (Store σ ω) (Halt PageError) String).runFrom
      store = (.ok template, cached))
    (control : (Document.parse template).takeControl = (some controllerName, doc))
    (made : (app.instanceFor controllerName later given).runFrom cached = (.ok active, ready))
    (keeps : active.controller.KeepsDocument)
    (binds : (Document.bind active.controller.callable).runFrom filled = (.ok code, bound)) :
    (∃ course result after,
      Traces (app.openMarkup name markup later given)
        (Recorded.openMarkup app name markup later given) store course result after ∧
      ((Call.init, .ok ()) ∈ calls course →
        Dispatches active.controller.handlers exec ⟨source, descriptor⟩ descriptor.args course)) ∧
    ∃ course result after,
      Traces (app.renderMarkup name markup (some later) given)
        (Recorded.renderMarkup app name markup (some later) given) store course result after ∧
      ((Call.init, .ok ()) ∈ calls course →
        Dispatches active.controller.handlers exec ⟨source, descriptor⟩ descriptor.args course ∧
        ((active.controller.handlers.find? exec).isSome → Undisturbed final course →
          result = .ok (final.delivered descriptor.updatePanel))) ∧
      (active.controller.Quiet final exec ⟨source, descriptor⟩ descriptor.args →
        (Call.init, .ok ()) ∈ calls course ∧ Undisturbed final course) := by
  have kept : (Running.mk active ready.shared).active.controller.KeepsDocument := keeps
  obtain ⟨course, result, after, traces, outcomes, quiet⟩ :=
    exists_openPage_dispatches event names clicked populated injects kept binds template
  have opened := Recorded.traces_openMarkup known control made traces
  refine ⟨⟨course, _, _, opened, fun left => ?_⟩, ?_⟩
  · rcases outcomes with ⟨halt, _, failed⟩ | ⟨_, _, _, dispatches⟩
    · exact (failed left).1
    · have whole := dispatches false [] (.ok ()) (.left rfl)
      rw [List.append_nil] at whole
      exact whole
  · rcases outcomes with ⟨halt, rfl, failed⟩ | ⟨rfl, controller, left, dispatches⟩
    · refine ⟨course, .error halt, _, Recorded.traces_renderMarkup_error opened,
        fun left => ⟨(failed left).1, fun registered calm => ?_⟩, fun calm => ?_⟩
      · exact absurd calm ((failed left).2 registered)
      · obtain ⟨_, _, _, done⟩ := quiet calm
        cases done
    · obtain ⟨more, outcome, last, delivery, closing, delivered⟩ :=
        Recorded.exists_deliver descriptor.updatePanel ⟨after.active, after.shared⟩
      refine ⟨course ++ more, outcome, _, Recorded.traces_renderMarkup opened delivery,
        fun _ => ⟨dispatches _ more _ closing, fun _ calm => ?_⟩, fun calm => ?_⟩
      · have before : Undisturbed final course := fun call made page member =>
          calm call made page (List.mem_append_left _ member)
        have behind : Undisturbed final more := fun call made page member =>
          calm call made page (List.mem_append_right _ member)
        exact (delivered final (left before)).1 behind
      · obtain ⟨begins, before, _⟩ := quiet calm
        have finish : Leaves final after.active.controller.hooks.finish := controller ▸ calm.finish
        have behind := (delivered final (left before)).2 finish
        refine ⟨by simp [begins], fun call made page member => ?_⟩
        rcases List.mem_append.mp member with member | member
        · exact before call made page member
        · exact behind call made page member

end

/-! ## The request that brings the descriptor back -/

/-- The script that a page gets for a request has one function for each call of each click. A
later request that brings what the function writes, with any other fields, dispatches to the
handler of the method with the arguments of the call, and the event comes from the element that was
clicked. If nothing goes wrong and the document is left alone, the answer is the panel of the
click, or the whole page. -/
theorem exists_event_dispatches (app : Application σ ω)
    {name markup template controllerName : String} {doc : Document} {controller : Controller σ ω}
    (control : (Document.parse template).takeControl = (some controllerName, doc))
    (unmarked : Binding.Unmarked doc) (distinct : Binding.PanelsDistinct doc)
    (keeps : controller.KeepsDocument) {first : Request} {code : ClientCode} {marked : Document}
    (generated : (Binding.codeFor controller.callable first).runFrom doc = (.ok code, marked))
    {number place : Nat} {node : NodeId} {call : Click.Call}
    (found : (doc.findAll Binding.interactive)[number]? = some node)
    (called : (Binding.callsOf doc node)[place]? = some call) :
    ∃ event ∈ code.events, (event.mark = mark number ∧ event.place = place ∧ event.call = call) ∧
      (∀ other ∈ code.events, other.mark = mark number → other.place = place → other = event) ∧
      (Binding.PanelsNamed doc →
        ∃ scope, doc.eventScope node = some scope ∧ event.panel = scope.panelId?) ∧
      ∀ (args : List Json) (later : Request) (given : Option (Instance σ ω))
        (store cached ready : Store σ ω) (active : Instance σ ω),
        later.event = .ok (some (event.descriptor args)) →
        (Store.template name markup : Procedure (Store σ ω) (Halt PageError) String).runFrom store =
          (.ok template, cached) →
        (app.instanceFor controllerName later given).runFrom cached = (.ok active, ready) →
        active.controller = controller →
        ∃ final,
          (Binding.prepare controller.callable app.assets later).runFrom doc = (.ok (), final) ∧
          (∃ course result after,
            Traces (app.openMarkup name markup later given)
              (Recorded.openMarkup app name markup later given) store course result after ∧
            ((Call.init, .ok ()) ∈ calls course →
              Dispatches controller.handlers call.method ⟨some node, event.descriptor args⟩ args
                course)) ∧
          ∃ course result after,
            Traces (app.renderMarkup name markup (some later) given)
              (Recorded.renderMarkup app name markup (some later) given) store course result
              after ∧
            ((Call.init, .ok ()) ∈ calls course →
              Dispatches controller.handlers call.method ⟨some node, event.descriptor args⟩ args
                course ∧
              (Binding.PanelsNamed doc → (controller.handlers.find? call.method).isSome →
                Undisturbed final course → ∀ scope, doc.eventScope node = some scope →
                result = .ok (scope.reply final))) ∧
            (controller.Quiet final call.method ⟨some node, event.descriptor args⟩ args →
              (Call.init, .ok ()) ∈ calls course ∧ Undisturbed final course) := by
  have fromTemplate := Document.template_of_takeControl control
  obtain ⟨event, member, mine, here, same, panels, unique⟩ :=
    Binding.exists_event_codeFor fromTemplate.wellFormed generated found called
  refine ⟨event, member, ⟨mine, here, same⟩, unique, panels, ?_⟩
  intro args later given store cached ready active carried known made sameController
  subst sameController
  obtain ⟨count, filled, bound, final, populated, _, binds, injects, prepared, _, marks, panelOf⟩ :=
    Binding.exists_prepared fromTemplate unmarked generated app.assets later
  have clicked : (event.descriptor args).clicked.bind
      (fun mark => final.find (Match.any.eq markName mark)) = some node := by
    change final.find (Match.any.eq markName event.mark) = some node
    rw [mine]
    exact marks number node found
  have names : (event.descriptor args).exec = some call.method := by
    rw [← same]
    rfl
  obtain ⟨opening, answering⟩ :=
    exists_answer carried names clicked populated injects known control made keeps binds
  refine ⟨final, prepared, opening, ?_⟩
  obtain ⟨course, result, after, traces, dispatches, quiet⟩ := answering
  refine ⟨course, result, after, traces, fun left => ⟨(dispatches left).1, ?_⟩, quiet⟩
  intro named registered calm scope belongs
  obtain ⟨other, scope?, asked⟩ := panels named
  cases scope?.symm.trans belongs
  rw [(dispatches left).2 registered calm, EventScope.reply_eq_delivered, ← asked]
  · rfl
  · rintro panel id rfl
    exact panelOf named distinct node panel id (List.mem_of_getElem? found) belongs

/-! ### A page with a panel -/

def Request.bringing (descriptor : Descriptor) : Request :=
  (Request.bare .post "/").withField Descriptor.fieldName (.obj descriptor.members)

theorem Request.event_bringing (descriptor : Descriptor) :
    (bringing descriptor).event = .ok (some descriptor) := by
  rw [event, bringing, find?_withField_self]
  simp only [Descriptor.ofField, Descriptor.ofJson_of_perm (.refl _)]

def idleHandler (method : String) : Handler Unit Unit :=
  .of "C" method false .nil fun _ _ => pure .null

def idleController (method : String) : Controller Unit Unit :=
  ⟨"C", fun _ => .ok (), .none, ⟨[idleHandler method]⟩, none, none⟩

def idleInstance (method : String) : Instance Unit Unit :=
  ⟨idleController method, (), .of (.bare .get "/"), .controllerBound⟩

def idleApp : Application Unit Unit :=
  ⟨⟨fun _ => .ok "", fun _ => false⟩, ⟨.named "", none⟩, .none⟩

theorem keepsDocument_idleController (method : String) :
    (idleController method).KeepsDocument := by
  intro live after run
  cases run
  rfl

theorem find?_idleController (method : String) :
    (idleController method).handlers.find? method = some (idleHandler method) := by
  simp [idleController, idleHandler, Registry.find?, Handler.of]

theorem quiet_idleController (method : String) (doc : Document) (event : ServerEvent) :
    (idleController method).Quiet doc method event [] where
  init live := ⟨live, rfl⟩
  registered := ⟨idleHandler method, find?_idleController method,
    fun live known => ⟨(), live, rfl, known⟩, fun live known => ⟨none, live, rfl, known⟩⟩
  finish live known := ⟨(), live, rfl, known⟩

/-- A store that remembers nothing takes the markup as it is. -/
theorem Store.exists_template_empty (name markup : String) (capacity : Nat) (shared : ω) :
    ∃ cached, (Store.template name markup : Procedure (Store σ ω) (Halt PageError) String).runFrom
      (.empty capacity shared) = (.ok markup, cached) := by
  have absent : (Cache.empty capacity : Cache String).get? name = none := by
    simp [Cache.get?, Cache.empty]
  refine ⟨_, Prod.ext ?_ rfl⟩
  unfold Store.template
  rw [runFrom_bind_ok (runFrom_get _)]
  simp only [Store.empty, Cache.getOrInsert, absent]
  rfl

def panelPage : String :=
  "<html runat=server language=js codebehind=C><body><form runat=server>" ++
    "<p id=p updatepanel=true><b runat=server onclick='server.x()'></b></p></form></body></html>"

def panelDocument : Document :=
  ⟨#[⟨.document, none, [⟨1⟩]⟩,
    ⟨.element ⟨"html", []⟩, some ⟨0⟩, [⟨2⟩, ⟨3⟩]⟩,
    ⟨.element ⟨"head", []⟩, some ⟨1⟩, []⟩,
    ⟨.element ⟨"body", []⟩, some ⟨1⟩, [⟨4⟩]⟩,
    ⟨.element ⟨"form", [("runat", "server")]⟩, some ⟨3⟩, [⟨5⟩]⟩,
    ⟨.element ⟨"p", [("id", "p"), ("updatepanel", "true")]⟩, some ⟨4⟩, [⟨6⟩]⟩,
    ⟨.element ⟨"b", [("runat", "server"), ("onclick", "server.x()")]⟩, some ⟨5⟩, []⟩]⟩

theorem takeControl_panelPage :
    (Document.parse panelPage).takeControl = (some "C", panelDocument) := by
  decide +kernel

/-- What is read of the page before it is bound, and that its script is made. -/
theorem panelDocument_reads :
    Binding.Unmarked panelDocument ∧ Binding.PanelsDistinct panelDocument ∧
    (∀ place : Fin (Forest.size panelDocument),
      Carrier.wanted.holds panelDocument ⟨place⟩ = false) ∧
    panelDocument.findAll Binding.interactive = [⟨6⟩] ∧
    Binding.callsOf panelDocument ⟨6⟩ = [⟨"x", ""⟩] ∧
    panelDocument.eventScope ⟨6⟩ = some (.panel ⟨5⟩ "p") ∧
    ((Binding.codeFor [] (.bare .get "/")).runFrom panelDocument).1.isOk = true := by
  decide +kernel

/-- The click in the panel is answered with the panel. -/
theorem exists_event_dispatches_panelPage : ∃ code marked event final course result after,
    (Binding.codeFor [] (.bare .get "/")).runFrom panelDocument = (.ok code, marked) ∧
    event ∈ code.events ∧ event.panel = some "p" ∧
    (Binding.prepare [] .none (.bringing (event.descriptor []))).runFrom panelDocument =
      (.ok (), final) ∧
    Traces (idleApp.renderMarkup "c" panelPage (some (.bringing (event.descriptor [])))
        (some (idleInstance "x")))
      (Recorded.renderMarkup idleApp "c" panelPage (some (.bringing (event.descriptor [])))
        (some (idleInstance "x"))) (.empty 1 ()) course result after ∧
    Dispatches (idleController "x").handlers "x" ⟨some ⟨6⟩, event.descriptor []⟩ [] course ∧
    result = .ok ((EventScope.panel ⟨5⟩ "p").reply final) := by
  obtain ⟨unmarked, distinct, fresh, interactive, calls, scope, ends⟩ := panelDocument_reads
  have found : (panelDocument.findAll Binding.interactive)[0]? = some ⟨6⟩ := by
    rw [interactive]
    rfl
  have called : (Binding.callsOf panelDocument ⟨6⟩)[0]? = some ⟨"x", ""⟩ := by
    rw [calls]
    rfl
  rcases generated : (Binding.codeFor [] (.bare .get "/")).runFrom panelDocument with
    ⟨error | code, marked⟩
  · rw [generated] at ends
    cases ends
  · obtain ⟨event, member, ⟨_, _, _⟩, _, panels, later⟩ :=
      exists_event_dispatches idleApp takeControl_panelPage unmarked distinct
        (keepsDocument_idleController "x") generated found called
    have panelsNamed := (Binding.fresh_of_forall fresh).panelsNamed
    obtain ⟨_, scope?, asked⟩ := panels panelsNamed
    cases scope?.symm.trans scope
    obtain ⟨cached, known⟩ := Store.exists_template_empty "c" panelPage 1 ()
    obtain ⟨final, prepared, _, course, result, after, traces, dispatches, quiet⟩ :=
      later [] (.bringing (event.descriptor [])) (some (idleInstance "x")) _ cached cached _
        (Request.event_bringing _) known rfl rfl
    obtain ⟨begins, calm⟩ := quiet (quiet_idleController "x" final _)
    obtain ⟨dispatched, answered⟩ := dispatches begins
    have registered : ((idleController "x").handlers.find? "x").isSome := by
      rw [find?_idleController]
      rfl
    exact ⟨code, marked, event, final, course, result, after, rfl, member, asked, prepared, traces,
      dispatched, answered panelsNamed registered calm _ scope⟩

/-! ### A page with a carrier that is a panel -/

theorem Document.runFrom_setField_nil {doc : Document} {name : String}
    (untaken : doc.findAll (Document.fieldMatch name) = []) (takes : Document → NodeId → Bool)
    (value : String) : (Document.setField takes name value).runFrom doc = (.ok 0, doc) := by
  unfold Document.setField
  rw [runFrom_bind_ok (runFrom_get doc), untaken]
  rfl

theorem Document.populate_bare (doc : Document) (method : Method) (path : String) :
    (Document.populate (.bare method path)).runFrom doc = (.ok 0, doc) := rfl

/-- A request that brings a descriptor has no other fields. -/
theorem Document.populate_bringing {doc : Document}
    (untaken : doc.findAll (Document.fieldMatch Descriptor.fieldName) = [])
    (descriptor : Descriptor) :
    (Document.populate (.bringing descriptor)).runFrom doc = (.ok 0, doc) := by
  have body : (Request.bringing descriptor).body =
      [(Descriptor.fieldName, .obj descriptor.members)] := rfl
  have query : (Request.bringing descriptor).query = [] := rfl
  unfold Document.populate Document.setFields
  rw [query, body, List.map_singleton, List.foldlM_nil, runFrom_bind_ok (runFrom_pure _ _),
    List.foldlM_cons, bind_assoc]
  simp only [runFrom_bind, runFrom_setField_nil untaken, List.foldlM_nil, runFrom_pure]

theorem runFrom_instanceFor_some (app : Application σ ω) (name : String) (request : Request)
    (active : Instance σ ω) (store : Store σ ω) :
    (app.instanceFor name request (some active)).runFrom store =
      (.ok (active.withRequest request), store) := rfl

/-- A click that comes back to a controller that does nothing is answered from the document that
was bound for it, as the panel that it names or whole. -/
theorem exists_idle_answer (event : ClientEvent) {page controllerName : String}
    {doc bound : Document} {code : ClientCode} {number : Nat} {node : NodeId}
    (control : (Document.parse page).takeControl = (some controllerName, doc))
    (unmarked : Binding.Unmarked doc)
    (untaken : doc.findAll (Document.fieldMatch Descriptor.fieldName) = [])
    (binds : (Document.bind []).runFrom doc = (.ok code, bound))
    (found : (doc.findAll Binding.interactive)[number]? = some node)
    (mine : event.mark = mark number) :
    ∃ final after,
      (Binding.codeFor [] (.bare .get "/")).runFrom doc = (.ok code, bound) ∧
      (Binding.prepare [] .none (.bringing (event.descriptor []))).runFrom doc = (.ok (), final) ∧
      bound.Extends final ∧ bound.Sound ∧
      (idleController event.call.method).Quiet final event.call.method
        ⟨some node, event.descriptor []⟩ [] ∧
      (idleApp.renderMarkup "c" page (some (.bringing (event.descriptor [])))
        (some (idleInstance event.call.method))).runFrom (.empty 1 ()) =
        (.ok (final.delivered event.panel), after) := by
  have fromTemplate := Document.template_of_takeControl control
  have generated : (Binding.codeFor [] (.bare .get "/")).runFrom doc = (.ok code, bound) :=
    (runFrom_bind_ok (Document.populate_bare doc .get "/")).trans binds
  obtain ⟨_, _, _, final, populated, sound, again, injects, prepared, ext, marks, _⟩ :=
    Binding.exists_prepared fromTemplate unmarked generated idleApp.assets
      (.bringing (event.descriptor []))
  cases (Document.populate_bringing untaken _).symm.trans populated
  cases binds.symm.trans again
  have clicked : (event.descriptor []).clicked.bind
      (fun mark => final.find (Match.any.eq markName mark)) = some node := by
    change final.find (Match.any.eq markName event.mark) = some node
    rw [mine]
    exact marks number node found
  obtain ⟨cached, known⟩ := Store.exists_template_empty "c" page 1 ()
  have made := runFrom_instanceFor_some idleApp controllerName (.bringing (event.descriptor []))
    (idleInstance event.call.method) cached
  obtain ⟨_, course, outcome, after, traces, dispatches, quiet⟩ :=
    exists_answer (Request.event_bringing _) rfl clicked populated injects known control made
      (keepsDocument_idleController event.call.method) binds
  have idle := quiet_idleController event.call.method final ⟨some node, event.descriptor []⟩
  obtain ⟨begins, undisturbed⟩ := quiet idle
  have registered : ((idleController event.call.method).handlers.find?
      event.call.method).isSome := by
    rw [find?_idleController]
    rfl
  have delivered : outcome = .ok (final.delivered event.panel) :=
    (dispatches begins).2 registered undisturbed
  obtain ⟨_, _, _, _, frame, _⟩ := Binding.exists_of_bind sound.wellFormed (fun _ _ _ => True)
    trivial (fun _ _ _ _ _ _ _ _ _ _ => trivial) binds
  have top : bound.takesChildren Document.root = true :=
    (frame.takes _ (Document.has_of_takesChildren sound.top)).trans sound.top
  exact ⟨final, _, generated, prepared, ext, ⟨frame.wellFormed, top⟩, idle,
    delivered ▸ traces.plain⟩

/-- The carrier in the first panel is a panel without an `id`. Binding gives it the `id` that the
second panel has. -/
def coveredPage : String :=
  "<html runat=server language=js codebehind=C>" ++
    "<a id=q updatepanel=true runat=server onclick='server.x()'>" ++
    "<input type=hidden name=__eventElement updatepanel=true></a>" ++
    "<b id=__eventElement0 updatepanel=true runat=server onclick='server.y()'></b></html>"

def coveredDocument : Document :=
  ⟨#[⟨.document, none, [⟨1⟩]⟩,
    ⟨.element ⟨"html", []⟩, some ⟨0⟩, [⟨2⟩, ⟨3⟩]⟩,
    ⟨.element ⟨"head", []⟩, some ⟨1⟩, []⟩,
    ⟨.element ⟨"body", []⟩, some ⟨1⟩, [⟨4⟩, ⟨6⟩]⟩,
    ⟨.element ⟨"a", [("id", "q"), ("updatepanel", "true"), ("runat", "server"),
      ("onclick", "server.x()")]⟩, some ⟨3⟩, [⟨5⟩]⟩,
    ⟨.element ⟨"input", [("type", "hidden"), ("name", "__eventElement"),
      ("updatepanel", "true")]⟩, some ⟨4⟩, []⟩,
    ⟨.element ⟨"b", [("id", "__eventElement0"), ("updatepanel", "true"), ("runat", "server"),
      ("onclick", "server.y()")]⟩, some ⟨3⟩, []⟩]⟩

theorem takeControl_coveredPage :
    (Document.parse coveredPage).takeControl = (some "C", coveredDocument) := by
  decide +kernel

def coveredBound : Document :=
  ((Document.bind []).runFrom coveredDocument).2

/-- What the script of the page writes for the click in the second panel. -/
def coveredEvent : ClientEvent :=
  ⟨mark 1, 0, some "__eventElement0", none, some "__eventElement0", "__eventElement1", ⟨"y", ""⟩⟩

/-- What is read of the page before it is bound, and of the bound page. -/
theorem coveredDocument_reads :
    (Binding.Unmarked coveredDocument ∧ Binding.PanelsDistinct coveredDocument ∧
      coveredDocument.findAll Binding.interactive = [⟨4⟩, ⟨6⟩] ∧
      coveredDocument.eventScope ⟨6⟩ = some (.panel ⟨6⟩ "__eventElement0") ∧
      coveredDocument.findAll (Document.fieldMatch Descriptor.fieldName) = []) ∧
    ((Document.bind []).runFrom coveredDocument).1.toOption.map
      (·.events.contains coveredEvent) = some true ∧
    coveredBound.panelById "__eventElement0" = some ⟨5⟩ ∧
    (coveredBound.Has ⟨5⟩ ∧ ¬ coveredBound.Welcomes ⟨5⟩ ∧ coveredBound.children ⟨5⟩ = []) ∧
    (coveredBound.Has ⟨6⟩ ∧ ¬ coveredBound.Welcomes ⟨6⟩ ∧ coveredBound.children ⟨6⟩ = [⟨7⟩]) ∧
    coveredBound.Has ⟨7⟩ ∧ coveredBound.tagName? ⟨7⟩ = some "input" := by
  decide +kernel

/-- The click in the second panel is answered with the carrier in the first one, although the page
has no marks, its panels have distinct `id`s and nothing goes wrong. -/
theorem exists_outcome_ne_reply : ∃ code final outcome after,
    (Document.parse coveredPage).takeControl = (some "C", coveredDocument) ∧
    Binding.Unmarked coveredDocument ∧ Binding.PanelsDistinct coveredDocument ∧
    (idleController "y").KeepsDocument ∧
    (Binding.codeFor [] (.bare .get "/")).runFrom coveredDocument = (.ok code, coveredBound) ∧
    (coveredDocument.findAll Binding.interactive)[1]? = some ⟨6⟩ ∧ coveredEvent ∈ code.events ∧
    coveredDocument.eventScope ⟨6⟩ = some (.panel ⟨6⟩ "__eventElement0") ∧
    (Binding.prepare [] .none (.bringing (coveredEvent.descriptor []))).runFrom coveredDocument =
      (.ok (), final) ∧
    (idleController "y").Quiet final "y" ⟨some ⟨6⟩, coveredEvent.descriptor []⟩ [] ∧
    (idleApp.renderMarkup "c" coveredPage (some (.bringing (coveredEvent.descriptor [])))
      (some (idleInstance "y"))).runFrom (.empty 1 ()) = (.ok outcome, after) ∧
    outcome ≠ (EventScope.panel ⟨6⟩ "__eventElement0").reply final := by
  obtain ⟨⟨unmarked, distinct, interactive, scope, untaken⟩, events, byId,
    ⟨hasFirst, apartFirst, childless⟩, ⟨hasSecond, apartSecond, children⟩, hasCarrier, input⟩ :=
    coveredDocument_reads
  have control := takeControl_coveredPage
  have found : (coveredDocument.findAll Binding.interactive)[1]? = some ⟨6⟩ := by
    rw [interactive]
    rfl
  rcases ran : (Document.bind []).runFrom coveredDocument with ⟨error | code, bound⟩
  · rw [ran] at events
    cases events
  · have same : bound = coveredBound := by rw [coveredBound, ran]
    rw [ran] at events
    rw [same] at ran
    have member : coveredEvent ∈ code.events := List.contains_iff_mem.mp (Option.some.inj events)
    obtain ⟨final, after, generated, prepared, ext, sound, quiet, run⟩ :=
      exists_idle_answer coveredEvent control unmarked untaken ran found rfl
    refine ⟨code, final, _, after, control, unmarked, distinct, keepsDocument_idleController "y",
      generated, found, member, scope, prepared, quiet, run, ?_⟩
    have asks : ("id", some "__eventElement0") ∈
        ((Match.any.eq "id" "__eventElement0").eq "updatepanel" "true").attributes := by
      simp [Match.eq, Match.any]
    have first : final.panelById "__eventElement0" = some ⟨5⟩ :=
      (ext.find_eq sound.wellFormed (Document.has_of_takesChildren sound.top) asks).trans byId
    have empty : (final.stripServerMarks ⟨5⟩).innerHtml ⟨5⟩ = "" := by
      refine Document.innerHtml_eq_empty ?_
      rw [Document.children_stripServerMarks, ext.children _ hasFirst apartFirst, childless]
    have down : ⟨7⟩ ∈ (final.stripServerMarks ⟨6⟩).children ⟨6⟩ := by
      rw [Document.children_stripServerMarks, ext.children _ hasSecond apartSecond, children]
      exact List.mem_singleton_self _
    have carrier : (final.stripServerMarks ⟨6⟩).tagName? ⟨7⟩ = some "input" := by
      rw [Document.tagName?_stripServerMarks, Document.tagName?_congr (ext.kind _ hasCarrier),
        input]
    have full : (final.stripServerMarks ⟨6⟩).innerHtml ⟨6⟩ ≠ "" :=
      Document.innerHtml_ne_empty down carrier
    have answer : final.delivered coveredEvent.panel = .panel (.panel "__eventElement0" "") := by
      change Outcome.panel (final.panelReply "__eventElement0").1 = _
      simp only [Document.panelReply, first, empty]
    rw [answer]
    intro same
    exact full (Option.some.inj (congrArg PanelReply.html (Outcome.panel.inj same))).symm

end ServerPages
