import ServerPages.Proofs.Lifecycle.Documents
import ServerPages.Proofs.Lifecycle.Notes
import ServerPages.Proofs.Page.Populate

/-!
# Courses of pages

The courses that rendering a page can take, one constructor for each way in which it may
end, and the proof that a recorded run takes one of them and does what the plain run
does.
-/

namespace ServerPages

open Procedure

variable {σ ω α : Type}

def Lifecycle.invocation (running : Running σ ω) (handler : Handler σ ω)
    (descriptor : Descriptor) : Invocation :=
  ⟨handler.info, ⟨Lifecycle.sourceOf running.active.page descriptor, descriptor⟩, descriptor.args⟩

def Lifecycle.vet (controller : Controller σ ω) (exec : String) (invocation : Invocation) :
    Lifecycle σ ω Unit :=
  Lifecycle.performAs (.handlerExecution exec) (controller.hooks.beforeExec invocation)

/-- The courses of the step in which the event of a request is dispatched or the page starts, with
what the step comes to and leaves. -/
inductive StepCourse (running : Running σ ω) (request : Request) :
    List Note → Except (Halt PageError) (Option String) → Running σ ω → Prop
  | unreadable {fault : DescriptorFault} (event : request.event = .error fault) :
      StepCourse running request [] (.error (.failed (.invalidDescriptor fault))) running
  | untitled {halt : Halt PageError} {after : Running σ ω} (event : request.event = .ok none)
      (unsound : ¬ running.active.page.Sound) :
      StepCourse running request [] (.error halt) after
  | unstarted {halt : Halt PageError} {after : Running σ ω} (event : request.event = .ok none) :
      StepCourse running request [.called .start (.error halt) after.active.page] (.error halt)
        after
  | started {after : Running σ ω} (event : request.event = .ok none) :
      StepCourse running request [.called .start (.ok ()) after.active.page, .reached .started]
        (.ok none) (after.withStage .started)
  | idle {descriptor : Descriptor} (event : request.event = .ok (some descriptor))
      (names : descriptor.exec = none) :
      StepCourse running request [] (.ok descriptor.updatePanel) running
  | unknown {descriptor : Descriptor} {exec : String}
      (event : request.event = .ok (some descriptor)) (names : descriptor.exec = some exec)
      (missing : running.active.controller.handlers.find? exec = none) :
      StepCourse running request [] (.error (.failed (.handlerNotFound exec))) running
  | vetoed {descriptor : Descriptor} {exec : String} {handler : Handler σ ω}
      {halt : Halt PageError} {after : Running σ ω}
      (event : request.event = .ok (some descriptor)) (names : descriptor.exec = some exec)
      (found : running.active.controller.handlers.find? exec = some handler)
      (vets : (Lifecycle.vet running.active.controller exec
        (Lifecycle.invocation running handler descriptor)).runFrom running =
          (.error halt, after)) :
      StepCourse running request
        [.called (.beforeExec (Lifecycle.invocation running handler descriptor)) (.error halt)
          after.active.page]
        (.error halt) after
  | unhandled {descriptor : Descriptor} {exec : String} {handler : Handler σ ω}
      {halt : Halt PageError} {vetted after : Running σ ω}
      (event : request.event = .ok (some descriptor)) (names : descriptor.exec = some exec)
      (found : running.active.controller.handlers.find? exec = some handler)
      (vets : (Lifecycle.vet running.active.controller exec
        (Lifecycle.invocation running handler descriptor)).runFrom running = (.ok (), vetted))
      (handles : (Lifecycle.perform (handler.invoke
        (Lifecycle.invocation running handler descriptor).event descriptor.args)).runFrom vetted =
          (.error halt, after)) :
      StepCourse running request
        [.called (.beforeExec (Lifecycle.invocation running handler descriptor)) (.ok ())
          vetted.active.page,
        .called (.handler (Lifecycle.invocation running handler descriptor)) (.error halt)
          after.active.page]
        (.error halt) after
  | handled {descriptor : Descriptor} {exec : String} {handler : Handler σ ω}
      {value : Option Json} {vetted after : Running σ ω}
      (event : request.event = .ok (some descriptor)) (names : descriptor.exec = some exec)
      (found : running.active.controller.handlers.find? exec = some handler)
      (vets : (Lifecycle.vet running.active.controller exec
        (Lifecycle.invocation running handler descriptor)).runFrom running = (.ok (), vetted))
      (handles : (Lifecycle.perform (handler.invoke
        (Lifecycle.invocation running handler descriptor).event descriptor.args)).runFrom vetted =
          (.ok value, after)) :
      StepCourse running request
        [.called (.beforeExec (Lifecycle.invocation running handler descriptor)) (.ok ())
          vetted.active.page,
        .called (.handler (Lifecycle.invocation running handler descriptor)) (.ok ())
          after.active.page,
        .reached .eventDispatched]
        (.ok descriptor.updatePanel) (after.withStage .eventDispatched)

inductive Closing (whole : Bool) : Ending → List Note → Ending → Prop
  | told {error : PageError} {page : Page} :
      Closing whole (.error (.failed error)) [.called (.errored error) (.ok ()) page]
        (.error (.failed error))
  /-- The controller breaks down over the error. -/
  | overwhelmed {error : PageError} {page : Page} :
      Closing whole (.error (.failed error))
        [.called (.errored error) (.error .brokeDown) page] (.error .brokeDown)
  | brokeDown : Closing whole (.error .brokeDown) [] (.error .brokeDown)
  /-- The page is left open, or has lost the document that its panel is in. -/
  | left {outcome : Ending} (part : whole = false) : Closing whole (.ok ()) [] outcome
  | delivered (part : whole = false) : Closing whole (.ok ()) [.reached .finalized] (.ok ())
  | unfinished {halt : Halt PageError} {page : Page} (due : whole = true) :
      Closing whole (.ok ()) [.called .finish (.error halt) page] (.error halt)
  | undocumented {page : Page} (due : whole = true) :
      Closing whole (.ok ()) [.called .finish (.ok ()) page] (.error (.failed .noDocument))
  | finished {page : Page} (due : whole = true) :
      Closing whole (.ok ()) [.called .finish (.ok ()) page, .reached .finalized] (.ok ())

/-- Courses whose calls after the first hook end well and leave the page with a document. -/
def Undisturbed (doc : Document) (course : List Note) : Prop :=
  ∀ call ending page, Note.called call ending page ∈ course → call ≠ .init →
    ending = .ok () ∧ page.document = some doc

def Document.delivered (doc : Document) : Option String → Outcome
  | some panelId => .panel (doc.panelReply panelId).1
  | none => .html (doc.stripServerMarks Document.root).toHtml

def begun : List Note :=
  [.reached .controllerBound, .reached .populated]

def steppedCourse (page : Page) (steps : List Note) (step : Ending) (more : List Note) :
    List Note :=
  begun ++ [.called .init (.ok ()) page, .reached .initialized, .bound (.ok ())] ++ steps ++
    .stepped step :: more

inductive PageCourse (request : Request) (whole : Bool) : List Note → Ending → Prop
  | uninitialized {halt : Halt PageError} {page : Page} :
      PageCourse request whole (begun ++ [.called .init (.error halt) page]) (.error halt)
  | unbound {halt : Halt PageError} {page : Page} :
      PageCourse request whole
        (begun ++ [.called .init (.ok ()) page, .reached .initialized, .bound (.error halt)])
        (.error halt)
  | stepped {σ ω : Type} {running after : Running σ ω} {page : Page} {step more : List Note}
      {result : Except (Halt PageError) (Option String)} {outcome : Ending}
      (sound : page.Sound → running.active.page.Sound)
      (steps : StepCourse running request step result after)
      (closing : Closing whole (ending result) more outcome) :
      PageCourse request whole (steppedCourse page step (ending result) more) outcome

/-- An update panel is asked for by the event of the request alone. -/
theorem StepCourse.panel {running after : Running σ ω} {request : Request} {course : List Note}
    {panel : Option String} (steps : StepCourse running request course (.ok panel) after) :
    panel.isSome = request.expectsPanel := by
  cases steps with
  | started event => rw [Request.expectsPanel, event]; rfl
  | idle event => rw [Request.expectsPanel, event]
  | handled event => rw [Request.expectsPanel, event]

namespace Recorded

variable (running : Running σ ω)

theorem traces_active :
    Traces Lifecycle.active (silently Lifecycle.active) running ([] : List Note)
      (.ok running.active) running :=
  .silently (Lifecycle.runFrom_active running)

theorem traces_advance (stage : Stage) :
    Traces (Lifecycle.advance stage) (advance stage) running [.reached stage] (.ok ())
      (running.withStage stage) :=
  (Traces.silently (Lifecycle.runFrom_advance stage running)).noting _

theorem traces_advance_pure (stage : Stage) (value : α) :
    Traces (do Lifecycle.advance stage; return value) (do advance stage; return value) running
      [.reached stage] (.ok value) (running.withStage stage) :=
  (traces_advance running stage).bind (.pure value)

/-- A call is noted when it has come to its end. -/
theorem exists_calling (call : Call) (lifecycle : Lifecycle σ ω α) :
    ∃ result after, Traces lifecycle (calling call lifecycle) running
      [.called call (ending result) after.active.page] result after := by
  rcases run : lifecycle.runFrom running with ⟨result, after⟩
  exact ⟨result, after, (Traces.silently run).noting _⟩

/-- The hook of pages that start runs unless the title cannot be set. -/
theorem exists_start :
    (∃ halt after, Traces Lifecycle.start start running [] (.error halt) after ∧
      ¬ running.active.page.Sound) ∨
    ∃ result after, Traces Lifecycle.start start running
      [.called .start (ending result) after.active.page] result after := by
  unfold Lifecycle.start start
  cases titled : running.active.controller.title with
  | none =>
      obtain ⟨result, after, traces⟩ := exists_calling running .start
        (Lifecycle.performAs (.lifecycle "start") running.active.controller.hooks.start)
      refine Or.inr ⟨result, after, (traces_active running).bind_silent ?_⟩
      dsimp only
      rw [titled]
      exact traces
  | some title =>
      rcases run : (Lifecycle.onPage (Page.setTitle title)).runFrom running with ⟨done, middle⟩
      cases done with
      | error halt =>
          refine Or.inl ⟨halt, middle, (traces_active running).bind_silent ?_, fun sound => ?_⟩
          · dsimp only
            rw [titled]
            exact (Traces.silently run).bind_error
          · obtain ⟨after, other⟩ := Lifecycle.exists_setTitle sound title
            cases other.symm.trans run
      | ok _ =>
          obtain ⟨result, after, traces⟩ := exists_calling middle .start
            (Lifecycle.performAs (.lifecycle "start") running.active.controller.hooks.start)
          refine Or.inr ⟨result, after, (traces_active running).bind_silent ?_⟩
          dsimp only
          rw [titled]
          exact (Traces.silently run).bind_silent traces

variable {running}

/-- A handler runs after the hook before it, and not if that fails. -/
theorem exists_dispatch {exec : String} {handler : Handler σ ω}
    (found : running.active.controller.handlers.find? exec = some handler) (event : ServerEvent)
    (args : List Json) :
    (∃ halt after,
      (Lifecycle.vet running.active.controller exec ⟨handler.info, event, args⟩).runFrom running =
        (.error halt, after) ∧
      Traces (Lifecycle.dispatch exec event args) (dispatch exec event args) running
        [.called (.beforeExec ⟨handler.info, event, args⟩) (.error halt) after.active.page]
        (.error halt) after) ∨
    ∃ vetted result after,
      (Lifecycle.vet running.active.controller exec ⟨handler.info, event, args⟩).runFrom running =
        (.ok (), vetted) ∧
      (Lifecycle.perform (handler.invoke event args)).runFrom vetted = (result, after) ∧
      Traces (Lifecycle.dispatch exec event args) (dispatch exec event args) running
        [.called (.beforeExec ⟨handler.info, event, args⟩) (.ok ()) vetted.active.page,
        .called (.handler ⟨handler.info, event, args⟩) (ending result) after.active.page]
        result after := by
  obtain ⟨vetting, vetted, traces⟩ := exists_calling running
    (.beforeExec ⟨handler.info, event, args⟩)
    (Lifecycle.performAs (.handlerExecution exec)
      (running.active.controller.hooks.beforeExec ⟨handler.info, event, args⟩))
  unfold Lifecycle.dispatch dispatch
  cases vetting with
  | error halt =>
      refine Or.inl ⟨halt, vetted, traces.plain, (traces_active running).bind_silent ?_⟩
      dsimp only
      rw [found]
      exact traces.bind_error
  | ok _ =>
      obtain ⟨result, after, handled⟩ :=
        exists_calling vetted (.handler ⟨handler.info, event, args⟩)
        (Lifecycle.perform (handler.invoke event args))
      refine Or.inr ⟨vetted, result, after, traces.plain, handled.plain,
        (traces_active running).bind_silent ?_⟩
      dsimp only
      rw [found]
      exact traces.bind handled

theorem traces_dispatch_unknown {exec : String}
    (missing : running.active.controller.handlers.find? exec = none) (event : ServerEvent)
    (args : List Json) :
    Traces (Lifecycle.dispatch exec event args) (dispatch exec event args) running []
      (.error (.failed (.handlerNotFound exec))) running := by
  refine (traces_active running).bind_silent ?_
  dsimp only
  rw [missing]
  exact .throw _

/-- The step in which the event of a request is dispatched or the page starts takes one of its
courses. -/
theorem exists_eventOrStart (running : Running σ ω) (request : Request) :
    ∃ course result after,
      Traces (Lifecycle.eventOrStart request) (eventOrStart request) running course result after ∧
      StepCourse running request course result after := by
  unfold Lifecycle.eventOrStart eventOrStart
  cases event : request.event with
  | error fault => exact ⟨_, _, _, .throw _, .unreadable event⟩
  | ok descriptor =>
      cases descriptor with
      | none =>
          dsimp only
          rcases exists_start running with
            ⟨halt, after, traces, unsound⟩ | ⟨result, after, traces⟩
          · exact ⟨_, _, _, traces.bind_error, .untitled event unsound⟩
          · cases result with
            | error halt => exact ⟨_, _, _, traces.bind_error, .unstarted event⟩
            | ok _ =>
                exact ⟨_, _, _, traces.bind (traces_advance_pure after .started none),
                  .started event⟩
      | some descriptor =>
          dsimp only
          unfold Lifecycle.dispatchEvent dispatchEvent
          cases names : descriptor.exec with
          | none => exact ⟨_, _, _, (Traces.pure ()).bind (.pure _), .idle event names⟩
          | some exec =>
              dsimp only
              have active := traces_active running
              cases found : running.active.controller.handlers.find? exec with
              | none =>
                  have unknown := traces_dispatch_unknown found
                    ⟨Lifecycle.sourceOf running.active.page descriptor, descriptor⟩ descriptor.args
                  exact ⟨_, _, _, (active.bind_silent unknown.bind_error).bind_error,
                    .unknown event names found⟩
              | some handler =>
                  rcases exists_dispatch found
                      ⟨Lifecycle.sourceOf running.active.page descriptor, descriptor⟩
                      descriptor.args with
                    ⟨halt, after, vets, vetoed⟩ | ⟨vetted, result, after, vets, handles, traces⟩
                  · exact ⟨_, _, _, (active.bind_silent vetoed.bind_error).bind_error,
                      .vetoed event names found vets⟩
                  · cases result with
                    | error halt =>
                        exact ⟨_, _, _, (active.bind_silent traces.bind_error).bind_error,
                          .unhandled event names found vets handles⟩
                    | ok value =>
                        exact ⟨_, _, _, (active.bind_silent
                          (traces.bind (traces_advance after .eventDispatched))).bind (.pure _),
                          .handled event names found vets handles⟩

/-! ## Opening pages -/

/-- The controller is told of an error; only a breakdown comes of that. -/
theorem exists_errored (error : PageError) (running : Running σ ω) :
    ∃ result after page, Traces (Lifecycle.errored error) (errored error) running
      [.called (.errored error) result page] result after ∧
      (result = .ok () ∨ result = .error .brokeDown) := by
  obtain ⟨result, after, traces⟩ := exists_calling running (.errored error)
    (Lifecycle.errored error)
  have run := traces.plain
  unfold Lifecycle.errored at run
  rw [runFrom_bind_ok (Lifecycle.runFrom_active running), runFrom_tryCatch] at run
  split at run
  · cases run
    exact ⟨_, _, _, traces, Or.inl rfl⟩
  · rename_i halt middle _
    cases halt with
    | failed failure =>
        cases run
        exact ⟨_, _, _, traces, Or.inl rfl⟩
    | brokeDown =>
        cases run
        exact ⟨_, _, _, traces, Or.inr rfl⟩

theorem exists_tellingErrors {plain : Lifecycle σ ω α} {recorded : Recorded σ ω α}
    {running after : Running σ ω} {course : List Note} {halt : Halt PageError}
    (traces : Traces plain recorded running course (.error halt) after) :
    ∃ more last final,
      Traces (Lifecycle.tellingErrors plain) (tellingErrors recorded) running (course ++ more)
        (.error last) final ∧
      ∀ whole, Closing whole (.error halt) more (.error last) := by
  cases halt with
  | brokeDown =>
      exact ⟨[], .brokeDown, after, traces.tryCatch_error (.throw _), fun _ => .brokeDown⟩
  | failed error =>
      obtain ⟨result, final, page, told, rfl | rfl⟩ := exists_errored error after
      · exact ⟨_, .failed error, final, traces.tryCatch_error (told.bind (.throw _)),
          fun _ => .told⟩
      · exact ⟨_, .brokeDown, final, traces.tryCatch_error told.bind_error,
          fun _ => .overwhelmed⟩

/-- What is done to a page before its first hook. -/
theorem traces_begun {request : Request} {doc filled : Document} {count : Nat}
    (populated : (Document.populate request).runFrom doc = (.ok count, filled))
    {assets : Assets} {markup : String} {running after : Running σ ω} {course : List Note}
    {result : Except (Halt PageError) (Option String)}
    (rest : Traces (do
          Lifecycle.init
          Lifecycle.advance .initialized
          Lifecycle.bindPage assets
          Lifecycle.tellingErrors (Lifecycle.eventOrStart request))
        (do
          init
          advance .initialized
          bindPage assets
          tellingErrors (lastStep request))
        (Lifecycle.attached running doc markup filled) course result after) :
    Traces (Lifecycle.openPage assets request doc markup) (openPage assets request doc markup)
      running (begun ++ course) result after := by
  have attach : (Lifecycle.onPage (modify fun page => page.attach doc markup) :
      Lifecycle σ ω Unit).runFrom running = (.ok (), { running with
        active := { running.active with page := running.active.page.attach doc markup } }) := rfl
  refine (Traces.silently attach).bind_silent ?_
  refine (traces_advance _ .controllerBound).bind ?_
  refine (Traces.silently (Lifecycle.runFrom_onDocument rfl populated)).bind_silent ?_
  exact (traces_advance _ .populated).bind rest

/-- Opening a page whose first hook ends well and whose clicks are bound comes to its last step; the
controller is told of an error in it. -/
theorem exists_opened {request : Request} {doc filled : Document} {count : Nat}
    (populated : (Document.populate request).runFrom doc = (.ok count, filled))
    {assets : Assets} {markup : String} {running first third fourth : Running σ ω}
    (initialized : Lifecycle.init.runFrom (Lifecycle.attached running doc markup filled) =
      (.ok (), first))
    (bound : (Lifecycle.bindPage assets).runFrom
      (first.withStage .initialized) = (.ok (), third))
    {steps : List Note} {result : Except (Halt PageError) (Option String)}
    (traces : Traces (Lifecycle.eventOrStart request) (eventOrStart request) third steps result
      fourth) :
    ∃ more outcome last,
      Traces (Lifecycle.openPage assets request doc markup) (openPage assets request doc markup)
        running (steppedCourse first.active.page steps (ending result) more) outcome last ∧
      ((∃ panel, result = .ok panel ∧ outcome = .ok panel ∧ more = [] ∧ last = fourth) ∨
        ∃ failed halt, result = .error failed ∧ outcome = .error halt ∧
          ∀ whole, Closing whole (.error failed) more (.error halt)) := by
  have initTraces : Traces Lifecycle.init init _ _ _ first :=
    (Traces.silently initialized).noting fun result running =>
      Note.called .init (ending result) running.active.page
  have bindTraces := (Traces.silently bound).noting fun result _ => Note.bound (ending result)
  have noted := traces.noting fun result _ => Note.stepped (ending result)
  have opened {more : List Note} {outcome : Except (Halt PageError) (Option String)}
      {last : Running σ ω} (told : Traces
        (Lifecycle.tellingErrors (Lifecycle.eventOrStart request))
        (tellingErrors (lastStep request)) third (steps ++ [.stepped (ending result)] ++ more)
        outcome last) :
      Traces (Lifecycle.openPage assets request doc markup) (openPage assets request doc markup)
        running (steppedCourse first.active.page steps (ending result) more) outcome last := by
    have whole := traces_begun populated
      (initTraces.bind ((traces_advance first .initialized).bind (bindTraces.bind told)))
    simpa [steppedCourse] using whole
  cases result with
  | ok panel =>
      refine ⟨[], .ok panel, fourth, opened ?_, Or.inl ⟨panel, rfl, rfl, rfl, rfl⟩⟩
      rw [List.append_nil]
      exact noted.tryCatch_ok
  | error halt =>
      obtain ⟨more, last, final, told, closing⟩ := exists_tellingErrors noted
      exact ⟨more, .error last, final, opened told, Or.inr ⟨halt, last, rfl, rfl, closing⟩⟩

/-- A page that is opened takes one of its courses, or the beginning of one. -/
theorem exists_openPage (assets : Assets) (request : Request) (doc : Document) (markup : String)
    (running : Running σ ω) :
    ∃ course result after,
      Traces (Lifecycle.openPage assets request doc markup) (openPage assets request doc markup)
        running course result after ∧
      ((∃ halt, result = .error halt ∧ ∀ whole, PageCourse request whole course (.error halt)) ∨
        ∃ panel, result = .ok panel ∧ panel.isSome = request.expectsPanel ∧
          ∀ whole more outcome, Closing whole (.ok ()) more outcome →
            PageCourse request whole (course ++ more) outcome) := by
  obtain ⟨count, filled, populated, _⟩ := Document.exists_populate doc request
  rcases initialized : Lifecycle.init.runFrom (Lifecycle.attached running doc markup filled) with
    ⟨result, first⟩
  have initTraces : Traces Lifecycle.init init _ _ _ first :=
    (Traces.silently initialized).noting fun result running =>
      Note.called .init (ending result) running.active.page
  cases result with
  | error halt =>
      exact ⟨_, _, _, traces_begun populated initTraces.bind_error,
        Or.inl ⟨halt, rfl, fun _ => .uninitialized⟩⟩
  | ok _ =>
      rcases run : (Lifecycle.bindPage assets).runFrom
          (first.withStage .initialized) with
        ⟨binding, third⟩
      cases binding with
      | error halt =>
          have bindTraces := (Traces.silently run).noting fun result _ =>
            Note.bound (ending result)
          exact ⟨_, _, _, traces_begun populated (initTraces.bind
              ((traces_advance first .initialized).bind bindTraces.bind_error)),
            Or.inl ⟨halt, rfl, fun _ => .unbound⟩⟩
      | ok _ =>
          obtain ⟨steps, result, fourth, traces, course⟩ := exists_eventOrStart third request
          obtain ⟨more, outcome, last, opened, told⟩ :=
            exists_opened populated initialized run traces
          have sound : first.active.page.Sound → third.active.page.Sound := fun sound =>
            @Lifecycle.sound_bindPage σ ω
              (first.withStage .initialized) assets third
              sound run
          refine ⟨_, outcome, last, opened, ?_⟩
          rcases told with ⟨panel, rfl, rfl, rfl, _⟩ | ⟨failed, halt, rfl, rfl, closing⟩
          · refine Or.inr ⟨panel, rfl, course.panel, fun whole more outcome closing => ?_⟩
            have page := PageCourse.stepped sound course closing
            simpa [steppedCourse] using page
          · exact Or.inl ⟨halt, rfl, fun whole => .stepped sound course (closing whole)⟩

/-! ## Delivering pages -/

theorem exists_deliverPanel (panelId : String) (running : Running σ ω) :
    ∃ more reply after,
      Traces (Lifecycle.deliverPanel panelId) (deliverPanel panelId) running more reply after ∧
      Closing false (.ok ()) more (ending reply) ∧
      ∀ doc, running.active.page.document = some doc →
        reply = .ok (doc.panelReply panelId).1 := by
  unfold Lifecycle.deliverPanel deliverPanel
  let reading : Procedure Document PageError PanelReply :=
    modifyGet fun doc => doc.panelReply panelId
  cases known : running.active.page.document with
  | none =>
      have run := Lifecycle.runFrom_onDocument_none known reading
      exact ⟨_, _, _, (Traces.silently run).bind_error, .left rfl, fun _ none => nomatch none⟩
  | some doc =>
      have read : reading.runFrom doc =
          (.ok (doc.panelReply panelId).1, (doc.panelReply panelId).2) := rfl
      have run := Lifecycle.runFrom_onDocument known read
      refine ⟨_, .ok (doc.panelReply panelId).1, _, (Traces.silently run).bind_silent
        (traces_advance_pure _ .finalized _), .delivered rfl, fun other same => ?_⟩
      cases same
      rfl

theorem exists_finish (running : Running σ ω) :
    ∃ more html after, Traces Lifecycle.finish finish running more html after ∧
      Closing true (.ok ()) more (ending html) ∧
      (∀ doc, Undisturbed doc more → html = .ok (doc.stripServerMarks Document.root).toHtml) ∧
      ∀ doc, running.active.page.document = some doc →
        Leaves doc running.active.controller.hooks.finish → Undisturbed doc more := by
  unfold Lifecycle.finish finish
  obtain ⟨result, middle, hook⟩ := exists_calling running .finish Lifecycle.finishHook
  have kept (doc : Document) (known : running.active.page.document = some doc)
      (leaves : Leaves doc running.active.controller.hooks.finish) :
      (ending result : Ending) = .ok () ∧ middle.active.page.document = some doc := by
    obtain ⟨value, after, run, left⟩ := Lifecycle.exists_performAs leaves known (.lifecycle "end")
    have plain := hook.plain
    unfold Lifecycle.finishHook at plain
    rw [runFrom_bind_ok (Lifecycle.runFrom_active running), run] at plain
    cases plain
    exact ⟨rfl, left⟩
  cases result with
  | error halt =>
      refine ⟨_, _, _, hook.bind_error, .unfinished rfl, fun doc calm => ?_,
        fun doc known leaves => ?_⟩
      · cases (calm .finish (.error halt) middle.active.page (by simp) (by simp)).1
      · cases (kept doc known leaves).1
  | ok _ =>
      have active := traces_active middle
      cases known : middle.active.page.document with
      | none =>
          refine ⟨[.called .finish (.ok ()) middle.active.page] ++ [], .error (.failed .noDocument),
            middle, hook.bind (active.bind_silent ?_), .undocumented rfl, fun doc calm => ?_,
            fun doc here leaves => ?_⟩
          · dsimp only
            rw [known]
            exact .throw _
          · have left := (calm .finish (.ok ()) middle.active.page (by simp) (by simp)).2
            cases known.symm.trans left
          · cases known.symm.trans (kept doc here leaves).2
      | some doc =>
          have taken : (Lifecycle.onPage (modify fun page => { page with document := none }) :
              Lifecycle σ ω Unit).runFrom middle = (.ok (), { middle with
                active := { middle.active with
                  page := { middle.active.page with document := none } } }) := rfl
          refine ⟨[.called .finish (.ok ()) middle.active.page] ++ [.reached .finalized],
            .ok (doc.stripServerMarks Document.root).toHtml, { middle with
              active := { middle.active with
                page := { middle.active.page with document := none }, stage := .finalized } },
            hook.bind (active.bind_silent ?_), .finished rfl, fun other calm => ?_,
            fun other here leaves call made page member _ => ?_⟩
          · dsimp only
            rw [known]
            exact (Traces.silently taken).bind_silent (traces_advance_pure _ .finalized _)
          · have left := (calm .finish (.ok ()) middle.active.page (by simp) (by simp)).2
            cases known.symm.trans left
            rfl
          · have last : made = .ok () ∧ page = middle.active.page := by
              simp at member
              exact member.2
            rw [last.1, last.2]
            exact ⟨rfl, (kept other here leaves).2⟩

/-- An open page is delivered whole unless an update panel is asked for. -/
theorem exists_deliver (panel : Option String) (running : Running σ ω) :
    ∃ more outcome after,
      Traces (Lifecycle.deliver panel) (deliver panel) running more outcome after ∧
      Closing panel.isNone (.ok ()) more (ending outcome) ∧
      ∀ doc, running.active.page.document = some doc →
        (Undisturbed doc more → outcome = .ok (doc.delivered panel)) ∧
        (Leaves doc running.active.controller.hooks.finish → Undisturbed doc more) := by
  cases panel with
  | some panelId =>
      obtain ⟨more, reply, after, traces, closing, reads⟩ := exists_deliverPanel panelId running
      refine ⟨more, _, after, traces.bind_pure Outcome.panel, ?_, fun doc known => ⟨fun _ => ?_,
        fun _ call made page member => ?_⟩⟩
      · rw [ending_map]
        exact closing
      · rw [reads doc known]
        rfl
      · generalize ending reply = last at closing
        cases closing <;> simp_all
  | none =>
      obtain ⟨more, html, after, traces, closing, reads, calms⟩ := exists_finish running
      refine ⟨more, _, after, traces.bind_pure Outcome.html, ?_, fun doc known =>
        ⟨fun calm => ?_, calms doc known⟩⟩
      · rw [ending_map]
        exact closing
      · rw [reads doc calm]
        rfl

/-! ## Rendering -/

theorem traces_runOn {lifecycle : Lifecycle σ ω α} {recorded : Recorded σ ω α}
    {active : Instance σ ω} {shared : ω} {course : List Note} {result : Except (Halt PageError) α}
    {after : Running σ ω}
    (traces : Traces lifecycle recorded ⟨active, shared⟩ course result after) :
    Traces (active.run lifecycle) (runOn active recorded) shared course
      (result.map (·, after.active)) after.shared where
  plain := by rw [Instance.run, runFrom_ofRun, traces.plain]
  recorded notes := by
    rw [runOn, runFrom_ofRun]
    dsimp only
    rw [traces.recorded]

theorem traces_onShared {plain : Procedure ω (Halt PageError) α}
    {recorded : Procedure (ω × List Note) (Halt PageError) α} {store : Store σ ω}
    {course : List Note} {result : Except (Halt PageError) α} {after : ω}
    (traces : Traces plain recorded store.shared course result after) :
    Traces (Store.onShared plain) (onShared recorded) store course result
      { store with shared := after } where
  plain := by rw [Store.onShared, within, runFrom_ofRun, traces.plain]
  recorded notes := by
    rw [onShared, within, runFrom_ofRun]
    dsimp only
    rw [traces.recorded]

variable (app : Application σ ω) (name markup : String)

section

variable {app name markup} {request : Request} {given : Option (Instance σ ω)}
  {store middle : Store σ ω}

/-- A view that is a template is opened as a page. -/
theorem traces_openMarkup {cached : Store σ ω} {template controllerName : String} {doc : Document}
    (known : (Store.template name markup : Procedure (Store σ ω) (Halt PageError) String).runFrom
      store = (.ok template, cached))
    (control : (Document.parse template).takeControl = (some controllerName, doc))
    {active : Instance σ ω}
    (made : (app.instanceFor controllerName request given).runFrom cached = (.ok active, middle))
    {course : List Note} {panel : Except (Halt PageError) (Option String)} {after : Running σ ω}
    (traces : Traces (Lifecycle.openPage app.assets request doc template)
      (openPage app.assets request doc template) ⟨active, middle.shared⟩ course panel after) :
    Traces (app.openMarkup name markup request given) (openMarkup app name markup request given)
      store course (panel.map (.page after.active)) { middle with shared := after.shared } := by
  unfold Application.openMarkup openMarkup
  refine (Traces.silently known).bind_silent ?_
  rw [control]
  refine (Traces.silently made).bind_silent ?_
  have opened := traces_onShared (traces_runOn traces)
  cases panel with
  | error halt => exact opened.bind_error
  | ok panel => exact opened.bind_last (.pure _)

/-- A page that was opened is delivered. -/
theorem traces_renderMarkup {course : List Note} {active : Instance σ ω} {panel : Option String}
    (opened : Traces (app.openMarkup name markup request given)
      (openMarkup app name markup request given) store course (.ok (.page active panel)) middle)
    {more : List Note} {outcome : Except (Halt PageError) Outcome} {after : Running σ ω}
    (delivered : Traces (Lifecycle.deliver panel) (deliver panel) ⟨active, middle.shared⟩ more
      outcome after) :
    Traces (app.renderMarkup name markup (some request) given)
      (renderMarkup app name markup (some request) given) store (course ++ more) outcome
      { middle with shared := after.shared } := by
  unfold Application.renderMarkup renderMarkup
  refine opened.bind ?_
  have shared := traces_onShared (traces_runOn delivered)
  cases outcome with
  | error halt => exact shared.bind_error
  | ok outcome => exact shared.bind_last (.pure _)

/-- So are errors. -/
theorem traces_renderMarkup_error {course : List Note} {halt : Halt PageError}
    (opened : Traces (app.openMarkup name markup request given)
      (openMarkup app name markup request given) store course (.error halt) middle) :
    Traces (app.renderMarkup name markup (some request) given)
      (renderMarkup app name markup (some request) given) store course (.error halt) middle :=
  opened.bind_error

end

/-- What a view is opened to: markup as it came in, a page that took the beginning of one of its
courses, or an error. -/
theorem exists_openMarkup (request : Request) (given : Option (Instance σ ω))
    (store : Store σ ω) :
    ∃ course result after,
      Traces (app.openMarkup name markup request given) (openMarkup app name markup request given)
        store course result after ∧
      ((course = [] ∧ ∀ opened, result = .ok opened → opened = .passThrough markup) ∨
        (∃ halt, result = .error halt ∧ ∀ whole, PageCourse request whole course (.error halt)) ∨
        ∃ active panel, result = .ok (.page active panel) ∧ panel.isSome = request.expectsPanel ∧
          ∀ whole more outcome, Closing whole (.ok ()) more outcome →
            PageCourse request whole (course ++ more) outcome) := by
  rcases known : (Store.template name markup).runFrom store with ⟨template, cached⟩
  cases template with
  | error halt =>
      exact ⟨_, _, _, (Traces.silently known).bind_error,
        Or.inl ⟨rfl, fun _ done => nomatch done⟩⟩
  | ok template =>
      rcases control : (Document.parse template).takeControl with ⟨controllerName, doc⟩
      cases controllerName with
      | none =>
          refine ⟨[], .ok (.passThrough markup), cached, (Traces.silently known).bind_silent ?_,
            Or.inl ⟨rfl, fun _ done => (Except.ok.inj done).symm⟩⟩
          rw [control]
          exact .pure _
      | some controllerName =>
          rcases made : (app.instanceFor controllerName request given).runFrom cached with
            ⟨active, middle⟩
          cases active with
          | error halt =>
              refine ⟨[], .error halt, middle, (Traces.silently known).bind_silent ?_,
                Or.inl ⟨rfl, fun _ done => nomatch done⟩⟩
              rw [control]
              exact (Traces.silently made).bind_error
          | ok active =>
              obtain ⟨course, result, after, traces, rest⟩ :=
                exists_openPage app.assets request doc template ⟨active, middle.shared⟩
              have opened := traces_openMarkup known control made traces
              rcases rest with ⟨halt, rfl, whole⟩ | ⟨panel, rfl, asked, whole⟩
              · exact ⟨course, .error halt, _, opened, Or.inr (Or.inl ⟨halt, rfl, whole⟩)⟩
              · exact ⟨course, .ok (.page after.active panel), _, opened,
                  Or.inr (Or.inr ⟨after.active, panel, rfl, asked, whole⟩)⟩

/-- What a view is rendered to. -/
theorem exists_renderMarkup (request : Option Request) (given : Option (Instance σ ω))
    (store : Store σ ω) :
    ∃ course result after,
      Traces (app.renderMarkup name markup request given)
        (renderMarkup app name markup request given) store course result after ∧
      ((course = [] ∧ ∀ outcome, result = .ok outcome → outcome = .passThrough markup) ∨
        ∃ asked, request = some asked ∧
          PageCourse asked (!asked.expectsPanel) course (ending result)) := by
  cases request with
  | none =>
      exact ⟨[], .ok (.passThrough markup), store, .pure _,
        Or.inl ⟨rfl, fun _ done => (Except.ok.inj done).symm⟩⟩
  | some request =>
      obtain ⟨course, result, after, traces, cases⟩ :=
        exists_openMarkup app name markup request given store
      rcases cases with ⟨rfl, plain⟩ | ⟨halt, rfl, whole⟩ | ⟨active, panel, rfl, asked, whole⟩
      · cases result with
        | error halt =>
            exact ⟨[], .error halt, after, traces_renderMarkup_error traces,
              Or.inl ⟨rfl, fun _ done => nomatch done⟩⟩
        | ok opened =>
            cases plain opened rfl
            exact ⟨[], .ok (.passThrough markup), after, traces.bind_silent (.pure _),
              Or.inl ⟨rfl, fun _ done => (Except.ok.inj done).symm⟩⟩
      · exact ⟨course, .error halt, after, traces_renderMarkup_error traces,
          Or.inr ⟨request, rfl, whole _⟩⟩
      · obtain ⟨more, outcome, last, delivery, closing, _⟩ :=
          exists_deliver panel ⟨active, after.shared⟩
        have due : panel.isNone = !request.expectsPanel := by
          rw [← asked]
          cases panel <;> rfl
        rw [due] at closing
        exact ⟨_, outcome, _, traces_renderMarkup traces delivery,
          Or.inr ⟨request, rfl, whole _ _ _ closing⟩⟩

end Recorded

end ServerPages
