import ServerPages.Lifecycle.Deliver
import ServerPages.Lifecycle.Open
import ServerPages.Application
import ServerPages.Proofs.Procedure

/-!
# Controllers that do not break down

Where the hooks and handlers of a controller do not break down, no work on its page does: the page
opens for the update panel that the event of the request asks for, and is delivered in the form
that was asked for, or there is an error to tell.
-/

namespace ServerPages

open Procedure

/-- The end of a run that a page can answer. -/
def Halt.IsFailure {ε : Type} (halt : Halt ε) : Prop :=
  ∃ error, halt = .failed error

def Procedure.Reliable {σ ε α : Type} (procedure : Procedure σ (Halt ε) α) : Prop :=
  ∀ state, (procedure.runFrom state).1 ≠ .error .brokeDown

structure Controller.Reliable {σ ω : Type} (controller : Controller σ ω) : Prop where
  init : controller.hooks.init.Reliable
  start : controller.hooks.start.Reliable
  finish : controller.hooks.finish.Reliable
  errored (error : PageError) : (controller.hooks.errored error).Reliable
  beforeExec (invocation : Invocation) : (controller.hooks.beforeExec invocation).Reliable
  handlers {name : String} {handler : Handler σ ω}
    (found : controller.handlers.find? name = some handler) (event : ServerEvent)
    (args : List Json) : (handler.invoke event args).Reliable

theorem fits_of_reliable {σ ε α : Type} {procedure : Procedure σ (Halt ε) α}
    (reliable : procedure.Reliable) (state : σ) :
    Fits (fun _ => True) Halt.IsFailure (procedure.runFrom state).1 := by
  have apart := reliable state
  cases result : (procedure.runFrom state).1 with
  | ok value => exact .ok trivial
  | error halt =>
      cases halt with
      | failed error => exact .error ⟨error, rfl⟩
      | brokeDown => exact absurd result apart

theorem reliable_of_fits {σ ε α : Type} {procedure : Procedure σ (Halt ε) α}
    (fits : ∀ state, Fits (fun _ => True) Halt.IsFailure (procedure.runFrom state).1) :
    procedure.Reliable := by
  intro state broken
  have ended := fits state
  rw [broken] at ended
  cases ended with
  | error failed => obtain ⟨_, same⟩ := failed; cases same

theorem reliable_pure {σ ε α : Type} (value : α) :
    (pure value : Procedure σ (Halt ε) α).Reliable :=
  reliable_of_fits fun _ => .ok trivial

theorem reliable_throw {σ ε α : Type} (error : ε) :
    (throw (.failed error) : Procedure σ (Halt ε) α).Reliable :=
  reliable_of_fits fun _ => .error ⟨error, rfl⟩

theorem fits_performed {σ α ε δ : Type} {work : Procedure σ (Halt ε) α} (reliable : work.Reliable)
    (toError : ε → δ) (state : σ) :
    Fits (fun _ => True) Halt.IsFailure ((work.mapError (.map toError)).runFrom state).1 := by
  refine (fits_of_reliable reliable state).mapError ?_
  rintro halt ⟨failure, rfl⟩
  exact ⟨toError failure, rfl⟩

/-- A handler does not break down where its body does not. -/
theorem Handler.reliable_of {σ ω α : Type} {body : ServerEvent → α → Work σ ω Json}
    (reliable : ∀ event values, (body event values).Reliable) (owner name : String)
    (callable : Bool) (parameters : Parameters α) (event : ServerEvent) (args : List Json) :
    ((Handler.of owner name callable parameters body).invoke event args).Reliable := by
  refine reliable_of_fits fun live => ?_
  unfold Handler.of
  dsimp only
  split
  · exact .error ⟨_, rfl⟩
  · rename_i values _
    have yields : Yields (fun _ => True) (fun _ => True) Halt.IsFailure
        ((body event values).mapError (.map (PageError.handlerExecution name))) :=
      fun state _ => ⟨fits_performed (reliable event values) _ state, trivial⟩
    exact (yields.bind (fun _ _ => Yields.pure trivial) live trivial).1

def Request.panel? (request : Request) : Option String :=
  match request.event with
  | .ok (some descriptor) => descriptor.updatePanel
  | _ => none

theorem Request.expectsPanel_eq (request : Request) :
    request.expectsPanel = request.panel?.isSome := by
  unfold expectsPanel panel?
  rcases request.event with _ | _ | descriptor <;> rfl

namespace Lifecycle

variable {σ ω α β : Type} {good : α → Prop} {fine : β → Prop}

/-- Work on a page whose controller does not break down comes to a good value or fails. -/
abbrev Settles (good : α → Prop) (lifecycle : Lifecycle σ ω α) : Prop :=
  Yields (fun running => running.active.controller.Reliable) good Halt.IsFailure lifecycle

abbrev Ends (lifecycle : Lifecycle σ ω α) : Prop :=
  Settles (fun _ => True) lifecycle

/-! ## Steps -/

theorem settles_onPage {procedure : Procedure Page PageError α}
    (fits : ∀ page, Fits good (fun _ => True) (procedure.runFrom page).1) :
    Settles good (onPage procedure : Lifecycle σ ω α) :=
  fun running reliable =>
    ⟨(fits running.active.page).mapError fun error _ => ⟨error, rfl⟩, reliable⟩

theorem fits_any {ε : Type} (result : Except ε α) :
    Fits (fun _ => True) (fun _ => True) result := by
  cases result with
  | ok value => exact .ok trivial
  | error error => exact .error trivial

theorem ends_onPage (procedure : Procedure Page PageError α) :
    Ends (onPage procedure : Lifecycle σ ω α) :=
  settles_onPage fun _ => fits_any _

theorem ends_advance (stage : Stage) : Ends (advance stage : Lifecycle σ ω Unit) :=
  fun _ reliable => ⟨.ok trivial, reliable⟩

theorem settles_fail (error : PageError) : Settles good (fail error : Lifecycle σ ω α) :=
  Yields.throw ⟨error, rfl⟩

theorem settles_active_bind {next : Instance σ ω → Lifecycle σ ω β}
    (rest : ∀ active, active.controller.Reliable → Settles fine (next active)) :
    Settles fine (active >>= next) :=
  fun running reliable => rest running.active reliable running reliable

theorem ends_perform {work : Procedure (Live σ ω) (Halt PageError) α} (reliable : work.Reliable) :
    Ends (perform work) :=
  fun running kept => ⟨fits_of_reliable reliable (live running), kept⟩

theorem ends_performAs {work : Work σ ω α} (reliable : work.Reliable)
    (toError : Failure → PageError) : Ends (performAs toError work) :=
  fun running kept => ⟨fits_performed reliable toError (live running), kept⟩

theorem ends_init : Ends (init : Lifecycle σ ω Unit) :=
  settles_active_bind fun _ reliable => ends_performAs reliable.init _

theorem ends_start : Ends (start : Lifecycle σ ω Unit) := by
  refine settles_active_bind fun active reliable => ?_
  dsimp only
  split
  · exact (ends_onPage _).andThen fun _ => ends_performAs reliable.start _
  · exact ends_performAs reliable.start _

theorem ends_finishHook : Ends (finishHook : Lifecycle σ ω Unit) :=
  settles_active_bind fun _ reliable => ends_performAs reliable.finish _

theorem ends_errored (error : PageError) : Ends (errored error : Lifecycle σ ω Unit) := by
  refine settles_active_bind fun active reliable => ?_
  refine (ends_performAs (reliable.errored error) _).tryCatch fun halt failed => ?_
  obtain ⟨failure, rfl⟩ := failed
  exact Yields.pure trivial

theorem ends_dispatch (exec : String) (event : ServerEvent) (args : List Json) :
    Ends (dispatch exec event args : Lifecycle σ ω (Option Json)) := by
  refine settles_active_bind fun active reliable => ?_
  dsimp only
  split
  · exact settles_fail _
  · rename_i handler found
    refine (ends_performAs (reliable.beforeExec _) _).andThen fun _ => ?_
    exact ends_perform (reliable.handlers found event args)

theorem ends_dispatchEvent (descriptor : Descriptor) :
    Ends (dispatchEvent descriptor : Lifecycle σ ω Unit) := by
  unfold dispatchEvent
  split
  · exact Yields.pure trivial
  · refine settles_active_bind fun active _ => ?_
    exact (ends_dispatch _ _ _).andThen fun _ => ends_advance _

theorem settles_tellingErrors {lifecycle : Lifecycle σ ω α} (settles : Settles good lifecycle) :
    Settles good (tellingErrors lifecycle) := by
  refine settles.tryCatch fun halt failed => ?_
  obtain ⟨error, rfl⟩ := failed
  exact (ends_errored error).andThen fun _ => Yields.throw ⟨error, rfl⟩

/-! ## Pages -/

theorem settles_eventOrStart (request : Request) :
    Settles (· = request.panel?) (eventOrStart request : Lifecycle σ ω (Option String)) := by
  unfold eventOrStart Request.panel?
  rcases request.event with fault | _ | descriptor
  · exact settles_fail _
  · exact ends_start.andThen fun _ => (ends_advance _).andThen fun _ => Yields.pure rfl
  · exact (ends_dispatchEvent _).andThen fun _ => Yields.pure rfl

/-- A page opens for the update panel that its request asks for. -/
theorem settles_openPage (assets : Assets) (request : Request) (doc : Document)
    (markup : String) :
    Settles (· = request.panel?)
      (openPage assets request doc markup : Lifecycle σ ω (Option String)) := by
  refine (ends_onPage _).andThen fun _ => (ends_advance _).andThen fun _ => ?_
  refine (ends_onPage _).andThen fun _ => (ends_advance _).andThen fun _ => ?_
  refine ends_init.andThen fun _ => (ends_advance _).andThen fun _ => ?_
  have bound : Ends (bindPage assets : Lifecycle σ ω Unit) :=
    settles_active_bind fun _ _ => ends_onPage _
  exact bound.andThen fun _ => settles_tellingErrors (settles_eventOrStart request)

end Lifecycle

/-- An outcome in the form that is asked for: the whole page, or the contents of a panel, if the
page has it. -/
def Outcome.Suits (panel : Option String) (outcome : Outcome) : Prop :=
  match panel with
  | none => ∃ markup, outcome = .html markup
  | some id => outcome = .panel .notFound ∨ ∃ html, outcome = .panel (.panel id html)

namespace Lifecycle

variable {σ ω : Type}

theorem ends_finish : Ends (finish : Lifecycle σ ω String) := by
  refine ends_finishHook.andThen fun _ => settles_active_bind fun active _ => ?_
  dsimp only
  split
  · exact settles_fail _
  · refine (ends_onPage _).andThen fun _ => (ends_advance _).andThen fun _ => ?_
    exact Yields.pure trivial

theorem settles_deliverPanel (id : String) :
    Settles (fun reply => reply = .notFound ∨ ∃ html, reply = .panel id html)
      (deliverPanel id : Lifecycle σ ω PanelReply) := by
  have sent (doc : Document) : (doc.panelReply id).1 = .notFound ∨
      ∃ html, (doc.panelReply id).1 = .panel id html := by
    unfold Document.panelReply
    split
    · exact .inr ⟨_, rfl⟩
    · exact .inl rfl
  refine (settles_onPage fun page => ?_).bind fun reply found =>
    (ends_advance _).andThen fun _ => Yields.pure found
  unfold Page.withDocument
  rw [runFrom_ofRun]
  split
  · exact .error trivial
  · exact .ok (sent _)

/-- An open page is delivered in the form that was asked for. -/
theorem settles_deliver (panel : Option String) :
    Settles (Outcome.Suits panel) (deliver panel : Lifecycle σ ω Outcome) := by
  cases panel with
  | none => exact ends_finish.andThen fun markup => Yields.pure ⟨markup, rfl⟩
  | some id =>
      refine (settles_deliverPanel id).bind fun reply found => Yields.pure ?_
      rcases found with rfl | ⟨html, rfl⟩
      · exact .inl rfl
      · exact .inr ⟨html, rfl⟩

end Lifecycle

end ServerPages
