import Mathlib.Logic.Basic
import ServerPages.Lifecycle.Deliver
import ServerPages.Lifecycle.Open
import ServerPages.Proofs.Procedure

/-!
# What controllers see of shared states

Shared states may differ in what no controller looks at. Where the hooks and the handlers of a
controller come to the same from two shared states, pages of the controller do.
-/

namespace ServerPages

open Procedure

variable {σ ω α : Type} {related : ω → ω → Prop}

def Live.Alike (related : ω → ω → Prop) (first second : Live σ ω) : Prop :=
  first.object = second.object ∧ first.page = second.page ∧ related first.shared second.shared

/-- The hooks and handlers of a controller see no difference between related shared states. -/
structure Controller.Heeds (related : ω → ω → Prop) (controller : Controller σ ω) : Prop where
  init : Respects (Live.Alike related) controller.hooks.init
  start : Respects (Live.Alike related) controller.hooks.start
  finish : Respects (Live.Alike related) controller.hooks.finish
  errored (error : PageError) : Respects (Live.Alike related) (controller.hooks.errored error)
  beforeExec (invocation : Invocation) :
    Respects (Live.Alike related) (controller.hooks.beforeExec invocation)
  handlers {name : String} {handler : Handler σ ω}
    (found : controller.handlers.find? name = some handler) (event : ServerEvent)
    (args : List Json) : Respects (Live.Alike related) (handler.invoke event args)

theorem Live.alike_eq {first second : Live σ ω} : Live.Alike Eq first second ↔ first = second := by
  cases first
  cases second
  simp [Live.Alike]

/-- Between equal shared states there is nothing to see, for any controller. -/
theorem Controller.heeds_eq (controller : Controller σ ω) : controller.Heeds Eq := by
  have respects {ε β : Type} (procedure : Procedure (Live σ ω) ε β) :
      Respects (Live.Alike Eq) procedure := by
    intro first second same
    cases Live.alike_eq.mp same
    exact ⟨rfl, Live.alike_eq.mpr rfl⟩
  exact ⟨respects _, respects _, respects _, fun _ => respects _, fun _ => respects _,
    fun _ _ _ => respects _⟩

structure Running.Alike (related : ω → ω → Prop) (first second : Running σ ω) : Prop where
  active : first.active = second.active
  heeds : first.active.controller.Heeds related
  shared : related first.shared second.shared

namespace Lifecycle

theorem respects_perform {procedure : Procedure (Live σ ω) (Halt PageError) α}
    (respects : Respects (Live.Alike related) procedure) :
    Respects (Running.Alike related) (perform procedure) := by
  rintro ⟨active, first⟩ ⟨_, second⟩ ⟨rfl, heeds, shared⟩
  obtain ⟨results, objects, pages, shared⟩ :=
    respects (live ⟨active, first⟩) (live ⟨active, second⟩) ⟨rfl, rfl, shared⟩
  refine ⟨results, ?_, heeds, shared⟩
  exact congrArg₂ (fun object page => { active with object, page }) objects pages

theorem respects_performAs {work : Work σ ω α}
    (respects : Respects (Live.Alike related) work) (toError : Failure → PageError) :
    Respects (Running.Alike related) (performAs toError work) :=
  respects_perform (respects.mapError _)

theorem respects_onPage (procedure : Procedure Page PageError α) :
    Respects (Running.Alike related) (onPage procedure : Lifecycle σ ω α) := by
  rintro ⟨active, first⟩ ⟨_, second⟩ ⟨rfl, heeds, shared⟩
  exact ⟨rfl, rfl, heeds, shared⟩

theorem respects_onDocument (procedure : Procedure Document PageError α) :
    Respects (Running.Alike related) (onDocument procedure : Lifecycle σ ω α) :=
  respects_onPage _

theorem respects_advance (stage : Stage) :
    Respects (Running.Alike related) (advance stage : Lifecycle σ ω Unit) :=
  Respects.modify fun _ _ same =>
    ⟨congrArg (fun active => { active with stage }) same.active, same.heeds, same.shared⟩

theorem respects_fail (error : PageError) :
    Respects (Running.Alike related) (fail error : Lifecycle σ ω α) :=
  Respects.throw _

/-- What follows a look at the instance may rely on what its controller sees. -/
theorem respects_active_bind {next : Instance σ ω → Lifecycle σ ω α}
    (rest : ∀ active, active.controller.Heeds related →
      Respects (Running.Alike related) (next active)) :
    Respects (Running.Alike related) (active >>= next) := by
  rintro ⟨active, first⟩ ⟨_, second⟩ ⟨rfl, heeds, shared⟩
  exact rest active heeds ⟨active, first⟩ ⟨active, second⟩ ⟨rfl, heeds, shared⟩

/-! ## Hooks and handlers -/

theorem respects_init : Respects (Running.Alike related) (init : Lifecycle σ ω Unit) :=
  respects_active_bind fun _ heeds => respects_performAs heeds.init _

theorem respects_start : Respects (Running.Alike related) (start : Lifecycle σ ω Unit) := by
  refine respects_active_bind fun active heeds => ?_
  dsimp only
  split
  · exact (respects_onPage _).bind fun _ => respects_performAs heeds.start _
  · exact respects_performAs heeds.start _

theorem respects_finishHook :
    Respects (Running.Alike related) (finishHook : Lifecycle σ ω Unit) :=
  respects_active_bind fun _ heeds => respects_performAs heeds.finish _

theorem respects_errored (error : PageError) :
    Respects (Running.Alike related) (errored error : Lifecycle σ ω Unit) := by
  refine respects_active_bind fun active heeds => ?_
  refine (respects_performAs (heeds.errored error) _).tryCatch fun halt => ?_
  cases halt with
  | failed => exact Respects.pure ()
  | brokeDown => exact Respects.throw _

theorem respects_dispatch (exec : String) (event : ServerEvent) (args : List Json) :
    Respects (Running.Alike related)
      (dispatch exec event args : Lifecycle σ ω (Option Json)) := by
  refine respects_active_bind fun active heeds => ?_
  dsimp only
  split
  · exact respects_fail _
  · rename_i handler found
    refine (respects_performAs (heeds.beforeExec _) _).bind fun _ => ?_
    exact respects_perform (heeds.handlers found event args)

theorem respects_finish : Respects (Running.Alike related) (finish : Lifecycle σ ω String) := by
  refine respects_finishHook.bind fun _ => respects_active_bind fun active _ => ?_
  cases active.page.document with
  | none => exact respects_fail _
  | some doc =>
      exact (respects_onPage _).bind fun _ => (respects_advance _).bind fun _ => Respects.pure _

/-! ## Pages -/

theorem respects_dispatchEvent (descriptor : Descriptor) :
    Respects (Running.Alike related) (dispatchEvent descriptor : Lifecycle σ ω Unit) := by
  unfold dispatchEvent
  split
  · exact Respects.pure ()
  · refine respects_active_bind fun active _ => ?_
    exact (respects_dispatch _ _ _).bind fun _ => respects_advance _

theorem respects_eventOrStart (request : Request) :
    Respects (Running.Alike related) (eventOrStart request : Lifecycle σ ω (Option String)) := by
  unfold eventOrStart
  split
  · exact respects_fail _
  · exact respects_start.bind fun _ => (respects_advance _).bind fun _ => Respects.pure _
  · exact (respects_dispatchEvent _).bind fun _ => Respects.pure _

theorem respects_tellingErrors {lifecycle : Lifecycle σ ω α}
    (respects : Respects (Running.Alike related) lifecycle) :
    Respects (Running.Alike related) (tellingErrors lifecycle) := by
  refine respects.tryCatch fun halt => ?_
  cases halt with
  | failed error => exact (respects_errored error).bind fun _ => Respects.throw _
  | brokeDown => exact Respects.throw _

theorem respects_bindPage (assets : Assets) :
    Respects (Running.Alike related) (bindPage assets : Lifecycle σ ω Unit) :=
  respects_active_bind fun _ _ => respects_onDocument _

theorem respects_openPage (assets : Assets) (request : Request) (doc : Document)
    (markup : String) :
    Respects (Running.Alike related)
      (openPage assets request doc markup : Lifecycle σ ω (Option String)) := by
  refine (respects_onPage _).bind fun _ => (respects_advance _).bind fun _ => ?_
  refine (respects_onDocument _).bind fun _ => (respects_advance _).bind fun _ => ?_
  refine respects_init.bind fun _ => (respects_advance _).bind fun _ => ?_
  exact (respects_bindPage assets).bind fun _ =>
    respects_tellingErrors (respects_eventOrStart request)

theorem respects_deliver (panel : Option String) :
    Respects (Running.Alike related) (deliver panel : Lifecycle σ ω Outcome) := by
  cases panel with
  | none => exact respects_finish.bind fun _ => Respects.pure _
  | some panelId =>
      refine Respects.bind ?_ fun _ => Respects.pure _
      exact (respects_onDocument _).bind fun _ => (respects_advance _).bind fun _ => Respects.pure _

end Lifecycle

/-- What happens to an instance comes to the same from related shared states. -/
theorem Instance.simulates_run {active : Instance σ ω} {lifecycle : Lifecycle σ ω α}
    (heeds : active.controller.Heeds related)
    (respects : Respects (Running.Alike related) lifecycle) :
    Simulates related (fun result => result.2.controller.Heeds related) (active.run lifecycle)
      (active.run lifecycle) := by
  intro first second shared
  obtain ⟨results, alike⟩ := respects ⟨active, first⟩ ⟨active, second⟩ ⟨rfl, heeds, shared⟩
  refine ⟨?_, alike.shared, fun value done => ?_⟩
  · exact congrArg₂ (fun result (active : Instance σ ω) => Except.map (·, active) result) results
      alike.active
  · have ended : Except.map (·, (lifecycle.runFrom ⟨active, first⟩).2.active)
        (lifecycle.runFrom ⟨active, first⟩).1 = .ok value := done
    cases result : (lifecycle.runFrom ⟨active, first⟩).1 with
    | error halt =>
        rw [result] at ended
        cases ended
    | ok found =>
        rw [result] at ended
        cases ended
        exact alike.heeds

end ServerPages
