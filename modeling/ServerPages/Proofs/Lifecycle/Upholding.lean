import ServerPages.Lifecycle.Deliver
import ServerPages.Lifecycle.Open
import ServerPages.Proofs.Binding.Upkeep
import ServerPages.Proofs.Lifecycle.Documents

/-!
# What lasts through a request

What the work of a controller makes of its page is a change of some kind, whatever becomes of the
work. A property of documents that such changes keep, and operations without foreign attributes,
holds of the document of a page as long as the page is open.
-/

namespace ServerPages

open Procedure

variable {σ ω α : Type} {change : Page → Page → Prop} {property : Document → Prop}

def Page.Meets (property : Document → Prop) (page : Page) : Prop :=
  ∀ doc, page.document = some doc → property doc

/-- Whatever becomes of work, the page that it leaves is a change of the page that it got. -/
def Changes {ε : Type} (change : Page → Page → Prop) (work : Procedure (Live σ ω) ε α) : Prop :=
  ∀ live, change live.page (work.runFrom live).2.page

structure Controller.Does (change : Page → Page → Prop) (controller : Controller σ ω) : Prop where
  init : Changes change controller.hooks.init
  start : Changes change controller.hooks.start
  finish : Changes change controller.hooks.finish
  errored (error : PageError) : Changes change (controller.hooks.errored error)
  beforeExec (invocation : Invocation) : Changes change (controller.hooks.beforeExec invocation)
  handlers {name : String} {handler : Handler σ ω}
    (found : controller.handlers.find? name = some handler) (event : ServerEvent)
    (args : List Json) : Changes change (handler.invoke event args)

structure Instance.Meets (change : Page → Page → Prop) (property : Document → Prop)
    (active : Instance σ ω) : Prop where
  does : active.controller.Does change
  page : active.page.Meets property

namespace Lifecycle

/-! ## Steps -/

/-- What follows a look at the instance may rely on what its controller does. -/
theorem preserves_active_bind {next : Instance σ ω → Lifecycle σ ω α}
    (rest : ∀ active, active.controller.Does change →
      Preserves (·.active.Meets change property) (next active)) :
    Preserves (·.active.Meets change property) (active >>= next) :=
  fun running meets => rest running.active meets.does running meets

section

variable (keeps : ∀ before after, change before after →
  before.Meets property → after.Meets property)
include keeps

theorem preserves_perform {work : Procedure (Live σ ω) (Halt PageError) α}
    (changes : Changes change work) :
    Preserves (·.active.Meets change property) (perform work) :=
  fun running meets => ⟨meets.does, keeps _ _ (changes (live running)) meets.page⟩

theorem preserves_performAs {work : Work σ ω α} (changes : Changes change work)
    (toError : Failure → PageError) :
    Preserves (·.active.Meets change property) (performAs toError work) :=
  preserves_perform keeps changes

theorem preserves_dispatch (exec : String) (event : ServerEvent) (args : List Json) :
    Preserves (·.active.Meets change property)
      (dispatch exec event args : Lifecycle σ ω (Option Json)) := by
  refine preserves_active_bind fun active does => ?_
  dsimp only
  split
  · exact Preserves.throw _
  · rename_i handler found
    refine (preserves_performAs keeps (does.beforeExec _) _).bind fun _ => ?_
    exact preserves_perform keeps (does.handlers found event args)

variable {forbidden : List String}
  (stable : Document.Stable (Document.Operation.Discreet forbidden) property)
include stable

variable (apart : ∀ name ∈ ownNames, name ∉ forbidden)
include apart

end

/-! ## What is sent -/

end Lifecycle

end ServerPages
