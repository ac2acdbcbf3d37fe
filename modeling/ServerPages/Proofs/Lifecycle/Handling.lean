import ServerPages.Proofs.Controller.Precedence
import ServerPages.Proofs.Lifecycle.Order

/-!
# What becomes of an event

An event names a handler and brings arguments. The body of the handler runs if the handler is
registered, the hook before it agrees, and the arguments fit its parameters. The ways in which
that may go are stated here one by one, with the result and with what each of them leaves of
the instance: nothing is touched where no handler is registered, and where the arguments do
not fit all is as the hook left it.
-/

namespace ServerPages

open Procedure

variable {σ ω α : Type}

/-! ## Arguments -/

namespace Parameters

variable {parameters : Parameters α} {limit : Nat}

/-- Parameters that are put together from readers of single arguments. -/
inductive Formed : {α : Type} → Parameters α → Prop
  | nil : Formed .nil
  | cons {α β : Type} (first : Json → Except String α) {rest : Parameters β}
      (formed : Formed rest) : Formed (.cons first rest)
  | each {α : Type} (item : Json → Except String α) : Formed (.each item)
  | map {α β : Type} (view : α → β) {parameters : Parameters α} (formed : Formed parameters) :
      Formed (parameters.map view)

/-- A fixed number of parameters can't tell missing arguments from nulls at the end. -/
theorem Formed.read_append (formed : parameters.Formed) (fixed : parameters.arity = some limit)
    (args : List Json) (count : Nat) :
    parameters.read (args ++ List.replicate count .null) = parameters.read args := by
  induction formed generalizing limit args count with
  | nil => rfl
  | @cons _ _ first rest formed ih =>
      obtain ⟨fewer, fixed, _⟩ := Option.map_eq_some_iff.mp fixed
      cases args with
      | cons arg args =>
          simp only [Parameters.cons, List.cons_append, List.headD_cons, List.tail_cons,
            ih fixed]
      | nil =>
          cases count with
          | zero => rfl
          | succ count =>
              have none := ih fixed [] count
              rw [List.nil_append] at none
              simp only [Parameters.cons, List.nil_append, List.replicate_succ, List.headD_cons,
                List.tail_cons, List.headD_nil, List.tail_nil, none]
  | each item => cases fixed
  | map view formed ih => exact congrArg (Except.map view) (ih fixed args count)

theorem Formed.ofArguments_append (formed : parameters.Formed)
    (fixed : parameters.arity = some limit) {args : List Json} (few : args.length ≤ limit) :
    parameters.ofArguments (args ++ List.replicate (limit - args.length) .null) =
      parameters.ofArguments args := by
  have whole : (args ++ List.replicate (limit - args.length) Json.null).length = limit := by
    rw [List.length_append, List.length_replicate]
    omega
  rw [ofArguments, ofArguments, fixed]
  dsimp only
  rw [whole, if_neg (Nat.lt_irrefl limit), if_neg (Nat.not_lt.mpr few),
    formed.read_append fixed]

/-- Arguments that are no parameters: more of them than there may be, or others. -/
inductive Misfit (parameters : Parameters α) (args : List Json) : String → Prop
  | tooMany {limit : Nat} (fixed : parameters.arity = some limit) (many : limit < args.length) :
      Misfit parameters args (tooMany limit args.length)
  | unread {message : String}
      (room : ∀ limit, parameters.arity = some limit → args.length ≤ limit)
      (unread : parameters.read args = .error message) : Misfit parameters args message

structure Suits (parameters : Parameters α) (args : List Json) (values : α) : Prop where
  room (limit : Nat) (fixed : parameters.arity = some limit) : args.length ≤ limit
  read : parameters.read args = .ok values

theorem ofArguments_eq_error_iff {args : List Json} {message : String} :
    parameters.ofArguments args = .error message ↔ Misfit parameters args message := by
  unfold ofArguments
  cases fixed : parameters.arity with
  | none =>
      constructor
      · intro unread
        exact .unread (fun limit other => by cases fixed.symm.trans other) unread
      · intro misfit
        cases misfit with
        | tooMany other => cases fixed.symm.trans other
        | unread _ unread => exact unread
  | some limit =>
      dsimp only
      constructor
      · intro failed
        split at failed
        · rename_i many
          cases failed
          exact .tooMany fixed many
        · rename_i few
          refine .unread (fun other same => ?_) failed
          cases fixed.symm.trans same
          exact Nat.not_lt.mp few
      · intro misfit
        cases misfit with
        | tooMany other many =>
            cases fixed.symm.trans other
            rw [if_pos many]
        | unread room unread => rw [if_neg (Nat.not_lt.mpr (room limit fixed)), unread]

theorem ofArguments_eq_ok_iff {args : List Json} {values : α} :
    parameters.ofArguments args = .ok values ↔ Suits parameters args values := by
  unfold ofArguments
  cases fixed : parameters.arity with
  | none =>
      constructor
      · intro read
        exact ⟨fun limit other => (by cases fixed.symm.trans other), read⟩
      · exact (·.read)
  | some limit =>
      dsimp only
      constructor
      · intro done
        split at done
        · cases done
        · rename_i few
          refine ⟨fun other same => ?_, done⟩
          cases fixed.symm.trans same
          exact Nat.not_lt.mp few
      · intro fits
        rw [if_neg (Nat.not_lt.mpr (fits.room limit fixed)), fits.read]

end Parameters

/-! ## Handlers -/

/-- Handlers that are made of a body and of formed parameters. -/
inductive Handler.Formed : Handler σ ω → Prop
  | of {α : Type} (owner name : String) (callable : Bool) {parameters : Parameters α}
      (formed : parameters.Formed) (body : ServerEvent → α → Work σ ω Json) :
      Formed (.of owner name callable parameters body)

namespace Handler

variable {owner name : String} {callable : Bool} {parameters : Parameters α}
  {body : ServerEvent → α → Work σ ω Json} {args : List Json}

theorem invoke_of_misfit {message : String} (misfit : parameters.Misfit args message)
    (event : ServerEvent) :
    (of owner name callable parameters body).invoke event args =
      throw (.failed (.argumentMismatch name message)) := by
  have unread := Parameters.ofArguments_eq_error_iff.mpr misfit
  simp only [of, unread]

theorem runFrom_invoke_of_suits {values : α} (fits : parameters.Suits args values)
    (event : ServerEvent) (live : Live σ ω) :
    ((of owner name callable parameters body).invoke event args).runFrom live =
      match (body event values).runFrom live with
      | (.ok value, last) => (.ok (if value.isNull then none else some value), last)
      | (.error halt, last) => (.error (halt.map (.handlerExecution name)), last) := by
  have read := Parameters.ofArguments_eq_ok_iff.mpr fits
  simp only [of, read]
  rcases ran : (body event values).runFrom live with ⟨halt | value, last⟩
  · refine runFrom_bind_error ?_
    rw [mapError, runFrom_ofRun, ran]
    rfl
  · have done : ((body event values).mapError
        (Halt.map (PageError.handlerExecution name))).runFrom live = (.ok value, last) := by
      rw [mapError, runFrom_ofRun, ran]
      rfl
    rw [runFrom_bind_ok done]
    rfl

end Handler

def Controller.Formed (controller : Controller σ ω) : Prop :=
  ∀ name handler, controller.handlers.find? name = some handler → handler.Formed

namespace Controller

variable {controller : Controller σ ω} {exec : String} {handler : Handler σ ω}

theorem find?_eq_none_iff :
    controller.handlers.find? exec = none ↔ exec ∉ controller.handlers.names := by
  rw [← Registry.find?_isSome_iff, Option.not_isSome_iff_eq_none]

/-- The handler of a name has that name, and is made of a body and of formed parameters. -/
theorem Formed.exists_of (formed : controller.Formed)
    (found : controller.handlers.find? exec = some handler) :
    ∃ (α : Type) (owner : String) (callable : Bool) (parameters : Parameters α)
      (body : ServerEvent → α → Work σ ω Json),
      parameters.Formed ∧ handler = .of owner exec callable parameters body := by
  have hit : controller.handlers.handlers.find? (·.info.name = exec) = some handler := found
  have named := List.find?_some hit
  have named : handler.info.name = exec := of_decide_eq_true named
  cases formed exec handler found with
  | of owner name callable readable body =>
      cases named
      exact ⟨_, owner, callable, _, body, readable, rfl⟩

end Controller

def Handler.Draft.Formed (draft : Handler.Draft σ ω) : Prop :=
  draft.parameters.Formed

theorem Handler.Draft.Formed.handler {draft : Handler.Draft σ ω} (formed : draft.Formed)
    (owner : String) : (draft.handler owner).Formed :=
  .of owner draft.name draft.callable formed draft.body

def Mixin.Draft.Formed (draft : Mixin.Draft σ ω) : Prop :=
  ∀ part ∈ draft.parts, ∀ handler, part = .handler handler → handler.Formed

namespace Mixin

theorem formed_add {mixin : Mixin σ ω} {part : Part σ ω}
    (formed : ∀ handler ∈ mixin.handlers.handlers, handler.Formed)
    (fine : ∀ draft, part = .handler draft → draft.Formed) :
    ∀ handler ∈ (mixin.add part).handlers.handlers, handler.Formed := by
  intro handler member
  cases part with
  | handler draft =>
      rcases Registry.mem_insertIn member with rfl | old
      · exact (fine draft rfl).handler mixin.name
      · exact formed handler old
  | allCallable =>
      obtain ⟨old, earlier, rfl⟩ := List.mem_map.mp member
      -- what scripts may call does not change what the handler does
      cases formed old earlier with
      | of owner name callable readable body => exact .of owner name true readable body

theorem Draft.Formed.mixin {draft : Draft σ ω} (formed : draft.Formed) :
    ∀ handler ∈ draft.mixin.handlers.handlers, handler.Formed := by
  have grown (parts : List (Part σ ω)) (mixin : Mixin σ ω)
      (formed : ∀ part ∈ parts, ∀ draft, part = .handler draft → draft.Formed)
      (start : ∀ handler ∈ mixin.handlers.handlers, handler.Formed) :
      ∀ handler ∈ (parts.foldl add mixin).handlers.handlers, handler.Formed := by
    induction parts generalizing mixin with
    | nil => exact start
    | cons part parts ih =>
        refine ih (mixin.add part) (fun part later => formed part ?_) ?_
        · exact List.mem_cons_of_mem _ later
        · exact formed_add start (formed part List.mem_cons_self)
  exact grown draft.parts (.named draft.name) formed fun _ member => nomatch member

end Mixin

def ControllerClass.Part.Formed : ControllerClass.Part σ ω → Prop
  | .handler draft => draft.Formed
  | .mixin draft => draft.Formed

/-- Classes that are put together from formed drafts build formed controllers. -/
theorem ControllerClass.formed_build {cls : ControllerClass σ ω} {parts : List (Part σ ω)}
    (bare : cls.own = .empty ∧ cls.included = .empty) (formed : ∀ part ∈ parts, part.Formed) :
    (cls.addAll parts).build.Formed := by
  intro name handler found
  rw [find?_build_addAll bare, Option.or_eq_some_iff] at found
  rcases found with own | ⟨-, mixed⟩
  · obtain ⟨draft, among, rfl⟩ :=
      List.mem_map.mp (List.mem_reverse.mp (List.mem_of_find?_eq_some own))
    obtain ⟨part, member, drafted⟩ := List.mem_filterMap.mp among
    cases part with
    | handler _ =>
        cases drafted
        exact Handler.Draft.Formed.handler (formed _ member) cls.name
    | mixin _ => cases drafted
  · obtain ⟨draft, among, provided⟩ := List.exists_of_findSome?_eq_some mixed
    obtain ⟨part, member, drafted⟩ := List.mem_filterMap.mp among
    cases part with
    | handler _ => cases drafted
    | mixin _ =>
        cases drafted
        exact Mixin.Draft.Formed.mixin (formed _ member) handler
          (List.mem_of_find?_eq_some provided)

/-! ## Events -/

namespace Lifecycle

variable {running : Running σ ω} {left last : Live σ ω}

theorem runFrom_perform {work : Procedure (Live σ ω) (Halt PageError) α}
    {result : Except (Halt PageError) α} (run : work.runFrom (live running) = (result, last)) :
    (perform work).runFrom running = (result, withLive last running) := by
  rw [perform, within, runFrom_ofRun, run]

theorem runFrom_performAs {work : Work σ ω α} {result : Except (Halt Failure) α}
    (run : work.runFrom (live running) = (result, last)) (toError : Failure → PageError) :
    (performAs toError work).runFrom running =
      (result.mapError (.map toError), withLive last running) := by
  refine runFrom_perform ?_
  rw [mapError, runFrom_ofRun, run]

/-- Dispatching as it is written where hooks and handlers are reached by name: what is known of the
handler is looked up before the hook runs, and the handler itself after that. -/
def dispatchAnew (gone : Lifecycle σ ω (Option Json)) (exec : String) (event : ServerEvent)
    (args : List Json) : Lifecycle σ ω (Option Json) := do
  let controller := (← active).controller
  match controller.handlerInfo? exec with
  | none => fail (.handlerNotFound exec)
  | some info =>
      performAs (.handlerExecution exec) (controller.hooks.beforeExec ⟨info, event, args⟩)
      match (← active).controller.invoke? exec event args with
      | none => gone
      | some invoke => perform invoke

/-- A hook can't take a handler away: what was known before it ran is there after it. -/
theorem runFrom_dispatchAnew (gone : Lifecycle σ ω (Option Json)) (exec : String)
    (event : ServerEvent) (args : List Json) (running : Running σ ω) :
    (dispatchAnew gone exec event args).runFrom running =
      (dispatch exec event args).runFrom running := by
  unfold dispatchAnew dispatch
  rw [runFrom_bind_ok (runFrom_active running), runFrom_bind_ok (runFrom_active running)]
  dsimp only
  unfold Controller.handlerInfo?
  cases found : running.active.controller.handlers.find? exec with
  | none => rfl
  | some handler =>
      rw [Option.map_some]
      dsimp only
      rcases run : (performAs (.handlerExecution exec)
          (running.active.controller.hooks.beforeExec ⟨handler.info, event, args⟩)).runFrom running
        with ⟨halt | _, vetted⟩
      · rw [runFrom_bind_error run, runFrom_bind_error run]
      · have kept := controller_perform run
        rw [runFrom_bind_ok run, runFrom_bind_ok run, runFrom_bind_ok (runFrom_active vetted)]
        unfold Controller.invoke?
        rw [kept, found, Option.map_some]

end Lifecycle

/-- The hook before the handler of a name agrees to an event, and leaves what the controller works
on. -/
structure Agreed (running : Running σ ω) (exec : String) (event : ServerEvent)
    (args : List Json) (handler : Handler σ ω) (left : Live σ ω) : Prop where
  found : running.active.controller.handlers.find? exec = some handler
  vets : (running.active.controller.hooks.beforeExec ⟨handler.info, event, args⟩).runFrom
    (Lifecycle.live running) = (.ok (), left)

/-- What becomes of an event, one constructor for each way that it may go: the result, and the
instance that is left. The body of the handler runs in the last three. -/
inductive DispatchCourse (running : Running σ ω) (exec : String) (event : ServerEvent)
    (args : List Json) : Except (Halt PageError) (Option Json) → Running σ ω → Prop
  | unknown (missing : exec ∉ running.active.controller.handlers.names) :
      DispatchCourse running exec event args (.error (.failed (.handlerNotFound exec))) running
  | vetoed {handler : Handler σ ω} {halt : Halt Failure} {left : Live σ ω}
      (found : running.active.controller.handlers.find? exec = some handler)
      (vetoes : (running.active.controller.hooks.beforeExec ⟨handler.info, event, args⟩).runFrom
        (Lifecycle.live running) = (.error halt, left)) :
      DispatchCourse running exec event args (.error (halt.map (.handlerExecution exec)))
        (Lifecycle.withLive left running)
  | mismatched {α : Type} {owner : String} {callable : Bool} {parameters : Parameters α}
      {body : ServerEvent → α → Work σ ω Json} {message : String} {left : Live σ ω}
      (agreed : Agreed running exec event args (.of owner exec callable parameters body) left)
      (misfit : parameters.Misfit args message) :
      DispatchCourse running exec event args (.error (.failed (.argumentMismatch exec message)))
        (Lifecycle.withLive left running)
  | failed {α : Type} {owner : String} {callable : Bool} {parameters : Parameters α}
      {body : ServerEvent → α → Work σ ω Json} {values : α} {halt : Halt Failure}
      {left last : Live σ ω}
      (agreed : Agreed running exec event args (.of owner exec callable parameters body) left)
      (suits : parameters.Suits args values)
      (fails : (body event values).runFrom left = (.error halt, last)) :
      DispatchCourse running exec event args (.error (halt.map (.handlerExecution exec)))
        (Lifecycle.withLive last running)
  | quiet {α : Type} {owner : String} {callable : Bool} {parameters : Parameters α}
      {body : ServerEvent → α → Work σ ω Json} {values : α} {left last : Live σ ω}
      (agreed : Agreed running exec event args (.of owner exec callable parameters body) left)
      (suits : parameters.Suits args values)
      (returns : (body event values).runFrom left = (.ok .null, last)) :
      DispatchCourse running exec event args (.ok none) (Lifecycle.withLive last running)
  | answered {α : Type} {owner : String} {callable : Bool} {parameters : Parameters α}
      {body : ServerEvent → α → Work σ ω Json} {values : α} {value : Json}
      {left last : Live σ ω}
      (agreed : Agreed running exec event args (.of owner exec callable parameters body) left)
      (suits : parameters.Suits args values)
      (returns : (body event values).runFrom left = (.ok value, last)) (full : value ≠ .null) :
      DispatchCourse running exec event args (.ok (some value)) (Lifecycle.withLive last running)

namespace DispatchCourse

variable {running : Running σ ω} {exec : String} {event : ServerEvent} {args : List Json}
  {handler : Handler σ ω} {left last : Live σ ω}

theorem runFrom_of_missing (missing : exec ∉ running.active.controller.handlers.names) :
    (Lifecycle.dispatch exec event args).runFrom running =
      (.error (.failed (.handlerNotFound exec)), running) := by
  unfold Lifecycle.dispatch
  rw [runFrom_bind_ok (Lifecycle.runFrom_active running)]
  dsimp only
  rw [Controller.find?_eq_none_iff.mpr missing]
  rfl

theorem runFrom_of_vetoed {halt : Halt Failure}
    (found : running.active.controller.handlers.find? exec = some handler)
    (vetoes : (running.active.controller.hooks.beforeExec ⟨handler.info, event, args⟩).runFrom
      (Lifecycle.live running) = (.error halt, left)) :
    (Lifecycle.dispatch exec event args).runFrom running =
      (.error (halt.map (.handlerExecution exec)), Lifecycle.withLive left running) := by
  unfold Lifecycle.dispatch
  rw [runFrom_bind_ok (Lifecycle.runFrom_active running)]
  dsimp only
  rw [found]
  exact runFrom_bind_error (Lifecycle.runFrom_performAs vetoes _)

/-- Where the hook agrees all depends on the handler, which goes on from what the hook left. -/
theorem runFrom_of_agreed {result : Except (Halt PageError) (Option Json)}
    (agreed : Agreed running exec event args handler left)
    (invoked : (handler.invoke event args).runFrom left = (result, last)) :
    (Lifecycle.dispatch exec event args).runFrom running =
      (result, Lifecycle.withLive last running) := by
  unfold Lifecycle.dispatch
  rw [runFrom_bind_ok (Lifecycle.runFrom_active running)]
  dsimp only
  rw [agreed.found]
  dsimp only
  rw [runFrom_bind_ok (Lifecycle.runFrom_performAs agreed.vets _)]
  -- the handler goes on from what the hook left
  have handed : Lifecycle.live (Lifecycle.withLive left running) = left := rfl
  rw [← handed] at invoked
  exact Lifecycle.runFrom_perform invoked

theorem run {result : Except (Halt PageError) (Option Json)} {after : Running σ ω}
    (course : DispatchCourse running exec event args result after) :
    (Lifecycle.dispatch exec event args).runFrom running = (result, after) := by
  cases course with
  | unknown missing => exact runFrom_of_missing missing
  | vetoed found vetoes => exact runFrom_of_vetoed found vetoes
  | mismatched agreed misfit =>
      refine runFrom_of_agreed agreed ?_
      rw [Handler.invoke_of_misfit misfit, runFrom_throw]
  | failed agreed suits fails =>
      refine runFrom_of_agreed agreed ?_
      rw [Handler.runFrom_invoke_of_suits suits, fails]
  | quiet agreed suits returns =>
      refine runFrom_of_agreed agreed ?_
      rw [Handler.runFrom_invoke_of_suits suits, returns]
      rfl
  | @answered _ _ _ _ _ _ value _ _ agreed suits returns full =>
      refine runFrom_of_agreed agreed ?_
      rw [Handler.runFrom_invoke_of_suits suits, returns]
      cases value with
      | null => exact absurd rfl full
      | _ => rfl

/-- There is no other way for an event to go. -/
theorem exists_course (formed : running.active.controller.Formed) (exec : String)
    (event : ServerEvent) (args : List Json) :
    ∃ result after, DispatchCourse running exec event args result after := by
  cases found : running.active.controller.handlers.find? exec with
  | none => exact ⟨_, _, .unknown (Controller.find?_eq_none_iff.mp found)⟩
  | some handler =>
      obtain ⟨α, owner, callable, parameters, body, -, rfl⟩ := formed.exists_of found
      rcases vetted : (running.active.controller.hooks.beforeExec
          ⟨(Handler.of owner exec callable parameters body).info, event, args⟩).runFrom
            (Lifecycle.live running) with ⟨halt | _, left⟩
      · exact ⟨_, _, .vetoed found vetted⟩
      · have agreed : Agreed running exec event args _ left := ⟨found, vetted⟩
        cases read : parameters.ofArguments args with
        | error message =>
            exact ⟨_, _, .mismatched agreed (Parameters.ofArguments_eq_error_iff.mp read)⟩
        | ok values =>
            have suits := Parameters.ofArguments_eq_ok_iff.mp read
            rcases ran : (body event values).runFrom left with ⟨halt | value, last⟩
            · exact ⟨_, _, .failed agreed suits ran⟩
            · by_cases null : value = .null
              · exact ⟨_, _, .quiet agreed suits (null ▸ ran)⟩
              · exact ⟨_, _, .answered agreed suits ran null⟩

theorem run_iff (formed : running.active.controller.Formed)
    {result : Except (Halt PageError) (Option Json)} {after : Running σ ω} :
    (Lifecycle.dispatch exec event args).runFrom running = (result, after) ↔
      DispatchCourse running exec event args result after := by
  constructor
  · intro ran
    obtain ⟨_, _, course⟩ := exists_course formed exec event args
    cases course.run.symm.trans ran
    exact course
  · exact run

/-- Nobody else says that there is no handler: what a hook or a handler fails with is told as a
failure of the handler. -/
theorem unknown_iff {after : Running σ ω} :
    DispatchCourse running exec event args (.error (.failed (.handlerNotFound exec))) after ↔
      exec ∉ running.active.controller.handlers.names ∧ after = running := by
  constructor
  · intro course
    generalize told : (.error (.failed (.handlerNotFound exec)) :
      Except (Halt PageError) (Option Json)) = result at course
    cases course with
    | unknown missing => exact ⟨missing, rfl⟩
    | @vetoed _ halt => cases halt <;> cases told
    | mismatched => cases told
    | @failed _ _ _ _ _ _ halt => cases halt <;> cases told
    | quiet => cases told
    | answered => cases told
  · rintro ⟨missing, rfl⟩
    exact .unknown missing

end DispatchCourse

def Call.vetted? : Call → Option Invocation
  | .beforeExec invocation => some invocation
  | _ => none

/-- The hook before a handler is called once if there is a handler, with the arguments as they came;
otherwise nothing is called. -/
theorem Recorded.exists_vetted (running : Running σ ω) (exec : String) (event : ServerEvent)
    (args : List Json) :
    ∃ course result after,
      Traces (Lifecycle.dispatch exec event args) (Recorded.dispatch exec event args) running
        course result after ∧
      (calls course).filterMap (·.1.vetted?) =
        (running.active.controller.handlers.find? exec).toList.map (⟨·.info, event, args⟩) ∧
      (exec ∉ running.active.controller.handlers.names → course = []) := by
  cases found : running.active.controller.handlers.find? exec with
  | none => exact ⟨[], _, _, Recorded.traces_dispatch_unknown found event args, rfl, fun _ => rfl⟩
  | some handler =>
      have known : ¬ exec ∉ running.active.controller.handlers.names := by
        rw [← Controller.find?_eq_none_iff, found]
        exact nofun
      rcases Recorded.exists_dispatch found event args with
        ⟨halt, after, -, traces⟩ | ⟨vetted, result, after, -, -, traces⟩
      · exact ⟨_, _, _, traces, rfl, fun missing => absurd missing known⟩
      · exact ⟨_, _, _, traces, rfl, fun missing => absurd missing known⟩

/-- What becomes of an event: it takes its course, the hook is told of it once, no handler is missed
unless none is registered, and then nothing is called, looking again for the handler makes no
difference, and missing arguments at the end are nulls. -/
structure Handles (running : Running σ ω) (exec : String) (event : ServerEvent)
    (args : List Json) : Prop where
  course (result : Except (Halt PageError) (Option Json)) (after : Running σ ω) :
    (Lifecycle.dispatch exec event args).runFrom running = (result, after) ↔
      DispatchCourse running exec event args result after
  vetted : ∃ course result after,
    Traces (Lifecycle.dispatch exec event args) (Recorded.dispatch exec event args) running
      course result after ∧
    (calls course).filterMap (·.1.vetted?) =
      (running.active.controller.handlers.find? exec).toList.map (⟨·.info, event, args⟩) ∧
    (exec ∉ running.active.controller.handlers.names → course = [])
  unknown (after : Running σ ω) :
    (Lifecycle.dispatch exec event args).runFrom running =
        (.error (.failed (.handlerNotFound exec)), after) ↔
      exec ∉ running.active.controller.handlers.names ∧ after = running
  anew (gone : Lifecycle σ ω (Option Json)) :
    (Lifecycle.dispatchAnew gone exec event args).runFrom running =
      (Lifecycle.dispatch exec event args).runFrom running
  padded {handler : Handler σ ω} {limit : Nat}
    (found : running.active.controller.handlers.find? exec = some handler)
    (fixed : handler.info.arity = some limit) (few : args.length ≤ limit) :
    handler.invoke event (args ++ List.replicate (limit - args.length) .null) =
      handler.invoke event args

/-- The body of a handler runs if there is one, the hook before it agrees and the arguments suit its
parameters; each other way leaves the instance as it was, or as the hook left it. -/
theorem handles_of_formed {running : Running σ ω} (formed : running.active.controller.Formed)
    (exec : String) (event : ServerEvent) (args : List Json) :
    Handles running exec event args where
  course _ _ := DispatchCourse.run_iff formed
  vetted := Recorded.exists_vetted running exec event args
  unknown _ := (DispatchCourse.run_iff formed).trans DispatchCourse.unknown_iff
  anew gone := Lifecycle.runFrom_dispatchAnew gone exec event args running
  padded found fixed few := by
    obtain ⟨α, owner, callable, parameters, body, readable, rfl⟩ := formed.exists_of found
    simp only [Handler.of, readable.ofArguments_append fixed few]

/-! A desk greets, counts and complains, and its hook lets nobody at the drawer. -/

namespace Desk

open Json

def vet (invocation : Invocation) : Work Nat Unit Unit := do
  modify fun live => { live with object := live.object + 1 }
  if invocation.handler.name = "drawer" then Work.fail (.of "locked") else pure ()

def parts : List (ControllerClass.Part Nat Unit) :=
  [.handler ⟨String × Option String × Unit, "greet", true,
      .cons asText (.cons (asOptional asText) .nil),
      fun _ (name, ending, _) => return .str ("hi " ++ name ++ ending.getD "")⟩,
    .handler ⟨Unit, "fail", false, .nil, fun _ _ => Work.fail (.of "nope")⟩,
    .handler ⟨List Json, "drawer", true, .each .ok, fun _ _ => return .null⟩,
    .mixin ⟨"Resetting", [.handler ⟨Unit, "reset", false, .nil, fun _ _ => do
      modify fun live => { live with object := 0 }
      return .null⟩]⟩]

def controller : Controller Nat Unit :=
  (ControllerClass.addAll ⟨"Desk", fun _ => .ok 0, { Hooks.none with beforeExec := vet }, .empty,
    .empty, none, none⟩ parts).build

def running : Running Nat Unit :=
  ⟨⟨controller, 7, .of (.bare .get "/"), .initialized⟩, ()⟩

theorem formed : running.active.controller.Formed := by
  refine ControllerClass.formed_build ⟨rfl, rfl⟩ fun part member => ?_
  rcases List.mem_cons.mp member with rfl | member
  · exact .cons _ (.cons _ .nil)
  rcases List.mem_cons.mp member with rfl | member
  · exact .nil
  rcases List.mem_cons.mp member with rfl | member
  · exact .each _
  · cases List.mem_singleton.mp member
    intro part member draft same
    cases List.mem_singleton.mp member
    cases same
    exact .nil

def event : ServerEvent :=
  ⟨none, ⟨none, none, none, none, none, none, []⟩⟩

def outcome (exec : String) (args : List Json) : Except (Halt PageError) (Option Json) × Nat :=
  let (result, after) := (Lifecycle.dispatch exec event args).runFrom running
  (result, after.active.object)

end Desk

theorem handles_desk :
    (∀ exec args, Handles Desk.running exec Desk.event args) ∧
    Desk.outcome "greet" [.str "a"] = (.ok (some (.str "hi a")), 8) ∧
    Desk.outcome "greet" [] = (.error (.failed
      (.argumentMismatch "greet" "invalid type: null, expected a string")), 8) ∧
    Desk.outcome "greet" [.null, .null, .null] = (.error (.failed
      (.argumentMismatch "greet" "expected at most 2 arguments, got 3")), 8) ∧
    Desk.outcome "fail" [] = (.error (.failed (.handlerExecution "fail" (.of "nope"))), 8) ∧
    Desk.outcome "drawer" [] = (.error (.failed (.handlerExecution "drawer" (.of "locked"))), 8) ∧
    Desk.outcome "reset" [] = (.ok none, 0) ∧
    Desk.outcome "open" [] = (.error (.failed (.handlerNotFound "open")), 7) := by
  refine ⟨fun exec args => handles_of_formed Desk.formed exec Desk.event args, ?_⟩
  exact ⟨by rfl, by rfl, by rfl, by rfl, by rfl, by rfl, by rfl⟩

end ServerPages
