import ServerPages.Proofs.Lifecycle.Courses

/-!
# Legal orders of hooks and handlers

On every path through a request the hooks and the handler are called in one order, each
once at most: the first hook, then the start or the hook before the handler and the
handler, then the hook that is told of an error or the hook before a whole page is
written. Which of them are called depends on the request and on what failed before.
-/

namespace ServerPages

open Procedure

def Call.place : Call → Nat
  | .init => 0
  | .start => 1
  | .beforeExec _ => 1
  | .handler _ => 2
  | .errored _ => 3
  | .finish => 3

def Stage.place : Stage → Nat
  | .controllerBound => 0
  | .populated => 1
  | .initialized => 2
  | .eventDispatched => 3
  | .started => 3
  | .finalized => 4

namespace Note

def call? : Note → Option (Call × Ending)
  | .called call ending _ => some (call, ending)
  | _ => none

def stage? : Note → Option Stage
  | .reached stage => some stage
  | _ => none

end Note

def calls (course : List Note) : List (Call × Ending) :=
  course.filterMap Note.call?

def stages (course : List Note) : List Stage :=
  course.filterMap Note.stage?

/-- Courses whose calls stand in a legal order. `whole` says whether a whole page is due where
nothing fails, and the outcome is that of the request. -/
structure Orderly (request : Request) (whole : Bool) (course : List Note) (outcome : Ending) :
    Prop where
  /-- No call is made twice, and each stands in its place. -/
  order : (calls course).Pairwise fun first second => first.1.place < second.1.place
  /-- Stages follow each other forward. -/
  forward : (stages course).Pairwise fun first second => first.place < second.place
  /-- Nothing runs before the first hook. -/
  init_first (begins : course ≠ []) : ∃ ending rest, calls course = (.init, ending) :: rest
  /-- Nothing runs after a first hook that fails. -/
  init_failed {halt : Halt PageError} (failed : (Call.init, .error halt) ∈ calls course) :
    calls course = [(.init, .error halt)] ∧ outcome = .error halt
  /-- After the first hook the clicks of the page are bound. -/
  binds (left : (Call.init, .ok ()) ∈ calls course) : ∃ binding, Note.bound binding ∈ course
  /-- Nothing runs after a click that belongs to nothing. -/
  unbound {halt : Halt PageError} (failed : Note.bound (.error halt) ∈ course) :
    calls course = [(.init, .ok ())] ∧ outcome = .error halt
  /-- After binding, the event is dispatched or the page starts. -/
  steps (bound : Note.bound (.ok ()) ∈ course) : ∃ step, Note.stepped step ∈ course
  /-- Without an event the page starts, unless the first hook spoiled its document. -/
  starts {step : Ending} {page : Page} (event : request.event = .ok none)
    (reached : Note.stepped step ∈ course) (left : Note.called .init (.ok ()) page ∈ course)
    (sound : page.Sound) : ∃ ending, (Call.start, ending) ∈ calls course
  start_event {ending : Ending} (called : (Call.start, ending) ∈ calls course) :
    request.event = .ok none
  /-- What runs for an event is what the event asks for. -/
  invocation_event {invocation : Invocation} {ending : Ending}
    (called : (Call.beforeExec invocation, ending) ∈ calls course ∨
      (Call.handler invocation, ending) ∈ calls course) :
    ∃ descriptor, request.event = .ok (some descriptor) ∧
      descriptor.exec = some invocation.handler.name ∧
      invocation.event.descriptor = descriptor ∧ invocation.args = descriptor.args
  /-- A handler runs only after the hook before it ended well. -/
  vetted {invocation : Invocation} {ending : Ending}
    (called : (Call.handler invocation, ending) ∈ calls course) :
    (Call.beforeExec invocation, .ok ()) ∈ calls course
  /-- An event that cannot be read fails. -/
  unreadable {fault : DescriptorFault} {step : Ending} (event : request.event = .error fault)
    (reached : Note.stepped step ∈ course) :
    step = .error (.failed (.invalidDescriptor fault))
  /-- An event that names a method comes to the hook before its handler, or there is none. -/
  dispatched {descriptor : Descriptor} {exec : String} {step : Ending}
    (event : request.event = .ok (some descriptor)) (names : descriptor.exec = some exec)
    (reached : Note.stepped step ∈ course) :
    (∃ invocation ending, (Call.beforeExec invocation, ending) ∈ calls course) ∨
      step = .error (.failed (.handlerNotFound exec))
  /-- The step fails if a call in it does. -/
  call_failed {call : Call} {halt : Halt PageError}
    (failed : (call, .error halt) ∈ calls course) (inStep : call.place = 1 ∨ call.place = 2) :
    Note.stepped (.error halt) ∈ course
  /-- It fails for no other reason than a call, an event that cannot be read or that names no
  handler, or a title that the first hook left no place for. -/
  step_failed {halt : Halt PageError} (failed : Note.stepped (.error halt) ∈ course) :
    (∃ call, (call, .error halt) ∈ calls course ∧ (call.place = 1 ∨ call.place = 2)) ∨
      (∃ fault, request.event = .error fault) ∨
      (∃ descriptor exec, request.event = .ok (some descriptor) ∧ descriptor.exec = some exec ∧
        halt = .failed (.handlerNotFound exec)) ∨
      ∃ page, request.event = .ok none ∧ Note.called .init (.ok ()) page ∈ course ∧ ¬ page.Sound
  /-- The controller is told of the error of that step, and of no other. -/
  errored_iff {error : PageError} :
    (∃ ending, (Call.errored error, ending) ∈ calls course) ↔
      Note.stepped (.error (.failed error)) ∈ course
  /-- The error that the controller was told of is the outcome. -/
  errored_outcome {error : PageError} (told : (Call.errored error, .ok ()) ∈ calls course) :
    outcome = .error (.failed error)
  /-- Only a breakdown of the controller comes before that error. -/
  errored_failed {error : PageError} {halt : Halt PageError}
    (failed : (Call.errored error, .error halt) ∈ calls course) :
    halt = .brokeDown ∧ outcome = .error .brokeDown
  brokeDown (broke : Note.stepped (.error .brokeDown) ∈ course) : outcome = .error .brokeDown
  /-- The last hook runs where a whole page is due and the step ended well. -/
  finish_iff :
    (∃ ending, (Call.finish, ending) ∈ calls course) ↔
      Note.stepped (.ok ()) ∈ course ∧ whole = true
  finish_failed {halt : Halt PageError} (failed : (Call.finish, .error halt) ∈ calls course) :
    outcome = .error halt

section

variable (call : Call) (result : Ending) (page : Page) (stage : Stage) (course : List Note)

@[simp] theorem calls_called :
    calls (.called call result page :: course) = (call, result) :: calls course := rfl

@[simp] theorem calls_bound : calls (.bound result :: course) = calls course := rfl

@[simp] theorem calls_stepped : calls (.stepped result :: course) = calls course := rfl

@[simp] theorem calls_reached : calls (.reached stage :: course) = calls course := rfl

@[simp] theorem stages_called :
    stages (.called call result page :: course) = stages course := rfl

@[simp] theorem stages_bound : stages (.bound result :: course) = stages course := rfl

@[simp] theorem stages_stepped : stages (.stepped result :: course) = stages course := rfl

@[simp] theorem stages_reached :
    stages (.reached stage :: course) = stage :: stages course := rfl

end

@[simp] theorem calls_nil : calls [] = [] := rfl

@[simp] theorem stages_nil : stages [] = [] := rfl

theorem Orderly.nil (request : Request) (whole : Bool) (outcome : Ending) :
    Orderly request whole [] outcome := by
  constructor <;> simp

@[simp] theorem calls_append (first second : List Note) :
    calls (first ++ second) = calls first ++ calls second :=
  List.filterMap_append

@[simp] theorem stages_append (first second : List Note) :
    stages (first ++ second) = stages first ++ stages second :=
  List.filterMap_append

theorem mem_calls {call : Call} {ending : Ending} {course : List Note} :
    (call, ending) ∈ calls course ↔ ∃ page, Note.called call ending page ∈ course := by
  simp only [calls, List.mem_filterMap]
  constructor
  · rintro ⟨note, member, same⟩
    cases note with
    | called call ending page =>
        cases same
        exact ⟨page, member⟩
    | bound => cases same
    | stepped => cases same
    | reached => cases same
  · rintro ⟨page, member⟩
    exact ⟨_, member, rfl⟩

/-! ## The step in which the event is dispatched or the page starts -/

def Note.inner (note : Note) : Prop :=
  note.call?.isSome ∨ note.stage?.isSome

theorem Registry.name_of_find? {σ ω : Type} {registry : Registry σ ω} {name : String}
    {handler : Handler σ ω} (found : registry.find? name = some handler) :
    handler.info.name = name := by
  have same := List.find?_some found
  exact of_decide_eq_true same

namespace StepCourse

variable {σ ω : Type} {running after : Running σ ω} {request : Request} {course : List Note}
  {result : Except (Halt PageError) (Option String)}

theorem inner (steps : StepCourse running request course result after) :
    ∀ note ∈ course, note.inner := by
  cases steps <;> simp [Note.inner, Note.call?, Note.stage?]

/-- The calls of the step and its stage stand in their places. -/
theorem placed (steps : StepCourse running request course result after) :
    (∀ made ∈ calls course, made.1.place = 1 ∨ made.1.place = 2) ∧
      (calls course).Pairwise (fun first second => first.1.place < second.1.place) ∧
      (∀ stage ∈ stages course, stage.place = 3) ∧
      (stages course).Pairwise (fun first second => first.place < second.place) := by
  cases steps <;> simp [Call.place, Stage.place]

theorem starts (steps : StepCourse running request course result after)
    (event : request.event = .ok none) (sound : running.active.page.Sound) :
    ∃ ending, (Call.start, ending) ∈ calls course := by
  cases steps <;> simp_all

theorem start_event (steps : StepCourse running request course result after) {ending : Ending}
    (called : (Call.start, ending) ∈ calls course) : request.event = .ok none := by
  cases steps <;> simp_all

/-- What runs in the step is the handler that the event names, and the hook before it. -/
theorem invocation_eq (steps : StepCourse running request course result after)
    {invocation : Invocation} {ending : Ending}
    (called : (Call.beforeExec invocation, ending) ∈ calls course ∨
      (Call.handler invocation, ending) ∈ calls course) :
    ∃ descriptor exec handler, request.event = .ok (some descriptor) ∧
      descriptor.exec = some exec ∧
      running.active.controller.handlers.find? exec = some handler ∧
      invocation = Lifecycle.invocation running handler descriptor := by
  cases steps with
  | unreadable | untitled | unstarted | started | idle | unknown => simp at called
  | @vetoed descriptor exec handler halt after event names found
  | @unhandled descriptor exec handler halt vetted after event names found
  | @handled descriptor exec handler value vetted after event names found =>
      refine ⟨descriptor, exec, handler, event, names, found, ?_⟩
      simp at called
      tauto

theorem invocation_event (steps : StepCourse running request course result after)
    {invocation : Invocation} {ending : Ending}
    (called : (Call.beforeExec invocation, ending) ∈ calls course ∨
      (Call.handler invocation, ending) ∈ calls course) :
    ∃ descriptor, request.event = .ok (some descriptor) ∧
      descriptor.exec = some invocation.handler.name ∧
      invocation.event.descriptor = descriptor ∧ invocation.args = descriptor.args := by
  obtain ⟨descriptor, exec, handler, event, names, found, rfl⟩ := steps.invocation_eq called
  have named := names.trans (congrArg some (Registry.name_of_find? found).symm)
  exact ⟨descriptor, event, named, rfl, rfl⟩

theorem vetted (steps : StepCourse running request course result after) {invocation : Invocation}
    {ending : Ending} (called : (Call.handler invocation, ending) ∈ calls course) :
    (Call.beforeExec invocation, .ok ()) ∈ calls course := by
  cases steps <;> simp_all

theorem unreadable_event (steps : StepCourse running request course result after)
    {fault : DescriptorFault} (event : request.event = .error fault) :
    ending result = .error (.failed (.invalidDescriptor fault)) := by
  cases steps <;> simp_all

theorem dispatched (steps : StepCourse running request course result after)
    {descriptor : Descriptor} {exec : String} (event : request.event = .ok (some descriptor))
    (names : descriptor.exec = some exec) :
    (∃ invocation ending, (Call.beforeExec invocation, ending) ∈ calls course) ∨
      ending result = .error (.failed (.handlerNotFound exec)) := by
  cases steps <;> simp_all

theorem call_failed (steps : StepCourse running request course result after) {call : Call}
    {halt : Halt PageError} (failed : (call, .error halt) ∈ calls course) :
    ending result = .error halt := by
  cases steps <;> simp_all

theorem step_failed (steps : StepCourse running request course result after) {halt : Halt PageError}
    (failed : ending result = .error halt) :
    (∃ call, (call, .error halt) ∈ calls course) ∨
      (∃ fault, request.event = .error fault) ∨
      (∃ descriptor exec, request.event = .ok (some descriptor) ∧ descriptor.exec = some exec ∧
        halt = .failed (.handlerNotFound exec)) ∨
      request.event = .ok none ∧ ¬ running.active.page.Sound := by
  cases steps with
  | unreadable event => exact Or.inr (Or.inl ⟨_, event⟩)
  | untitled event unsound => exact Or.inr (Or.inr (Or.inr ⟨event, unsound⟩))
  | unknown event names =>
      cases failed
      exact Or.inr (Or.inr (Or.inl ⟨_, _, event, names, rfl⟩))
  | unstarted | vetoed | unhandled =>
      cases failed
      simp
  | started | idle | handled => cases failed

end StepCourse

/-! ## What follows the step -/

namespace Closing

variable {whole : Bool} {step outcome : Ending} {more : List Note}

theorem inner (closing : Closing whole step more outcome) : ∀ note ∈ more, note.inner := by
  cases closing <;> simp [Note.inner, Note.call?, Note.stage?]

theorem placed (closing : Closing whole step more outcome) :
    (∀ made ∈ calls more, made.1.place = 3) ∧
      (calls more).Pairwise (fun first second => first.1.place < second.1.place) ∧
      (∀ stage ∈ stages more, stage.place = 4) ∧
      (stages more).Pairwise (fun first second => first.place < second.place) := by
  cases closing <;> simp [Call.place, Stage.place]

theorem errored_iff (closing : Closing whole step more outcome) {error : PageError} :
    (∃ ending, (Call.errored error, ending) ∈ calls more) ↔ step = .error (.failed error) := by
  cases closing <;> simp [eq_comm]

theorem errored_outcome (closing : Closing whole step more outcome) {error : PageError}
    (told : (Call.errored error, .ok ()) ∈ calls more) : outcome = .error (.failed error) := by
  cases closing <;> simp_all

theorem errored_failed (closing : Closing whole step more outcome) {error : PageError}
    {halt : Halt PageError} (failed : (Call.errored error, .error halt) ∈ calls more) :
    halt = .brokeDown ∧ outcome = .error .brokeDown := by
  cases closing <;> simp_all

theorem broke (closing : Closing whole (.error .brokeDown) more outcome) :
    outcome = .error .brokeDown := by
  cases closing
  rfl

theorem finish_iff (closing : Closing whole step more outcome) :
    (∃ ending, (Call.finish, ending) ∈ calls more) ↔ step = .ok () ∧ whole = true := by
  cases closing <;> simp_all

theorem finish_failed (closing : Closing whole step more outcome) {halt : Halt PageError}
    (failed : (Call.finish, .error halt) ∈ calls more) : outcome = .error halt := by
  cases closing <;> simp_all

end Closing

/-! ## Whole courses -/

theorem not_inner_stepped (step : Ending) : ¬ (Note.stepped step).inner := by
  simp [Note.inner, Note.call?, Note.stage?]

theorem not_inner_bound (binding : Ending) : ¬ (Note.bound binding).inner := by
  simp [Note.inner, Note.call?, Note.stage?]

section

variable {σ ω : Type} {running after : Running σ ω} {request : Request} {whole : Bool} {page : Page}
  {steps more : List Note} {result : Except (Halt PageError) (Option String)} {outcome : Ending}

theorem calls_steppedCourse (step : Ending) :
    calls (steppedCourse page steps step more) =
      (.init, .ok ()) :: (calls steps ++ calls more) := by
  simp [steppedCourse, begun]

theorem stages_steppedCourse (step : Ending) :
    stages (steppedCourse page steps step more) =
      .controllerBound :: .populated :: .initialized :: (stages steps ++ stages more) := by
  simp [steppedCourse, begun]

theorem mem_steppedCourse {step : Ending} {note : Note} (outer : ¬ note.inner)
    (insideStep : ∀ note ∈ steps, note.inner) (insideMore : ∀ note ∈ more, note.inner) :
    note ∈ steppedCourse page steps step more ↔ note = .bound (.ok ()) ∨ note = .stepped step := by
  have notSteps : note ∉ steps := fun member => outer (insideStep note member)
  have notMore : note ∉ more := fun member => outer (insideMore note member)
  have notCalled (call : Call) (ending : Ending) (page : Page) :
      note ≠ .called call ending page := by
    rintro rfl
    exact outer (Or.inl rfl)
  have notReached (stage : Stage) : note ≠ .reached stage := by
    rintro rfl
    exact outer (Or.inr rfl)
  simp [steppedCourse, begun, notSteps, notMore, notCalled, notReached]

theorem mem_calls_steppedCourse {step result : Ending} {call : Call} :
    (call, result) ∈ calls (steppedCourse page steps step more) ↔
      (call = .init ∧ result = .ok ()) ∨ (call, result) ∈ calls steps ∨
        (call, result) ∈ calls more := by
  rw [calls_steppedCourse, List.mem_cons, List.mem_append, Prod.mk.injEq]

variable (sound : page.Sound → running.active.page.Sound)
  (course : StepCourse running request steps result after)
  (closing : Closing whole (ending result) more outcome)

include course closing

theorem stepped_mem {step : Ending} :
    Note.stepped step ∈ steppedCourse page steps (ending result) more ↔ step = ending result := by
  rw [mem_steppedCourse (not_inner_stepped step) course.inner closing.inner]
  simp

theorem not_bound_mem {halt : Halt PageError} :
    Note.bound (.error halt) ∉ steppedCourse page steps (ending result) more := by
  rw [mem_steppedCourse (not_inner_bound _) course.inner closing.inner]
  simp

/-! Calls of the step and of what follows it are told apart by their places. -/

omit course in
theorem call_mem_step {call : Call} {made : Ending} (place : call.place = 1 ∨ call.place = 2) :
    (call, made) ∈ calls (steppedCourse page steps (ending result) more) ↔
      (call, made) ∈ calls steps := by
  obtain ⟨places, _⟩ := closing.placed
  rw [mem_calls_steppedCourse]
  constructor
  · rintro (⟨rfl, rfl⟩ | member | member)
    · simp [Call.place] at place
    · exact member
    · have late : call.place = 3 := places _ member
      omega
  · exact fun member => Or.inr (Or.inl member)

omit closing in
theorem call_mem_closing {call : Call} {made : Ending} (place : call.place = 3) :
    (call, made) ∈ calls (steppedCourse page steps (ending result) more) ↔
      (call, made) ∈ calls more := by
  obtain ⟨places, _⟩ := course.placed
  rw [mem_calls_steppedCourse]
  constructor
  · rintro (⟨rfl, rfl⟩ | member | member)
    · simp [Call.place] at place
    · have early : call.place = 1 ∨ call.place = 2 := places _ member
      omega
    · exact member
  · exact fun member => Or.inr (Or.inr member)

theorem not_init_mem (made : Ending) :
    (Call.init, made) ∉ calls steps ∧ (Call.init, made) ∉ calls more := by
  obtain ⟨stepPlaces, _⟩ := course.placed
  obtain ⟨morePlaces, _⟩ := closing.placed
  constructor
  · intro member
    have early := stepPlaces _ member
    simp [Call.place] at early
  · intro member
    have late := morePlaces _ member
    simp [Call.place] at late

/-- The first hook is called once, with success. -/
theorem init_mem {made : Ending}
    (member : (Call.init, made) ∈ calls (steppedCourse page steps (ending result) more)) :
    made = .ok () := by
  obtain ⟨notSteps, notMore⟩ := not_init_mem course closing made
  simpa [mem_calls_steppedCourse, notSteps, notMore] using member

/-- The page that the first hook leaves is the one of the course. -/
theorem init_page {other : Page} (member : Note.called .init (.ok ()) other ∈
    steppedCourse page steps (ending result) more) : other = page := by
  obtain ⟨notSteps, notMore⟩ := not_init_mem course closing (.ok ())
  have apartSteps : Note.called .init (.ok ()) other ∉ steps := fun member =>
    notSteps (mem_calls.mpr ⟨_, member⟩)
  have apartMore : Note.called .init (.ok ()) other ∉ more := fun member =>
    notMore (mem_calls.mpr ⟨_, member⟩)
  simpa [steppedCourse, begun, apartSteps, apartMore] using member

theorem order_steppedCourse :
    (calls (steppedCourse page steps (ending result) more)).Pairwise
      fun first second => first.1.place < second.1.place := by
  obtain ⟨stepPlaces, stepOrder, _⟩ := course.placed
  obtain ⟨morePlaces, moreOrder, _⟩ := closing.placed
  rw [calls_steppedCourse, List.pairwise_cons, List.pairwise_append]
  refine ⟨fun made member => ?_, stepOrder, moreOrder, fun early inStep late inClosing => ?_⟩
  · change 0 < made.1.place
    rcases List.mem_append.mp member with member | member
    · have := stepPlaces _ member
      omega
    · have := morePlaces _ member
      omega
  · have := stepPlaces _ inStep
    have := morePlaces _ inClosing
    omega

theorem forward_steppedCourse :
    (stages (steppedCourse page steps (ending result) more)).Pairwise
      fun first second => first.place < second.place := by
  obtain ⟨_, _, stepStages, stepForward⟩ := course.placed
  obtain ⟨_, _, moreStages, moreForward⟩ := closing.placed
  have places : ∀ stage ∈ stages steps ++ stages more, 2 < stage.place := by
    intro stage member
    rcases List.mem_append.mp member with member | member
    · have := stepStages _ member
      omega
    · have := moreStages _ member
      omega
  rw [stages_steppedCourse]
  refine .cons ?_ (.cons ?_ (.cons places ?_))
  · intro stage member
    change 0 < stage.place
    rcases List.mem_cons.mp member with rfl | member
    · decide
    · rcases List.mem_cons.mp member with rfl | member
      · decide
      · exact Nat.lt_of_le_of_lt (Nat.zero_le 2) (places stage member)
  · intro stage member
    change 1 < stage.place
    rcases List.mem_cons.mp member with rfl | member
    · decide
    · exact Nat.lt_trans (Nat.lt_succ_self 1) (places stage member)
  · rw [List.pairwise_append]
    refine ⟨stepForward, moreForward, fun early inStep late inClosing => ?_⟩
    rw [stepStages early inStep, moreStages late inClosing]
    decide

include sound

theorem orderly_steppedCourse :
    Orderly request whole (steppedCourse page steps (ending result) more) outcome := by
  constructor
  case order => exact order_steppedCourse course closing
  case forward => exact forward_steppedCourse course closing
  case init_first => exact fun _ => ⟨_, _, calls_steppedCourse _⟩
  case init_failed =>
    intro halt failed
    cases init_mem course closing failed
  case binds => exact fun _ => ⟨.ok (), by simp [steppedCourse]⟩
  case steps => exact fun _ => ⟨_, (stepped_mem course closing).mpr rfl⟩
  case unbound => exact fun failed => absurd failed (not_bound_mem course closing)
  case starts =>
    intro step other event reached left wasSound
    have sound := sound (init_page course closing left ▸ wasSound)
    obtain ⟨ending, called⟩ := course.starts event sound
    exact ⟨ending, (call_mem_step closing (Or.inl rfl)).mpr called⟩
  case start_event =>
    exact fun called => course.start_event ((call_mem_step closing (Or.inl rfl)).mp called)
  case invocation_event =>
    intro invocation made called
    rw [call_mem_step closing (Or.inl rfl),
      call_mem_step closing (Or.inr rfl)] at called
    exact course.invocation_event called
  case vetted =>
    intro invocation made called
    rw [call_mem_step closing (Or.inr rfl)] at called
    exact (call_mem_step closing (Or.inl rfl)).mpr (course.vetted called)
  case unreadable =>
    exact fun event reached =>
      ((stepped_mem course closing).mp reached).trans (course.unreadable_event event)
  case dispatched =>
    intro descriptor exec step event names reached
    rcases course.dispatched event names with ⟨invocation, made, called⟩ | unknown
    · exact Or.inl ⟨invocation, made, (call_mem_step closing (Or.inl rfl)).mpr called⟩
    · exact Or.inr (((stepped_mem course closing).mp reached).trans unknown)
  case call_failed =>
    intro call halt failed place
    rw [call_mem_step closing place] at failed
    exact (stepped_mem course closing).mpr (course.call_failed failed).symm
  case step_failed =>
    intro halt failed
    rcases course.step_failed ((stepped_mem course closing).mp failed).symm with
      ⟨call, made⟩ | fault | unknown | ⟨event, unsound⟩
    · have place := course.placed.1 _ made
      exact Or.inl ⟨call, (call_mem_step closing place).mpr made, place⟩
    · exact Or.inr (Or.inl fault)
    · exact Or.inr (Or.inr (Or.inl unknown))
    · refine Or.inr (Or.inr (Or.inr ⟨page, event, ?_, fun ok => unsound (sound ok)⟩))
      simp [steppedCourse]
  case errored_iff =>
    intro error
    simp only [call_mem_closing course (show (Call.errored error).place = 3 from rfl)]
    rw [closing.errored_iff, stepped_mem course closing, eq_comm]
  case errored_outcome =>
    exact fun told => closing.errored_outcome ((call_mem_closing course rfl).mp told)
  case errored_failed =>
    exact fun failed => closing.errored_failed ((call_mem_closing course rfl).mp failed)
  case brokeDown =>
    intro broke
    rw [← (stepped_mem course closing).mp broke] at closing
    exact closing.broke
  case finish_iff =>
    simp only [call_mem_closing course (show Call.finish.place = 3 from rfl)]
    rw [closing.finish_iff, stepped_mem course closing, @eq_comm _ (Except.ok ())]
  case finish_failed =>
    exact fun failed => closing.finish_failed ((call_mem_closing course rfl).mp failed)

end

theorem PageCourse.orderly {request : Request} {whole : Bool} {course : List Note}
    {outcome : Ending} (page : PageCourse request whole course outcome) :
    Orderly request whole course outcome := by
  cases page with
  | uninitialized => constructor <;> simp [begun, Call.place, Stage.place]
  | unbound => constructor <;> simp [begun, Call.place, Stage.place]
  | stepped sound steps closing => exact orderly_steppedCourse sound steps closing

theorem PageCourse.ne_nil {request : Request} {whole : Bool} {course : List Note}
    {outcome : Ending} (page : PageCourse request whole course outcome) : course ≠ [] := by
  cases page <;> simp [steppedCourse, begun]

/-- On every path through a request with a context, delivered or left open for its maker to
finish, hooks and handlers are called in a legal order. Where nothing at all is called, there is
no page. -/
theorem render_orderly {σ ω : Type} (app : Application σ ω) (name markup : String)
    (request : Request) (given : Option (Instance σ ω)) (store : Store σ ω) :
    (∃ course result after,
      Traces (app.renderMarkup name markup (some request) given)
        (Recorded.renderMarkup app name markup (some request) given) store course result after ∧
      Orderly request (!request.expectsPanel) course (ending result) ∧
      (course = [] → ∀ outcome, result = .ok outcome → outcome = .passThrough markup)) ∧
    ∃ course result after,
      Traces (app.openMarkup name markup request given)
        (Recorded.openMarkup app name markup request given) store course result after ∧
      Orderly request false course (ending result) ∧
      (course = [] → ∀ opened, result = .ok opened → opened = .passThrough markup) := by
  constructor
  · obtain ⟨course, result, after, traces, ⟨rfl, plain⟩ | ⟨asked, same, page⟩⟩ :=
      Recorded.exists_renderMarkup app name markup (some request) given store
    · exact ⟨[], result, after, traces, .nil _ _ _, fun _ => plain⟩
    · cases same
      exact ⟨course, result, after, traces, page.orderly, fun none => absurd none page.ne_nil⟩
  · obtain ⟨course, result, after, traces, cases⟩ :=
      Recorded.exists_openMarkup app name markup request given store
    rcases cases with ⟨rfl, plain⟩ | ⟨halt, rfl, page⟩ | ⟨active, panel, rfl, _, page⟩
    · exact ⟨[], result, after, traces, .nil _ _ _, fun _ => plain⟩
    · have page := page false
      exact ⟨course, .error halt, after, traces, page.orderly,
        fun none => absurd none page.ne_nil⟩
    · have page := page false [] (.ok ()) (.left rfl)
      rw [List.append_nil] at page
      exact ⟨course, .ok (.page active panel), after, traces, page.orderly,
        fun none => absurd none page.ne_nil⟩

end ServerPages
