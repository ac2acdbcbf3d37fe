import ServerPages.Application
import ServerPages.Path

/-!
# Routes

A path leads to a view or to a controller that is attached to it. Paths with the same
segments are the same path, and the first route of a path stays. Where routes are made,
a path without a route leads to the view of its name, if there is one.

An attached controller answers calls of scripts itself; any other request renders its
view as its page.
-/

namespace ServerPages

inductive Route (σ ω : Type)
  | view (name : String)
  | attached (controller : Controller σ ω)

namespace Route

def shown {σ ω : Type} : Route σ ω → String
  | .view name => "View(" ++ Text.quoted name ++ ")"
  | .attached controller => "Attach(" ++ Text.quoted controller.name ++ ")"

end Route

structure Routes (σ ω : Type) where
  /-- The routes by the canonical form of their paths. -/
  table : Dictionary (Route σ ω)
  /-- Whether paths without a route lead to the views of their names. -/
  makeRoutes : Bool

inductive Handled
  | page (result : Except PageError Outcome)
  | call (result : Except PageError Json)

namespace Routes

variable {σ ω : Type}

def empty (makeRoutes : Bool) : Routes σ ω := ⟨[], makeRoutes⟩

def find? (routes : Routes σ ω) (path : String) : Option (Route σ ω) :=
  routes.table.find? (Path.routeKey path)

def size (routes : Routes σ ω) : Nat :=
  routes.table.length

def taken (path : String) (route : Route σ ω) : String :=
  "already contained an entry for " ++ Text.quoted path ++ ": " ++ route.shown

/-- Adds a route to a path that has none. -/
def add (routes : Routes σ ω) (path : String) (route : Route σ ω) :
    Except String (Routes σ ω) :=
  match routes.find? path with
  | some old => .error (taken path old)
  | none => .ok { routes with table := routes.table.put (Path.routeKey path) route }

/-- The view that a path without a route leads to. -/
def madeView? (routes : Routes σ ω) (views : Views) (path : String) : Option String :=
  if routes.makeRoutes then (Path.viewName? path).filter views.has else none

end Routes

namespace Application

variable {σ ω : Type}

def renderAttached (app : Application σ ω) (controller : Controller σ ω) (request : Request) :
    Procedure (Store σ ω) (Halt PageError) Outcome :=
  match controller.view with
  | none =>
      throw <| .failed <| .view controller.name <|
        .of ("attached controller " ++ controller.name ++ " has no view")
  | some view => do
      let active ← create controller request
      app.render view (some request) (some active)

/-- What a procedure comes to, unless it breaks down. -/
def settled {τ α : Type} (procedure : Procedure τ (Halt PageError) α) :
    Procedure τ Breakdown (Except PageError α) :=
  .ofRun fun state =>
    match procedure.runFrom state with
    | (.ok value, state) => (.ok (.ok value), state)
    | (.error (.failed error), state) => (.ok (.error error), state)
    | (.error .brokeDown, state) => (.error .brokeDown, state)

def answerPage (procedure : Procedure (Store σ ω) (Halt PageError) Outcome) :
    Procedure (Store σ ω) Breakdown (Option Handled) := do
  return some (.page (← settled procedure))

def answerAttached (app : Application σ ω) (controller : Controller σ ω) (request : Request) :
    Procedure (Store σ ω) Breakdown (Option Handled) := do
  if isCall controller request then return some (.call (← settled (call controller request)))
  else answerPage (app.renderAttached controller request)

/-- Answers a request, if its path leads anywhere. -/
def dispatch (app : Application σ ω) (routes : Routes σ ω) (request : Request) :
    Procedure (Store σ ω) Breakdown (Option Handled) :=
  match routes.find? request.path with
  | some (.view name) => answerPage (app.render name (some request) none)
  | some (.attached controller) => app.answerAttached controller request
  | none =>
      match routes.madeView? app.views request.path with
      | some name => answerPage (app.render name (some request) none)
      | none => pure none

end Application

end ServerPages
