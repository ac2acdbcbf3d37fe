import ServerPages.Controller.Parameters
import ServerPages.Page.Basic

/-!
# Handlers

A controller has a state of its own for each request, works on a page, and may change
what all requests share. Its methods for clients are handlers, known by name; a handler
that scripts may call directly says so.
-/

namespace ServerPages

/-- What a controller works on: its own state, the page, and what all requests share. -/
structure Live (σ ω : Type) where
  object : σ
  page : Page
  shared : ω

/-- What application code does; it may fail or break down. -/
abbrev Work (σ ω : Type) : Type → Type := Procedure (Live σ ω) (Halt Failure)

structure ServerEvent where
  /-- The element that was clicked, if the event came from one. -/
  source : Option NodeId
  descriptor : Descriptor

structure HandlerInfo where
  name : String
  /-- The number of parameters, or none for any number. -/
  arity : Option Nat
  /-- The class or mixin that the handler comes from. -/
  owner : String
  /-- Whether scripts may call the handler. -/
  callable : Bool
  deriving DecidableEq, Repr

/-- A method for clients. Its value is none where it would be null. -/
structure Handler (σ ω : Type) where
  info : HandlerInfo
  invoke : ServerEvent → List Json → Procedure (Live σ ω) (Halt PageError) (Option Json)

namespace Work

variable {σ ω α : Type}

def onPage (procedure : Procedure Page PageError α) : Work σ ω α :=
  .within (·.page) (fun page live => { live with page }) <|
    procedure.mapError fun error => .failed error.toFailure

def fail (failure : Failure) : Work σ ω α :=
  throw (.failed failure)

def breakDown : Work σ ω α :=
  throw .brokeDown

end Work

namespace Handler

variable {σ ω α : Type}

def of (owner name : String) (callable : Bool) (parameters : Parameters α)
    (body : ServerEvent → α → Work σ ω Json) : Handler σ ω where
  info := { name, arity := parameters.arity, owner, callable }
  invoke event args :=
    match parameters.ofArguments args with
    | .error message => throw (.failed (.argumentMismatch name message))
    | .ok values => do
        let value ← (body event values).mapError (.map (.handlerExecution name))
        return if value.isNull then none else some value

end Handler

end ServerPages
