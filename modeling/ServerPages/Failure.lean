import ServerPages.Document.Basic
import ServerPages.Event.Descriptor

/-!
# What can go wrong with a page

A failure of application code is a message with its causes, the outermost first. A
page fails for one of a fixed set of reasons, some of which hold such a failure. Each
has a message for the log; clients are told less of what went wrong within hooks and
handlers, namely the outermost message alone.
-/

namespace ServerPages

open Text

structure Failure where
  message : String
  causes : List String
  deriving DecidableEq, Repr

namespace Failure

def of (message : String) : Failure := ⟨message, []⟩

/-- The failure in the light of a more general message. -/
def context (failure : Failure) (message : String) : Failure :=
  ⟨message, failure.message :: failure.causes⟩

/-- The message with all causes. -/
def full (failure : Failure) : String :=
  ": ".intercalate (failure.message :: failure.causes)

end Failure

inductive PageError
  | controllerNotFound (name tried : String)
  | controllerLoad (name : String) (failure : Failure)
  | notAController (name : String)
  | scope (element : String)
  | handlerNotFound (name : String)
  | handlerExecution (handler : String) (failure : Failure)
  | lifecycle (hook : String) (failure : Failure)
  | argumentMismatch (handler message : String)
  | invalidDescriptor (fault : DescriptorFault)
  | unknownElement (id : String)
  | noDocument
  | view (name : String) (failure : Failure)
  | document (error : EditError)
  | other (failure : Failure)
  deriving DecidableEq

namespace Json.Fault

def message : Json.Fault → String
  | .malformed => "malformed JSON text"
  | .endsEarly => "JSON text ends early"
  | .misfit => "JSON text of another shape"

end Json.Fault

namespace DescriptorFault

def message : DescriptorFault → String
  | .text fault => fault.message
  | .value message => message

end DescriptorFault

namespace PageError

def named (name : String) : String := "\"" ++ name ++ "\""

def message : PageError → String
  | .controllerNotFound name tried =>
      "controller " ++ named name ++ " not found (tried " ++ tried ++ ")"
  | .controllerLoad name failure => "loading controller " ++ named name ++ ": " ++ failure.full
  | .notAController name =>
      "module " ++ named name ++ " is a partial controller and can't be used for a page"
  | .scope element =>
      "element " ++ element ++ " with server click must be enclosed inside " ++
        "a form or update panel running at the server"
  | .handlerNotFound name => "Function " ++ name ++ " not found in codebehind"
  | .handlerExecution handler failure =>
      "handler " ++ named handler ++ " failed: " ++ failure.full
  | .lifecycle hook failure => hook ++ " hook failed: " ++ failure.full
  | .argumentMismatch handler message =>
      "arguments for handler " ++ named handler ++ ": " ++ message
  | .invalidDescriptor fault => "invalid event descriptor: " ++ fault.message
  | .unknownElement id => "no server-bound element with id " ++ quoted id
  | .noDocument => "page has no document (API invocation)"
  | .view name failure => "view " ++ quoted name ++ ": " ++ failure.full
  | .document error => "document: " ++ error.message
  | .other failure => failure.message

def clientMessage : PageError → String
  | .handlerExecution _ failure => failure.message
  | .lifecycle _ failure => failure.message
  | error => error.message

def toFailure : PageError → Failure
  | .document error => ⟨(PageError.document error).message, [error.message]⟩
  | .other failure => failure
  | error => .of error.message

end PageError

end ServerPages
