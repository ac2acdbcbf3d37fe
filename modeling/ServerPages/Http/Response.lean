import ServerPages.Json.Writer
import ServerPages.Markup.Escape

/-!
# Responses

A response is a status, its headers and a body. Pages are sent as markup, values
as JSON; a status has a page of its own that explains it.
-/

namespace ServerPages.Http

inductive Status
  | ok
  | notFound
  | methodNotAllowed
  | internalServerError
  deriving DecidableEq, Repr

namespace Status

def code : Status → Nat
  | .ok => 200
  | .notFound => 404
  | .methodNotAllowed => 405
  | .internalServerError => 500

def title : Status → String
  | .ok => "OK"
  | .notFound => "Not Found"
  | .methodNotAllowed => "Method Not Allowed"
  | .internalServerError => "Internal Server Error"

def description : Status → String
  | .ok => ""
  | .notFound => "The requested resource could not be found on this server."
  | .methodNotAllowed => "The request method is not supported for this resource."
  | .internalServerError => "The server encountered an error processing your request."

/-- The status of a number; numbers of no status stand for a failure of the server. -/
def ofCode (n : Nat) : Status :=
  if n = 200 then .ok
  else if n = 404 then .notFound
  else if n = 405 then .methodNotAllowed
  else .internalServerError

theorem ofCode_code (status : Status) : ofCode status.code = status := by
  cases status <;> rfl

end Status

structure Response where
  status : Status
  headers : List (String × String)
  body : String
  deriving DecidableEq, Repr

namespace Response

def html (status : Status) (markup : String) : Response :=
  ⟨status, [("Content-Type", "text/html; charset=utf-8")], markup⟩

def json (status : Status) (text : String) : Response :=
  ⟨status, [("Content-Type", "application/json; charset=utf-8")], text⟩

def page (status : Status) : Response :=
  html status ("<html><head><title>" ++ status.title ++ "</title></head><body><h1>" ++
    status.title ++ "</h1><p>" ++ Markup.escape status.description ++ "</p></body></html>\n")

end Response

end ServerPages.Http
