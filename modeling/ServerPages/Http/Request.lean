import ServerPages.Json.Reader
import ServerPages.Request
import ServerPages.Text.Utf8
import ServerPages.Url.Form

/-!
# Requests as they are sent

A request is sent as a method, an address, headers and the bytes of a body. The path
is mended where it is not well formed, a query that is not well formed is refused.
The header `Content-Type` decides how the body is read: as JSON, which has to be well
formed, as the fields of a form, or not at all.
-/

namespace ServerPages.Http

open Text

structure RawRequest where
  method : String
  address : String
  headers : List (String × String)
  body : List UInt8

namespace RawRequest

/-- The path and the query of an address, parted by the first question mark. -/
def parts (raw : RawRequest) : List Char × List Char :=
  let (path, query) := splitOnce '?' raw.address.toList
  (path, query.getD [])

def path (raw : RawRequest) : String :=
  Url.decodeLossy (Utf8.encode (String.ofList raw.parts.1))

def query? (raw : RawRequest) : Option (Dictionary String) :=
  Url.parseQuery? (String.ofList raw.parts.2)

/-- The value of the first header of a name, in either case. -/
def header? (raw : RawRequest) (name : String) : Option String :=
  (raw.headers.find? fun header => equalUpToCase header.1 name).map (·.2)

inductive BodyFormat
  | json
  | form
  | other
  deriving DecidableEq, Repr

def startsWith (text start : String) : Bool :=
  (afterStart? start.toList text.toList).isSome

/-- How the body is read: the start of the content type decides. -/
def bodyFormat (raw : RawRequest) : BodyFormat :=
  let contentType := (raw.header? "Content-Type").getD ""
  if startsWith contentType "application/json" then .json
  else if startsWith contentType "application/x-www-form-urlencoded" then .form
  else .other

def jsonBody? (raw : RawRequest) : Option Json := do
  let text ← Utf8.decode? raw.body
  match Json.read text with
  | .ok value => some value
  | .error _ => none

def request? (raw : RawRequest) : Option Request := do
  let query ← raw.query?
  let request := { Request.bare (Method.ofName raw.method) raw.path with query }
  match raw.bodyFormat with
  | .json => return request.withJsonBody (← raw.jsonBody?)
  | .form =>
      return (Url.parseForm raw.body).foldl
        (fun request field => request.withField field.1 (.str field.2)) request
  | .other => return request

end RawRequest

end ServerPages.Http
