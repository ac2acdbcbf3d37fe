import ServerPages.Http.Request
import ServerPages.Http.Response
import ServerPages.Text.Blank
import ServerPages.Text.Integer

/-!
# Messages

A request on the wire is a line with the method and the address, a line for each
header, an empty line, and as many bytes of a body as the header `Content-Length`
says. A response has the same form, with its status in the first line.
-/

namespace ServerPages.Http

open Text

namespace RawRequest

def headerOfLine (line : String) : String × String :=
  let (name, value) := splitOnce ':' line.toList
  (trim (String.ofList name), trim (String.ofList (value.getD [])))

def ofHead? (first : String) (headers : List String) : Option RawRequest :=
  match splitAt ' ' (trim first).toList with
  | method :: address :: _ =>
      some ⟨String.ofList method, String.ofList address, headers.map headerOfLine, []⟩
  | _ => none

def bodyLength (raw : RawRequest) : Nat :=
  match readInteger .unsigned64 ((raw.header? "Content-Length").getD "0") with
  | .ok n => n.toNat
  | .error _ => 0

end RawRequest

namespace Response

def headerLine (name value : String) : String :=
  name ++ ": " ++ value ++ "\r\n"

def message (response : Response) : String :=
  "HTTP/1.1 " ++ decimal response.status.code ++ " " ++ response.status.title ++ "\r\n" ++
    String.join (response.headers.map fun header => headerLine header.1 header.2) ++
    headerLine "Content-Length" (decimal (Utf8.size response.body)) ++ "\r\n" ++ response.body

end Response

end ServerPages.Http
