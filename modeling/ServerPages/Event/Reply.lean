import ServerPages.Json.Decode

/-!
# Replies to update panels

The script of a page that asked for the new contents of an update panel gets them
as JSON, or the reason why there are none.
-/

namespace ServerPages

open Json

/-- The new contents of an update panel, or why there are none. -/
structure PanelReply where
  success : Bool
  html : Option String
  panelId : Option String
  error : Option String
  deriving DecidableEq, Repr

namespace PanelReply

def panel (panelId html : String) : PanelReply :=
  ⟨true, some html, some panelId, none⟩

def failure (error : String) : PanelReply :=
  ⟨false, none, none, some error⟩

/-- The reply where the page has no such panel. -/
def notFound : PanelReply :=
  failure "UpdatePanel not found"

/-- The members of a reply's object; absent parts are left out. -/
def members (reply : PanelReply) : List (String × Json) :=
  let part (key : String) (text : Option String) : List (String × Json) :=
    (text.map fun text => (key, Json.str text)).toList
  ("success", .bool reply.success) :: part "html" reply.html ++ part "panelId" reply.panelId ++
    part "error" reply.error

def render (reply : PanelReply) : String :=
  (Json.obj reply.members).render

def textAt (items : List Json) (place : Nat) : Except String (Option String) :=
  match items[place]? with
  | some item => asOptional asText item
  | none => .ok none

/-- The reply that a value stands for. Of an object's members the first of the wrong kind, in order
of their names, decides the message. -/
def ofJson (value : Json) : Except String PanelReply :=
  match value with
  | .obj members => do
      let text (key : String) : Except String (Option String) :=
        asOptional asText (value.member key)
      let error ← text "error"
      let html ← text "html"
      let panelId ← text "panelId"
      match Dictionary.find? "success" members with
      | some flag => return ⟨← asBool flag, html, panelId, error⟩
      | none => .error (missingMember "success")
  | .arr items =>
      match items with
      | [] => .error "invalid length 0, expected struct PartialResponse with 4 elements"
      | flag :: _ => do
          let success ← asBool flag
          let html ← textAt items 1
          let panelId ← textAt items 2
          let error ← textAt items 3
          if 4 < items.length then .error (tooLong items.length)
          else return ⟨success, html, panelId, error⟩
  | _ => .error (wrongType value "struct PartialResponse")

end PanelReply

end ServerPages
