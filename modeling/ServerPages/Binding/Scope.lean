import ServerPages.Document.Match

/-!
# Event scopes

A click belongs to an update panel or to a form of the server. The nearest panel
around the element comes first; an element outside of panels may name one with the
attribute `for`, its own or that of an element around it. Without a panel that can
be named by an `id`, the click belongs to the form around the element.
-/

namespace ServerPages

inductive EventScope
  | panel (node : NodeId) (id : String)
  | form (node : NodeId)
  deriving DecidableEq, Repr

namespace EventScope

def node : EventScope → NodeId
  | .panel node _ => node
  | .form node => node

def panelId? : EventScope → Option String
  | .panel _ id => some id
  | .form _ => none

end EventScope

namespace Match

def updatePanel : Match := Match.any.eq "updatepanel" "true"

def serverForm : Match := (Match.tagged "form").eq "runat" "server"

end Match

namespace Document

/-- The first update panel with an `id`. -/
def panelById (doc : Document) (id : String) : Option NodeId :=
  doc.find ((Match.any.eq "id" id).eq "updatepanel" "true")

def panelScope (doc : Document) (id : String) : Option EventScope :=
  (doc.panelById id).map (.panel · id)

def formScope (doc : Document) (id : NodeId) : Option EventScope :=
  (doc.closest id .serverForm).map .form

/-- The scope of the panel that an element's own attribute `for` names. -/
def ownReference (doc : Document) (id : NodeId) : Option EventScope :=
  (doc.attr? id "for").bind doc.panelScope

/-- The scope of the panel that the nearest attribute `for` names. -/
def nearestReference (doc : Document) (id : NodeId) : Option EventScope :=
  (doc.closest id (Match.any.has "for")).bind doc.ownReference

/-- What a click on an element belongs to, if it belongs to anything. -/
def eventScope (doc : Document) (id : NodeId) : Option EventScope :=
  match doc.closest id .updatePanel with
  | some panel =>
      match doc.attr? panel "id" with
      | some name => some (.panel panel name)
      | none => doc.formScope id
  | none => doc.ownReference id <|> doc.nearestReference id <|> doc.formScope id

end Document

end ServerPages
