import ServerPages.Binding.Scope
import ServerPages.Document.Procedure
import ServerPages.Request

/-!
# Filling pages with fields

The fields of a request become the values of the elements of their names that run at
the server. Fields of a query are for elements outside of forms that post; fields of a
body are for elements outside of forms that get, and for those in update panels, which
always post. Fields of the body come last.
-/

namespace ServerPages.Document

def fieldMatch (name : String) : Match :=
  (Match.any.eq "name" name).eq "runat" "server"

/-- The method of the form around an element in small letters, if there is a form. -/
def formMethod (doc : Document) (node : NodeId) : Option String :=
  (doc.closest node (.tagged "form")).map fun form => ((doc.attr? form "method").getD "get").toLower

def inUpdatePanel (doc : Document) (node : NodeId) : Bool :=
  (doc.closest node .updatePanel).isSome

def takesQuery (doc : Document) (node : NodeId) : Bool :=
  doc.formMethod node ≠ some "post"

def takesBody (doc : Document) (node : NodeId) : Bool :=
  doc.formMethod node ≠ some "get" || doc.inUpdatePanel node

/-- Writes a value to those of some elements that take it; the number of them. -/
def setValues (takes : Document → NodeId → Bool) (value : String) (nodes : List NodeId) :
    Procedure Document PageError Nat :=
  nodes.foldlM
    (fun count node => do
      if takes (← get) node then
        edit fun doc => doc.setAttr node "value" value
        return count + 1
      else return count)
    0

def setField (takes : Document → NodeId → Bool) (name value : String) :
    Procedure Document PageError Nat := do
  setValues takes value ((← get).findAll (fieldMatch name))

/-- Writes fields one after the other; the number of elements that were written. -/
def setFields (takes : Document → NodeId → Bool) (fields : Dictionary String) :
    Procedure Document PageError Nat :=
  fields.foldlM (fun count field => do return count + (← setField takes field.1 field.2)) 0

def populate (request : Request) : Procedure Document PageError Nat := do
  let fromQuery ← setFields takesQuery request.query
  let fromBody ← setFields takesBody (request.body.map fun (name, value) => (name, value.fieldText))
  return fromQuery + fromBody

end ServerPages.Document
