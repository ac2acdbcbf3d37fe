import ServerPages.Document.Edit
import ServerPages.Document.Match
import ServerPages.Failure
import ServerPages.Procedure

/-!
# Carriers

The carrier of a scope is the hidden input below it that takes an event along with
the fields. A scope has one carrier, which is added when a click first needs it;
carriers are told apart by an `id` with a running number.
-/

namespace ServerPages

/-- A document that elements are being bound in, and the number of carriers that were named. -/
structure BindingState where
  doc : Document
  carriers : Nat

namespace Carrier

/-- The hidden inputs that are carriers. -/
def wanted : Match :=
  ((Match.tagged "input").eq "type" "hidden").eq "name" Descriptor.fieldName

def newId (number : Nat) : String :=
  Descriptor.fieldName ++ Text.decimal number

def element (id : String) : Element :=
  ⟨"input", [("type", "hidden"), ("name", Descriptor.fieldName), ("id", id)]⟩

def edit (change : Document → Except EditError Document) :
    Procedure BindingState PageError Unit :=
  .step fun state =>
    match change state.doc with
    | .ok doc => .ok { state with doc }
    | .error error => .error (.document error)

def takeId : Procedure BindingState PageError String := do
  let state ← get
  set { state with carriers := state.carriers + 1 }
  return newId state.carriers

def create (element : Element) : Procedure BindingState PageError NodeId := do
  let state ← get
  let (node, doc) := state.doc.create (.element element)
  set { state with doc }
  return node

/-- The `id` of a scope's carrier. One without an `id` gets one; a scope without a carrier gets one
as its last child. -/
def ensure (scope : NodeId) : Procedure BindingState PageError String := do
  let doc := (← get).doc
  match doc.findIn scope wanted with
  | some carrier =>
      match doc.attr? carrier "id" with
      | some id => return id
      | none =>
          let id ← takeId
          edit fun doc => doc.setAttr carrier "id" id
          return id
  | none =>
      let id ← takeId
      let carrier ← create (element id)
      edit fun doc => doc.appendChild scope carrier
      return id

end Carrier

end ServerPages
