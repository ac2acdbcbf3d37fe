import ServerPages.Binding.Carrier
import ServerPages.Binding.Scope
import ServerPages.Binding.Script

/-!
# Binding clicks

Elements that run at the server and have a click expression are marked by a running
number in document order; each server call of an expression is replaced by a call of
the generated script. An element that belongs to no scope is refused. The changes
made until then stay.
-/

namespace ServerPages

namespace Binding

/-- The attribute that marks a bound element. -/
def markName : String := "__element_xid"

def mark (number : Nat) : String :=
  markName ++ Text.decimal number

/-- Elements with a click expression that run at the server. -/
def interactive : Match :=
  (Match.any.has "onclick").eq "runat" "server"

def describe (doc : Document) (node : NodeId) : String :=
  let tag := (doc.tagName? node).getD "?"
  match doc.attr? node "id", doc.attr? node "name" with
  | some id, _ => "<" ++ tag ++ " id=" ++ Text.quoted id ++ ">"
  | none, some name => "<" ++ tag ++ " name=" ++ Text.quoted name ++ ">"
  | none, none => "<" ++ tag ++ ">"

structure BoundElement where
  events : List ClientEvent
  listener : Listener
  deriving DecidableEq, Repr

def takeAttr (node : NodeId) (name : String) :
    Procedure BindingState PageError (Option String) := do
  let state ← get
  set { state with doc := state.doc.removeAttr node name }
  return state.doc.attr? node name

/-- The calls of a click expression, and the expression with the calls replaced. -/
def bindExpression (expression : String) (event : Nat → Click.Call → ClientEvent) :
    List ClientEvent × String :=
  let calls := Click.calls (Click.pieces expression.toList)
  (calls.zipIdx.map fun (call, place) => event place call,
    Click.replaceCalls expression fun place call => (event place call).replacement)

def bindElement (node : NodeId) (number : Nat) : Procedure BindingState PageError BoundElement := do
  let mark := mark number
  Carrier.edit fun doc => doc.setAttr node markName mark
  let doc := (← get).doc
  match doc.eventScope node with
  | none => throw (.scope (describe doc node))
  | some scope =>
      let carrier ← Carrier.ensure scope.node
      let expression ← takeAttr node "onclick"
      let afterwards ← takeAttr node "postclick"
      let doc := (← get).doc
      let event (place : Nat) (call : Click.Call) : ClientEvent :=
        { mark, place, id := doc.attr? node "id", name := doc.attr? node "name",
          panel := scope.panelId?, carrier, call }
      let (events, expression) := bindExpression (expression.getD "") event
      return ⟨events, mark, expression, afterwards.filter (· ≠ "")⟩

/-- A table with an entry at its end unless it has one with the same key. -/
def addMissing {α : Type} (key : α → String) (table : List α) (entry : α) : List α :=
  if table.any fun other => key other == key entry then table else table ++ [entry]

/-- The table of entries that are added in order; of entries with one key the first is kept. -/
def tableOf {α : Type} (key : α → String) (entries : List α) : List α :=
  entries.foldl (addMissing key) []

/-- The methods that get a stub: those that scripts may call, then those that clicks call, each
once and in order. -/
def stubbed (callable : List String) (events : List ClientEvent) : List String :=
  tableOf id (callable ++ events.map (·.call.method))

/-- Binds all interactive elements of a document; `callable` are the methods that scripts may
call. -/
def bindAll (callable : List String) : Procedure BindingState PageError ClientCode := do
  let nodes := (← get).doc.findAll interactive
  let bound ← nodes.zipIdx.mapM fun (node, number) => bindElement node number
  let events := bound.flatMap (·.events)
  return ⟨stubbed callable events, tableOf ClientEvent.key events, bound.map (·.listener)⟩

end Binding

namespace Document

def bind (callable : List String) : Procedure Document PageError ClientCode :=
  .within (⟨·, 0⟩) (fun state _ => state.doc) (Binding.bindAll callable)

end Document

end ServerPages
