import ServerPages.Forest
import ServerPages.Markup.ElementName

/-!
# Documents

A document is a forest of nodes whose first node is the document itself. Elements
keep their attributes in order; raw text is text that is written without
references, as in scripts. Nodes that were taken out of the document stay in the
forest and may be put back.

Only the document and elements take children. An edit that is refused says why and
leaves no trace.
-/

namespace ServerPages

structure Element where
  name : String
  attributes : List (String × String)
  deriving DecidableEq, Repr

namespace Element

/-- The value of the first attribute of a name. -/
def attr? (element : Element) (name : String) : Option String :=
  (element.attributes.find? (·.1 = name)).map (·.2)

def setIn (name value : String) : List (String × String) → List (String × String)
  | [] => [(name, value)]
  | (key, old) :: rest =>
      if key = name then (key, value) :: rest else (key, old) :: setIn name value rest

/-- Sets an attribute; one that is present keeps its place. -/
def setAttr (element : Element) (name value : String) : Element :=
  { element with attributes := setIn name value element.attributes }

/-- Removes the first attribute of a name. -/
def removeAttr (element : Element) (name : String) : Element :=
  { element with attributes := element.attributes.eraseP (·.1 = name) }

theorem find?_setIn (name value other : String) (pairs : List (String × String)) :
    ((setIn name value pairs).find? (·.1 = other)).map (·.2) =
      if name = other then some value else (pairs.find? (·.1 = other)).map (·.2) := by
  induction pairs with
  | nil => by_cases h : name = other <;> simp [setIn, h]
  | cons pair rest ih =>
      obtain ⟨key, old⟩ := pair
      simp only [setIn]
      by_cases here : key = name
      · subst here
        by_cases h : key = other <;> simp [h]
      · by_cases hit : key = other
        · subst hit
          simp [here, Ne.symm here]
        · simp only [here, ↓reduceIte, List.find?_cons, hit, decide_false]
          exact ih

/-- Reading an attribute after setting one. -/
theorem attr?_setAttr (element : Element) (name value other : String) :
    (element.setAttr name value).attr? other =
      if name = other then some value else element.attr? other :=
  find?_setIn name value other element.attributes

end Element

inductive NodeKind
  | document
  | doctype (name : String)
  | element (element : Element)
  | text (content : String)
  | raw (content : String)
  | comment (content : String)
  deriving DecidableEq, Repr

/-- Nodes of a document, the document itself first. -/
abbrev Document := Forest NodeKind

inductive EditError
  | notAnElement (id : NodeId)
  | cycle (child : NodeId)
  deriving DecidableEq, Repr

namespace NodeId

def shown (id : NodeId) : String :=
  "NodeId(" ++ Text.decimal id.index ++ ")"

end NodeId

namespace EditError

def message : EditError → String
  | .notAnElement id => "node " ++ id.shown ++ " is not an element"
  | .cycle child => "can't append " ++ child.shown ++ " to itself or one of its descendants"

end EditError

namespace Document

def empty : Document := Forest.single .document

def root : NodeId := Forest.root

def element? (doc : Document) (id : NodeId) : Option Element :=
  match doc.kind? id with
  | some (.element element) => some element
  | _ => none

def isElement (doc : Document) (id : NodeId) : Bool :=
  (doc.element? id).isSome

def tagName? (doc : Document) (id : NodeId) : Option String :=
  (doc.element? id).map (·.name)

def attr? (doc : Document) (id : NodeId) (name : String) : Option String :=
  (doc.element? id).bind (·.attr? name)

def hasAttr (doc : Document) (id : NodeId) (name : String) : Bool :=
  (doc.attr? id name).isSome

def takesChildren (doc : Document) (id : NodeId) : Bool :=
  match doc.kind? id with
  | some .document | some (.element _) => true
  | _ => false

def ownText (doc : Document) (id : NodeId) : String :=
  match doc.kind? id with
  | some (.text content) | some (.raw content) => content
  | _ => ""

/-- The text of a node and of all nodes below it. -/
def text (doc : Document) (id : NodeId) : String :=
  String.join ((id :: doc.descendants id).map doc.ownText)

end Document

end ServerPages
