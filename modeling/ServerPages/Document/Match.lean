import ServerPages.Document.Basic

/-!
# Finding elements

A match asks for a name and for attributes, present or of a given value. Searches
go through the nodes below a scope in document order, or up from a node.
-/

namespace ServerPages

/-- What is asked of an element: its name, and its attributes with their values where these
count. -/
structure Match where
  tag : Option String
  attributes : List (String × Option String)
  deriving DecidableEq, Repr

namespace Match

def any : Match := ⟨none, []⟩

/-- Elements of a name, in either case. -/
def tagged (name : String) : Match := ⟨some name, []⟩

def has (wanted : Match) (name : String) : Match :=
  { wanted with attributes := wanted.attributes ++ [(name, none)] }

def eq (wanted : Match) (name value : String) : Match :=
  { wanted with attributes := wanted.attributes ++ [(name, some value)] }

/-- Whether an element has an attribute, of the given value where that counts. -/
def meets (element : Element) (test : String × Option String) : Bool :=
  match element.attr? test.1, test.2 with
  | none, _ => false
  | some _, none => true
  | some value, some wanted => value == wanted

def accepts (wanted : Match) (element : Element) : Bool :=
  (wanted.tag.map (Text.equalUpToCase element.name)).getD true &&
    wanted.attributes.all (meets element)

def holds (wanted : Match) (doc : Document) (id : NodeId) : Bool :=
  ((doc.element? id).map wanted.accepts).getD false

end Match

namespace Document

/-- The elements below a scope that are asked for, in document order. -/
def findAllIn (doc : Document) (scope : NodeId) (wanted : Match) : List NodeId :=
  (doc.descendants scope).filter (wanted.holds doc)

def findAll (doc : Document) (wanted : Match) : List NodeId :=
  doc.findAllIn root wanted

/-- The first of the waiting nodes or of those below them that meets a condition; a walk that ends
with it. -/
def search (doc : Document) (wanted : NodeId → Bool) : Nat → List NodeId → Option NodeId
  | 0, _ => none
  | _ + 1, [] => none
  | steps + 1, id :: waiting =>
      if wanted id then some id else search doc wanted steps (doc.children id ++ waiting)

def findIn (doc : Document) (scope : NodeId) (wanted : Match) : Option NodeId :=
  search doc (wanted.holds doc) doc.size (doc.children scope)

def find (doc : Document) (wanted : Match) : Option NodeId :=
  doc.findIn root wanted

theorem search_eq_find? (doc : Document) (wanted : NodeId → Bool) (steps : Nat)
    (waiting : List NodeId) :
    doc.search wanted steps waiting = (doc.walk steps waiting).find? wanted := by
  induction steps generalizing waiting with
  | zero => simp [search, Forest.walk]
  | succ steps ih =>
      cases waiting with
      | nil => simp [search, Forest.walk]
      | cons id waiting =>
          simp only [search, Forest.walk, List.find?_cons]
          split <;> simp_all

/-- The nearest element that is asked for, from a node upwards, itself included. -/
def closest (doc : Document) (id : NodeId) (wanted : Match) : Option NodeId :=
  (doc.inclusiveAncestors id).find? (wanted.holds doc)

def firstNamed (doc : Document) (name : String) : Option NodeId :=
  doc.find (.tagged name)

def head (doc : Document) : Option NodeId := doc.firstNamed "head"

def body (doc : Document) : Option NodeId := doc.firstNamed "body"

/-- The first element with a given `id`. -/
def elementById (doc : Document) (id : String) : Option NodeId :=
  doc.find (Match.any.eq "id" id)

/-- The first element directly in the document. -/
def documentElement (doc : Document) : Option NodeId :=
  (doc.children root).find? doc.isElement

def elements (doc : Document) : List NodeId :=
  (doc.descendants root).filter doc.isElement

end Document

end ServerPages
