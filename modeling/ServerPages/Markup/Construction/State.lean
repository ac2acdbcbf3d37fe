import ServerPages.Forest
import ServerPages.Markup.Foreign
import ServerPages.Markup.Token.Scan

/-!
# A tree under construction

Tokens are turned into a tree by rules that depend on a mode and on the elements
that are open. Beside the tree there are the stack of open elements, the formatting
elements that are to be opened again after they were closed by others, and what
the rules have to remember from one token to the next.
-/

namespace ServerPages.Markup

/-- What a node of the tree under construction is. The contents of a template stand below a node of
their own. -/
inductive Part
  | document
  | doctype (name : String)
  | element (vocabulary : Vocabulary) (name : String) (attributes : List Attribute)
      (contents : Option NodeId)
  | text (content : String)
  | comment (content : String)

inductive Mode
  | initial
  | beforeHtml
  | beforeHead
  | inHead
  | afterHead
  | inBody
  | inText
  | inTable
  | inTableText
  | inCaption
  | inColumnGroup
  | inTableBody
  | inRow
  | inCell
  | inSelect
  | inSelectInTable
  | inTemplate
  | afterBody
  | inFrameset
  | afterFrameset
  | afterAfterBody
  | afterAfterFrameset
  deriving DecidableEq, Repr

/-- A formatting element with its tag, or a mark that keeps those before it from being opened
again. -/
inductive Formatting
  | marker
  | element (id : NodeId) (tag : Tag)
  deriving DecidableEq

namespace Formatting

def isMarker : Formatting → Bool
  | .marker => true
  | .element _ _ => false

def isOf (id : NodeId) : Formatting → Bool
  | .marker => false
  | .element other _ => other = id

end Formatting

/-- A tree under construction. The stack of open elements and the formatting elements have the
latest in front. -/
structure Construction where
  forest : Forest Part
  mode : Mode
  /-- The mode to go back to after text. -/
  resume : Mode
  templateModes : List Mode
  /-- Characters met directly within a table. -/
  tableText : List Token
  /-- The document type calls for the old layout of tables. -/
  legacy : Bool
  stack : List NodeId
  formatting : List Formatting
  head : Option NodeId
  form : Option NodeId
  /-- A frameset may still take the place of the body. -/
  framesetOk : Bool
  /-- A line feed at the start of the next characters is dropped. -/
  dropLineFeed : Bool
  /-- Nodes that may not stand in a table are put in front of it. -/
  fostering : Bool
  /-- The name of the element that a fragment is read for. -/
  context : Option String

inductive Reply
  | done
  /-- The token falls under the rules of the mode that is now set. -/
  | again
  /-- The text that follows is not markup. -/
  | read (content : Content)
  deriving DecidableEq

namespace Construction

/-- The start of a document, or of a fragment for an element of a name. -/
def start (context : Option String) : Construction where
  forest := .single .document
  mode := .initial
  resume := .initial
  templateModes := if context = some "template" then [.inTemplate] else []
  tableText := []
  legacy := false
  stack := []
  formatting := []
  head := none
  form := none
  framesetOk := true
  dropLineFeed := false
  fostering := false
  context

def done (b : Construction) : Construction × Reply := (b, .done)

def again (b : Construction) (mode : Mode) : Construction × Reply :=
  ({ b with mode }, .again)

/-! ## Elements -/

def label? (b : Construction) (id : NodeId) : Option (Vocabulary × String) :=
  match b.forest.kind? id with
  | some (.element vocabulary name _ _) => some (vocabulary, name)
  | _ => none

def isIn (b : Construction) (names : List String) (id : NodeId) : Bool :=
  match b.label? id with
  | some (.html, name) => names.contains name
  | _ => false

def isNamed (b : Construction) (name : String) (id : NodeId) : Bool :=
  b.isIn [name] id

def currentIn (b : Construction) (names : List String) : Bool :=
  (b.stack.head?.map (b.isIn names)).getD false

def currentIs (b : Construction) (name : String) : Bool :=
  b.currentIn [name]

def hasOpen (b : Construction) (name : String) : Bool :=
  b.stack.any (b.isNamed name)

/-- The element that everything stands in. -/
def top? (b : Construction) : Option NodeId :=
  b.stack.getLast?

/-- The body, if it is the second open element. -/
def body? (b : Construction) : Option NodeId :=
  match b.stack.reverse with
  | _ :: second :: _ => if b.isNamed "body" second then some second else none
  | _ => none

def isFragment (b : Construction) : Bool := b.context.isSome

/-! ## Insertion -/

inductive Place
  | last (parent : NodeId)
  | before (sibling : NodeId)

/-- Elements that hold nothing but parts of a table. -/
def tableParts : List String := ["table", "tbody", "tfoot", "thead", "tr"]

/-- What stands below a node where children are added: the contents of a template. -/
def insideOf (b : Construction) (id : NodeId) : NodeId :=
  match b.forest.kind? id with
  | some (.element .html "template" _ (some contents)) => contents
  | _ => id

/-- Where nodes are put that may not stand in a table: in front of it. -/
def fosterPlace (b : Construction) : List NodeId → Place
  | [] => .last (b.top?.getD Forest.root)
  | id :: below =>
      if b.isNamed "template" id then .last (b.insideOf id)
      else if b.isNamed "table" id then
        if (b.forest.parent? id).isSome then .before id
        else .last (below.head?.getD Forest.root)
      else b.fosterPlace below

def placeIn (b : Construction) (target : NodeId) : Place :=
  if b.fostering && b.isIn tableParts target then b.fosterPlace b.stack
  else .last (b.insideOf target)

/-- Where a child of the latest open element is put. -/
def place (b : Construction) : Place :=
  b.placeIn (b.stack.head?.getD Forest.root)

def extendText? (b : Construction) (id : Option NodeId) (content : String) :
    Option Construction := do
  let id ← id
  match b.forest.kind? id with
  | some (.text earlier) =>
      some { b with forest := b.forest.setKind id (.text (earlier ++ content)) }
  | _ => none

def put (b : Construction) (place : Place) (id : NodeId) : Construction :=
  match place with
  | .last parent => { b with forest := b.forest.attachLast parent id }
  | .before sibling => { b with forest := b.forest.attachBefore sibling id }

/-- Puts text at a place; directly after a text it goes on with that. -/
def putText (b : Construction) (place : Place) (content : String) : Construction :=
  let neighbour :=
    match place with
    | .last parent => (b.forest.children parent).getLast?
    | .before sibling => b.forest.previousSibling? sibling
  match b.extendText? neighbour content with
  | some b => b
  | none =>
      let (id, forest) := b.forest.create (.text content)
      { b with forest }.put place id

def appendText (b : Construction) (run : List Char) : Construction :=
  b.putText b.place (String.ofList run)

def putComment (b : Construction) (place : Place) (content : String) : Construction :=
  let (id, forest) := b.forest.create (.comment content)
  { b with forest }.put place id

def appendComment (b : Construction) (content : String) : Construction :=
  b.putComment b.place content

def appendCommentToDocument (b : Construction) (content : String) : Construction :=
  b.putComment (.last Forest.root) content

def appendCommentToTop (b : Construction) (content : String) : Construction :=
  b.putComment (.last (b.top?.getD Forest.root)) content

/-- Adds a detached element; a template gets a node for its contents. -/
def create (b : Construction) (vocabulary : Vocabulary) (name : String)
    (attributes : List Attribute) : NodeId × Construction :=
  if vocabulary = .html ∧ name = "template" then
    let (contents, forest) := b.forest.create .document
    let (id, forest) := forest.create (.element vocabulary name attributes (some contents))
    (id, { b with forest })
  else
    let (id, forest) := b.forest.create (.element vocabulary name attributes none)
    (id, { b with forest })

/-- Adds an element to the latest open one, and opens it if wanted. -/
def insert (b : Construction) (opened : Bool) (vocabulary : Vocabulary) (name : String)
    (attributes : List Attribute) : NodeId × Construction :=
  let place := b.place
  let (id, b) := b.create vocabulary name attributes
  let b := b.put place id
  (id, if opened then { b with stack := id :: b.stack } else b)

def openTag (b : Construction) (tag : Tag) : NodeId × Construction :=
  b.insert true .html tag.name (Vocabulary.html.attributes tag.attributes)

def openFor (b : Construction) (tag : Tag) : Construction :=
  (b.openTag tag).2

/-- Adds the HTML element of a tag, which holds nothing. -/
def addFor (b : Construction) (tag : Tag) : Construction :=
  (b.insert false .html tag.name (Vocabulary.html.attributes tag.attributes)).2

/-- Adds an HTML element that no tag stands for and opens it. -/
def openImplied (b : Construction) (name : String) : Construction :=
  b.openFor (.opening name)

def createTop (b : Construction) (attributes : List (String × String)) : Construction :=
  let (id, b) := b.create .html "html" (Vocabulary.html.attributes attributes)
  let b := b.put (.last Forest.root) id
  { b with stack := id :: b.stack }

/-- Adds to an element the attributes of a tag that it does not have. -/
def addMissing (b : Construction) (id : NodeId) (tag : Tag) : Construction :=
  match b.forest.kind? id with
  | some (.element vocabulary name attributes contents) =>
      let missing := (Vocabulary.html.attributes tag.attributes).filter fun item =>
        attributes.all (·.name ≠ item.name)
      { b with forest :=
          b.forest.setKind id (.element vocabulary name (attributes ++ missing) contents) }
  | _ => b

/-! ## Closing -/

def pop (b : Construction) : Construction :=
  { b with stack := b.stack.tail }

/-- Closes elements up to and including the latest with one of the names. -/
def popThrough (b : Construction) (names : List String) : Construction :=
  { b with stack := (b.stack.dropWhile fun id => !b.isIn names id).tail }

/-- Closes elements until one with one of the names is the latest. -/
def popDownTo (b : Construction) (names : List String) : Construction :=
  { b with stack := b.stack.dropWhile fun id => !b.isIn names id }

def removeOpen (b : Construction) (id : NodeId) : Construction :=
  { b with stack := b.stack.erase id }

/-- Elements whose closing tag may be left out. -/
def impliedNames : List String :=
  ["dd", "dt", "li", "option", "optgroup", "p", "rb", "rp", "rt", "rtc"]

def closeImplied (b : Construction) : Construction :=
  { b with stack := b.stack.dropWhile (b.isIn impliedNames) }

def closeImpliedExcept (b : Construction) (name : String) : Construction :=
  { b with stack := b.stack.dropWhile (b.isIn (impliedNames.erase name)) }

/-- Closes elements whose closing tag may be left out, those of tables included. -/
def closeImpliedThoroughly (b : Construction) : Construction :=
  let names := impliedNames ++
    ["caption", "colgroup", "tbody", "td", "tfoot", "th", "thead", "tr"]
  { b with stack := b.stack.dropWhile (b.isIn names) }

/-! ## Scopes -/

/-- A kind of scope: how far up the open elements are searched. -/
inductive Scope
  | element
  | listItem
  | button
  | table
  | select

/-- The names of HTML elements that every scope but those of tables and selects ends at. -/
def scopeNames : List String :=
  ["applet", "caption", "html", "table", "td", "th", "marquee", "object", "template"]

def Scope.endsAt (scope : Scope) (vocabulary : Vocabulary) (name : String) : Bool :=
  let ordinary := (vocabulary == .html && scopeNames.contains name) ||
    isMathTextPoint vocabulary name || isSvgPoint vocabulary name
  match scope with
  | .element => ordinary
  | .listItem => ordinary || (vocabulary == .html && ["ol", "ul"].contains name)
  | .button => ordinary || (vocabulary == .html && name == "button")
  | .table => vocabulary == .html && ["html", "table", "template"].contains name
  | .select => !(vocabulary == .html && ["optgroup", "option"].contains name)

def hasInScope (b : Construction) (scope : Scope) (wanted : NodeId → Bool) : Bool :=
  search b.stack
where
  search : List NodeId → Bool
    | [] => false
    | id :: below =>
        wanted id ||
          match b.label? id with
          | some (vocabulary, name) => !scope.endsAt vocabulary name && search below
          | none => search below

def hasInScopeIn (b : Construction) (scope : Scope) (names : List String) : Bool :=
  b.hasInScope scope (b.isIn names)

def hasInScopeNamed (b : Construction) (scope : Scope) (name : String) : Bool :=
  b.hasInScopeIn scope [name]

def closeParagraph (b : Construction) : Construction :=
  (b.closeImpliedExcept "p").popThrough ["p"]

def endParagraph (b : Construction) : Construction :=
  if b.hasInScopeNamed .button "p" then b.closeParagraph else b

/-! ## Modes -/

/-- The mode that the open elements call for. -/
def modeOf (b : Construction) : List NodeId → Mode
  | [] => .inBody
  | id :: below =>
      let last := below.isEmpty
      let name? :=
        match b.context, last with
        | some name, true => some name
        | _, _ =>
            match b.label? id with
            | some (.html, name) => some name
            | _ => none
      match name? with
      | none => b.modeOf below
      | some name =>
          if name = "select" then
            match below.find? (b.isIn ["template", "table"]) with
            | some ancestor => if b.isNamed "table" ancestor then .inSelectInTable else .inSelect
            | none => .inSelect
          else if ["td", "th"].contains name && !last then .inCell
          else if name = "tr" then .inRow
          else if ["tbody", "thead", "tfoot"].contains name then .inTableBody
          else if name = "caption" then .inCaption
          else if name = "colgroup" then .inColumnGroup
          else if name = "table" then .inTable
          else if name = "template" then b.templateModes.head?.getD .inBody
          else if name = "head" && !last then .inHead
          else if name = "body" then .inBody
          else if name = "frameset" then .inFrameset
          else if name = "html" then if b.head.isSome then .afterHead else .beforeHead
          else b.modeOf below

def resetMode (b : Construction) : Mode :=
  b.modeOf b.stack

def openText (b : Construction) (tag : Tag) (content : Content) : Construction × Reply :=
  let b := b.openFor tag
  ({ b with resume := b.mode, mode := .inText }, .read content)

end Construction

end ServerPages.Markup
