import ServerPages.Document.Match
import ServerPages.Document.Procedure
import ServerPages.Request

/-!
# Pages

A page is what a controller works on during one request: the request, and the document
with an index of its elements that run at the server. Calls of scripts work on a page
without a document. The index is made when the document is attached and does not follow
later changes.
-/

namespace ServerPages

/-- What a handler leaves for a script in place of a value. -/
structure PageResult where
  success : Bool
  result : Option Json
  error : Option String

namespace PageResult

def value (result : Json) : PageResult := ⟨true, some result, none⟩

def failure (error : String) : PageResult := ⟨false, none, some error⟩

/-- A result as a value; absent parts are left out. -/
def toJson (result : PageResult) : Json :=
  .ofMembers <|
    ("success", Json.bool result.success) :: (result.result.map ("result", ·)).toList ++
      (result.error.map fun error => ("error", Json.str error)).toList

end PageResult

/-- What a controller works on during one request. -/
structure Page where
  request : Request
  document : Option Document
  /-- The markup that the document was read from. -/
  markup : Option String
  /-- The elements that run at the server, by `id`. -/
  elements : Dictionary NodeId
  result : Option PageResult

namespace Page

def of (request : Request) : Page :=
  ⟨request, none, none, [], none⟩

def indexed : Match :=
  (Match.any.has "id").eq "runat" "server"

/-- The elements of a document that run at the server, by `id`; the last of an `id` counts. -/
def index (doc : Document) : Dictionary NodeId :=
  .ofPairs ((doc.findAll indexed).filterMap fun node => (doc.attr? node "id").map (·, node))

def attach (page : Page) (doc : Document) (markup : String) : Page :=
  { page with document := some doc, markup := some markup, elements := index doc }

/-- The element that runs at the server and has an `id`. -/
def element? (page : Page) (id : String) : Option NodeId :=
  page.elements.find? id

def ids (page : Page) : List String :=
  page.elements.map (·.1)

def value? (page : Page) (id : String) : Option String := do
  let node ← page.element? id
  let doc ← page.document
  doc.attr? node "value"

def text? (page : Page) (id : String) : Option String := do
  let node ← page.element? id
  let doc ← page.document
  return doc.text node

def title? (page : Page) : Option String := do
  let doc ← page.document
  let title ← doc.firstNamed "title"
  return doc.text title

/-! ## Changes -/

/-- A procedure on the document of the page, which has to have one. -/
def withDocument {α : Type} (procedure : Procedure Document PageError α) :
    Procedure Page PageError α :=
  .ofRun fun page =>
    match page.document with
    | none => (.error .noDocument, page)
    | some doc =>
        let (result, doc) := procedure.runFrom doc
        (result, { page with document := some doc })

def editElement (id : String) (change : Document → NodeId → Except EditError Document) :
    Procedure Page PageError Unit := do
  match (← get).element? id with
  | none => throw (.unknownElement id)
  | some node => withDocument (Document.edit fun doc => change doc node)

def setValue (id value : String) : Procedure Page PageError Unit :=
  editElement id fun doc node => doc.setAttr node "value" value

def setText (id content : String) : Procedure Page PageError Unit :=
  editElement id fun doc node => doc.setText node content

def setAttr (id name value : String) : Procedure Page PageError Unit :=
  editElement id fun doc node => doc.setAttr node name value

/-- Sets the title, if the page has one. -/
def setTitle (title : String) : Procedure Page PageError Unit :=
  withDocument <| Document.edit fun doc =>
    match doc.firstNamed "title" with
    | some node => doc.setText node title
    | none => .ok doc

def leave (result : PageResult) : Procedure Page PageError Unit :=
  modify fun page => { page with result := some result }

end Page

end ServerPages
