import ServerPages.Document.Basic
import ServerPages.Markup.Parser

/-!
# Editing documents

Creating and moving nodes, setting attributes and text, and adding markup. Parsed
trees are copied into the document node by node, each before what stands below it,
so that new nodes are numbered in document order.
-/

namespace ServerPages

open Markup (Tree)

namespace Document

/-! ## Attributes -/

def setAttr (doc : Document) (id : NodeId) (name value : String) : Except EditError Document :=
  match doc.element? id with
  | some element => .ok (doc.setKind id (.element (element.setAttr name value)))
  | none => .error (.notAnElement id)

def removeAttr (doc : Document) (id : NodeId) (name : String) : Document :=
  match doc.element? id with
  | some element =>
      if (element.attr? name).isSome then
        doc.setKind id (.element (element.removeAttr name))
      else doc
  | none => doc

/-! ## Moving nodes -/

/-- Why a node may not become a child of another, if it may not. -/
def refusal? (doc : Document) (parent child : NodeId) : Option EditError :=
  if doc.isInclusiveAncestor child parent then some (.cycle child)
  else if doc.takesChildren parent then none
  else some (.notAnElement parent)

def prependChild (doc : Document) (parent child : NodeId) : Except EditError Document :=
  match doc.refusal? parent child with
  | some error => .error error
  | none => .ok ((doc.detach child).attachFirst parent child)

/-- The text that a text node would go on with as the last child of another: the node of that text
and both texts in one. -/
def mergedText? (doc : Document) (parent child : NodeId) : Option (NodeId × String) := do
  let last ← (doc.children parent).getLast?
  match doc.kind? last, doc.kind? child with
  | some (.text earlier), some (.text later) => some (last, earlier ++ later)
  | _, _ => none

/-- Moves a node to the end of another's children. A text that would follow a text is added to it
instead and stays detached. -/
def appendChild (doc : Document) (parent child : NodeId) : Except EditError Document :=
  match doc.refusal? parent child with
  | some error => .error error
  | none =>
      let doc : Document := doc.detach child
      match doc.mergedText? parent child with
      | some (last, merged) => .ok (doc.setKind last (.text merged))
      | none => .ok (doc.attachLast parent child)

/-! ## Text -/

def clear (doc : Document) (id : NodeId) : Document :=
  (doc.children id).foldl Forest.detach doc

def textKind (name : Option String) (content : String) : NodeKind :=
  if (name.map Markup.isRawText).getD false then .raw content else .text content

def setText (doc : Document) (id : NodeId) (content : String) : Except EditError Document :=
  match doc.element? id with
  | none => .error (.notAnElement id)
  | some element =>
      let doc := doc.clear id
      if content.isEmpty then .ok doc
      else
        let (node, doc) := doc.create (textKind (some element.name) content)
        appendChild doc id node

/-! ## Markup -/

def addLast (doc : Document) (parent : NodeId) (kind : NodeKind) : Document :=
  let (id, doc) := doc.create kind
  doc.attachLast parent id

mutual

/-- Copies a parsed tree below a node; the contents of a template become its first children. -/
def graft (doc : Document) (parent : NodeId) : Tree → Document
  | .doctype name => doc.addLast parent (.doctype name)
  | .text content => doc.addLast parent (textKind (doc.tagName? parent) content)
  | .comment content => doc.addLast parent (.comment content)
  | .instruction _ _ => doc
  | .element _ name attributes contents children =>
      let pairs := attributes.map fun item => (item.name.text, item.value)
      let id : NodeId := ⟨doc.size⟩
      let doc := doc.addLast parent (.element ⟨name.text, pairs⟩)
      graftAll (graftAll doc id contents) id children

def graftAll (doc : Document) (parent : NodeId) : List Tree → Document
  | [] => doc
  | tree :: trees => graftAll (graft doc parent tree) parent trees

end

def parse (html : String) : Document :=
  empty.graftAll root (Markup.parseDocument html)

/-- The name of the element that markup below a node is read for. -/
def contextOf (doc : Document) (id : NodeId) : Except EditError String :=
  match doc.kind? id with
  | some (.element element) => .ok element.name
  | some .document => .ok "body"
  | _ => .error (.notAnElement id)

def appendHtml (doc : Document) (parent : NodeId) (html : String) : Except EditError Document :=
  match doc.contextOf parent with
  | .error error => .error error
  | .ok context => .ok (doc.graftAll parent (Markup.parseFragment context html))

end Document

end ServerPages
