import ServerPages.Document.Basic
import ServerPages.Markup.Escape

/-!
# Writing documents

A node is written with everything below it: tags with their attributes in double
quotes, texts with references, raw texts and comments as they are. Void elements
have no closing tag, and nothing below them is written.
-/

namespace ServerPages

inductive Subtree
  | document (children : List Subtree)
  | doctype (name : String)
  | element (data : Element) (children : List Subtree)
  | text (content : String)
  | raw (content : String)
  | comment (content : String)

def Element.attributeChars (item : String × String) : List Char :=
  ' ' :: (item.1.toList ++ ['=', '"'] ++ Markup.escapeChars item.2.toList ++ ['"'])

def Element.openingChars (element : Element) : List Char :=
  '<' :: (element.name.toList ++ element.attributes.flatMap attributeChars ++ ['>'])

def Element.closingChars (element : Element) : List Char :=
  ['<', '/'] ++ element.name.toList ++ ['>']

namespace Subtree

mutual

def chars : Subtree → List Char
  | .document children => listChars children
  | .doctype name => "<!DOCTYPE ".toList ++ name.toList ++ ['>']
  | .element data children =>
      data.openingChars ++
        if Markup.isVoid data.name then [] else listChars children ++ data.closingChars
  | .text content => Markup.escapeChars content.toList
  | .raw content => content.toList
  | .comment content => "<!--".toList ++ content.toList ++ "-->".toList

def listChars : List Subtree → List Char
  | [] => []
  | tree :: trees => chars tree ++ listChars trees

end

end Subtree

namespace Document

/-- The nodes at given places with what stands below them, of at most the given height. -/
def subtrees (doc : Document) : Nat → List NodeId → List Subtree
  | 0, _ => []
  | height + 1, ids =>
      ids.filterMap fun id =>
        (doc.kind? id).map fun kind =>
          match kind with
          | .document => .document (subtrees doc height (doc.children id))
          | .doctype name => .doctype name
          | .element element => .element element (subtrees doc height (doc.children id))
          | .text content => .text content
          | .raw content => .raw content
          | .comment content => .comment content

/-- The markup of a node, its own tag included. -/
def outerHtml (doc : Document) (id : NodeId) : String :=
  String.ofList (Subtree.listChars (doc.subtrees doc.size [id]))

def innerHtml (doc : Document) (id : NodeId) : String :=
  String.ofList (Subtree.listChars (doc.subtrees doc.size (doc.children id)))

def toHtml (doc : Document) : String :=
  doc.outerHtml root

end Document

end ServerPages
