/-!
# Trees of parsed markup

What markup stands for: elements with their attributes in order, texts, comments
and the document type. Elements belong to one of three vocabularies. The contents
of a template are kept apart from the nodes that stand below the template itself.
-/

namespace ServerPages.Markup

inductive Vocabulary
  | html
  | svg
  | math
  deriving DecidableEq, Repr

structure Name where
  qualifier : Option String
  localName : String
  deriving DecidableEq, Repr

namespace Name

def plain (localName : String) : Name :=
  ⟨none, localName⟩

def text (name : Name) : String :=
  match name.qualifier with
  | some qualifier => qualifier ++ ":" ++ name.localName
  | none => name.localName

end Name

structure Attribute where
  name : Name
  value : String
  deriving DecidableEq, Repr

inductive Tree
  | doctype (name : String)
  | element (vocabulary : Vocabulary) (name : Name) (attributes : List Attribute)
      (contents children : List Tree)
  | text (content : String)
  | comment (content : String)
  | instruction (target content : String)

end ServerPages.Markup
