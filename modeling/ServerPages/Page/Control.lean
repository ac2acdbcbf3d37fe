import ServerPages.Document.Edit
import ServerPages.Document.Match

/-!
# Templates of controllers

A template names its controller on its `html` element, which says with two more
attributes that it runs at the server and in which language. All three are taken
away; a template without one of them is a plain page and stays as it is.
-/

namespace ServerPages.Document

/-- The attributes that make a page a template. -/
def controlNames : List String := ["codebehind", "language", "runat"]

def control? (doc : Document) : Option (NodeId × String) := do
  let top ← doc.firstNamed "html"
  if doc.attr? top "runat" = some "server" ∧ doc.attr? top "language" = some "js" then
    let name ← doc.attr? top "codebehind"
    if name.isEmpty then none else return (top, name)
  else none

def takeControl (doc : Document) : Option String × Document :=
  match doc.control? with
  | some (top, name) =>
      (some name, controlNames.foldl (fun doc name => doc.removeAttr top name) doc)
  | none => (none, doc)

end ServerPages.Document
