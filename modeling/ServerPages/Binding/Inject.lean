import ServerPages.Binding.Script
import ServerPages.Document.Match
import ServerPages.Document.Procedure

/-!
# Adding scripts and styles

The script of a page goes to the end of its body, the style to the end of its head.
Where there is none, the script goes last and the style first into the outermost
element, or into the document itself.

Pages are sent without the marks of what runs at the server.
-/

namespace ServerPages.Document

def createWithText (name content : String) : Procedure Document PageError NodeId := do
  let (node, doc) := (← get).create (.element ⟨name, []⟩)
  set (doc : Document)
  edit fun doc => doc.setText node content
  return node

def inject (client : ClientScript) : Procedure Document PageError Unit := do
  let outermost := (← get).documentElement.getD root
  let script ← createWithText "script" client.script
  edit fun doc => doc.appendChild (doc.body.getD outermost) script
  match client.style with
  | none => return
  | some content =>
      let style ← createWithText "style" content
      edit fun doc =>
        match doc.head with
        | some head => doc.appendChild head style
        | none => doc.prependChild outermost style

def stripServerMarks (doc : Document) (scope : NodeId) : Document :=
  (doc.descendants scope).foldl (fun doc node => doc.removeAttr node "runat") doc

end ServerPages.Document
