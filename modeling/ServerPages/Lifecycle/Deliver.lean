import ServerPages.Binding.Scope
import ServerPages.Event.Reply
import ServerPages.Lifecycle.Instance

/-!
# Delivering pages

An open page is delivered whole, or as the contents of the update panel that its event
asked for. An update panel is delivered without running the last hook; one that the
page does not have is no error.
-/

namespace ServerPages

inductive Outcome
  /-- Markup as it came in. -/
  | passThrough (markup : String)
  | html (markup : String)
  | panel (reply : PanelReply)
  deriving DecidableEq, Repr

namespace Document

/-- The contents of an update panel without the marks of what runs at the server, and the document
that is left. -/
def panelReply (doc : Document) (panelId : String) : PanelReply × Document :=
  match doc.panelById panelId with
  | some panel =>
      let doc : Document := doc.stripServerMarks panel
      (.panel panelId (doc.innerHtml panel), doc)
  | none => (.notFound, doc)

end Document

namespace Lifecycle

variable {σ ω : Type}

def deliverPanel (panelId : String) : Lifecycle σ ω PanelReply := do
  let reply ← onDocument (modifyGet fun doc => doc.panelReply panelId)
  advance .finalized
  return reply

def deliver : Option String → Lifecycle σ ω Outcome
  | some panelId => do return .panel (← deliverPanel panelId)
  | none => do return .html (← finish)

end Lifecycle

end ServerPages
