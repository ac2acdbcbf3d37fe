import ServerPages.Markup.Construction.Formatting

/-!
# The start of a document

The rules up to the body: document type, the `html` element, the head and its
elements. An element that has to be there is added where its tag is missing, and
the token that showed that it is missing is looked at again.
-/

namespace ServerPages.Markup

namespace Tag

def opens (tag : Tag) (names : List String) : Bool :=
  !tag.closing && names.contains tag.name

def ends (tag : Tag) (names : List String) : Bool :=
  tag.closing && names.contains tag.name

end Tag

namespace Construction

/-- Closing tags that imply the elements around them where these are missing. -/
def implyingEnds : List String := ["head", "body", "html", "br"]

/-- Before anything: only a document type, comments and blanks may come. -/
def ruleInitial (b : Construction) (token : Token) : Construction × Reply :=
  match token with
  | .blank _ => b.done
  | .comment content => (b.appendCommentToDocument content).done
  | _ => { b with legacy := true }.again .beforeHtml

def ruleBeforeHtml (b : Construction) (token : Token) : Construction × Reply :=
  let imply := (b.createTop []).again .beforeHead
  match token with
  | .blank _ => b.done
  | .comment content => (b.appendCommentToDocument content).done
  | .tag tag =>
      if tag.opens ["html"] then { b.createTop tag.attributes with mode := .beforeHead }.done
      else if tag.closing && !implyingEnds.contains tag.name then b.done
      else imply
  | _ => imply

/-- A repeated `html` tag adds the attributes that are missing. -/
def ruleRepeatedTop (b : Construction) (tag : Tag) : Construction × Reply :=
  match b.top? with
  | some top => if b.hasOpen "template" then b.done else (b.addMissing top tag).done
  | none => b.done

def ruleBeforeHead (b : Construction) (token : Token) : Construction × Reply :=
  let imply :=
    let (id, b) := b.openTag (.opening "head")
    { b with head := some id }.again .inHead
  match token with
  | .blank _ => b.done
  | .comment content => (b.appendComment content).done
  | .tag tag =>
      if tag.opens ["html"] then b.ruleRepeatedTop tag
      else if tag.opens ["head"] then
        let (id, b) := b.openTag tag
        { b with head := some id, mode := .inHead }.done
      else if tag.closing && !implyingEnds.contains tag.name then b.done
      else imply
  | _ => imply

def openTemplate (b : Construction) (tag : Tag) : Construction :=
  let b := (b.openFor tag).mark
  { b with
    framesetOk := false
    mode := .inTemplate
    templateModes := .inTemplate :: b.templateModes }

/-- The end of a template: everything within it is closed. -/
def leaveTemplate (b : Construction) : Construction :=
  let b := (b.popThrough ["template"]).unmark
  let b := { b with templateModes := b.templateModes.tail }
  { b with mode := b.resetMode }

def headNames : List String :=
  ["base", "basefont", "bgsound", "link", "meta", "noframes", "script", "style", "template",
   "title"]

def ruleInHead (b : Construction) (token : Token) : Construction × Reply :=
  let leave := b.pop.again .afterHead
  match token with
  | .blank run => (b.appendText run).done
  | .comment content => (b.appendComment content).done
  | .tag tag =>
      if tag.opens ["html"] then b.ruleRepeatedTop tag
      else if tag.opens ["base", "basefont", "bgsound", "link", "meta"] then (b.addFor tag).done
      else if tag.opens ["title"] then b.openText tag .escapable
      else if tag.opens ["noframes", "style", "noscript"] then b.openText tag .raw
      else if tag.opens ["script"] then b.openText tag .script
      else if tag.ends ["head"] then { b.pop with mode := .afterHead }.done
      else if tag.ends ["body", "html", "br"] then leave
      else if tag.opens ["template"] then (b.openTemplate tag).done
      else if tag.ends ["template"] then
        if b.hasOpen "template" then b.closeImpliedThoroughly.leaveTemplate.done else b.done
      else if tag.opens ["head"] || tag.closing then b.done
      else leave
  | _ => leave

/-- Between head and body. Elements that belong into the head are still put there. -/
def ruleAfterHead (b : Construction) (token : Token) : Construction × Reply :=
  let imply := (b.openImplied "body").again .inBody
  match token with
  | .blank run => (b.appendText run).done
  | .comment content => (b.appendComment content).done
  | .tag tag =>
      if tag.opens ["html"] then b.ruleRepeatedTop tag
      else if tag.opens ["body"] then
        { b.openFor tag with framesetOk := false, mode := .inBody }.done
      else if tag.opens ["frameset"] then { b.openFor tag with mode := .inFrameset }.done
      else if tag.opens headNames then
        match b.head with
        | some head =>
            let (b, reply) := { b with stack := head :: b.stack }.ruleInHead token
            (b.removeOpen head, reply)
        | none => b.done
      else if tag.ends ["template"] then b.ruleInHead token
      else if tag.ends ["body", "html", "br"] then imply
      else if tag.opens ["head"] || tag.closing then b.done
      else imply
  | _ => imply

/-- The input ends within a template. -/
def ruleTemplateEnds (b : Construction) : Construction × Reply :=
  if b.hasOpen "template" then
    let b := b.leaveTemplate
    b.again b.resetMode
  else b.done

end Construction

end ServerPages.Markup
