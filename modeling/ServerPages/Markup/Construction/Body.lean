import ServerPages.Markup.Construction.Head

/-!
# The body

The rules for everything that stands in the body and is no part of a table or of
a list of choices.
-/

namespace ServerPages.Markup.Construction

/-- Blocks: each ends a paragraph. -/
def blockNames : List String :=
  ["address", "article", "aside", "blockquote", "center", "details", "dialog", "dir", "div", "dl",
   "fieldset", "figcaption", "figure", "footer", "header", "hgroup", "main", "menu", "nav", "ol",
   "p", "search", "section", "summary", "ul"]

/-- Elements whose closing tag closes everything within them. -/
def blockEnds : List String :=
  ["button", "listing", "pre"] ++ blockNames.erase "p"

def headingNames : List String := ["h1", "h2", "h3", "h4", "h5", "h6"]

/-- Formatting elements that may nest. -/
def formattingNames : List String :=
  ["b", "big", "code", "em", "font", "i", "s", "small", "strike", "strong", "tt", "u"]

/-- Parts of tables and documents that may not stand in the body. -/
def misplacedNames : List String :=
  ["caption", "col", "colgroup", "frame", "head", "tbody", "td", "tfoot", "th", "thead", "tr"]

def isHidden (tag : Tag) : Bool :=
  match tag.attribute? "type" with
  | some value => Text.equalUpToCase value "hidden"
  | none => false

/-- Takes away the permission for a frameset. -/
def settle (b : Construction) : Construction :=
  { b with framesetOk := false }

/-- A list item ends the item before it, unless a block stands between them. -/
def endItem (b : Construction) (names : List String) : Construction :=
  let bounds := ((specialNames.erase "address").erase "div").erase "p"
  let isEnd (id : NodeId) : Bool := b.isIn names id || b.isIn bounds id
  match b.stack.find? isEnd with
  | some id =>
      match b.label? id with
      | some (_, name) =>
          if names.contains name then (b.closeImpliedExcept name).popThrough [name] else b
      | none => b
  | none => b

/-- Closing tags of blocks close what they name if it is in scope. -/
def endBlock (b : Construction) (name : String) : Construction :=
  if b.hasInScopeNamed .element name then b.closeImplied.popThrough [name] else b

/-- The closing tag of a form: outside templates there is at most one form, and only that is
closed. -/
def endForm (b : Construction) : Construction :=
  if b.hasOpen "template" then
    if b.hasInScopeNamed .element "form" then b.closeImplied.popThrough ["form"] else b
  else
    match b.form with
    | none => b
    | some form =>
        let b := { b with form := none }
        if b.hasInScope .element (· = form) then b.closeImplied.removeOpen form else b

/-- A link ends the link around it. -/
def endLink (b : Construction) : Construction :=
  let found := b.sinceMarker.findSome? fun
    | .element id _ => if b.isNamed "a" id then some id else none
    | .marker => none
  match found with
  | some id => ((b.closeFormatting "a").forget id).removeOpen id
  | none => b

def openForeign (b : Construction) (vocabulary : Vocabulary) (name : String) (tag : Tag) :
    Construction :=
  (b.insert (!tag.selfClosing) vocabulary name (vocabulary.attributes tag.attributes)).2

def ruleBodyOpen (b : Construction) (tag : Tag) : Construction × Reply :=
  let name := tag.name
  if name = "html" then b.ruleRepeatedTop tag
  else if headNames.contains name then b.ruleInHead (.tag tag)
  else if name = "body" then
    match b.body? with
    | some body => if b.hasOpen "template" then b.done else (b.settle.addMissing body tag).done
    | none => b.done
  else if name = "frameset" then
    match b.framesetOk, b.body?, b.top? with
    | true, some body, some top =>
        let b := { b with forest := b.forest.detach body, stack := [top] }
        { b.openFor tag with mode := .inFrameset }.done
    | _, _, _ => b.done
  else if blockNames.contains name then (b.endParagraph.openFor tag).done
  else if headingNames.contains name then
    let b := b.endParagraph
    let b := if b.currentIn headingNames then b.pop else b
    (b.openFor tag).done
  else if ["pre", "listing"].contains name then
    { (b.endParagraph.openFor tag).settle with dropLineFeed := true }.done
  else if name = "form" then
    if b.form.isSome && !b.hasOpen "template" then b.done
    else
      let (id, b) := b.endParagraph.openTag tag
      (if b.hasOpen "template" then b else { b with form := some id }).done
  else if name = "li" then ((b.settle.endItem ["li"]).endParagraph.openFor tag).done
  else if ["dd", "dt"].contains name then
    ((b.settle.endItem ["dd", "dt"]).endParagraph.openFor tag).done
  else if name = "plaintext" then (b.endParagraph.openFor tag, .read .endless)
  else if name = "button" then
    let b :=
      if b.hasInScopeNamed .element "button" then b.closeImplied.popThrough ["button"] else b
    (b.reconstruct.openFor tag).settle.done
  else if name = "a" then (b.endLink.reconstruct.openFormatting tag).done
  else if formattingNames.contains name then (b.reconstruct.openFormatting tag).done
  else if name = "nobr" then
    let b := b.reconstruct
    let b :=
      if b.hasInScopeNamed .element "nobr" then (b.closeFormatting "nobr").reconstruct else b
    (b.openFormatting tag).done
  else if ["applet", "marquee", "object"].contains name then
    (b.reconstruct.openFor tag).mark.settle.done
  else if name = "table" then
    let b := if b.legacy then b else b.endParagraph
    { (b.openFor tag).settle with mode := .inTable }.done
  else if ["area", "br", "embed", "img", "keygen", "wbr"].contains name then
    (b.reconstruct.addFor tag).settle.done
  else if name = "input" then
    let b := b.reconstruct.addFor tag
    (if isHidden tag then b else b.settle).done
  else if ["param", "source", "track"].contains name then (b.addFor tag).done
  else if name = "hr" then (b.endParagraph.addFor tag).settle.done
  else if name = "image" then (b.reconstruct.addFor { tag with name := "img" }).settle.done
  else if name = "textarea" then { b.settle with dropLineFeed := true }.openText tag .escapable
  else if name = "xmp" then b.endParagraph.reconstruct.settle.openText tag .raw
  else if name = "iframe" then b.settle.openText tag .raw
  else if ["noembed", "noscript"].contains name then b.openText tag .raw
  else if name = "select" then
    let tables : List Mode := [.inTable, .inCaption, .inTableBody, .inRow, .inCell]
    let mode : Mode := if tables.contains b.mode then .inSelectInTable else .inSelect
    { (b.reconstruct.openFor tag).settle with mode }.done
  else if ["optgroup", "option"].contains name then
    let b := if b.currentIs "option" then b.pop else b
    (b.reconstruct.openFor tag).done
  else if ["rb", "rtc"].contains name then
    let b := if b.hasInScopeNamed .element "ruby" then b.closeImplied else b
    (b.openFor tag).done
  else if ["rp", "rt"].contains name then
    let b := if b.hasInScopeNamed .element "ruby" then b.closeImpliedExcept "rtc" else b
    (b.openFor tag).done
  else if name = "math" then (b.openForeign .math name tag).done
  else if name = "svg" then (b.openForeign .svg name tag).done
  else if misplacedNames.contains name then b.done
  else (b.reconstruct.openFor tag).done

def ruleBodyClose (b : Construction) (tag : Tag) : Construction × Reply :=
  let name := tag.name
  if name = "template" then b.ruleInHead (.tag tag)
  else if name = "body" then
    (if b.hasInScopeNamed .element "body" then { b with mode := .afterBody } else b).done
  else if name = "html" then
    if b.hasInScopeNamed .element "body" then b.again .afterBody else b.done
  else if blockEnds.contains name then (b.endBlock name).done
  else if name = "form" then b.endForm.done
  else if name = "p" then
    let b := if b.hasInScopeNamed .button "p" then b else b.openImplied "p"
    b.closeParagraph.done
  else if name = "li" then
    (if b.hasInScopeNamed .listItem name then (b.closeImpliedExcept name).popThrough [name]
     else b).done
  else if ["dd", "dt"].contains name then
    (if b.hasInScopeNamed .element name then (b.closeImpliedExcept name).popThrough [name]
     else b).done
  else if headingNames.contains name then
    (if b.hasInScopeIn .element headingNames then b.closeImplied.popThrough headingNames
     else b).done
  else if name = "a" || name = "nobr" || formattingNames.contains name then
    (b.closeFormatting name).done
  else if ["applet", "marquee", "object"].contains name then
    (if b.hasInScopeNamed .element name then (b.closeImplied.popThrough [name]).unmark
     else b).done
  else if name = "br" then b.ruleBodyOpen (.opening "br")
  else (b.closeOther name).done

def ruleInBody (b : Construction) (token : Token) : Construction × Reply :=
  match token with
  | .null | .doctype _ _ => b.done
  | .blank run => (b.reconstruct.appendText run).done
  | .text run => (b.reconstruct.settle.appendText run).done
  | .comment content => (b.appendComment content).done
  | .tag tag => if tag.closing then b.ruleBodyClose tag else b.ruleBodyOpen tag
  | .endOfInput => if b.templateModes.isEmpty then b.done else b.ruleTemplateEnds

def ruleInText (b : Construction) (token : Token) : Construction × Reply :=
  match token with
  | .blank run | .text run => (b.appendText run).done
  | .tag _ => { b.pop with mode := b.resume }.done
  | .endOfInput => b.pop.again b.resume
  | _ => b.done

/-- After the body: what is misplaced goes into the body. -/
def ruleAfterBody (b : Construction) (token : Token) : Construction × Reply :=
  match token with
  | .blank _ => b.ruleInBody token
  | .comment content => (b.appendCommentToTop content).done
  | .tag tag =>
      if tag.opens ["html"] then b.ruleRepeatedTop tag
      else if tag.ends ["html"] then
        (if b.isFragment then b else { b with mode := .afterAfterBody }).done
      else b.again .inBody
  | .endOfInput => b.done
  | _ => b.again .inBody

/-- After the `html` element. -/
def ruleAfterAfterBody (b : Construction) (token : Token) : Construction × Reply :=
  match token with
  | .blank _ => b.ruleInBody token
  | .comment content => (b.appendCommentToDocument content).done
  | .tag tag => if tag.opens ["html"] then b.ruleRepeatedTop tag else b.again .inBody
  | .endOfInput => b.done
  | _ => b.again .inBody

end ServerPages.Markup.Construction
