import ServerPages.Markup.Construction.Table

/-!
# Choices, templates and framesets

The rules for lists of choices, which hold little else than their choices; for
templates, whose rules are those of whatever their first tag calls for; and for
framesets, which take the place of a body.
-/

namespace ServerPages.Markup.Construction

/-- Closes a list of choices, and the token falls under the rules around it. -/
def leaveSelect (b : Construction) : Construction × Reply :=
  let b := b.popThrough ["select"]
  b.again b.resetMode

def ruleInSelect (b : Construction) (token : Token) : Construction × Reply :=
  match token with
  | .null | .doctype _ _ => b.done
  | .blank run | .text run => (b.appendText run).done
  | .comment content => (b.appendComment content).done
  | .endOfInput => b.ruleInBody token
  | .tag tag =>
      if tag.opens ["html"] then b.ruleRepeatedTop tag
      else if tag.opens ["option"] then
        let b := if b.currentIs "option" then b.pop else b
        (b.openFor tag).done
      else if tag.opens ["optgroup"] then
        let b := if b.currentIs "option" then b.pop else b
        let b := if b.currentIs "optgroup" then b.pop else b
        (b.openFor tag).done
      else if tag.ends ["optgroup"] then
        let inGroup := (b.stack.tail.head?.map (b.isNamed "optgroup")).getD false
        let b := if b.currentIs "option" && inGroup then b.pop else b
        (if b.currentIs "optgroup" then b.pop else b).done
      else if tag.ends ["option"] then (if b.currentIs "option" then b.pop else b).done
      else if tag.opens ["select"] || tag.ends ["select"] then
        if b.hasInScopeNamed .select "select" then
          let b := b.popThrough ["select"]
          { b with mode := b.resetMode }.done
        else b.done
      else if tag.opens ["input", "keygen", "textarea"] then
        if b.hasInScopeNamed .select "select" then b.leaveSelect else b.done
      else if tag.opens ["script", "template"] || tag.ends ["template"] then b.ruleInHead token
      else b.done

/-- Within a list of choices in a table: parts of the table end it. -/
def ruleInSelectInTable (b : Construction) (token : Token) : Construction × Reply :=
  let names := ["caption", "table", "tbody", "tfoot", "thead", "tr", "td", "th"]
  match token with
  | .tag tag =>
      if tag.opens names then b.leaveSelect
      else if tag.ends names then
        if b.hasInScopeNamed .table tag.name then b.leaveSelect else b.done
      else b.ruleInSelect token
  | _ => b.ruleInSelect token

/-- Goes on with the rules of a mode within a template. -/
def templateAs (b : Construction) (mode : Mode) : Construction × Reply :=
  { b with templateModes := mode :: b.templateModes.tail }.again mode

/-- Within a template, before a tag has shown what it holds. -/
def ruleInTemplate (b : Construction) (token : Token) : Construction × Reply :=
  match token with
  | .blank _ | .text _ | .comment _ => b.ruleInBody token
  | .null | .doctype _ _ => b.done
  | .endOfInput => b.ruleTemplateEnds
  | .tag tag =>
      if tag.opens headNames || tag.ends ["template"] then b.ruleInHead token
      else if tag.opens ["caption", "colgroup", "tbody", "tfoot", "thead"] then
        b.templateAs .inTable
      else if tag.opens ["col"] then b.templateAs .inColumnGroup
      else if tag.opens ["tr"] then b.templateAs .inTableBody
      else if tag.opens ["td", "th"] then b.templateAs .inRow
      else if tag.closing then b.done
      else b.templateAs .inBody

/-! ## Framesets -/

def ruleInFrameset (b : Construction) (token : Token) : Construction × Reply :=
  match token with
  | .blank run => (b.appendText run).done
  | .comment content => (b.appendComment content).done
  | .tag tag =>
      if tag.opens ["html"] then b.ruleRepeatedTop tag
      else if tag.opens ["frameset"] then (b.openFor tag).done
      else if tag.ends ["frameset"] then
        if b.stack.length = 1 then b.done
        else
          let b := b.pop
          (if !b.isFragment && !b.currentIs "frameset" then { b with mode := .afterFrameset }
           else b).done
      else if tag.opens ["frame"] then (b.addFor tag).done
      else if tag.opens ["noframes"] then b.ruleInHead token
      else b.done
  | _ => b.done

def ruleAfterFrameset (b : Construction) (token : Token) : Construction × Reply :=
  match token with
  | .blank run => (b.appendText run).done
  | .comment content => (b.appendComment content).done
  | .tag tag =>
      if tag.opens ["html"] then b.ruleRepeatedTop tag
      else if tag.ends ["html"] then { b with mode := .afterAfterFrameset }.done
      else if tag.opens ["noframes"] then b.ruleInHead token
      else b.done
  | _ => b.done

/-- After the `html` element around a frameset. -/
def ruleAfterAfterFrameset (b : Construction) (token : Token) : Construction × Reply :=
  match token with
  | .blank _ => b.ruleInBody token
  | .comment content => (b.appendCommentToDocument content).done
  | .tag tag =>
      if tag.opens ["html"] then b.ruleRepeatedTop tag
      else if tag.opens ["noframes"] then b.ruleInHead token
      else b.done
  | _ => b.done

end ServerPages.Markup.Construction
