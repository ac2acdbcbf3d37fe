import ServerPages.Markup.Construction.Body

/-!
# Tables

The rules for tables, their captions, columns, sections, rows and cells. What may
not stand in a table is put in front of it.
-/

namespace ServerPages.Markup.Construction

/-- Applies the rules of the body with misplaced nodes put in front of the table. -/
def ruleFostered (b : Construction) (token : Token) : Construction × Reply :=
  let (b, reply) := { b with fostering := true }.ruleInBody token
  ({ b with fostering := false }, reply)

def tableScope : List String := ["html", "table", "template"]

def sectionScope : List String := ["tbody", "tfoot", "thead", "template", "html"]

def rowScope : List String := ["tr", "template", "html"]

def sectionNames : List String := ["tbody", "tfoot", "thead"]

def cellNames : List String := ["td", "th"]

/-- Characters in a table are gathered until another token comes. -/
def ruleCharsInTable (b : Construction) (token : Token) : Construction × Reply :=
  if b.currentIn tableParts then { b with resume := b.mode }.again .inTableText
  else b.ruleFostered token

def ruleInTable (b : Construction) (token : Token) : Construction × Reply :=
  match token with
  | .null | .blank _ | .text _ => b.ruleCharsInTable token
  | .comment content => (b.appendComment content).done
  | .endOfInput => b.ruleInBody token
  | .doctype _ _ => b.done
  | .tag tag =>
      if tag.opens ["caption"] then
        { ((b.popDownTo tableScope).mark).openFor tag with mode := .inCaption }.done
      else if tag.opens ["colgroup"] then
        { (b.popDownTo tableScope).openFor tag with mode := .inColumnGroup }.done
      else if tag.opens ["col"] then
        ((b.popDownTo tableScope).openImplied "colgroup").again .inColumnGroup
      else if tag.opens sectionNames then
        { (b.popDownTo tableScope).openFor tag with mode := .inTableBody }.done
      else if tag.opens ["td", "th", "tr"] then
        ((b.popDownTo tableScope).openImplied "tbody").again .inTableBody
      else if tag.opens ["table"] then
        if b.hasInScopeNamed .table "table" then
          let b := b.popThrough ["table"]
          b.again b.resetMode
        else b.done
      else if tag.ends ["table"] then
        if b.hasInScopeNamed .table "table" then
          let b := b.popThrough ["table"]
          { b with mode := b.resetMode }.done
        else b.done
      else if tag.ends ["body", "caption", "col", "colgroup", "html", "tbody", "td", "tfoot", "th",
          "thead", "tr"] then b.done
      else if tag.opens ["style", "script", "template"] || tag.ends ["template"] then
        b.ruleInHead token
      else if tag.opens ["input"] then
        if isHidden tag then (b.addFor tag).done else b.ruleFostered token
      else if tag.opens ["form"] then
        if b.hasOpen "template" || b.form.isSome then b.done
        else
          let (id, b) := b.insert false .html tag.name (Vocabulary.html.attributes tag.attributes)
          { b with form := some id }.done
      else b.ruleFostered token

/-- The gathered characters of a table: blanks stay in it, anything else goes in front of it. -/
def releaseTableText (b : Construction) : Construction :=
  let pending := b.tableText
  let b := { b with tableText := [] }
  let isText : Token → Bool
    | .text _ => true
    | _ => false
  if pending.any isText then pending.foldl (fun b token => (b.ruleFostered token).1) b
  else
    pending.foldl (fun b token =>
      match token with
      | .blank run => b.appendText run
      | _ => b) b

def ruleInTableText (b : Construction) (token : Token) : Construction × Reply :=
  match token with
  | .null => b.done
  | .blank _ | .text _ => { b with tableText := b.tableText ++ [token] }.done
  | _ => b.releaseTableText.again b.resume

def ruleInCaption (b : Construction) (token : Token) : Construction × Reply :=
  match token with
  | .tag tag =>
      if tag.opens ["caption", "col", "colgroup", "tbody", "td", "tfoot", "th", "thead", "tr"] ||
          tag.ends ["table", "caption"] then
        if b.hasInScopeNamed .table "caption" then
          let b := (b.closeImplied.popThrough ["caption"]).unmark
          if tag.ends ["caption"] then { b with mode := .inTable }.done else b.again .inTable
        else b.done
      else if tag.ends ["body", "col", "colgroup", "html", "tbody", "td", "tfoot", "th", "thead",
          "tr"] then b.done
      else b.ruleInBody token
  | _ => b.ruleInBody token

def ruleInColumnGroup (b : Construction) (token : Token) : Construction × Reply :=
  let leave := if b.currentIs "colgroup" then b.pop.again .inTable else b.done
  match token with
  | .blank run => (b.appendText run).done
  | .comment content => (b.appendComment content).done
  | .endOfInput => b.ruleInBody token
  | .tag tag =>
      if tag.opens ["html"] then b.ruleRepeatedTop tag
      else if tag.opens ["col"] then (b.addFor tag).done
      else if tag.ends ["colgroup"] then
        (if b.currentIs "colgroup" then { b.pop with mode := .inTable } else b).done
      else if tag.ends ["col"] then b.done
      else if tag.opens ["template"] || tag.ends ["template"] then b.ruleInHead token
      else leave
  | _ => leave

def ruleInTableBody (b : Construction) (token : Token) : Construction × Reply :=
  match token with
  | .tag tag =>
      if tag.opens ["tr"] then
        { (b.popDownTo sectionScope).openFor tag with mode := .inRow }.done
      else if tag.opens cellNames then ((b.popDownTo sectionScope).openImplied "tr").again .inRow
      else if tag.ends sectionNames then
        (if b.hasInScopeNamed .table tag.name then
          { (b.popDownTo sectionScope).pop with mode := .inTable }
         else b).done
      else if tag.opens ["caption", "col", "colgroup", "tbody", "tfoot", "thead"] ||
          tag.ends ["table"] then
        if b.hasInScopeIn .table ["table", "tbody", "tfoot"] then
          (b.popDownTo sectionScope).pop.again .inTable
        else b.done
      else if tag.ends ["body", "caption", "col", "colgroup", "html", "td", "th", "tr"] then b.done
      else b.ruleInTable token
  | _ => b.ruleInTable token

def ruleInRow (b : Construction) (token : Token) : Construction × Reply :=
  let leave := (b.popDownTo rowScope).pop
  match token with
  | .tag tag =>
      if tag.opens cellNames then
        { ((b.popDownTo rowScope).openFor tag).mark with mode := .inCell }.done
      else if tag.ends ["tr"] then
        (if b.hasInScopeNamed .table "tr" then { leave with mode := .inTableBody } else b).done
      else if tag.opens ["caption", "col", "colgroup", "tbody", "tfoot", "thead", "tr"] ||
          tag.ends ["table"] then
        if b.hasInScopeNamed .table "tr" then leave.again .inTableBody else b.done
      else if tag.ends sectionNames then
        if b.hasInScopeNamed .table tag.name && b.hasInScopeNamed .table "tr" then
          leave.again .inTableBody
        else b.done
      else if tag.ends ["body", "caption", "col", "colgroup", "html", "td", "th"] then b.done
      else b.ruleInTable token
  | _ => b.ruleInTable token

def closeCell (b : Construction) : Construction :=
  (b.closeImplied.popThrough cellNames).unmark

def ruleInCell (b : Construction) (token : Token) : Construction × Reply :=
  match token with
  | .tag tag =>
      if tag.ends cellNames then
        (if b.hasInScopeNamed .table tag.name then
          { (b.closeImplied.popThrough [tag.name]).unmark with mode := .inRow }
         else b).done
      else if tag.opens ["caption", "col", "colgroup", "tbody", "td", "tfoot", "th", "thead",
          "tr"] then
        if b.hasInScopeIn .table cellNames then b.closeCell.again .inRow else b.done
      else if tag.ends ["body", "caption", "col", "colgroup", "html"] then b.done
      else if tag.ends ["table", "tbody", "tfoot", "thead", "tr"] then
        if b.hasInScopeNamed .table tag.name then b.closeCell.again .inRow else b.done
      else b.ruleInBody token
  | _ => b.ruleInBody token

end ServerPages.Markup.Construction
