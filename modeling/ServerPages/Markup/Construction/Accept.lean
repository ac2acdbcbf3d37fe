import ServerPages.Markup.Construction.Select

/-!
# From tokens to a tree

A token falls under the rules of the mode, or under those of elements that are not
HTML if the latest open element is one and the token does not lead back to HTML.
-/

namespace ServerPages.Markup.Construction

def rule (b : Construction) (mode : Mode) (token : Token) : Construction × Reply :=
  match mode with
  | .initial => b.ruleInitial token
  | .beforeHtml => b.ruleBeforeHtml token
  | .beforeHead => b.ruleBeforeHead token
  | .inHead => b.ruleInHead token
  | .afterHead => b.ruleAfterHead token
  | .inBody => b.ruleInBody token
  | .inText => b.ruleInText token
  | .inTable => b.ruleInTable token
  | .inTableText => b.ruleInTableText token
  | .inCaption => b.ruleInCaption token
  | .inColumnGroup => b.ruleInColumnGroup token
  | .inTableBody => b.ruleInTableBody token
  | .inRow => b.ruleInRow token
  | .inCell => b.ruleInCell token
  | .inSelect => b.ruleInSelect token
  | .inSelectInTable => b.ruleInSelectInTable token
  | .inTemplate => b.ruleInTemplate token
  | .afterBody => b.ruleAfterBody token
  | .inFrameset => b.ruleInFrameset token
  | .afterFrameset => b.ruleAfterFrameset token
  | .afterAfterBody => b.ruleAfterAfterBody token
  | .afterAfterFrameset => b.ruleAfterAfterFrameset token

/-! ## Elements that are not HTML -/

/-- The latest open element if it is not HTML; at the top of a fragment the element that the
fragment is read for, which is HTML, counts instead. -/
def foreignLabel? (b : Construction) : Option (NodeId × Vocabulary × String) :=
  match b.stack with
  | [] => none
  | id :: below =>
      if below.isEmpty && b.isFragment then none
      else
        match b.label? id with
        | some (vocabulary, name) =>
            if vocabulary = .html then none else some (id, vocabulary, name)
        | none => none

/-- An annotation in MathML holds HTML if it says so. -/
def annotatesHtmlAt (b : Construction) (id : NodeId) : Bool :=
  match b.forest.kind? id with
  | some (.element _ _ attributes _) => annotatesHtml attributes
  | _ => false

def isForeign (b : Construction) (token : Token) : Bool :=
  match token, b.foreignLabel? with
  | .endOfInput, _ => false
  | _, none => false
  | _, some (id, vocabulary, name) =>
      let isChars :=
        match token with
        | .blank _ | .text _ | .null => true
        | _ => false
      let opened :=
        match token with
        | .tag tag => if tag.closing then none else some tag.name
        | _ => none
      let atMathText := isMathTextPoint vocabulary name &&
        (isChars || (opened.map fun n => n != "mglyph" && n != "malignmark").getD false)
      let atSvg := isSvgPoint vocabulary name && (isChars || opened.isSome)
      let atAnnotation := vocabulary = .math && name = "annotation-xml" &&
        (opened == some "svg" || ((isChars || opened.isSome) && b.annotatesHtmlAt id))
      !(atMathText || atSvg || atAnnotation)

/-- Closes elements until one is HTML or holds HTML. -/
def popForeign (b : Construction) : Construction :=
  { b with stack := b.stack.dropWhile fun id =>
      match b.label? id with
      | some (vocabulary, name) =>
          !(vocabulary == .html || isMathTextPoint vocabulary name || isSvgPoint vocabulary name)
      | none => false }

def openWithin (b : Construction) (tag : Tag) : Construction :=
  match b.foreignLabel? with
  | some (_, vocabulary, _) => b.openForeign vocabulary (vocabulary.elementName tag.name) tag
  | none => b.openFor tag

/-- A closing tag closes the latest element of its name, whatever its case, up to the latest HTML
element, whose rules it then falls under. The bottom of the stack is never closed. -/
def closeWithin (b : Construction) (tag : Tag) : Bool → List NodeId → Construction × Reply
  | _, [] => b.done
  | _, [_] => b.done
  | first, id :: below =>
      match b.label? id with
      | some (vocabulary, name) =>
          if !first && vocabulary = .html then b.rule b.mode (.tag tag)
          else if Text.equalUpToCase name tag.name then { b with stack := below }.done
          else b.closeWithin tag false below
      | none => b.closeWithin tag false below

def breaksOut (tag : Tag) : Bool :=
  tag.opens breakoutNames || tag.ends ["br", "p"] ||
    (tag.opens ["font"] && tag.attributes.any fun item =>
      ["color", "face", "size"].contains item.1)

def ruleForeign (b : Construction) (token : Token) : Construction × Reply :=
  match token with
  | .null => (b.appendText [replacement]).done
  | .blank run => (b.appendText run).done
  | .text run => (b.settle.appendText run).done
  | .comment content => (b.appendComment content).done
  | .doctype _ _ | .endOfInput => b.done
  | .tag tag =>
      if breaksOut tag then
        let b := b.popForeign
        b.rule b.mode token
      else if tag.closing then b.closeWithin tag true b.stack
      else (b.openWithin tag).done

/-! ## Tokens -/

/-- Applies rules to a token until it is done; `steps` bounds their number. -/
def process : Nat → Construction → Token → Construction × Option Content
  | 0, b, _ => (b, none)
  | steps + 1, b, token =>
      match if b.isForeign token then b.ruleForeign token else b.rule b.mode token with
      | (b, .done) => (b, none)
      | (b, .again) => process steps b token
      | (b, .read content) => (b, some content)

/-- The number of rules that one token may fall under: some for every open element, and some for
the elements that have to be there. -/
def patience (b : Construction) : Nat :=
  4 * (b.stack.length + b.templateModes.length) + 16

def withoutLineFeed : List Char → List Char
  | '\n' :: rest => rest
  | run => run

/-- Takes the next token; what the text after it is, if that is not markup. -/
def accept (b : Construction) (token : Token) : Construction × Option Content :=
  let drop := b.dropLineFeed
  let b := { b with dropLineFeed := false }
  let trimmed (run : List Char) : List Char := if drop then withoutLineFeed run else run
  match token with
  | .doctype name legacy =>
      if b.mode = .initial then
        let (id, forest) := b.forest.create (.doctype name)
        let b := { b with forest, legacy, mode := .beforeHtml }
        (b.put (.last Forest.root) id, none)
      else (b, none)
  | .blank run =>
      let run := trimmed run
      if run.isEmpty then (b, none) else process b.patience b (.blank run)
  | .text run =>
      let run := trimmed run
      if run.isEmpty then (b, none) else process b.patience b (.text run)
  | _ => process b.patience b token

end ServerPages.Markup.Construction
