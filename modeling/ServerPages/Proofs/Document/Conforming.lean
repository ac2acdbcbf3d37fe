import Mathlib.Tactic.FinCases
import ServerPages.Proofs.Markup.Insertion

/-!
# Trees that say what they are

A tree stands as it is written if every element in it stands where its own opening tag would put
it: no tag ends or moves an element that it is written in. Most rules of markup that end elements
unasked make no such tree; where overlapping elements or misplaced parts of tables were mended,
what is left may be one that no markup stands for.

Texts that go on to the end of the input have no closing tag, so that nothing can be written behind
them, and what stands in a template is either flow or parts of a table. What the writer does not
keep is left out: a line feed at the start of preformatted text or of a text area, carriage returns,
elements in other vocabularies with the names of void HTML elements, and texts with references in
those with the names of HTML elements whose texts have none.
-/

namespace ServerPages.Markup

open Construction (Scope markNames outdatedNames blockNames headingNames formattingNames
  misplacedNames impliedNames specialNames headNames cellNames breaksOut Spelled)
open Text (equalUpToCase)

/-! ## Elements of the body -/

/-- How an element stands in the body. -/
inductive Role
  /-- Its tag opens nothing in the body, or something that no closing tag ends. -/
  | unplaced
  | leaf
  | rule
  | outdated
  | text (content : Content)
  | verbatim
  | block
  | heading
  | preformatted
  | form
  | item
  | term
  | button
  | link
  | formatting
  | unbroken
  | object
  | table
  | template
  | select
  | choice
  | rubyBase
  | rubyText
  | foreign (vocabulary : Vocabulary)
  | ordinary
  deriving DecidableEq, Repr

namespace Role

def names : Role → List String
  | unplaced => ["html", "head", "body", "frameset", "plaintext", "image"] ++ misplacedNames
  | leaf => ["area", "base", "br", "embed", "img", "input", "link", "meta", "param", "source",
      "track", "wbr"]
  | rule => ["hr"]
  | outdated => outdatedNames
  | text .escapable => ["textarea", "title"]
  | text .raw => ["iframe", "noembed", "noframes", "noscript", "style"]
  | text .script => ["script"]
  | text _ => []
  | verbatim => ["xmp"]
  | block => blockNames
  | heading => headingNames
  | preformatted => ["listing", "pre"]
  | form => ["form"]
  | item => ["li"]
  | term => ["dd", "dt"]
  | button => ["button"]
  | link => ["a"]
  | formatting => formattingNames
  | unbroken => ["nobr"]
  | object => ["applet", "marquee", "object"]
  | table => ["table"]
  | template => ["template"]
  | select => ["select"]
  | choice => ["optgroup", "option"]
  | rubyBase => ["rb", "rtc"]
  | rubyText => ["rp", "rt"]
  | foreign .svg => ["svg"]
  | foreign .math => ["math"]
  | foreign .html => []
  | ordinary => []

def named : List Role :=
  [unplaced, leaf, rule, outdated, text .escapable, text .raw, text .script, verbatim, block,
   heading, preformatted, form, item, term, button, link, formatting, unbroken, object, table,
   template, select, choice, rubyBase, rubyText, foreign .svg, foreign .math]

def of (name : String) : Role :=
  (named.find? fun role => role.names.contains name).getD ordinary

/-- An element of its name is in a role. -/
theorem mem_names_of (name : String) : name ∈ (of name).names ∨ of name = ordinary := by
  unfold of
  cases found : named.find? fun role => role.names.contains name with
  | none => exact .inr rfl
  | some role =>
      have holds := List.find?_some (p := fun role : Role => role.names.contains name) found
      exact .inl (List.contains_iff_mem.mp holds)

theorem mem_names {name : String} {role : Role} (same : of name = role) (known : role ≠ ordinary) :
    name ∈ role.names := by
  have among := mem_names_of name
  rw [same] at among
  exact among.resolve_right known

/-- Names of elements in other roles are not the name of one. -/
theorem not_contains {name : String} {role : Role} (same : of name = role) {names : List String}
    (others : names.all (of · != role) = true) : names.contains name = false := by
  rw [Bool.eq_false_iff]
  intro inside
  have other := List.all_eq_true.mp others name (List.contains_iff_mem.mp inside)
  rw [same] at other
  simp at other

theorem ne_of_role {name other : String} {role : Role} (same : of name = role)
    (differs : (of other != role) = true) : name ≠ other := by
  rintro rfl
  simp [same] at differs

theorem marked_of_object {name : String} (named : name ∈ object.names) :
    Label.isIn markNames (.html, name) = true := by
  fin_cases named <;> rfl

theorem formatting_of_mem {role : Role} (known : role ∈ [link, formatting, unbroken])
    {name : String} (named : name ∈ role.names) : name ∈ ["a", "nobr"] ++ formattingNames := by
  fin_cases known <;> fin_cases named <;> decide

def endsParagraph (legacy : Bool) : Role → Bool
  | rule | verbatim | block | heading | preformatted | form | item | term => true
  | table => !legacy
  | _ => false

def endsItem (names : List String) (path : List Label) : Bool :=
  let bounds := ((specialNames.erase "address").erase "div").erase "p"
  match path.find? fun label => label.isIn names || label.isIn bounds with
  | some label => names.contains label.2
  | none => false

def headIn (names : List String) (path : List Label) : Bool :=
  (path.head?.map (·.isIn names)).getD false

def inTemplate (path : List Label) : Bool :=
  path.any (·.isIn ["template"])

/-- A form is open and not hidden by a template, so that no other may be. -/
def inForm (path : List Label) : Bool :=
  path.any (·.isIn ["form"]) && !inTemplate path

/-- Between the latest HTML element and what stands in it is an element of the name that is not
HTML, up to capitals. -/
def hasNamesake (name : String) (path : List Label) : Bool :=
  (path.takeWhile (·.1 != .html)).any (equalUpToCase ·.2 name)

/-- The opening tag of an element in a role ends something else that it stands in, or counts for
nothing. -/
def endsOther (path : List Label) : Role → Bool
  | heading => headIn headingNames path
  | form => inForm path
  | item => endsItem ["li"] path
  | term => endsItem ["dd", "dt"] path
  | button => Scope.element.holds ["button"] path
  | link => (path.takeWhile fun label => !label.isIn markNames).any (·.isIn ["a"])
  | unbroken => Scope.element.holds ["nobr"] path
  | choice => headIn ["option"] path
  | rubyBase => Scope.element.holds ["ruby"] path && headIn impliedNames path
  | rubyText => Scope.element.holds ["ruby"] path && headIn (impliedNames.erase "rtc") path
  | _ => false

/-- The opening tag of an element in a role does nothing but open it, or add it. -/
def staysAlone (legacy : Bool) (path : List Label) (role : Role) : Bool :=
  !(role.endsParagraph legacy && Scope.button.holds ["p"] path) && !role.endsOther path

end Role

/-! ## What elements hold -/

inductive Area
  | head
  /-- Between the head and the body. -/
  | gap
  | flow
  | foreign
  /-- In an annotation in MathML that does not hold HTML. -/
  | notes
  | table
  | rows
  | cells
  | columns
  | choices
  /-- In a template, up to the first element that shows what it holds. -/
  | template
  | frames
  /-- Behind a frameset. -/
  | late
  deriving DecidableEq, Repr

inductive Inside
  /-- Nothing, and no closing tag is written. -/
  | nothing
  /-- Nothing, though a closing tag is written. -/
  | hollow
  /-- A text that is not markup. -/
  | text (content : Content)
  | nodes (area : Area)
  /-- What a template holds. -/
  | template
  deriving DecidableEq, Repr

/-- Elements of a name are written as what they hold: with a closing tag unless that is nothing, and
if it is a text, with references where it has them. -/
def Inside.isWrittenIn (name : String) : Inside → Bool
  | nothing => isVoid name
  | text .escapable => !isVoid name && !isRawText name
  | text .raw | text .script => !isVoid name && isRawText name
  | text _ => false
  | hollow | nodes _ | template => !isVoid name

/-- What the elements in a role hold, and their vocabulary. -/
def Role.inside : Role → Option (Vocabulary × Inside)
  | unplaced => none
  | leaf | rule => some (.html, .nothing)
  | outdated => some (.html, .hollow)
  | text content => some (.html, .text content)
  | verbatim => some (.html, .text .raw)
  | table => some (.html, .nodes .table)
  | template => some (.html, .template)
  | select => some (.html, .nodes .choices)
  | foreign vocabulary => some (vocabulary, .nodes .foreign)
  | _ => some (.html, .nodes .flow)

namespace Area

/-- Nothing but blanks and elements may stand in the area, within the elements of a path. -/
def isBlank (path : List Label) : Area → Bool
  | flow | foreign | notes | choices | template => false
  | table | rows | cells => !Role.headIn ["template"] path
  | head | gap | columns | frames | late => true

def holdsHtml (data : Element) : Bool :=
  data.attributes.any fun item =>
    item.1 = "encoding" &&
      (equalUpToCase item.2 "text/html" || equalUpToCase item.2 "application/xhtml+xml")

def within (vocabulary : Vocabulary) (data : Element) : Area :=
  if isMathTextPoint vocabulary data.name || isSvgPoint vocabulary data.name then flow
  else if (vocabulary, data.name) = (.math, "annotation-xml") then
    if holdsHtml data then flow else notes
  else foreign

/-- Names of elements that nothing may flow in. -/
def boundNames : List String :=
  ["colgroup", "frameset", "head", "html", "select", "table", "tbody", "template", "tfoot", "thead",
   "tr"]

def frameNames : List String := cellNames ++ ["caption", "body"] ++ boundNames

/-- The elements that a list of choices stands in, among those that its choices stand in. -/
def aroundChoices (path : List Label) : List Label :=
  (path.dropWhile (·.isIn ["optgroup", "option"])).tail

def choiceMode (around : List Label) : Mode :=
  match around.find? (·.isIn frameNames) with
  | some label => if label.isIn (cellNames ++ ["caption"]) then .inSelectInTable else .inSelect
  | none => .inSelect

/-- The mode that a list of choices is read in behind a template in it. It is another one in a cell
or a caption that stands in a template without a table. -/
def choiceModeAgain (around : List Label) : Mode :=
  match around.find? (·.isIn ["template", "table"]) with
  | some label => if label.isIn ["table"] then .inSelectInTable else .inSelect
  | none => .inSelect

/-- Elements that belong into the head and may stand in templates as well. -/
def amongHead (data : Element) : Option (Vocabulary × Inside) :=
  if ["base", "link", "meta"].contains data.name then some (.html, .nothing)
  else if ["basefont", "bgsound"].contains data.name then some (.html, .hollow)
  else if data.name = "title" then some (.html, .text .escapable)
  else if ["noframes", "style"].contains data.name then some (.html, .text .raw)
  else if data.name = "script" then some (.html, .text .script)
  else if data.name = "template" then some (.html, .template)
  else none

/-- Elements that may stand in any part of a table. A form there is one that holds nothing. -/
def amongParts (path : List Label) (data : Element) : Option (Vocabulary × Inside) :=
  if data.name = "style" then some (.html, .text .raw)
  else if data.name = "script" then some (.html, .text .script)
  else if data.name = "template" then some (.html, .template)
  else if data.name = "input" && Construction.isHidden (openingTag data) then
    some (.html, .nothing)
  else if data.name = "form" && !path.any (·.isIn ["form"]) && !Role.inTemplate path then
    some (.html, .hollow)
  else none

/-- What an element holds that may stand in an area within the elements of a path, and its
vocabulary. -/
def admits (legacy : Bool) (path : List Label) (data : Element) :
    Area → Option (Vocabulary × Inside)
  | head => if data.name = "noscript" then some (.html, .text .raw) else amongHead data
  | gap => none
  | flow =>
      let atMathText := (path.head?.map fun label => isMathTextPoint label.1 label.2).getD false
      if atMathText && ["malignmark", "mglyph"].contains data.name then
        some (.math, .nodes .foreign)
      else if Role.of data.name = .outdated && Role.hasNamesake data.name path then none
      else if (Role.of data.name).staysAlone legacy path then (Role.of data.name).inside
      else none
  | foreign =>
      match path with
      | (vocabulary, _) :: _ =>
          if breaksOut (openingTag data) then none
          else some (vocabulary, .nodes (within vocabulary data))
      | [] => none
  | notes =>
      if breaksOut (openingTag data) then none
      else if data.name = "svg" then some (.svg, .nodes .foreign)
      else some (.math, .nodes (within .math data))
  | table =>
      if data.name = "caption" then some (.html, .nodes flow)
      else if data.name = "colgroup" then some (.html, .nodes columns)
      else if ["tbody", "tfoot", "thead"].contains data.name then some (.html, .nodes rows)
      else amongParts path data
  | rows => if data.name = "tr" then some (.html, .nodes cells) else amongParts path data
  | cells =>
      if ["td", "th"].contains data.name then some (.html, .nodes flow) else amongParts path data
  | columns =>
      if data.name = "col" then some (.html, .nothing)
      else if data.name = "template" then some (.html, .template)
      else none
  | choices =>
      if data.name = "script" then some (.html, .text .script)
      else if data.name = "template" then
        let around := aroundChoices path
        if choiceMode around = choiceModeAgain around then some (.html, .template) else none
      else if Role.headIn ["option"] path then none
      else if data.name = "option" then some (.html, .nodes choices)
      else if data.name = "optgroup" && !Role.headIn ["optgroup"] path then
        some (.html, .nodes choices)
      else none
  | template => amongHead data
  | frames =>
      if data.name = "frameset" then some (.html, .nodes frames)
      else if data.name = "frame" then some (.html, .hollow)
      else if data.name = "noframes" then some (.html, .text .raw)
      else none
  | late => if data.name = "noframes" then some (.html, .text .raw) else none

def ofTemplate (name : String) : Area :=
  if ["caption", "colgroup", "tbody", "tfoot", "thead"].contains name then table
  else if name = "col" then columns
  else if name = "tr" then rows
  else if ["td", "th"].contains name then cells
  else flow

/-- The area that a tree stands in, and those behind it: in a template the first element that does
not belong into the head shows what the template holds. -/
def turn (area : Area) : Subtree → Area
  | .element data _ =>
      if area = template && !headNames.contains data.name then ofTemplate data.name else area
  | _ => area

end Area

end ServerPages.Markup

namespace ServerPages.Subtree

open Markup

def leadWithLineFeed : List Subtree → Bool
  | .text content :: _ | .raw content :: _ => content.toList.head? == some '\n'
  | _ => false

def dropsLineFeed (vocabulary : Vocabulary) (name : String) : Bool :=
  vocabulary == .html && ["listing", "pre", "textarea"].contains name

theorem dropsLineFeed_of_preformatted {name : String}
    (named : name ∈ Role.preformatted.names) : dropsLineFeed .html name = true := by
  fin_cases named <;> rfl

/-- The contents of an element that holds text are one text, which ends at the closing tag, or
nothing. -/
def FitsText (content : Content) (data : Element) : List Subtree → Prop
  | [] => EndsAtTag content data []
  | [.text held] => content.isBare = false ∧ held ≠ "" ∧ IsClean held.toList ∧
      EndsAtTag content data []
  | [.raw held] => content.isBare = true ∧ held ≠ "" ∧ IsClean held.toList ∧
      EndsAtTag content data held.toList
  | _ => False

/-- The contents of an element are what it holds, given what fits an area. -/
def FitInside (inside : Inside) (data : Element) (children : List Subtree) (fit : Area → Prop) :
    Prop :=
  match inside with
  | .nothing | .hollow => children = []
  | .text content => FitsText content data children
  | .nodes area => fit area
  | .template => fit .template

def isChars : Subtree → Bool
  | .text _ | .raw _ => true
  | _ => false

def isBareIn (path : List Label) : Bool :=
  (path.head?.map fun label => isRawText label.2).getD false

structure FitsAsText (area : Area) (path : List Label) (content : String) : Prop where
  some : content ≠ ""
  clean : IsClean content.toList
  blank : area.isBlank path = true → content.toList.all isSpace = true

mutual

/-- A tree that may stand in an area within the elements of a path. -/
def Fits (legacy : Bool) (area : Area) (path : List Label) : Subtree → Prop
  | .text content => isBareIn path = false ∧ FitsAsText area path content
  | .raw content =>
      isBareIn path = true ∧
        ('<' ∉ content.toList ∧ resolve false content.toList = content.toList) ∧
        FitsAsText area path content
  | .comment content => IsComment content.toList
  | .element data children =>
      Writable data ∧ match area.admits legacy path data with
        | none => False
        | some (vocabulary, inside) =>
            Construction.Spelled vocabulary data ∧ inside.isWrittenIn data.name = true ∧
              (dropsLineFeed vocabulary data.name = true → leadWithLineFeed children = false) ∧
              FitInside inside data children fun area =>
                AllFit legacy area ((vocabulary, data.name) :: path) children
  | _ => False

/-- Trees one after the other that may stand in an area; no text follows a text. -/
def AllFit (legacy : Bool) (area : Area) (path : List Label) : List Subtree → Prop
  | [] => True
  | tree :: trees =>
      Fits legacy (area.turn tree) path tree ∧ AllFit legacy (area.turn tree) path trees ∧
        (tree.isChars = true → trees.head?.map isChars ≠ some true)

end

/-! ## Deciding -/

instance (vocabulary : Vocabulary) (data : Element) :
    Decidable (Construction.Spelled vocabulary data) :=
  have := List.decidableBAll (fun item : String × String =>
    (vocabulary.attributeName (keptName item.1.toList)).text = item.1) data.attributes
  decidable_of_iff (vocabulary.elementName (keptName data.name.toList) = data.name ∧
      ∀ item ∈ data.attributes, (vocabulary.attributeName (keptName item.1.toList)).text = item.1)
    ⟨fun ⟨a, b⟩ => ⟨a, b⟩, fun ⟨a, b⟩ => ⟨a, b⟩⟩

instance (data : Element) : Decidable (Writable data) :=
  have := List.decidableBAll (fun item : String × String => isAttributeName item.1 = true)
    data.attributes
  have := List.decidableBAll (fun item : String × String => IsClean item.2.toList) data.attributes
  decidable_of_iff (isTagName data.name = true ∧
      (∀ item ∈ data.attributes, isAttributeName item.1 = true) ∧
      (data.attributes.map (keptItem ·) |>.map (·.1)).Nodup ∧
      ∀ item ∈ data.attributes, IsClean item.2.toList)
    ⟨fun ⟨a, b, c, d⟩ => ⟨a, b, c, d⟩, fun ⟨a, b, c, d⟩ => ⟨a, b, c, d⟩⟩

instance FitsText.decidable (content : Content) (data : Element) :
    (children : List Subtree) → Decidable (FitsText content data children)
  | [] => inferInstanceAs (Decidable (EndsAtTag content data []))
  | [.text held] => inferInstanceAs (Decidable (content.isBare = false ∧ held ≠ "" ∧
      IsClean held.toList ∧ EndsAtTag content data []))
  | [.raw held] => inferInstanceAs (Decidable (content.isBare = true ∧ held ≠ "" ∧
      IsClean held.toList ∧ EndsAtTag content data held.toList))
  | [.document _] | [.doctype _] | [.element _ _] | [.comment _] =>
      inferInstanceAs (Decidable False)
  | tree :: _ :: _ => .isFalse fun fits => by cases tree <;> exact fits

instance (area : Area) (path : List Label) (content : String) :
    Decidable (FitsAsText area path content) :=
  decidable_of_iff (content ≠ "" ∧ IsClean content.toList ∧
      (area.isBlank path = true → content.toList.all isSpace = true))
    ⟨fun ⟨a, b, c⟩ => ⟨a, b, c⟩, fun ⟨a, b, c⟩ => ⟨a, b, c⟩⟩

instance (inside : Inside) (data : Element) (children : List Subtree) (fit : Area → Prop)
    [(area : Area) → Decidable (fit area)] : Decidable (FitInside inside data children fit) :=
  match inside with
  | .nothing | .hollow => inferInstanceAs (Decidable (children = []))
  | .text content => inferInstanceAs (Decidable (FitsText content data children))
  | .nodes area => inferInstanceAs (Decidable (fit area))
  | .template => inferInstanceAs (Decidable (fit .template))

mutual

instance Fits.decidable (legacy : Bool) (area : Area) (path : List Label) :
    (tree : Subtree) → Decidable (Fits legacy area path tree)
  | .text content =>
      inferInstanceAs (Decidable (isBareIn path = false ∧ FitsAsText area path content))
  | .raw content => inferInstanceAs (Decidable (isBareIn path = true ∧
      ('<' ∉ content.toList ∧ resolve false content.toList = content.toList) ∧
      FitsAsText area path content))
  | .comment content => inferInstanceAs (Decidable (IsComment content.toList))
  | .element data children =>
      match admitted : area.admits legacy path data with
      | none => .isFalse (by simp [Fits, admitted])
      | some (vocabulary, inside) =>
          have (area : Area) :=
            AllFit.decidable legacy area ((vocabulary, data.name) :: path) children
          decidable_of_iff (Writable data ∧ Construction.Spelled vocabulary data ∧
              inside.isWrittenIn data.name = true ∧
              (dropsLineFeed vocabulary data.name = true → leadWithLineFeed children = false) ∧
              FitInside inside data children fun area =>
                AllFit legacy area ((vocabulary, data.name) :: path) children)
            (by rw [Fits, admitted])
  | .document _ | .doctype _ => inferInstanceAs (Decidable False)

instance AllFit.decidable (legacy : Bool) (area : Area) (path : List Label) :
    (trees : List Subtree) → Decidable (AllFit legacy area path trees)
  | [] => inferInstanceAs (Decidable True)
  | tree :: trees =>
      have := Fits.decidable legacy (area.turn tree) path tree
      have := AllFit.decidable legacy (area.turn tree) path trees
      inferInstanceAs (Decidable (Fits legacy (area.turn tree) path tree ∧
        AllFit legacy (area.turn tree) path trees ∧
        (tree.isChars = true → trees.head?.map isChars ≠ some true)))

end

end ServerPages.Subtree

namespace ServerPages

open Markup

/-! ## Pages -/

/-- What a page shows: a body, with comments behind it, or frames, with what stands behind them. -/
inductive Display
  | body (data : Element) (held : List Subtree) (late : List String)
  | frames (data : Element) (held late : List Subtree)

structure Layout where
  /-- Comments in front of everything. -/
  before : List String
  /-- The name of the document type, and comments behind that. -/
  doctype : Option (String × List String)
  top : Element
  /-- Comments in front of the head. -/
  early : List String
  head : Element
  inHead : List Subtree
  /-- What stands between the head and what is shown. -/
  gap : List Subtree
  display : Display
  /-- Comments behind everything. -/
  after : List String

namespace Layout

def comments (contents : List String) : List Subtree :=
  contents.map .comment

structure IsPart (name : String) (data : Element) : Prop where
  named : data.name = name
  writable : Writable data
  spelled : Construction.Spelled .html data

instance (name : String) (data : Element) : Decidable (IsPart name data) :=
  decidable_of_iff (data.name = name ∧ Writable data ∧ Construction.Spelled .html data)
    ⟨fun ⟨a, b, c⟩ => ⟨a, b, c⟩, fun ⟨a, b, c⟩ => ⟨a, b, c⟩⟩

end Layout

namespace Display

def trees : Display → List Subtree
  | body data held late => .element data held :: Layout.comments late
  | frames data held late => .element data held :: late

def Fits (legacy : Bool) : Display → Prop
  | body data held late =>
      Layout.IsPart "body" data ∧
        Subtree.AllFit legacy .flow [(.html, "body"), (.html, "html")] held ∧
        ∀ content ∈ late, IsComment content.toList
  | frames data held late =>
      Layout.IsPart "frameset" data ∧
        Subtree.AllFit legacy .frames [(.html, "frameset"), (.html, "html")] held ∧
        Subtree.AllFit legacy .late [(.html, "html")] late

instance (legacy : Bool) : (display : Display) → Decidable (display.Fits legacy)
  | body data held late =>
      have := List.decidableBAll (fun content : String => IsComment content.toList) late
      inferInstanceAs (Decidable (Layout.IsPart "body" data ∧
        Subtree.AllFit legacy .flow [(.html, "body"), (.html, "html")] held ∧
        ∀ content ∈ late, IsComment content.toList))
  | frames data held late =>
      inferInstanceAs (Decidable (Layout.IsPart "frameset" data ∧
        Subtree.AllFit legacy .frames [(.html, "frameset"), (.html, "html")] held ∧
        Subtree.AllFit legacy .late [(.html, "html")] late))

end Display

namespace Layout

def prolog (page : Layout) : List Subtree :=
  comments page.before ++
    match page.doctype with
    | some (name, between) => .doctype name :: comments between
    | none => []

def inTop (page : Layout) : List Subtree :=
  comments page.early ++ .element page.head page.inHead :: (page.gap ++ page.display.trees)

def trees (page : Layout) : List Subtree :=
  page.prolog ++ .element page.top page.inTop :: comments page.after

/-- Without a document type, or with another than that of HTML, tables have the old layout. -/
def legacy (page : Layout) : Bool :=
  match page.doctype with
  | some (name, _) => name != "html"
  | none => true

/-- Every part of the page stands where it is written, as what it is written as. -/
structure Fits (page : Layout) : Prop where
  comments :
    ∀ content ∈ page.before ++ (page.doctype.map (·.2)).getD [] ++ page.early ++ page.after,
      IsComment content.toList
  doctype : ∀ item ∈ page.doctype, IsDoctypeName item.1
  top : IsPart "html" page.top
  head : IsPart "head" page.head
  inHead : Subtree.AllFit page.legacy .head [(.html, "head"), (.html, "html")] page.inHead
  gap : Subtree.AllFit page.legacy .gap [(.html, "html")] page.gap
  display : page.display.Fits page.legacy

instance (page : Layout) : Decidable page.Fits :=
  have := List.decidableBAll (fun content : String => IsComment content.toList) (page.before ++
    (page.doctype.map (·.2)).getD [] ++ page.early ++ page.after)
  have := List.decidableBAll (fun item : String × List String => IsDoctypeName item.1)
    page.doctype.toList
  decidable_of_iff ((∀ content ∈ page.before ++ (page.doctype.map (·.2)).getD [] ++ page.early ++
      page.after, IsComment content.toList) ∧
    (∀ item ∈ page.doctype.toList, IsDoctypeName item.1) ∧
    IsPart "html" page.top ∧ IsPart "head" page.head ∧
    Subtree.AllFit page.legacy .head [(.html, "head"), (.html, "html")] page.inHead ∧
    Subtree.AllFit page.legacy .gap [(.html, "html")] page.gap ∧ page.display.Fits page.legacy)
    ⟨fun ⟨a, b, c, d, e, f, g⟩ =>
        ⟨a, fun item known => b item (Option.mem_toList.mpr known), c, d, e, f, g⟩,
      fun ⟨a, b, c, d, e, f, g⟩ =>
        ⟨a, fun item known => b item (Option.mem_toList.mp known), c, d, e, f, g⟩⟩

end Layout

end ServerPages
