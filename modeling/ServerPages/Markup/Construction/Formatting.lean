import ServerPages.Markup.Construction.State

/-!
# Formatting elements

An element such as `b` that was closed by the end of its parent is opened again
where the text goes on. Where formatting elements and blocks overlap, the closing
tag of the formatting element splits it, so that the tree nests.
-/

namespace ServerPages.Markup.Construction

/-- Elements at which the search for the element of a closing tag stops. -/
def specialNames : List String :=
  ["address", "applet", "area", "article", "aside", "base", "basefont", "bgsound", "blockquote",
   "body", "br", "button", "caption", "center", "col", "colgroup", "dd", "details", "dir", "div",
   "dl", "dt", "embed", "fieldset", "figcaption", "figure", "footer", "form", "frame", "frameset",
   "h1", "h2", "h3", "h4", "h5", "h6", "head", "header", "hgroup", "hr", "html", "iframe", "img",
   "input", "isindex", "li", "link", "listing", "main", "marquee", "menu", "meta", "nav",
   "noembed", "noframes", "noscript", "object", "ol", "p", "param", "plaintext", "pre", "script",
   "section", "select", "source", "style", "summary", "table", "tbody", "td", "template",
   "textarea", "tfoot", "th", "thead", "title", "tr", "track", "ul", "wbr", "xmp"]

/-- The entries after the latest mark, the latest in front. -/
def sinceMarker (b : Construction) : List Formatting :=
  b.formatting.takeWhile fun entry => !entry.isMarker

def isFormatting (b : Construction) (id : NodeId) : Bool :=
  b.formatting.any (·.isOf id)

def forget (b : Construction) (id : NodeId) : Construction :=
  { b with formatting := b.formatting.eraseP (·.isOf id) }

def mark (b : Construction) : Construction :=
  { b with formatting := .marker :: b.formatting }

/-- Forgets formatting elements up to and including the latest mark. -/
def unmark (b : Construction) : Construction :=
  { b with formatting := (b.formatting.dropWhile fun entry => !entry.isMarker).tail }

/-- Two tags make the same element: the order of their attributes does not count. -/
def sameElement (first second : Tag) : Bool :=
  first.name == second.name && first.attributes.length == second.attributes.length &&
    first.attributes.all second.attributes.contains

/-- Adds the formatting element of a tag; the same element is kept at most three times. -/
def openFormatting (b : Construction) (tag : Tag) : Construction :=
  let same := b.sinceMarker.filterMap fun
    | .element id other => if sameElement tag other then some id else none
    | .marker => none
  let b :=
    match same.getLast? with
    | some earliest => if 3 ≤ same.length then b.forget earliest else b
    | none => b
  let (id, b) := b.openTag tag
  { b with formatting := .element id tag :: b.formatting }

/-- Opens formatting elements again that were closed by others. -/
def reconstruct (b : Construction) : Construction :=
  let waits : Formatting → Bool
    | .marker => false
    | .element id _ => !b.stack.contains id
  let closed := b.formatting.takeWhile waits
  let kept := b.formatting.dropWhile waits
  let reopen (state : Construction × List Formatting) (entry : Formatting) :
      Construction × List Formatting :=
    match entry with
    | .marker => state
    | .element _ tag =>
        let (id, b) := state.1.openTag tag
        (b, .element id tag :: state.2)
  let (b, formatting) := closed.reverse.foldl reopen (b, kept)
  { b with formatting }

/-- Closes the element of a closing tag that no rule of its own is for. -/
def closeOther (b : Construction) (name : String) : Construction :=
  let isEnd (id : NodeId) : Bool := b.isNamed name id || b.isIn specialNames id
  match b.stack.find? isEnd with
  | some id =>
      if b.isNamed name id then
        { b with stack := (b.stack.dropWhile (· ≠ id)).tail }
      else b
  | none => b

/-! ## Overlapping elements -/

/-- The work on the elements between a formatting element and the block within it: the node that
was moved last, the elements that stay open, and the place of the formatting element's successor
if it is not the element's own. -/
structure Split where
  state : Construction
  last : NodeId
  kept : List NodeId
  bookmark : Option NodeId
  count : Nat

/-- Takes the next element between the block and the formatting element: a formatting element
among the first three is doubled around what was moved last, any other is closed. -/
def Split.step (block : NodeId) (split : Split) (id : NodeId) : Split :=
  let b := split.state
  let count := split.count + 1
  match b.formatting.find? (·.isOf id) with
  | some (.element _ tag) =>
      if 3 < count then { split with state := b.forget id, count }
      else
        let (copy, b) := b.create .html tag.name (Vocabulary.html.attributes tag.attributes)
        let formatting := b.formatting.map fun entry =>
          if entry.isOf id then .element copy tag else entry
        let forest := (b.forest.detach split.last).attachLast copy split.last
        { state := { b with forest, formatting }
          last := copy
          kept := split.kept ++ [copy]
          bookmark := if split.last = block then some copy else split.bookmark
          count }
  | _ => { split with count }

def moveChildren (b : Construction) (source target : NodeId) : Construction :=
  let move (forest : Forest Part) (child : NodeId) : Forest Part :=
    (forest.detach child).attachLast target child
  { b with forest := (b.forest.children source).foldl move b.forest }

/-- Puts the successor of a formatting element into the entries. -/
def succeed (formatting : List Formatting) (id : NodeId) (bookmark : Option NodeId)
    (entry : Formatting) : List Formatting :=
  match bookmark with
  | none => formatting.map fun other => if other.isOf id then entry else other
  | some earlier =>
      (formatting.flatMap fun other =>
        if other.isOf earlier then [entry, other] else [other]).eraseP
        (·.isOf id)

/-- Splits the formatting element that a closing tag names around the block within it; whether
there may be more to split. -/
def adoptOnce (b : Construction) (name : String) : Construction × Bool :=
  let found := b.sinceMarker.findSome? fun
    | .element id tag => if tag.name = name then some (id, tag) else none
    | .marker => none
  match found with
  | none => (b.closeOther name, false)
  | some (id, tag) =>
      if !b.stack.contains id then (b.forget id, false)
      else if !b.hasInScope .element (· = id) then (b, false)
      else
        let above := b.stack.takeWhile (· ≠ id)
        let below := (b.stack.dropWhile (· ≠ id)).tail
        match above.reverse.find? (b.isIn specialNames), below.head? with
        | some block, some ancestor =>
            let higher := above.takeWhile (· ≠ block)
            let between := (above.dropWhile (· ≠ block)).tail
            let split := between.foldl (Split.step block) ⟨b, block, [], none, 0⟩
            let b := split.state
            let b := { b with forest := b.forest.detach split.last }
            let b := b.put (b.placeIn ancestor) split.last
            let (copy, b) := b.create .html tag.name (Vocabulary.html.attributes tag.attributes)
            let b := b.moveChildren block copy
            let b := { b with
              forest := b.forest.attachLast block copy
              formatting := succeed b.formatting id split.bookmark (.element copy tag)
              stack := higher ++ copy :: block :: split.kept ++ below }
            (b, true)
        | _, _ => ({ b.forget id with stack := below }, false)

def adopt (name : String) : Nat → Construction → Construction
  | 0, b => b
  | times + 1, b =>
      match b.adoptOnce name with
      | (b, true) => adopt name times b
      | (b, false) => b

def closeFormatting (b : Construction) (name : String) : Construction :=
  match b.stack with
  | id :: _ =>
      if b.isNamed name id && !b.isFormatting id then b.pop else adopt name 8 b
  | [] => b

end ServerPages.Markup.Construction
