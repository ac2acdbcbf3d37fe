import ServerPages.Markup.Construction.Accept
import ServerPages.Markup.Tree

/-!
# Parsing markup

Every text is markup: what is broken is mended the way browsers do. A document
always has a head and a body; a fragment is what stands in an element of a given
name. Scripts count as enabled, so what is meant for readers without them is text.
-/

namespace ServerPages.Markup

/-- Where the reading of a text stands: the tree so far, what the text is, and the name of the
latest opening tag. -/
structure Progress where
  tree : Construction
  content : Content
  element : Option String

namespace Progress

def feed (progress : Progress) (token : Token) : Progress :=
  let (tree, content) := progress.tree.accept token
  match token with
  | .tag tag =>
      { tree
        content := content.getD .markup
        element := if tag.closing then progress.element else some tag.name }
  | _ => { progress with tree }

/-- Takes all tokens of a text; each step takes a character at least. -/
def consume : Nat → Progress → List Char → Construction
  | 0, progress, _ => (progress.feed .endOfInput).tree
  | _ + 1, progress, [] => (progress.feed .endOfInput).tree
  | steps + 1, progress, chars =>
      let foreign := progress.tree.foreignLabel?.isSome
      let (tokens, rest) := scan progress.content progress.element foreign chars
      consume steps (tokens.foldl feed { progress with content := .markup }) rest

end Progress

/-- The trees of nodes under construction, of at most the given height. -/
def treesOf (forest : Forest Part) : Nat → List NodeId → List Tree
  | 0, _ => []
  | height + 1, ids =>
      ids.filterMap fun id =>
        match forest.kind? id with
        | some (.doctype name) => some (.doctype name)
        | some (.element vocabulary name attributes contents) =>
            let inside := (contents.map forest.children).getD []
            some (.element vocabulary (.plain name) attributes (treesOf forest height inside)
              (treesOf forest height (forest.children id)))
        | some (.text content) => some (.text content)
        | some (.comment content) => some (.comment content)
        | some .document | none => none

def construct (start : Construction) (content : Content) (text : String) : Construction :=
  let chars := normalize text.toList
  Progress.consume chars.length ⟨start, content, none⟩ chars

def parseDocument (text : String) : List Tree :=
  let forest := (construct (.start none) .markup text).forest
  treesOf forest forest.size (forest.children Forest.root)

def contentOf (context : String) : Content :=
  if ["title", "textarea"].contains context then .escapable
  else if ["style", "xmp", "iframe", "noembed", "noframes", "noscript"].contains context then .raw
  else if context = "script" then .script
  else if context = "plaintext" then .endless
  else .markup

def parseFragment (context text : String) : List Tree :=
  let start := (Construction.start (some context)).createTop []
  let start := { start with mode := start.resetMode }
  let forest := (construct start (contentOf context) text).forest
  match forest.children Forest.root with
  | top :: _ => treesOf forest forest.size (forest.children top)
  | [] => []

end ServerPages.Markup
