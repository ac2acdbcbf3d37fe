import ServerPages.Text.Ascii

/-!
# Classes of element names

Void elements have neither contents nor a closing tag. The contents of raw text
elements are not markup and are written as they are.
-/

namespace ServerPages.Markup

open Text

def voidNames : List String :=
  ["area", "base", "br", "col", "embed", "hr", "img", "input", "link", "meta", "param", "source",
   "track", "wbr"]

/-- Elements without contents and closing tag. -/
def isVoid (name : String) : Bool :=
  voidNames.any (equalUpToCase · name)

def rawTextNames : List String :=
  ["script", "style", "xmp", "iframe", "noembed", "noframes", "noscript", "plaintext"]

/-- Elements whose contents are not markup. -/
def isRawText (name : String) : Bool :=
  rawTextNames.any (equalUpToCase · name)

end ServerPages.Markup
