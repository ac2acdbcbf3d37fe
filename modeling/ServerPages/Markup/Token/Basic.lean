/-!
# Tokens of markup

Markup is a sequence of tags, comments, document types and characters. Runs of
characters are homogeneous: blanks are told from other characters, since blanks
are dropped in some places where other characters start the body, and NUL is told
from both.
-/

namespace ServerPages.Markup

def isSpace (c : Char) : Bool :=
  c = ' ' || c = '\t' || c = '\n' || c = '\x0c' || c = '\r'

def isLetter (c : Char) : Bool :=
  c.isAlpha

def dropSpace (chars : List Char) : List Char :=
  chars.dropWhile isSpace

/-- An opening or closing tag; the attributes are in order and their names differ. -/
structure Tag where
  closing : Bool
  name : String
  selfClosing : Bool
  attributes : List (String × String)
  deriving DecidableEq, Repr

namespace Tag

def opening (name : String) : Tag :=
  ⟨false, name, false, []⟩

def attribute? (tag : Tag) (name : String) : Option String :=
  (tag.attributes.find? (·.1 = name)).map (·.2)

end Tag

inductive Token
  /-- A document type; `legacy` holds of those that call for the old layout of tables. -/
  | doctype (name : String) (legacy : Bool)
  | tag (tag : Tag)
  | comment (content : String)
  | blank (run : List Char)
  | text (run : List Char)
  | null
  | endOfInput
  deriving DecidableEq, Repr

namespace Token

/-- Puts a character in front of tokens, into the first run if that is of its kind. -/
def consChar (c : Char) (tokens : List Token) : List Token :=
  if c = '\x00' then .null :: tokens
  else if isSpace c then
    match tokens with
    | .blank run :: rest => .blank (c :: run) :: rest
    | _ => .blank [c] :: tokens
  else
    match tokens with
    | .text run :: rest => .text (c :: run) :: rest
    | _ => .text [c] :: tokens

/-- The tokens of characters, in runs of one kind. -/
def ofChars (chars : List Char) : List Token :=
  chars.foldr consChar []

/-- The token of characters that are not told apart, if there are any. -/
def ofRun (run : List Char) : List Token :=
  if run.isEmpty then [] else [.text run]

end Token

end ServerPages.Markup
