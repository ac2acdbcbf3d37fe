import ServerPages.Markup.Token.Declaration
import ServerPages.Markup.Token.RawText

/-!
# Taking tokens from markup

The tokens at the front of the text depend on what the elements around it hold:
markup, text with or without references up to a closing tag, a script, or text
without an end.
-/

namespace ServerPages.Markup

open Text

inductive Content
  | markup
  /-- Text with references, up to a closing tag. -/
  | escapable
  /-- Text up to a closing tag. -/
  | raw
  | script
  /-- Text up to the end of the input. -/
  | endless
  deriving DecidableEq, Repr

/-- Line ends as one character, and no byte order mark in front. -/
def normalize (chars : List Char) : List Char :=
  let rec lines : List Char → List Char
    | [] => []
    | '\r' :: '\n' :: rest => '\n' :: lines rest
    | '\r' :: rest => '\n' :: lines rest
    | c :: rest => c :: lines rest
  match chars with
  | '\uFEFF' :: rest => lines rest
  | _ => lines chars

def scanDeclaration (foreign : Bool) (chars : List Char) : List Token × List Char :=
  match chars with
  | '-' :: '-' :: rest => scanComment rest
  | _ =>
      match keyword? ['d', 'o', 'c', 't', 'y', 'p', 'e'] chars with
      | some rest => scanDoctype rest
      | none =>
          match afterStart? ['[', 'C', 'D', 'A', 'T', 'A', '['] chars with
          | some rest => if foreign then scanSection rest else scanBogusComment chars
          | none => scanBogusComment chars
where
  /-- Characters up to `]]>`. -/
  sectionText : List Char → List Char × List Char
    | ']' :: ']' :: '>' :: rest => ([], rest)
    | [] => ([], [])
    | c :: rest =>
        let (text, rest) := sectionText rest
        (c :: text, rest)
  scanSection (chars : List Char) : List Token × List Char :=
    let (text, rest) := sectionText chars
    (Token.ofChars text, rest)

/-- What follows a `<`, and the text after it; `foreign` holds within elements that are not HTML. -/
def scanAfterOpen (foreign : Bool) (chars : List Char) : List Token × List Char :=
  match chars with
  | [] => ([.text ['<']], [])
  | '!' :: rest => scanDeclaration foreign rest
  | '/' :: rest =>
      match rest with
      | [] => ([.text ['<', '/']], [])
      | c :: after =>
          if c = '>' then ([], after)
          else if isLetter c then scanTag true rest
          else scanBogusComment rest
  | c :: _ =>
      if c = '?' then scanBogusComment chars
      else if isLetter c then scanTag false chars
      else ([.text ['<']], chars)

def scanMarkup (foreign : Bool) (chars : List Char) : List Token × List Char :=
  match chars with
  | '<' :: rest => scanAfterOpen foreign rest
  | _ =>
      let isPart := fun c => c != '<'
      (Token.ofChars (resolve false (chars.takeWhile isPart)), chars.dropWhile isPart)

def withClosing (parts : List Char × List Char) : List Token × List Char :=
  match parts with
  | (text, _ :: rest) =>
      let (tokens, rest) := scanAfterOpen false rest
      (Token.ofRun text ++ tokens, rest)
  | (text, []) => (Token.ofRun text, [])

/-- The tokens at the front of a text that is not empty, and the text after them. `element` is the
name of the latest opening tag, whose closing tag ends text that is not markup. -/
def scan (content : Content) (element : Option String) (foreign : Bool) (chars : List Char) :
    List Token × List Char :=
  match content with
  | .markup => scanMarkup foreign chars
  | .escapable =>
      let (text, rest) := rawText element chars
      withClosing (resolve false (text.map mendNull), rest)
  | .raw =>
      let (text, rest) := rawText element chars
      withClosing (text.map mendNull, rest)
  | .script =>
      let (text, rest) := scriptText element .plain 0 chars
      withClosing (text.map mendNull, rest)
  | .endless => (Token.ofRun (chars.map mendNull), [])

end ServerPages.Markup
