import ServerPages.Markup.Token.Tag

/-!
# Text that is not markup

The contents of some elements are text up to the closing tag of the element. In
scripts, a comment mark starts a stretch in which the closing tag still counts,
and an opening script tag within that stretch one in which it does not, so that a
script may write script elements within a comment.
-/

namespace ServerPages.Markup

def endsTagName (c : Char) : Bool :=
  isSpace c || c = '/' || c = '>'

/-- The letters that a text starts with, in small letters, and the character after them if that
ends a tag's name. -/
def nameAt? (chars : List Char) : Option String :=
  match chars.dropWhile isLetter with
  | c :: _ =>
      if endsTagName c then some (String.ofList ((chars.takeWhile isLetter).map Char.toLower))
      else none
  | [] => none

/-- Whether the text after a `<` is the closing tag of an element. -/
def closes (element : Option String) : List Char → Bool
  | '/' :: rest => element.isSome && nameAt? rest == element
  | _ => false

/-- The text up to the closing tag of an element, and the closing tag with what follows it. -/
def rawText (element : Option String) : List Char → List Char × List Char
  | [] => ([], [])
  | c :: rest =>
      if c = '<' && closes element rest then ([], c :: rest)
      else
        let (text, rest) := rawText element rest
        (c :: text, rest)

/-! ## Scripts -/

inductive ScriptState
  /-- Outside comments. -/
  | plain
  /-- Within a comment, after the given number of dashes in a row, counted up to two. -/
  | escaped (dashes : Nat)
  /-- Within a script element in a comment, likewise. -/
  | doubleEscaped (dashes : Nat)
  deriving DecidableEq, Repr

namespace ScriptState

/-- The state after a character that is no `<`. -/
def after (c : Char) : ScriptState → ScriptState
  | .plain => .plain
  | .escaped dashes =>
      if c = '-' then .escaped (min 2 (dashes + 1))
      else if c = '>' && dashes == 2 then .plain
      else .escaped 0
  | .doubleEscaped dashes =>
      if c = '-' then .doubleEscaped (min 2 (dashes + 1))
      else if c = '>' && dashes == 2 then .plain
      else .doubleEscaped 0

/-- The number of characters read together with a `<`, and the state after them. -/
def afterOpen (rest : List Char) : ScriptState → Nat × ScriptState
  | .plain =>
      if rest.take 3 = ['!', '-', '-'] then (3, .escaped 2) else (0, .plain)
  | .escaped _ =>
      if nameAt? rest = some "script" then (7, .doubleEscaped 0) else (0, .escaped 0)
  | .doubleEscaped _ =>
      match rest with
      | '/' :: name =>
          if nameAt? name = some "script" then (8, .escaped 0) else (0, .doubleEscaped 0)
      | _ => (0, .doubleEscaped 0)

def mayClose : ScriptState → Bool
  | .doubleEscaped _ => false
  | _ => true

end ScriptState

/-- The text of a script up to its closing tag, and the closing tag with what follows it; `skip`
characters are taken before the next one is looked at. -/
def scriptText (element : Option String) : ScriptState → Nat → List Char → List Char × List Char
  | _, _, [] => ([], [])
  | state, skip + 1, c :: rest =>
      let (text, rest) := scriptText element state skip rest
      (c :: text, rest)
  | state, 0, c :: rest =>
      if c = '<' then
        if state.mayClose && closes element rest then ([], c :: rest)
        else
          let (skip, state) := state.afterOpen rest
          let (text, rest) := scriptText element state skip rest
          (c :: text, rest)
      else
        let (text, rest) := scriptText element (state.after c) 0 rest
        (c :: text, rest)

end ServerPages.Markup
