import ServerPages.Markup.Reference
import ServerPages.Markup.Token.Basic

/-!
# Tags

A tag is a name and attributes up to the next `>` outside quotes. Names are in
small letters; of attributes with one name the first counts. A slash directly in
front of the end closes an opening tag at once. A tag that the input ends in is no
tag, and nothing of it is kept.
-/

namespace ServerPages.Markup

def mendNull (c : Char) : Char :=
  if c = '\x00' then replacement else c

def keptName (chars : List Char) : String :=
  String.ofList (chars.map fun c => mendNull c.toLower)

def isTagNamePart (c : Char) : Bool :=
  !isSpace c && c != '/' && c != '>'

def isAttributeNamePart (c : Char) : Bool :=
  isTagNamePart c && c != '='

def keptValue (chars : List Char) : String :=
  String.ofList (resolve true (chars.map mendNull))

def quotedValue? (quote : Char) (chars : List Char) : Option (String × List Char) :=
  match Text.splitOnce quote chars with
  | (value, some rest) => some (keptValue value, rest)
  | (_, none) => none

/-- The value after an equals sign and blanks, and the text after it; absent where the input ends
within quotes. -/
def value? (chars : List Char) : Option (String × List Char) :=
  match chars with
  | '"' :: rest => quotedValue? '"' rest
  | '\'' :: rest => quotedValue? '\'' rest
  | _ =>
      let isPart := fun c => !isSpace c && c != '>'
      some (keptValue (chars.takeWhile isPart), chars.dropWhile isPart)

def addAttribute (attributes : List (String × String)) (name value : String) :
    List (String × String) :=
  if attributes.any (·.1 = name) then attributes else attributes ++ [(name, value)]

/-- The attributes of a tag and whether it closes itself, and the text after the tag; nothing
where the input ends first. The number of steps is at most that of the characters. -/
def attributesFrom : Nat → List (String × String) → List Char →
    Option (List (String × String) × Bool) × List Char
  | 0, _, _ => (none, [])
  | _ + 1, _, [] => (none, [])
  | steps + 1, attributes, c :: rest =>
      if isSpace c then attributesFrom steps attributes rest
      else if c = '>' then (some (attributes, false), rest)
      else if c = '/' then
        match rest with
        | '>' :: rest => (some (attributes, true), rest)
        | _ => attributesFrom steps attributes rest
      else
        let name := keptName (c :: rest.takeWhile isAttributeNamePart)
        let after := rest.dropWhile isAttributeNamePart
        match dropSpace after with
        | '=' :: start =>
            match value? (dropSpace start) with
            | some (value, rest) => attributesFrom steps (addAttribute attributes name value) rest
            | none => (none, [])
        | _ => attributesFrom steps (addAttribute attributes name "") after

/-- The tag whose name a text starts with, and the text after it; no token where the input ends
within the tag. -/
def scanTag (closing : Bool) (chars : List Char) : List Token × List Char :=
  let name := keptName (chars.takeWhile isTagNamePart)
  let rest := chars.dropWhile isTagNamePart
  match attributesFrom (rest.length + 1) [] rest with
  | (some (attributes, selfClosing), rest) =>
      if closing then ([.tag ⟨true, name, false, []⟩], rest)
      else ([.tag ⟨false, name, selfClosing, attributes⟩], rest)
  | (none, rest) => ([], rest)

end ServerPages.Markup
