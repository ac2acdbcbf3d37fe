import ServerPages.Markup.LegacyDoctype
import ServerPages.Markup.Token.Tag

/-!
# Comments and document types

A comment ends at `-->` or `--!>`, and at once where it starts with `>` or `->`;
dashes that the input ends in are dropped. Other declarations than comments and
document types are comments too, up to the next `>`.
-/

namespace ServerPages.Markup

open Text

def commentFrom : List Char → List Char × List Char
  | '-' :: '-' :: '>' :: rest => ([], rest)
  | '-' :: '-' :: '!' :: '>' :: rest => ([], rest)
  | ['-', '-', '!'] | ['-', '-'] | ['-'] | [] => ([], [])
  | c :: rest =>
      let (content, rest) := commentFrom rest
      (mendNull c :: content, rest)

/-- A comment, after its two dashes. -/
def scanComment (chars : List Char) : List Token × List Char :=
  let (content, rest) :=
    match chars with
    | '>' :: rest => ([], rest)
    | '-' :: '>' :: rest => ([], rest)
    | _ => commentFrom chars
  ([.comment (String.ofList content)], rest)

def scanBogusComment (chars : List Char) : List Token × List Char :=
  let (content, rest) := splitOnce '>' chars
  ([.comment (String.ofList (content.map mendNull))], rest.getD [])

/-! ## Document types -/

/-- What is left of a document type: its end was reached, or something is wrong with it. -/
inductive Ending
  | proper
  | faulty
  deriving DecidableEq

def afterAngle (chars : List Char) : List Char :=
  ((splitOnce '>' chars).2).getD []

/-- An identifier in quotes with the text after it, or how the document type ends without one. -/
def identifier (chars : List Char) : Except Ending (String × List Char) :=
  match chars with
  | c :: rest =>
      if c = '"' ∨ c = '\'' then
        let isPart := fun d => d != c && d != '>'
        match rest.dropWhile isPart with
        | d :: after =>
            if d = c then .ok (String.ofList ((rest.takeWhile isPart).map mendNull), after)
            else .error .faulty
        | [] => .error .faulty
      else if c = '>' then .error .proper
      else .error .faulty
  | [] => .error .faulty

def keyword? (word : List Char) (chars : List Char) : Option (List Char) :=
  if (chars.take word.length).map Char.toLower = word then some (chars.drop word.length) else none

/-- The system identifier of a document type, and whether the type ends in order after it. -/
def systemPart (required : Bool) (chars : List Char) : Option String × Ending :=
  match identifier (dropSpace chars) with
  | .ok (id, rest) =>
      match dropSpace rest with
      | [] => (some id, .faulty)
      | _ => (some id, .proper)
  | .error ending => (none, if required then .faulty else ending)

/-- The public and system identifiers after the name of a document type, and whether the type ends
in order. -/
def identifiers (chars : List Char) : Option String × Option String × Ending :=
  match keyword? ['p', 'u', 'b', 'l', 'i', 'c'] chars with
  | some rest =>
      match identifier (dropSpace rest) with
      | .ok (publicId, rest) =>
          let (systemId, ending) := systemPart false rest
          (some publicId, systemId, ending)
      | .error _ => (none, none, .faulty)
  | none =>
      match keyword? ['s', 'y', 's', 't', 'e', 'm'] chars with
      | some rest =>
          let (systemId, ending) := systemPart true rest
          (none, systemId, ending)
      | none =>
          match chars with
          | '>' :: _ => (none, none, .proper)
          | _ => (none, none, .faulty)

/-- Where the text of a document type ends: at the next `>`, quotes or not. -/
def scanDoctype (chars : List Char) : List Token × List Char :=
  let start := dropSpace chars
  let isPart := fun c => !isSpace c && c != '>'
  let name := keptName (start.takeWhile isPart)
  let rest := start.dropWhile isPart
  let (publicId, systemId, ending) := identifiers (dropSpace rest)
  let legacy := ending == .faulty || isLegacyDoctype name publicId systemId
  ([.doctype name legacy], afterAngle rest)

end ServerPages.Markup
