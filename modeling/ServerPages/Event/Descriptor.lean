import ServerPages.Json.Decode
import ServerPages.Json.Reader
import ServerPages.Text.Blank

/-!
# Event descriptors

A descriptor says which server method runs, with what arguments, and for which
element of the page. It travels as JSON: as the text of a form field, or as a
member of a JSON body. Objects give its parts by name; arrays give them in order,
and parts at the end may be missing.

Text is read part by part, and what is wrong first decides how it is refused: an
unknown member is passed over however deep it is, a part that comes twice is of the
wrong shape, and so is a part of the wrong kind even where more is wrong after it.
-/

namespace ServerPages

open Json

structure Descriptor where
  event : Option String
  /-- The mark of the element that was clicked. -/
  clicked : Option String
  id : Option String
  name : Option String
  updatePanel : Option String
  exec : Option String
  args : List Json
  deriving Inhabited

inductive DescriptorFault
  /-- Its text is refused. -/
  | text (fault : Fault)
  /-- Its value is of the wrong shape. -/
  | value (message : String)
  deriving DecidableEq

namespace Descriptor

def fieldName : String := "__eventElement"

/-- The descriptor of no event. -/
def blank : Descriptor := ⟨none, none, none, none, none, none, []⟩

def call (exec : String) (args : List Json) : Descriptor :=
  { blank with exec := some exec, args }

def click (clicked exec : String) (args : List Json) : Descriptor :=
  { call exec args with event := some "click", clicked := some clicked }

def withUpdatePanel (descriptor : Descriptor) (panel : String) : Descriptor :=
  { descriptor with updatePanel := some panel }

/-! ## Parts -/

/-- The parts that are texts, in order. -/
inductive Part
  | event
  | clicked
  | id
  | name
  | updatePanel
  | exec
  deriving DecidableEq, Repr

namespace Part

def all : List Part := [.event, .clicked, .id, .name, .updatePanel, .exec]

def key : Part → String
  | .event => "event"
  | .clicked => "clicked"
  | .id => "id"
  | .name => "name"
  | .updatePanel => "updatePanel"
  | .exec => "exec"

def get (part : Part) (descriptor : Descriptor) : Option String :=
  match part with
  | .event => descriptor.event
  | .clicked => descriptor.clicked
  | .id => descriptor.id
  | .name => descriptor.name
  | .updatePanel => descriptor.updatePanel
  | .exec => descriptor.exec

def set (part : Part) (value : Option String) (descriptor : Descriptor) : Descriptor :=
  match part with
  | .event => { descriptor with event := value }
  | .clicked => { descriptor with clicked := value }
  | .id => { descriptor with id := value }
  | .name => { descriptor with name := value }
  | .updatePanel => { descriptor with updatePanel := value }
  | .exec => { descriptor with exec := value }

def ofKey? (key : String) : Option Part :=
  all.find? (·.key = key)

end Part

def argsKey : String := "args"

/-- The members of a descriptor's object: the parts that are there, then the arguments. -/
def members (descriptor : Descriptor) : List (String × Json) :=
  (Part.all.filterMap fun part => (part.get descriptor).map fun text => (part.key, .str text)) ++
    [(argsKey, .arr descriptor.args)]

def render (descriptor : Descriptor) : String :=
  (Json.obj descriptor.members).render

/-! ## Reading values -/

/-- Reads a member of an object; members of other names do not count. -/
def readMemberValue (descriptor : Descriptor) (entry : String × Json) :
    Except String Descriptor :=
  if entry.1 = argsKey then do
    let args ← asItems entry.2
    return { descriptor with args }
  else
    match Part.ofKey? entry.1 with
    | some part => do
        let text ← asOptional asText entry.2
        return part.set text descriptor
    | none => .ok descriptor

def readItemValues (length : Nat) : List Part → List Json → Descriptor → Except String Descriptor
  | _, [], descriptor => .ok descriptor
  | part :: parts, item :: items, descriptor => do
      let text ← asOptional asText item
      readItemValues length parts items (part.set text descriptor)
  | [], item :: items, descriptor => do
      let args ← asItems item
      if items.isEmpty then return { descriptor with args } else .error (tooLong length)

def ofJson (value : Json) : Except String Descriptor :=
  match value with
  | .obj members => members.foldlM readMemberValue blank
  | .arr items => readItemValues items.length Part.all items blank
  | _ => .error (wrongType value "struct EventDescriptor")

/-! ## Reading text -/

/-- What is wrong with a text that does not start with a value of the wanted kind: a scalar has to
be complete before its kind counts. -/
def refusal (chars : List Char) : Fault :=
  match skipSpace chars with
  | [] => .endsEarly
  | c :: rest =>
      if c = '[' ∨ c = '\x7b' then .misfit
      else
        match readWith true none (c :: rest) with
        | .ok _ => .misfit
        | .error fault => fault

def readOptionalText (chars : List Char) : Except Fault (Option String × List Char) :=
  match skipSpace chars with
  | 'n' :: rest => do return (none, ← readWord ['u', 'l', 'l'] rest)
  | '"' :: rest => do
      let (text, rest) ← readString true rest
      return (some text, rest)
  | _ => .error (refusal chars)

/-- The arguments: an array within the array or object of the descriptor. -/
def readArgs (chars : List Char) : Except Fault (List Json × List Char) :=
  match skipSpace chars with
  | '[' :: rest => do
      match ← readArray (readValue true (depthLimit - 2)) rest with
      | (.arr items, rest) => return (items, rest)
      | (_, rest) => return ([], rest)
  | _ => .error (refusal chars)

def afterColon (chars : List Char) : Except Fault (List Char) :=
  match skipSpace chars with
  | ':' :: rest => .ok rest
  | rest => .error (Fault.at rest)

/-- Reads a member of an object from its key; `seen` holds the keys that came before. -/
def readMemberText (seen : List String) (descriptor : Descriptor) (chars : List Char) :
    Except Fault (List String × Descriptor × List Char) :=
  match chars with
  | '"' :: rest => do
      let (key, rest) ← readString true rest
      if seen.contains key then .error .misfit
      else if key = argsKey then
        let (args, rest) ← readArgs (← afterColon rest)
        return (key :: seen, { descriptor with args }, rest)
      else
        match Part.ofKey? key with
        | some part =>
            let (text, rest) ← readOptionalText (← afterColon rest)
            return (key :: seen, part.set text descriptor, rest)
        | none =>
            let rest ← skipValue (← afterColon rest)
            return (seen, descriptor, rest)
  | _ => .error (Fault.at chars)

/-- Reads the members of an object from the first; `fuel` bounds their number. -/
def readMembersText : Nat → List String → Descriptor → List Char →
    Except Fault (Descriptor × List Char)
  | 0, _, _, _ => .error .endsEarly
  | fuel + 1, seen, descriptor, chars => do
      let (seen, descriptor, rest) ← readMemberText seen descriptor chars
      match skipSpace rest with
      | ',' :: rest => readMembersText fuel seen descriptor (skipSpace rest)
      | '\x7d' :: rest => return (descriptor, rest)
      | rest => .error (Fault.at rest)

def readEnd (chars : List Char) : Except Fault (List Char) :=
  match skipSpace chars with
  | ']' :: rest => .ok rest
  | [] => .error .endsEarly
  | _ :: _ => .error .malformed

/-- Reads the items of an array as the given parts in order, then the arguments; `first` holds of
the first item. -/
def readItemsText (first : Bool) : List Part → Descriptor → List Char →
    Except Fault (Descriptor × List Char)
  | parts, descriptor, chars =>
      match skipSpace chars with
      | ']' :: rest => .ok (descriptor, rest)
      | rest => do
          let start ←
            if first then (.ok rest : Except Fault (List Char))
            else
              match rest with
              | ',' :: rest =>
                  match skipSpace rest with
                  | [] => .error .endsEarly
                  | ']' :: _ => .error .malformed
                  | rest => .ok rest
              | _ => .error (Fault.at rest)
          match parts with
          | part :: parts =>
              let (text, rest) ← readOptionalText start
              readItemsText false parts (part.set text descriptor) rest
          | [] =>
              let (args, rest) ← readArgs start
              let rest ← readEnd rest
              return ({ descriptor with args }, rest)

def read (text : String) : Except Fault Descriptor := do
  let (descriptor, rest) ←
    match skipSpace text.toList with
    | '\x7b' :: rest =>
        match skipSpace rest with
        | '\x7d' :: rest => (.ok (blank, rest) : Except Fault (Descriptor × List Char))
        | rest => readMembersText (rest.length + 1) [] blank rest
    | '[' :: rest => readItemsText true Part.all blank rest
    | rest => .error (refusal rest)
  finish descriptor rest

/-! ## Fields -/

/-- The descriptor that a field carries, if it carries one: a text that is not blank is read, any
other value but null stands for a descriptor itself. -/
def ofField (value : Json) : Except DescriptorFault (Option Descriptor) :=
  match value with
  | .null => .ok none
  | .str text =>
      if (Text.trim text).isEmpty then .ok none
      else
        match read text with
        | .ok descriptor => .ok (some descriptor)
        | .error fault => .error (.text fault)
  | _ =>
      match ofJson value with
      | .ok descriptor => .ok (some descriptor)
      | .error message => .error (.value message)

end Descriptor

end ServerPages
