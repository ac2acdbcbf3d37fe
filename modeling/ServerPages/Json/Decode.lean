import ServerPages.Json.Writer
import ServerPages.Text.Integer
import ServerPages.Text.Quoted

/-!
# Reading values as data of a given shape

A value of the wrong shape is refused with a message that shows what it is and says
what was expected.
-/

namespace ServerPages.Json

open Text Decimal

/-- A value as messages show it: scalars by their text, arrays and objects by their kind. -/
def shown : Json → String
  | .null => "null"
  | .bool true => "boolean `true`"
  | .bool false => "boolean `false`"
  | .num (.integer n) => "integer `" ++ signedDecimal n.val ++ "`"
  | .num (.binary x) => "floating point `" ++ x.render ++ "`"
  | .str s => "string " ++ quoted s
  | .arr _ => "sequence"
  | .obj _ => "map"

def wrongType (value : Json) (expected : String) : String :=
  "invalid type: " ++ value.shown ++ ", expected " ++ expected

/-- The message for a value of the right kind that is out of range. -/
def wrongValue (value : Json) (expected : String) : String :=
  "invalid value: " ++ value.shown ++ ", expected " ++ expected

def tooLong (length : Nat) : String :=
  "invalid length " ++ decimal length ++ ", expected fewer elements in array"

def missingMember (name : String) : String :=
  "missing field `" ++ name ++ "`"

def asText (value : Json) : Except String String :=
  match value with
  | .str s => .ok s
  | _ => .error (wrongType value "a string")

def asBool (value : Json) : Except String Bool :=
  match value with
  | .bool b => .ok b
  | _ => .error (wrongType value "a boolean")

def asItems (value : Json) : Except String (List Json) :=
  match value with
  | .arr items => .ok items
  | _ => .error (wrongType value "a sequence")

def asInteger (name : String) (range : IntegerRange) (value : Json) : Except String Int :=
  match value with
  | .num (.integer n) =>
      if range.holds n.val then .ok n.val else .error (wrongValue value name)
  | _ => .error (wrongType value name)

/-- A floating point number; integers are rounded to one. -/
def asBinary (value : Json) : Except String Binary64 :=
  match value with
  | .num (.binary x) => .ok x
  | .num (.integer n) =>
      .ok ((Binary64.ofNat? (n.val < 0) n.val.natAbs).getD (.zero false))
  | _ => .error (wrongType value "f64")

def asOptional {α : Type} (read : Json → Except String α) (value : Json) :
    Except String (Option α) :=
  match value with
  | .null => .ok none
  | _ => (read value).map some

/-- The text of a value as a form shows it: strings as they are, nothing for null. -/
def fieldText (value : Json) : String :=
  match value with
  | .str s => s
  | .null => ""
  | _ => value.render

end ServerPages.Json
