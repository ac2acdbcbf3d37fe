import ServerPages.Text.Ascii
import ServerPages.Text.Blank
import ServerPages.Text.Integer
import ServerPages.Text.Quoted
import ServerPages.Text.Utf8

/-!
# Variables of the environment

A variable is set to bytes or not set at all; where it is not set, a given value takes
its place. Bytes have to be text. Blanks around numbers and switches do not count.
-/

namespace ServerPages

open Text

structure Variable where
  name : String
  bytes : Option (List UInt8)

inductive VariableFault
  | notText
  | notSwitch (value : String)
  | unreadable (value reason : String)
  deriving DecidableEq, Repr

namespace VariableFault

def message (name : String) : VariableFault → String
  | .notText => quoted name ++ " env var is not unicode"
  | .notSwitch value => quoted name ++ " env var: expecting a boolean, got " ++ quoted value
  | .unreadable value reason =>
      quoted name ++ " env var: can't parse " ++ quoted value ++ ": " ++ reason

end VariableFault

/-- The switch that a word stands for, in either case. -/
def switchOf? (word : String) : Option Bool :=
  let word := (trim word).toLower
  if word ∈ ["1", "true", "on", "yes"] then some true
  else if word ∈ ["0", "false", "off", "no", ""] then some false
  else none

def readCharacter (text : String) : Except String Char :=
  match text.toList with
  | [] => .error "cannot parse char from empty string"
  | [c] => .ok c
  | _ => .error "too many characters in string"

namespace Variable

def text? (source : Variable) : Except VariableFault (Option String) :=
  match source.bytes with
  | none => .ok none
  | some bytes =>
      match Utf8.decode? bytes with
      | some text => .ok (some text)
      | none => .error .notText

def text (source : Variable) (otherwise : String) : Except VariableFault String := do
  return (← source.text?).getD otherwise

def switch (source : Variable) (otherwise : Bool) : Except VariableFault Bool := do
  match ← source.text? with
  | none => return otherwise
  | some word =>
      match switchOf? word with
      | some value => return value
      | none => throw (.notSwitch word)

/-- What the text of a variable is read as, blanks around it left out. -/
def parsed {α : Type} (source : Variable) (read : String → Except String α) (otherwise : α) :
    Except VariableFault α := do
  match ← source.text? with
  | none => return otherwise
  | some value =>
      match read (trim value) with
      | .ok result => return result
      | .error reason => throw (.unreadable value reason)

def integer (source : Variable) (range : IntegerRange) (otherwise : Int) :
    Except VariableFault Int :=
  source.parsed (fun text => (readInteger range text).mapError (·.message)) otherwise

def character (source : Variable) (otherwise : Char) : Except VariableFault Char :=
  source.parsed readCharacter otherwise

end Variable

end ServerPages
