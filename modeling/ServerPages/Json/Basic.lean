import ServerPages.Decimal.Binary64
import ServerPages.Dictionary

/-!
# JSON values

Numbers are integers of 64 bits, signed or not, or finite binary floating point
numbers; the two kinds stay distinct. Objects are dictionaries.
-/

namespace ServerPages

open Decimal (Binary64)

/-- An integer that fits 64 bits, with a sign or without. -/
structure Integer64 where
  val : Int
  inRange : -0x8000000000000000 ≤ val ∧ val < 0x10000000000000000
  deriving DecidableEq

namespace Integer64

def ofInt? (n : Int) : Option Integer64 :=
  if h : -0x8000000000000000 ≤ n ∧ n < 0x10000000000000000 then some ⟨n, h⟩ else none

theorem ofInt?_val (n : Integer64) : ofInt? n.val = some n :=
  dif_pos n.inRange

def isSigned (n : Integer64) : Bool :=
  n.val < 0x8000000000000000

end Integer64

inductive Number
  | integer (n : Integer64)
  | binary (x : Binary64)
  deriving DecidableEq

inductive Json
  | null
  | bool (b : Bool)
  | num (n : Number)
  | str (s : String)
  | arr (items : List Json)
  | obj (members : List (String × Json))
  deriving Inhabited

namespace Json

def zero : Json := .num (.integer ⟨0, by decide⟩)

/-- An integer, which becomes zero if it does not fit. -/
def ofInt (n : Int) : Json :=
  match Integer64.ofInt? n with
  | some k => .num (.integer k)
  | none => zero

/-- A natural number, which becomes zero if it does not fit. -/
def ofNat (n : Nat) : Json := ofInt n

/-- An object from its members in any order; the last value of a key stays. -/
def ofMembers (members : List (String × Json)) : Json :=
  .obj (Dictionary.ofPairs members)

def ofOption : Option Json → Json
  | some value => value
  | none => .null

def ofText? (text : Option String) : Json :=
  ofOption (text.map .str)

/-- The member of an object, null where there is none. -/
def member (value : Json) (key : String) : Json :=
  match value with
  | .obj members => ofOption (Dictionary.find? key members)
  | _ => .null

def isNull : Json → Bool
  | .null => true
  | _ => false

def text? : Json → Option String
  | .str s => some s
  | _ => none

def items? : Json → Option (List Json)
  | .arr items => some items
  | _ => none

def members? : Json → Option (Dictionary Json)
  | .obj members => some members
  | _ => none

def bool? : Json → Option Bool
  | .bool b => some b
  | _ => none

def nat? : Json → Option Nat
  | .num (.integer n) => if 0 ≤ n.val then some n.val.toNat else none
  | _ => none

end Json

end ServerPages
