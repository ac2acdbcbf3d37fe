import ServerPages.Text.Ascii

/-!
# Reading integers

An integer is written by decimal digits with an optional sign; a minus sign counts
only where negative numbers are allowed. Digits are read from the left, so that the
first character in error decides what is wrong: one that is no digit, or a digit that
takes the number out of its range.
-/

namespace ServerPages.Text

inductive IntegerFault
  | empty
  | invalidDigit
  | tooLarge
  | tooSmall
  deriving DecidableEq, Repr

namespace IntegerFault

def message : IntegerFault → String
  | .empty => "cannot parse integer from empty string"
  | .invalidDigit => "invalid digit found in string"
  | .tooLarge => "number too large to fit in target type"
  | .tooSmall => "number too small to fit in target type"

end IntegerFault

/-- The integers from a least one, zero or below, to a greatest one. -/
structure IntegerRange where
  /-- How far the range goes below zero. -/
  below : Nat
  greatest : Nat
  deriving DecidableEq, Repr

namespace IntegerRange

def signed64 : IntegerRange := ⟨0x8000000000000000, 0x7fffffffffffffff⟩

def unsigned64 : IntegerRange := ⟨0, 0xffffffffffffffff⟩

def unsigned8 : IntegerRange := ⟨0, 255⟩

def holds (range : IntegerRange) (n : Int) : Bool :=
  -range.below ≤ n && n ≤ range.greatest

end IntegerRange

def readDigits (limit : Nat) (beyond : IntegerFault) : Nat → List Char → Except IntegerFault Nat
  | total, [] => .ok total
  | total, c :: rest =>
      match digitValue? c with
      | none => .error .invalidDigit
      | some digit =>
          if limit < 10 * total + digit then .error beyond
          else readDigits limit beyond (10 * total + digit) rest

def readMagnitude (limit : Nat) (beyond : IntegerFault) (chars : List Char) :
    Except IntegerFault Nat :=
  if chars.isEmpty then .error .invalidDigit else readDigits limit beyond 0 chars

def readInteger (range : IntegerRange) (text : String) : Except IntegerFault Int :=
  match text.toList with
  | [] => .error .empty
  | '+' :: rest => do return Int.ofNat (← readMagnitude range.greatest .tooLarge rest)
  | '-' :: rest =>
      if range.below = 0 then .error .invalidDigit
      else do return -Int.ofNat (← readMagnitude range.below .tooSmall rest)
  | chars => do return Int.ofNat (← readMagnitude range.greatest .tooLarge chars)

end ServerPages.Text
