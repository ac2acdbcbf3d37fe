import ServerPages.Json.Basic
import ServerPages.Text.Ascii

/-!
# Reading JSON text

The reader takes one value from the front of a list of characters and returns
what follows it. Text fails to be JSON in one of two ways: it stops before the
value is complete, or a character stands where none of its kind may.

Two degrees of care share one grammar. A value that is kept may nest at most 127
arrays and objects, its numbers must be finite and its surrogate escapes must
come in pairs; a value that is only passed over is held to the grammar alone.

A number's digits are gathered in a significand of 64 bits. Integer digits beyond
it raise the exponent, fraction digits beyond it are ignored, and the number is
the significand times or over a power of ten, rounded once for every factor.
-/

namespace ServerPages.Json

open Text Decimal

inductive Fault
  /-- A character stands where none of its kind may. -/
  | malformed
  /-- The text stops before the value is complete. -/
  | endsEarly
  /-- The text is JSON, but not of the wanted shape. -/
  | misfit
  deriving DecidableEq, Repr

def isSpace (c : Char) : Bool :=
  c = ' ' || c = '\n' || c = '\t' || c = '\r'

def skipSpace (chars : List Char) : List Char :=
  chars.dropWhile isSpace

/-- What is wrong with a text that does not go on as expected. -/
def Fault.at : List Char → Fault
  | [] => .endsEarly
  | _ :: _ => .malformed

def readWord : List Char → List Char → Except Fault (List Char)
  | [], rest => .ok rest
  | _ :: _, [] => .error .endsEarly
  | wanted :: word, c :: rest => if c = wanted then readWord word rest else .error .malformed

/-! ## Strings -/

def hexQuad? (a b c d : Char) : Option Nat := do
  let a ← hexValue? a
  let b ← hexValue? b
  let c ← hexValue? c
  let d ← hexValue? d
  return ((a * 16 + b) * 16 + c) * 16 + d

/-- The code unit of an escape, after the letter; it ends early if fewer than four bytes are
left. -/
def readUnit (chars : List Char) : Except Fault (Nat × List Char) :=
  match chars with
  | a :: b :: c :: d :: rest =>
      match hexQuad? a b c d with
      | some n => .ok (n, rest)
      | none => .error .malformed
  | _ =>
      if (String.ofList chars).utf8ByteSize < 4 then .error .endsEarly else .error .malformed

def isHighSurrogate (n : Nat) : Bool := 0xD800 ≤ n && n ≤ 0xDBFF

def isLowSurrogate (n : Nat) : Bool := 0xDC00 ≤ n && n ≤ 0xDFFF

/-- The character of a unit that a careful reader has read; a first half needs the escape of a
second half behind it. -/
def pairUnit (unit : Nat) (chars : List Char) : Except Fault (Char × List Char) :=
  if isLowSurrogate unit then .error .malformed
  else if isHighSurrogate unit then do
    let rest ← readWord ['\\', 'u'] chars
    let (second, rest) ← readUnit rest
    if isLowSurrogate second then
      return (Char.ofNat (0x10000 + (unit - 0xD800) * 0x400 + (second - 0xDC00)), rest)
    else .error .malformed
  else .ok (Char.ofNat unit, chars)

def readEscape (careful : Bool) (chars : List Char) : Except Fault (Char × List Char) :=
  match chars with
  | [] => .error .endsEarly
  | c :: rest =>
      if c = '"' ∨ c = '\\' ∨ c = '/' then .ok (c, rest)
      else if c = 'b' then .ok ('\x08', rest)
      else if c = 'f' then .ok ('\x0c', rest)
      else if c = 'n' then .ok ('\n', rest)
      else if c = 'r' then .ok ('\r', rest)
      else if c = 't' then .ok ('\t', rest)
      else if c = 'u' then do
        let (unit, rest) ← readUnit rest
        if careful then pairUnit unit rest else return (Char.ofNat unit, rest)
      else .error .malformed

theorem readWord_length_le {word chars rest : List Char} (h : readWord word chars = .ok rest) :
    rest.length ≤ chars.length := by
  induction word generalizing chars with
  | nil => simp only [readWord, Except.ok.injEq] at h; simp [h]
  | cons wanted word ih =>
      cases chars with
      | nil => simp [readWord] at h
      | cons c chars =>
          simp only [readWord] at h
          split at h
          · exact Nat.le_succ_of_le (ih h)
          · simp at h

theorem readUnit_length_le {chars rest : List Char} {unit : Nat}
    (h : readUnit chars = .ok (unit, rest)) : rest.length ≤ chars.length := by
  unfold readUnit at h
  split at h
  · split at h
    · simp only [Except.ok.injEq, Prod.mk.injEq] at h
      simp only [← h.2, List.length_cons]
      omega
    · simp at h
  · split at h <;> simp at h

theorem pairUnit_length_le {chars rest : List Char} {unit : Nat} {c : Char}
    (h : pairUnit unit chars = .ok (c, rest)) : rest.length ≤ chars.length := by
  unfold pairUnit at h
  split at h
  · simp at h
  · split at h
    · cases hw : readWord ['\\', 'u'] chars with
      | error fault => simp [hw, bind, Except.bind] at h
      | ok after =>
          cases hu : readUnit after with
          | error fault => simp [hw, hu, bind, Except.bind] at h
          | ok pair =>
              obtain ⟨second, tail⟩ := pair
              simp only [hw, hu, bind, Except.bind] at h
              split at h
              · simp only [pure, Except.pure, Except.ok.injEq, Prod.mk.injEq] at h
                rw [← h.2]
                exact Nat.le_trans (readUnit_length_le hu) (readWord_length_le hw)
              · simp at h
    · simp only [Except.ok.injEq, Prod.mk.injEq] at h
      simp [h.2]

theorem readEscape_length_le {careful : Bool} {chars rest : List Char} {c : Char}
    (h : readEscape careful chars = .ok (c, rest)) : rest.length ≤ chars.length := by
  unfold readEscape at h
  split at h
  · simp at h
  · rename_i first tail
    have short : tail.length ≤ (first :: tail).length := by simp
    split at h
    · simp only [Except.ok.injEq, Prod.mk.injEq] at h; rw [← h.2]; exact short
    · iterate 5
        split at h
        · simp only [Except.ok.injEq, Prod.mk.injEq] at h; rw [← h.2]; exact short
      split at h
      · cases hu : readUnit tail with
        | error fault => simp [hu, bind, Except.bind] at h
        | ok pair =>
            obtain ⟨unit, after⟩ := pair
            simp only [hu, bind, Except.bind] at h
            split at h
            · exact Nat.le_trans (pairUnit_length_le h)
                (Nat.le_trans (readUnit_length_le hu) short)
            · simp only [pure, Except.pure, Except.ok.injEq, Prod.mk.injEq] at h
              rw [← h.2]
              exact Nat.le_trans (readUnit_length_le hu) short
      · simp at h

def readStringChars (careful : Bool) (chars : List Char) : Except Fault (List Char × List Char) :=
  match chars with
  | [] => .error .endsEarly
  | c :: rest =>
      if c = '"' then .ok ([], rest)
      else if c = '\\' then
        match _h : readEscape careful rest with
        | .error fault => .error fault
        | .ok (c, rest) => do
            let (text, rest) ← readStringChars careful rest
            return (c :: text, rest)
      else if c.toNat < 0x20 then .error .malformed
      else do
        let (text, rest) ← readStringChars careful rest
        return (c :: text, rest)
termination_by chars.length
decreasing_by
  · exact Nat.lt_succ_of_le (readEscape_length_le _h)
  · exact Nat.lt_succ_self _

def readString (careful : Bool) (chars : List Char) : Except Fault (String × List Char) := do
  let (text, rest) ← readStringChars careful chars
  return (String.ofList text, rest)

/-! ## Numbers -/

/-- Gathers digits onto a significand while it stays below `2 ^ 64`; the number of digits left out
goes with it. -/
def gather (significand : Nat) : List Char → Nat × Nat
  | [] => (significand, 0)
  | c :: digits =>
      let larger := significand * 10 + (digitValue? c).getD 0
      if larger < 0x10000000000000000 then gather larger digits
      else (significand, digits.length + 1)

def isDigit (c : Char) : Bool := (digitValue? c).isSome

/-- A significand times a power of ten, if that is finite. -/
def scaled? (negative : Bool) (significand : Nat) (exponent : Int) : Option Binary64 := do
  let x ← Binary64.ofNat? negative significand
  if 0 ≤ exponent then x.timesPowerOfTen? exponent.toNat
  else return x.overPowerOfTen (-exponent).toNat

/-- A number with a point or an exponent; one that is not finite fails a careful reader. -/
def floating (careful negative : Bool) (significand : Nat) (exponent : Int) (rest : List Char) :
    Except Fault (Number × List Char) :=
  match scaled? negative significand exponent with
  | some x => .ok (.binary x, rest)
  | none => if careful then .error .malformed else .ok (.binary (.zero negative), rest)

/-- An integer; zero with a sign and integers beyond 64 bits are floating point numbers. -/
def integral (negative : Bool) (significand : Nat) : Number :=
  let value : Int := if negative then -significand else significand
  let floatingZero := negative && significand == 0
  match Integer64.ofInt? value with
  | some n => if floatingZero then .binary (.zero true) else .integer n
  | none => .binary ((Binary64.ofNat? negative significand).getD (.zero negative))

def readExponent (careful negative : Bool) (significand : Nat) (exponent : Int)
    (chars : List Char) : Except Fault (Number × List Char) :=
  let (down, chars) :=
    match chars with
    | c :: rest =>
        if c = '-' then (true, rest) else if c = '+' then (false, rest) else (false, chars)
    | [] => (false, [])
  let digits := chars.takeWhile isDigit
  let rest := chars.dropWhile isDigit
  match natOfDigits? digits with
  | none => .error (Fault.at rest)
  | some size =>
      let size : Int := size
      floating careful negative significand (if down then exponent - size else exponent + size) rest

def isExponentMark (c : Char) : Bool := c = 'e' || c = 'E'

def readFraction (careful negative : Bool) (significand : Nat) (exponent : Int)
    (chars : List Char) : Except Fault (Number × List Char) :=
  let digits := chars.takeWhile isDigit
  let rest := chars.dropWhile isDigit
  if digits.isEmpty then .error (Fault.at rest)
  else
    let (significand, ignored) := gather significand digits
    let exponent := exponent - ((digits.length - ignored : Nat) : Int)
    match rest with
    | c :: after =>
        if isExponentMark c then readExponent careful negative significand exponent after
        else floating careful negative significand exponent rest
    | [] => floating careful negative significand exponent rest

/-- What follows the integer digits of a number, of which `left` did not fit the significand. -/
def readAfterInteger (careful negative : Bool) (significand left : Nat) (chars : List Char) :
    Except Fault (Number × List Char) :=
  let whole : Except Fault (Number × List Char) :=
    if left = 0 then .ok (integral negative significand, chars)
    else floating careful negative significand left chars
  match chars with
  | c :: rest =>
      if c = '.' then readFraction careful negative significand left rest
      else if isExponentMark c then readExponent careful negative significand left rest
      else whole
  | [] => whole

/-- A number after its sign; a leading zero stands alone. -/
def readMagnitude (careful negative : Bool) (chars : List Char) :
    Except Fault (Number × List Char) :=
  let digits := chars.takeWhile isDigit
  let rest := chars.dropWhile isDigit
  match digits with
  | [] => .error (Fault.at chars)
  | first :: more =>
      if first = '0' ∧ more ≠ [] then .error .malformed
      else
        let (significand, left) := gather 0 digits
        readAfterInteger careful negative significand left rest

def readNumber (careful : Bool) (chars : List Char) : Except Fault (Number × List Char) :=
  match chars with
  | '-' :: rest => readMagnitude careful true rest
  | _ => readMagnitude careful false chars

/-! ## Values -/

/-- Takes a value from the front of a text. -/
abbrev ValueReader := List Char → Except Fault (Json × List Char)

/-- The items of an array, from the first; `fuel` bounds their number. -/
def readItems (value : ValueReader) : Nat → List Char → Except Fault (List Json × List Char)
  | 0, _ => .error .endsEarly
  | fuel + 1, chars => do
      let (item, rest) ← value chars
      match skipSpace rest with
      | ',' :: rest =>
          let (items, rest) ← readItems value fuel rest
          return (item :: items, rest)
      | ']' :: rest => return ([item], rest)
      | rest => .error (Fault.at rest)

def readMember (careful : Bool) (value : ValueReader) (chars : List Char) :
    Except Fault ((String × Json) × List Char) :=
  match skipSpace chars with
  | '"' :: rest => do
      let (key, rest) ← readString careful rest
      match skipSpace rest with
      | ':' :: rest =>
          let (item, rest) ← value rest
          return ((key, item), rest)
      | rest => .error (Fault.at rest)
  | rest => .error (Fault.at rest)

/-- The members of an object, from the first; `fuel` bounds their number. -/
def readMembers (careful : Bool) (value : ValueReader) :
    Nat → List Char → Except Fault (List (String × Json) × List Char)
  | 0, _ => .error .endsEarly
  | fuel + 1, chars => do
      let (entry, rest) ← readMember careful value chars
      match skipSpace rest with
      | ',' :: rest =>
          let (entries, rest) ← readMembers careful value fuel rest
          return (entry :: entries, rest)
      | '\x7d' :: rest => return ([entry], rest)
      | rest => .error (Fault.at rest)

def readArray (value : ValueReader) (chars : List Char) : Except Fault (Json × List Char) :=
  match skipSpace chars with
  | ']' :: rest => .ok (.arr [], rest)
  | rest => do
      let (items, rest) ← readItems value (rest.length + 1) rest
      return (.arr items, rest)

def readObject (careful : Bool) (value : ValueReader) (chars : List Char) :
    Except Fault (Json × List Char) :=
  match skipSpace chars with
  | '\x7d' :: rest => .ok (.obj [], rest)
  | rest => do
      let (members, rest) ← readMembers careful value (rest.length + 1) rest
      return (ofMembers members, rest)

/-- A value whose arrays and objects are read by `inner`, and are refused without it. -/
def readWith (careful : Bool) (inner : Option ValueReader) (chars : List Char) :
    Except Fault (Json × List Char) :=
  match skipSpace chars with
  | [] => .error .endsEarly
  | c :: rest =>
      if c = 'n' then do return (.null, ← readWord ['u', 'l', 'l'] rest)
      else if c = 't' then do return (.bool true, ← readWord ['r', 'u', 'e'] rest)
      else if c = 'f' then do return (.bool false, ← readWord ['a', 'l', 's', 'e'] rest)
      else if c = '"' then do
        let (text, rest) ← readString careful rest
        return (.str text, rest)
      else if c = '-' ∨ isDigit c = true then do
        let (n, rest) ← readNumber careful (c :: rest)
        return (.num n, rest)
      else
        match inner with
        | none => .error .malformed
        | some value =>
            if c = '[' then readArray value rest
            else if c = '\x7b' then readObject careful value rest
            else .error .malformed

/-- A value with at most the given number of arrays and objects around any part of it. -/
def readValue (careful : Bool) : Nat → ValueReader
  | 0, chars => readWith careful none chars
  | depth + 1, chars => readWith careful (some (readValue careful depth)) chars

/-- The number of arrays and objects that may stand around a part of a value. -/
def depthLimit : Nat := 127

/-- Passes over one value of any depth. -/
def skipValue (chars : List Char) : Except Fault (List Char) := do
  let (_, rest) ← readValue false chars.length chars
  return rest

def finish {α : Type} (result : α) (rest : List Char) : Except Fault α :=
  if (skipSpace rest).isEmpty then .ok result else .error .malformed

def read (text : String) : Except Fault Json := do
  let (value, rest) ← readValue true depthLimit text.toList
  finish value rest

end ServerPages.Json
