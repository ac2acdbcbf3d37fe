/-!
# Finite binary floating point numbers of 64 bits

A number is a sign, a significand below `2 ^ 53` and a count of binary places:
its magnitude is `significand * 2 ^ exponent / 2 ^ 1074`. Every operation takes
the exact rational result and rounds it once, to the nearest number and to the
even significand on a tie; a result too large for the format is absent.
-/

namespace ServerPages.Decimal

/-- A finite number; the significand has 53 digits unless the exponent is the least one. -/
structure Binary64 where
  negative : Bool
  significand : Nat
  exponent : Nat
  canonical : significand < 1 <<< 53 ∧ exponent ≤ 2045 ∧ (1 <<< 52 ≤ significand ∨ exponent = 0)
  deriving DecidableEq

namespace Binary64

def zero (negative : Bool) : Binary64 :=
  ⟨negative, 0, 0, by decide⟩

instance : Inhabited Binary64 := ⟨zero false⟩

def isZero (x : Binary64) : Bool :=
  x.significand == 0

def neg (x : Binary64) : Binary64 :=
  { x with negative := !x.negative }

/-- The quotient rounded to the nearest natural number, a half to the even one. -/
def divideToEven (num den : Nat) : Nat :=
  let whole := num / den
  let twice := 2 * (num % den)
  if twice < den then whole
  else if den < twice then whole + 1
  else whole + whole % 2

/-- The number of a sign, a significand and an exponent in canonical form. -/
def ofParts? (negative : Bool) (significand exponent : Nat) : Option Binary64 :=
  if h : significand < 1 <<< 53 ∧ exponent ≤ 2045 ∧ (1 <<< 52 ≤ significand ∨ exponent = 0) then
    some ⟨negative, significand, exponent, h⟩
  else none

/-- The number nearest to `num / den`, where `den` is positive; absent where it would be
infinite. -/
def round? (negative : Bool) (num den : Nat) : Option Binary64 :=
  let scaled := num <<< 1074
  let whole := scaled / den
  let exponent := if whole < 1 <<< 53 then 0 else whole.log2 - 52
  let significand := divideToEven scaled (den <<< exponent)
  if significand = 1 <<< 53 then ofParts? negative (1 <<< 52) (exponent + 1)
  else ofParts? negative significand exponent

/-- The magnitude as a fraction: the numerator over `2 ^ 1074`. -/
def scaledMagnitude (x : Binary64) : Nat :=
  x.significand <<< x.exponent

def ofNat? (negative : Bool) (n : Nat) : Option Binary64 :=
  round? negative n 1

/-- The number nearest to a power of ten, which must be below `10 ^ 309`. -/
def powerOfTen (k : Nat) : Binary64 :=
  (ofNat? false (Nat.pow 10 k)).getD (zero false)

/-- The rounded product; the sign is that of the first factor. -/
def times? (x y : Binary64) : Option Binary64 :=
  round? x.negative (x.scaledMagnitude * y.scaledMagnitude) (1 <<< 2148)

/-- The rounded quotient by a number that is not zero; the sign is that of the dividend. -/
def over? (x y : Binary64) : Option Binary64 :=
  round? x.negative x.scaledMagnitude y.scaledMagnitude

/-- The rounded quotient by a power of ten of any size, taken in steps of at most `10 ^ 308`. -/
def overPowerOfTen (x : Binary64) (k : Nat) : Binary64 :=
  if k ≤ 308 then (x.over? (powerOfTen k)).getD x
  else if x.isZero then x
  else overPowerOfTen ((x.over? (powerOfTen 308)).getD x) (k - 308)
termination_by k

/-- The rounded product by a power of ten, absent where it would be infinite; a power above
`10 ^ 308` leaves only zero finite. -/
def timesPowerOfTen? (x : Binary64) (k : Nat) : Option Binary64 :=
  if k ≤ 308 then x.times? (powerOfTen k)
  else if x.isZero then some x
  else none

end Binary64

end ServerPages.Decimal
