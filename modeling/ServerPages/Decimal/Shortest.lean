import ServerPages.Decimal.Binary64
import ServerPages.Text.Ascii

/-!
# The fewest digits that read back

All rationals of an interval around a number round to it. The shortest decimal
of the number is the point of that interval on the coarsest grid of multiples
of a power of ten that has one; of two such points the nearer is taken, and a
tie goes to the even multiple. It is written in positional notation, or with an
exponent outside a range of sizes.
-/

namespace ServerPages.Decimal

open ServerPages.Text

structure Scientific where
  coefficient : Nat
  power : Int
  deriving DecidableEq, Repr

namespace Binary64

/-- The ends of the interval of rationals that round to a positive number, and the number itself
between them, as numerators over `2 ^ 1076`. -/
def interval (x : Binary64) : Nat × Nat × Nat :=
  let unit := 1 <<< x.exponent
  let below := if x.significand = 1 <<< 52 ∧ 0 < x.exponent then unit else 2 * unit
  let value := 4 * x.scaledMagnitude
  (value - below, value, value + 2 * unit)

/-- Whether a multiple of the grid lies in the interval; the ends count for an even significand.
The grid is `gridNum / gridDen`. -/
def covers (x : Binary64) (gridNum gridDen multiple : Nat) : Bool :=
  let (low, _, high) := x.interval
  let point := (multiple * gridNum) <<< 1076
  if x.significand % 2 = 0 then low * gridDen ≤ point && point ≤ high * gridDen
  else low * gridDen < point && point < high * gridDen

/-- The multiple of the grid `10 ^ power` in the interval that is nearest to the number. -/
def onGrid? (x : Binary64) (power : Int) : Option Nat :=
  let gridNum := Nat.pow 10 power.toNat
  let gridDen := Nat.pow 10 (-power).toNat
  let value := x.interval.2.1 * gridDen
  let grid := gridNum <<< 1076
  let lower := value / grid
  let nearest := divideToEven value grid
  let other := if nearest = lower then lower + 1 else lower
  if nearest ≠ 0 && x.covers gridNum gridDen nearest then some nearest
  else if other ≠ 0 && x.covers gridNum gridDen other then some other
  else none

/-- The first grid with a point in the interval, among `count` grids from `10 ^ power` down. -/
def firstGrid (x : Binary64) (power : Int) : Nat → Scientific
  | 0 => ⟨0, 0⟩
  | count + 1 =>
      match x.onGrid? power with
      | some multiple => ⟨multiple, power⟩
      | none => x.firstGrid (power - 1) count

/-- The shortest decimal that rounds to the magnitude. -/
def shortest (x : Binary64) : Scientific :=
  if x.isZero then ⟨0, 0⟩ else x.firstGrid 309 634

end Binary64

/-! ## Writing -/

def signText (negative : Bool) : List Char :=
  if negative then ['-'] else []

/-- Digits with a point in positional notation, at least one digit on either side of the point. -/
def positional (digits : List Char) (power : Int) : List Char :=
  if 0 ≤ power then digits ++ List.replicate power.toNat '0' ++ ['.', '0']
  else
    let places := (-power).toNat
    if places < digits.length then
      digits.take (digits.length - places) ++ ['.'] ++ digits.drop (digits.length - places)
    else ['0', '.'] ++ List.replicate (places - digits.length) '0' ++ digits

/-- Digits with a point after the first, and the exponent. -/
def withExponent (digits : List Char) (power : Int) : List Char :=
  let size := power + digits.length - 1
  let mantissa :=
    match digits with
    | first :: second :: rest => first :: '.' :: second :: rest
    | _ => digits
  let mark := if size < 0 then ['e', '-'] else ['e', '+']
  mantissa ++ mark ++ decimalDigits size.natAbs

/-- The shortest decimal, positional for sizes from `10 ^ -5` to below `10 ^ 16`. -/
def Binary64.render (x : Binary64) : String :=
  let ⟨coefficient, power⟩ := x.shortest
  let digits := decimalDigits coefficient
  let size := power + digits.length - 1
  String.ofList (signText x.negative ++
    if x.isZero || (-5 ≤ size && size ≤ 15) then positional digits power
    else withExponent digits power)

end ServerPages.Decimal
