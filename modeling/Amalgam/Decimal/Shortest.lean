import Amalgam.Decimal.Binary64

/-! # The shortest decimal text of a floating point number

`shortest` finds the fewest decimal digits that round back to the number, and of those the nearest
to it: for one digit, two digits and so on it tries the two neighbours on that decimal grid, and of
two that are equally near takes the even one. The text is positional while the leading digit stands
from the fourth place after the point to the sixteenth before it, and always shows a point or an
exponent.
-/

namespace Amalgam.Decimal

def leadingPlace (num den : Nat) : Int :=
  if den ≤ num then (Nat.toDigits 10 (num / den)).length - 1
  else -(((List.range 400).find? fun j => den ≤ num * Nat.pow 10 j).getD 400 : Nat)

/-- The point of the grid of multiples of `10 ^ place` that rounds to the number and is nearest to
it, if there is one; halfway between two points the even one counts as nearer. Lengths are compared
in a unit in which a quarter of the last bit and the step of the grid are both whole. -/
def gridPoint? (mantissa : Nat) (exponent place : Int) : Option Nat :=
  let bit := power 2 (exponent - 2)
  let grid := power 10 place
  let quarter := bit.1 * grid.2
  let step := grid.1 * bit.2
  let below := if mantissa = Nat.pow 2 52 ∧ leastExponent < exponent then 1 else 2
  let value := 4 * mantissa * quarter
  let low := (4 * mantissa - below) * quarter
  let high := (4 * mantissa + 2) * quarter
  let inside (point : Nat) : Bool :=
    (low < point * step && point * step < high) ||
      (mantissa % 2 == 0 && (low == point * step || point * step == high))
  let lower := value / step
  let upper := lower + 1
  let fromLower := value - lower * step
  let toUpper := upper * step - value
  let lowerIsNearer := fromLower < toUpper || (fromLower == toUpper && lower % 2 == 0)
  if inside lower && (lowerIsNearer || !inside upper) then some lower
  else if inside upper then some upper
  else none

def shortest (mantissa : Nat) (exponent : Int) : Nat × Int :=
  let bit := power 2 exponent
  let leading := leadingPlace (mantissa * bit.1) bit.2
  let places := (List.range 17).map fun (count : Nat) => leading - (count : Int)
  (places.findSome? fun place =>
    (gridPoint? mantissa exponent place).map fun point => (point, place)).getD (0, 0)

def trimZeros (digits : List Char) : List Char := (digits.reverse.dropWhile (· == '0')).reverse

/-- The text of digits of which the first has the decimal place `leading`. -/
def layout (digits : List Char) (leading : Int) : List Char :=
  if 16 ≤ leading ∨ leading < -4 then
    let exponent := Nat.toDigits 10 leading.natAbs
    let fraction := if digits.length ≤ 1 then [] else '.' :: digits.drop 1
    digits.take 1 ++ fraction ++ ['e', if leading < 0 then '-' else '+'] ++
      List.replicate (2 - exponent.length) '0' ++ exponent
  else if leading < 0 then
    ['0', '.'] ++ List.replicate (-leading - 1).toNat '0' ++ digits
  else
    let whole := leading.toNat + 1
    let fraction := digits.drop whole
    digits.take whole ++ List.replicate (whole - digits.length) '0' ++ '.' ::
      (if fraction.isEmpty then ['0'] else fraction)

def Magnitude.text : Magnitude → String
  | .infinite => "inf"
  | .finite 0 _ => "0.0"
  | .finite mantissa exponent =>
    let (point, place) := shortest mantissa exponent
    let digits := Nat.toDigits 10 point
    String.ofList (layout (trimZeros digits) (place + digits.length - 1))

def Numeral.text (n : Numeral) : String :=
  if n.negative then "-" ++ n.magnitude.text else n.magnitude.text

end Amalgam.Decimal
