/-! # Decimal numerals and binary floating point

A numeral is read exactly and then rounded once, to the nearest number of 53 significant bits and an
exponent of at least -1074, of two such numbers to the even one. What reaches 2^1024 is infinite.
-/

namespace Amalgam.Decimal

/-- The number `digits * 10 ^ exponent` with a sign. -/
structure Numeral where
  negative : Bool
  digits : Nat
  exponent : Int
deriving DecidableEq, Repr

inductive Magnitude where
  | finite (mantissa : Nat) (exponent : Int)
  | infinite
deriving DecidableEq, Repr

/-- The quotient rounded to the nearest natural number, a half to the even one. -/
def roundQuotient (num den : Nat) : Nat :=
  let quotient := num / den
  let twice := 2 * (num % den)
  if twice < den ∨ (twice = den ∧ quotient % 2 = 0) then quotient else quotient + 1

def power (base : Nat) (exponent : Int) : Nat × Nat :=
  (base.pow exponent.toNat, base.pow (-exponent).toNat)

def leastExponent : Int := -1074

def Magnitude.ofRatio (num den : Nat) : Magnitude :=
  if num = 0 then .finite 0 leastExponent
  else
    let guess := max ((num.log2 : Int) - den.log2 - 53) leastExponent
    let unit := power 2 guess
    let exponent := if num * unit.2 / (den * unit.1) < Nat.pow 2 53 then guess else guess + 1
    let unit := power 2 exponent
    let mantissa := roundQuotient (num * unit.2) (den * unit.1)
    if 1024 ≤ exponent + mantissa.log2 then .infinite
    else if mantissa = Nat.pow 2 53 then .finite (Nat.pow 2 52) (exponent + 1)
    else .finite mantissa exponent

/-- Numerals whose leading digit stands far outside the range of the format are decided without
writing out their power of ten. -/
def Numeral.magnitude (n : Numeral) : Magnitude :=
  let leading := n.exponent + (Nat.toDigits 10 n.digits).length
  if n.digits = 0 ∨ leading < -400 then .finite 0 leastExponent
  else if 400 < leading then .infinite
  else
    let unit := power 10 n.exponent
    .ofRatio (n.digits * unit.1) unit.2

end Amalgam.Decimal
