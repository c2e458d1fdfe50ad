/-
How the digits of a decimal are set out: with a point among them or
zeros around them as long as that stays short, and otherwise as one
digit, a point, the other digits and an exponent.
-/
import Chip8.Decimal.Shortest

namespace Chip8.Decimal

/-- The decisions that a way of setting out decimals makes. The point
of a decimal stands behind as many of its digits as `pointAt` says;
zero or less means in front of the first. -/
structure Layout where
  /-- Decimals are set out without an exponent from this `pointAt`. -/
  lowestPoint : Int
  /-- Decimals are set out without an exponent up to this `pointAt`. -/
  highestPoint : Int
  /-- What stands behind an integer set out without an exponent. -/
  integerEnd : List Char
  /-- What stands before an exponent that is not negative. -/
  exponentMark : List Char
  /-- What stands before the size of an exponent that is negative. -/
  negativeExponentMark : List Char

/-- Integers keep a `.0`, exponents start where sixteen digits do not
reach or where a fraction has five zeros in front, and an exponent has
its sign. -/
def Layout.signed : Layout where
  lowestPoint := -4
  highestPoint := 16
  integerEnd := ['.', '0']
  exponentMark := ['e', '+']
  negativeExponentMark := ['e', '-']

/-- Set out a decimal. -/
def Layout.chars (l : Layout) (d : Decimal) : List Char :=
  let digits := Nat.toDigits 10 d.digits
  let pointAt : Int := digits.length + d.exponent
  if l.lowestPoint ≤ pointAt ∧ pointAt ≤ l.highestPoint then
    if 0 ≤ d.exponent then
      digits ++ List.replicate d.exponent.toNat '0' ++ l.integerEnd
    else if 0 < pointAt then
      digits.take pointAt.toNat ++ '.' :: digits.drop pointAt.toNat
    else ['0', '.'] ++ List.replicate (-pointAt).toNat '0' ++ digits
  else
    let fraction := if digits.length ≤ 1 then [] else '.' :: digits.drop 1
    let exponent := pointAt - 1
    let mark := if exponent < 0 then l.negativeExponentMark else l.exponentMark
    digits.take 1 ++ fraction ++ mark ++ Nat.toDigits 10 exponent.natAbs

/-- Set out a finite double by its shortest decimal. -/
def Layout.float (l : Layout) (x : Float) : String :=
  let bits := x.toBits
  let sign := if bits < 0x8000000000000000 then [] else ['-']
  let body :=
    if bits &&& 0x7FFFFFFFFFFFFFFF = 0 then '0' :: l.integerEnd
    else l.chars (Binary.ofBits bits).shortest
  String.ofList (sign ++ body)

end Chip8.Decimal
