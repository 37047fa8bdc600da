import RelEngine.Decimal.Integer
import RelEngine.Text.Case

/-!
# Reading decimal fractions

A decimal number is an optional sign followed by digits with at most one point among or around them
— at least one digit in all — and an optional power of ten behind `e` or `E`. The words `inf`,
`infinity` and `nan` stand for the three values without digits, in any letter case. The number read
is the double nearest to the decimal one, infinity when that lies beyond the range.
-/

namespace RelEngine.Decimal

/-- **A decimal number**: `digits · 10^exponent`. -/
structure Scientific where
  digits : Nat
  exponent : Int
deriving DecidableEq, Repr

/-- The double nearest to a decimal number. -/
def Scientific.toFloat (x : Scientific) : Float :=
  Float.ofScientific x.digits (x.exponent < 0) x.exponent.natAbs

/-- The power of ten at the end of a number: nothing, or `e` and a signed run of digits. -/
def readPower : List Char → Option Int
  | [] => some 0
  | e :: rest =>
    if e == 'e' || e == 'E' then
      let (negative, digits) := splitSign rest
      (readDigits digits).map fun n => if negative then -(n : Int) else n
    else none

/-- An unsigned decimal number. -/
def readScientific (s : List Char) : Option Scientific :=
  let whole := s.takeWhile Char.isDigit
  let (fraction, rest) := match s.dropWhile Char.isDigit with
    | '.' :: r => (r.takeWhile Char.isDigit, r.dropWhile Char.isDigit)
    | r => ([], r)
  match readDigits (whole ++ fraction), readPower rest with
  | some digits, some power => some ⟨digits, power - fraction.length⟩
  | _, _ => none

/-- The word for infinity, in either length. -/
def isInfinityWord (s : String) : Bool :=
  Text.sameLetters s "inf" || Text.sameLetters s "infinity"

/-- The double that a text stands for. -/
def readFloat (s : String) : Option Float :=
  let (negative, rest) := splitSign s.toList
  let magnitude : Option Float :=
    let word := String.ofList rest
    if isInfinityWord word then some (Float.ofBits 0x7FF0000000000000)
    else if Text.sameLetters word "nan" then some (Float.ofBits 0x7FF8000000000000)
    else (readScientific rest).map Scientific.toFloat
  magnitude.map fun x => if negative then -x else x

end RelEngine.Decimal
