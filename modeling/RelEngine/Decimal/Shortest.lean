/-!
# The fewest digits that read back

A double stands for all real numbers that round to it. `shortest` picks, among the decimal numbers
in that interval, one with the fewest significant digits, and of those the nearest to the double
itself; of two equally near ones it takes the larger.

All arithmetic is exact. A double `m · 2^q` is measured in quarters of its unit, so that the ends of
the interval are whole numbers too, and compared with the points `d · 10^k` of a decimal grid after
both have been scaled to naturals. On each grid only the two points around the double matter: if any
point of the grid lies in the interval, one of these two does.
-/

namespace RelEngine.Decimal

/-- **Significant digits and the place of the point**: `0.d₁d₂… · 10^point`. -/
structure Digits where
  /-- The significant digits, the first and the last not `0`. -/
  digits : List Char
  /-- How many places the point stands to the right of the first digit. -/
  point : Int
deriving DecidableEq, Repr

/-- **The interval of a double**, in quarters of its unit: `4m · 2^(q-2)` lies at `mid`. -/
structure Interval where
  low : Nat
  mid : Nat
  high : Nat
  /-- Whether the two ends round to the double as well. -/
  closed : Bool
  /-- The exponent of two of a quarter unit. -/
  exponent : Int

/-- The weight of the leading bit of a double that is not subnormal, the fifty-second power of
two. -/
def leadingBit : Nat := 4503599627370496

/-- The interval of the positive double with the given exponent and fraction fields. Below a power
of two the neighbour is half as far away. -/
def Interval.ofFields (exponent fraction : Nat) : Interval :=
  let m := if exponent = 0 then fraction else fraction + leadingBit
  let q : Int := if exponent = 0 then -1074 else (exponent : Int) - 1075
  let low := if fraction = 0 ∧ 1 < exponent then 4 * m - 1 else 4 * m - 2
  ⟨low, 4 * m, 4 * m + 2, m % 2 == 0, q - 2⟩

/-- How many decimal digits a number has. -/
def digitCount (n : Nat) : Nat := (Nat.toDigits 10 n).length

/-- The power of ten of the first digit of `num / den`. -/
def leadingPower (num den : Nat) : Int :=
  if den ≤ num then digitCount (num / den) - 1
  else -(digitCount ((den - 1) / num) : Int)

/-- The digits of `d · 10^k` without the zeros at the end. -/
def Digits.ofScaled (d : Nat) (k : Int) : Digits :=
  let all := Nat.toDigits 10 d
  ⟨(all.reverse.dropWhile (· == '0')).reverse, all.length + k⟩

/-- The point of the grid of step `10^k` that stands for the double, if one lies in its interval.
Every bound is brought to naturals by `scale`, and the grid point `d` to `d * step`. -/
def Interval.pick (i : Interval) (scale step : Nat) : Option Nat :=
  let d := i.mid * scale / step
  let inside (x : Nat) : Bool :=
    if i.closed then i.low * scale ≤ x && x ≤ i.high * scale
    else i.low * scale < x && x < i.high * scale
  let below := inside (d * step)
  let above := inside ((d + 1) * step)
  -- of two hits the nearer one, and the larger when the double lies half way
  if below && above then
    if i.mid * scale - d * step < (d + 1) * step - i.mid * scale then some d else some (d + 1)
  else if below then some d
  else if above then some (d + 1)
  else none

/-- The first hit on grids with one more digit each; `fuel` bounds the number of grids. -/
def Interval.search (i : Interval) (power : Int) : (fuel digits : Nat) → Digits
  | 0, _ => ⟨[], 0⟩
  | fuel + 1, n =>
    -- `n` digits, the first of them worth `10^power`, leave a last one worth `10^k`
    let k := power + 1 - n
    let scale := Nat.pow 2 i.exponent.toNat * Nat.pow 10 (-k).toNat
    let step := Nat.pow 10 k.toNat * Nat.pow 2 (-i.exponent).toNat
    match i.pick scale step with
    | some d => .ofScaled d k
    | none => i.search power fuel (n + 1)

/-- **The shortest decimal** that reads back as the positive double with these fields. Seventeen
digits always suffice. -/
def shortest (exponent fraction : Nat) : Digits :=
  let i := Interval.ofFields exponent fraction
  let power := leadingPower (i.mid * Nat.pow 2 i.exponent.toNat) (Nat.pow 2 (-i.exponent).toNat)
  i.search power 17 1

/-! ### Writing -/

/-- **How a double is written**: where positional notation ends and the words for the two values
without digits. -/
structure Layout where
  /-- The least power of ten of a first digit that is written positionally. -/
  leastPower : Int
  /-- The first power of ten that is written with an exponent again. -/
  powerLimit : Int
  infinite : String
  undefined : String

/-- Positional notation with at least one digit after the point. -/
def Digits.positional (d : Digits) : List Char :=
  let n := d.digits.length
  if d.point ≤ 0 then ['0', '.'] ++ List.replicate (-d.point).toNat '0' ++ d.digits
  else if d.point < n then
    d.digits.take d.point.toNat ++ ['.'] ++ d.digits.drop d.point.toNat
  else d.digits ++ List.replicate (d.point - n).toNat '0' ++ ['.', '0']

/-- One digit before the point, the others after it, and the power of ten behind an `e`. -/
def Digits.scientific (d : Digits) : List Char :=
  let mantissa := match d.digits with
    | [] => []
    | [c] => [c]
    | c :: rest => c :: '.' :: rest
  mantissa ++ 'e' :: (toString (d.point - 1)).toList

/-- The digits in the notation that the layout asks for. -/
def Layout.place (l : Layout) (d : Digits) : List Char :=
  if l.leastPower ≤ d.point - 1 ∧ d.point - 1 < l.powerLimit then d.positional else d.scientific

/-- The sign bit, exponent field and fraction field of a double. -/
def fields (x : Float) : Bool × Nat × Nat :=
  let bits := x.toBits.toNat
  (leadingBit * 2048 ≤ bits, bits / leadingBit % 2048, bits % leadingBit)

/-- The text of a double. -/
def Layout.write (l : Layout) (x : Float) : String :=
  let (negative, exponent, fraction) := fields x
  let sign := if negative then ['-'] else []
  if exponent = 2047 then
    if fraction = 0 then String.ofList sign ++ l.infinite else l.undefined
  else if exponent = 0 ∧ fraction = 0 then String.ofList (sign ++ ['0', '.', '0'])
  else String.ofList (sign ++ l.place (shortest exponent fraction))

end RelEngine.Decimal
