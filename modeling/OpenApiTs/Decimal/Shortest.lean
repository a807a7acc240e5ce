import OpenApiTs.Decimal.Binary64

/-!
# Shortest decimal texts

The decimal text of a finite binary64 number has the fewest significant digits that read back as
the number, and among those the nearest to it. Where positional notation ends and how an exponent
is written is a choice of the format that prints the number.

## Main definitions

* `Decimal.shortest`: significant digits and the exponent of the leading one.
* `Decimal.Notation`: where positional notation is used and how an exponent is written.
* `Decimal.Notation.text`: the text of a number in a notation.
-/

namespace OpenApiTs.Decimal

/-- The positive quotient `num / den` compared with `10 ^ e`. -/
def isAtLeastPowerOfTen (num den : Nat) (e : Int) : Bool :=
  if e < 0 then den ≤ num * Nat.pow 10 e.natAbs else den * Nat.pow 10 e.natAbs ≤ num

/-- The exponent of the leading decimal digit of the positive quotient `num / den`. -/
def leadingExponent (num den : Nat) : Int :=
  let bits : Int := (num.log2 : Int) - (den.log2 : Int)
  let guess := (bits * 30103).fdiv 100000
  if isAtLeastPowerOfTen num den (guess + 1) then guess + 1
  else if isAtLeastPowerOfTen num den guess then guess
  else guess - 1

/-- The interval of reals that round to a number, over a common denominator. -/
structure Interval where
  low : Nat
  middle : Nat
  high : Nat
  denominator : Nat
  /-- The ends round to the number too. -/
  closed : Bool

/-- The reals that round to the magnitude of `x`. Below a power of two the neighbours are twice as
dense. -/
def Interval.of (x : Binary64) : Interval :=
  let unit := Nat.pow 2 x.scale
  let below := if x.mantissa = Nat.pow 2 52 ∧ 0 < x.scale then 1 else 2
  { low := (4 * x.mantissa - below) * unit
    middle := 4 * x.mantissa * unit
    high := (4 * x.mantissa + 2) * unit
    denominator := 4 * Nat.pow 2 1074
    closed := x.mantissa % 2 == 0 }

/-- Whether `digits · 10 ^ e` lies in the interval. -/
def Interval.holds (i : Interval) (digits : Nat) (e : Int) : Bool :=
  let (value, unit) :=
    if e < 0 then (digits * i.denominator, Nat.pow 10 e.natAbs)
    else (digits * Nat.pow 10 e.natAbs * i.denominator, 1)
  if i.closed then i.low * unit ≤ value && value ≤ i.high * unit
  else i.low * unit < value && value < i.high * unit

/-- The multiple of `10 ^ e` in the interval that is nearest to its middle, if there is one; a tie
goes to the even multiple. -/
def Interval.nearest? (i : Interval) (e : Int) : Option Nat :=
  let (num, den) :=
    if e < 0 then (i.middle * Nat.pow 10 e.natAbs, i.denominator)
    else (i.middle, i.denominator * Nat.pow 10 e.natAbs)
  let floor := num / den
  let first := Binary64.roundQuotient num den
  let second := if first = floor then floor + 1 else floor
  if i.holds first e then some first
  else if i.holds second e then some second
  else none

/-- The first hit on ever finer grids, starting at the grid of `10 ^ e`. -/
def firstHit (i : Interval) : Nat → Int → Nat × Int
  | 0, e => (i.middle / i.denominator, e)
  | fuel + 1, e =>
    match i.nearest? e with
    | some digits => (digits, e)
    | none => firstHit i fuel (e - 1)

/-- Decimal digits of a number without the zeros at their end, and the exponent of the first. -/
def trimZeros : Nat → Nat → Int → Nat × Int
  | 0, digits, e => (digits, e)
  | fuel + 1, digits, e =>
    if digits ≠ 0 ∧ digits % 10 = 0 then trimZeros fuel (digits / 10) (e + 1) else (digits, e)

/-- The fewest significant digits that read back as the magnitude of `x`, and the exponent of the
last of them. -/
def shortest (x : Binary64) : Nat × Int :=
  if x.mantissa = 0 then (0, 0)
  else
    let i := Interval.of x
    let (digits, e) := firstHit i 18 (leadingExponent i.middle i.denominator)
    trimZeros 20 digits e

/-- How a format writes a number in decimal. -/
structure Notation where
  /-- The least exponent of the leading digit that is written positionally. -/
  plainFrom : Int
  /-- The greatest exponent of the leading digit that is written positionally. -/
  plainTo : Int
  /-- The sign of an exponent that is not negative. -/
  positiveSign : String

/-- The text of a number. Positional texts always have a fractional part. -/
def Notation.text (style : Notation) (x : Binary64) : String :=
  let sign := if x.negative then "-" else ""
  let (digits, last) := shortest x
  let text := digits.repr
  let count := text.length
  let leading : Int := last + count - 1
  let body :=
    if style.plainFrom ≤ leading ∧ leading ≤ style.plainTo then
      if 0 ≤ last then text ++ String.ofList (List.replicate last.toNat '0') ++ ".0"
      else if 0 ≤ leading then
        let whole := leading.toNat + 1
        String.ofList (text.toList.take whole) ++ "." ++ String.ofList (text.toList.drop whole)
      else "0." ++ String.ofList (List.replicate (leading.natAbs - 1) '0') ++ text
    else
      let mantissa :=
        if count = 1 then text
        else String.ofList (text.toList.take 1) ++ "." ++ String.ofList (text.toList.drop 1)
      let exponent :=
        if leading < 0 then "-" ++ leading.natAbs.repr
        else style.positiveSign ++ leading.natAbs.repr
      mantissa ++ "e" ++ exponent
  sign ++ body

end OpenApiTs.Decimal
