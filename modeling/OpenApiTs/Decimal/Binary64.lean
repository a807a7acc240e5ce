/-!
# Finite binary64 numbers

A finite binary64 number is a sign and a magnitude `mantissa · 2 ^ scale` in units of `2 ^ -1074`,
the smallest positive number of the format. Every operation is exact arithmetic on naturals
followed by one rounding to the nearest number, ties to the even mantissa.

## Main definitions

* `Binary64`: sign, mantissa and scale of a finite number.
* `Binary64.ofRatio?`: the number nearest to a quotient of naturals, if one is in range.
* `Binary64.ofDecimal?`: the number nearest to a decimal.
* `Binary64.ofScaledDigits?`: a significand below `2 ^ 64` and a power of ten, each rounded before
  they are combined.
-/

namespace OpenApiTs

/-- A finite binary64 number, `± mantissa · 2 ^ scale · 2 ^ -1074`. The mantissa is below
`2 ^ 53`, and at least `2 ^ 52` unless the scale is zero. -/
structure Binary64 where
  negative : Bool
  mantissa : Nat
  scale : Nat
  deriving DecidableEq, Repr

namespace Binary64

/-- Positive or negative zero. -/
def zero (negative : Bool) : Binary64 := ⟨negative, 0, 0⟩

instance : Inhabited Binary64 := ⟨zero false⟩

/-- The natural number nearest to `num / den`, a tie going to the even one. -/
def roundQuotient (num den : Nat) : Nat :=
  let q := num / den
  let r := num % den
  if 2 * r < den then q
  else if den < 2 * r then q + 1
  else if q % 2 = 0 then q else q + 1

/-- The largest scale of a finite number. -/
def maxScale : Nat := 2045

/-- The number nearest to `num / den`; none if that would not be finite. -/
def ofRatio? (negative : Bool) (num den : Nat) : Option Binary64 :=
  let units := num * Nat.pow 2 1074
  let scale := (units / den).log2 - 52
  let mantissa := roundQuotient units (den * Nat.pow 2 scale)
  let (mantissa, scale) :=
    if mantissa = Nat.pow 2 53 then (Nat.pow 2 52, scale + 1) else (mantissa, scale)
  if scale ≤ maxScale then some ⟨negative, mantissa, scale⟩ else none

/-- The number nearest to `digits · 10 ^ exponent`; none if that would not be finite. Exponents so
far out that the answer is plain are not raised to a power. -/
def ofDecimal? (negative : Bool) (digits : Nat) (exponent : Int) : Option Binary64 :=
  if digits = 0 then some (zero negative)
  else
    let leading := exponent + (digits.log2 : Int) / 4
    if leading > 400 then none
    else if exponent + (digits.log2 : Int) < -1100 then some (zero negative)
    else if exponent < 0 then ofRatio? negative digits (Nat.pow 10 exponent.natAbs)
    else ofRatio? negative (digits * Nat.pow 10 exponent.natAbs) 1

/-- The product with `10 ^ k`, the power itself rounded first. -/
def timesPowerOfTen? (x : Binary64) (k : Nat) : Option Binary64 :=
  match ofRatio? false (Nat.pow 10 k) 1 with
  | none => none
  | some p =>
    ofRatio? x.negative
      (x.mantissa * Nat.pow 2 x.scale * (p.mantissa * Nat.pow 2 p.scale)) (Nat.pow 2 2148)

/-- The quotient by `10 ^ k`, the power itself rounded first. -/
def overPowerOfTen (x : Binary64) (k : Nat) : Binary64 :=
  match ofRatio? false (Nat.pow 10 k) 1 with
  | none => zero x.negative
  | some p =>
    (ofRatio? x.negative (x.mantissa * Nat.pow 2 x.scale)
      (p.mantissa * Nat.pow 2 p.scale)).getD (zero x.negative)

/-- The largest power of ten that is finite. -/
def maxPowerOfTen : Nat := 308

/-- A significand scaled by a power of ten. The significand is rounded, then multiplied or divided
by the rounded power, so the result can differ from the nearest number in its last place. A
negative exponent beyond the largest power is taken in two or three steps. -/
def ofScaledDigits? (negative : Bool) (significand : Nat) (exponent : Int) : Option Binary64 :=
  match ofRatio? negative significand 1 with
  | none => none
  | some x =>
    let k := exponent.natAbs
    if 0 ≤ exponent then
      if k ≤ maxPowerOfTen then x.timesPowerOfTen? k
      else if x.mantissa = 0 then some x
      else none
    else if k ≤ maxPowerOfTen then some (x.overPowerOfTen k)
    else
      let y := x.overPowerOfTen maxPowerOfTen
      if k ≤ 2 * maxPowerOfTen then some (y.overPowerOfTen (k - maxPowerOfTen))
      else some (zero negative)

/-- Numeric equality: the two zeros are equal. -/
def same (x y : Binary64) : Bool :=
  x.mantissa == y.mantissa && x.scale == y.scale &&
    (x.negative == y.negative || x.mantissa == 0)

end Binary64

end OpenApiTs
