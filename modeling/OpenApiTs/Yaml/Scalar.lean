import OpenApiTs.Json.Basic
import OpenApiTs.Text.Quoted
import OpenApiTs.Yaml.Token

/-!
# Values of scalars

What the text of a scalar means. Without marks and without a tag it may be null, a truth value, an
integer in one of four bases, a float, or else a text. A tag of the core types asks for that type,
and any other tag for a text.

## Main definitions

* `Yaml.integer?`, `Yaml.float?`: the number that a text writes.
* `Yaml.resolve?`: the value of a plain scalar.
* `Yaml.coreValue?`: the value of a scalar with a tag.
-/

namespace OpenApiTs.Yaml

/-! ### Null and truth values -/

/-- Whether a text writes null. -/
def isNull (text : String) : Bool :=
  text = "null" || text = "Null" || text = "NULL" || text = "~"

/-- The truth value that a text writes. -/
def boolean? (text : String) : Option Bool :=
  if text = "true" ∨ text = "True" ∨ text = "TRUE" then some true
  else if text = "false" ∨ text = "False" ∨ text = "FALSE" then some false
  else none

/-! ### Integers -/

/-- The number that digits of a base write; there is at least one. -/
def digitsValue? (base : Nat) (digits : List Char) : Option Nat :=
  if digits.isEmpty then none
  else
    digits.foldlM (fun n c => do
      let d ← Text.hexValue? c
      if d < base then some (n * base + d) else none) 0

/-- The natural number that a text writes. A decimal number does not begin with a zero. -/
def magnitude? : List Char → Option Nat
  | '0' :: 'x' :: digits => digitsValue? 16 digits
  | '0' :: 'o' :: digits => digitsValue? 8 digits
  | '0' :: 'b' :: digits => digitsValue? 2 digits
  | '0' :: _ :: _ => none
  | digits => digitsValue? 10 digits

/-- The integer that a text writes. -/
def integer? : List Char → Option Int
  | '-' :: rest => (magnitude? rest).map fun n => -n
  | '+' :: rest => (magnitude? rest).map fun n => n
  | rest => (magnitude? rest).map fun n => n

/-- Whether an integer can be a value: it is one of 64 bits, with or without a sign. -/
def fitsWord (n : Int) : Bool := -(Nat.pow 2 63 : Int) ≤ n && n < (Nat.pow 2 64 : Int)

/-- Whether an integer is recognised as one: it is one of 128 bits, with or without a sign. -/
def fitsDoubleWord (n : Int) : Bool := -(Nat.pow 2 127 : Int) ≤ n && n < (Nat.pow 2 128 : Int)

/-! ### Floats -/

/-- A decimal digit. -/
def isDecimal (c : Char) : Bool := '0' ≤ c && c ≤ '9'

/-- The integer that decimal digits with an optional sign write. -/
def signedDigits? : List Char → Option Int
  | '-' :: digits => (digitsValue? 10 digits).map fun n => -n
  | '+' :: digits => (digitsValue? 10 digits).map fun n => n
  | digits => (digitsValue? 10 digits).map fun n => n

/-- The exponent that the rest of a number writes; there is nothing else. -/
def exponent? : List Char → Option Int
  | [] => some 0
  | c :: rest => if c = 'e' ∨ c = 'E' then signedDigits? rest else none

/-- The decimal number that a text without a sign writes: digits with a point anywhere among them,
and an exponent. -/
def decimal? (negative : Bool) (cs : List Char) : Option Binary64 := do
  let whole := cs.takeWhile isDecimal
  let rest := cs.dropWhile isDecimal
  let (fraction, rest) :=
    match rest with
    | '.' :: rest => (rest.takeWhile isDecimal, rest.dropWhile isDecimal)
    | rest => ([], rest)
  let digits ← digitsValue? 10 (whole ++ fraction)
  Binary64.ofDecimal? negative digits ((← exponent? rest) - fraction.length)

/-- The finite number that a text writes. -/
def finite? : List Char → Option Binary64
  | '-' :: rest => decimal? true rest
  | '+' :: rest => decimal? false rest
  | rest => decimal? false rest

/-- Whether a text writes an infinity or that there is no number. -/
def isNonFinite (text : String) : Bool :=
  [".inf", ".Inf", ".INF", "+.inf", "+.Inf", "+.INF", "-.inf", "-.Inf", "-.INF", ".nan", ".NaN",
    ".NAN"].contains text

/-- The value of a float. One that is not finite has no JSON form and becomes null. -/
def float? (text : String) : Option Json :=
  if isNonFinite text then some .null
  else (finite? text.toList).map fun x => .number (.double x)

/-- Whether a text is a zero with further digits, possibly after a sign. Such a text is no
number. -/
def isZeroPadded (text : String) : Bool :=
  let digits :=
    match text.toList with
    | '-' :: rest => rest
    | '+' :: rest => rest
    | rest => rest
  1 < digits.length && digits.head? = some '0' && digits.all isDecimal

/-! ### Scalars -/

/-- The value of an integer; none if it is too large for a value. -/
def integerValue? (n : Int) : Option Json :=
  if fitsWord n then some (.number (.int n)) else none

/-- The value of a text that is neither null, nor a truth value, nor an integer. -/
def floatOrText (text : String) : Json :=
  if isZeroPadded text then .string text else (float? text).getD (.string text)

/-- The value of a plain scalar. An integer that is recognised has to fit. -/
def resolve? (text : String) : Option Json :=
  if text.isEmpty || isNull text then some .null
  else
    match boolean? text with
    | some b => some (.bool b)
    | none =>
      match integer? text.toList with
      | some n =>
        if fitsDoubleWord n then integerValue? n else some (floatOrText text)
      | none => some (floatOrText text)

/-- The value of a scalar without a tag. -/
def untagged? (text : String) (plain : Bool) : Option Json :=
  if plain then resolve? text else some (.string text)

/-- The value of a scalar with a tag. -/
def coreValue? (tag : Address) (text : String) : Option Json :=
  if tag = .ofString "tag:yaml.org,2002:bool" then (boolean? text).map .bool
  else if tag = .ofString "tag:yaml.org,2002:int" then integer? text.toList >>= integerValue?
  else if tag = .ofString "tag:yaml.org,2002:float" then float? text
  else if tag = .ofString "tag:yaml.org,2002:null" then if isNull text then some .null else none
  else some (.string text)

end OpenApiTs.Yaml
