import OpenApiTs.Json.Basic
import OpenApiTs.Text.Quoted

/-!
# Scalars in TOML

Numbers, truth values, dates and times. A number may have underscores between its digits. No value
of this library is a date, so a date or time is read as an object that holds its text; likewise a
float without finite value is read as zero.

## Main definitions

* `Toml.digits?`: digits with underscores between them.
* `Toml.number?`: an integer or a float.
* `Toml.dateTime?`: a date, a time, or both.
* `Toml.scalar?`: a scalar other than a text.
-/

namespace OpenApiTs.Toml

/-- A decimal digit. -/
def isDigit (c : Char) : Bool := '0' ≤ c && c ≤ '9'

/-! ### Numbers -/

/-- Whether each underscore stands between two other characters. -/
def underscoresInside : List Char → Bool
  | [] => false
  | ['_'] => false
  | '_' :: '_' :: _ => false
  | [_] => true
  | _ :: c :: rest => underscoresInside (c :: rest)

/-- The digits of a run with underscores between them, and what follows the run. -/
def digits? (isDigit : Char → Bool) (cs : List Char) : Option (List Char × List Char) :=
  let run := cs.takeWhile fun c => isDigit c || c = '_'
  if run.head? ≠ some '_' && underscoresInside run then
    some (run.filter (· ≠ '_'), cs.drop run.length)
  else none

/-- The value of digits in a base. -/
def valueOf (base : Nat) (digits : List Char) : Nat :=
  digits.foldl (fun n c => n * base + (Text.hexValue? c).getD 0) 0

/-- The number of values below zero, and the bound of those above it. -/
def integerBound : Nat := Nat.pow 2 63

/-- An integer in a base other than ten, from behind its mark. -/
def radix? (base : Nat) (cs : List Char) : Option (Json × List Char) := do
  let (digits, rest) ← digits? (fun c => ((Text.hexValue? c).getD base) < base) cs
  let n := valueOf base digits
  if n < integerBound then some (.number (.int n), rest) else none

/-- A sign, negative or not, and what follows. -/
def sign : List Char → Bool × List Char
  | '-' :: rest => (true, rest)
  | '+' :: rest => (false, rest)
  | cs => (false, cs)

/-- The exponent of a float if one is there. -/
def exponent? : List Char → Option (Option Int × List Char)
  | c :: rest =>
    if c = 'e' ∨ c = 'E' then do
      let (negative, rest) := sign rest
      let (digits, rest) ← digits? isDigit rest
      let n : Int := valueOf 10 digits
      some (some (if negative then -n else n), rest)
    else some (none, c :: rest)
  | [] => some (none, [])

/-- The fraction of a float if one is there. -/
def fraction? : List Char → Option (Option (List Char) × List Char)
  | '.' :: rest => (digits? isDigit rest).map fun (digits, rest) => (some digits, rest)
  | rest => some (none, rest)

/-- The float zero, which also stands for a float without finite value. -/
def zero : Json := .number (.double (Binary64.zero false))

/-- A float. One that is too large in the negative direction has no finite value; in the positive
direction it is refused. -/
def floatOf? (negative : Bool) (whole fraction : List Char) (exponent : Int) : Option Json :=
  let digits := valueOf 10 (whole ++ fraction)
  match Binary64.ofDecimal? negative digits (exponent - fraction.length) with
  | some x => some (.number (.double x))
  | none => if negative then some zero else none

/-- An integer in base ten. -/
def integerOf? (negative : Bool) (whole : List Char) : Option Json :=
  let n := valueOf 10 whole
  if negative then if n ≤ integerBound then some (.number (.int (-n))) else none
  else if n < integerBound then some (.number (.int n)) else none

/-- An integer or a float in base ten, from behind its sign. -/
def decimal? (negative : Bool) (cs : List Char) : Option (Json × List Char) := do
  let (whole, rest) ← digits? isDigit cs
  if whole.head? = some '0' ∧ 1 < whole.length then none
  let (fraction, rest) ← fraction? rest
  let (exponent, rest) ← exponent? rest
  if fraction.isNone ∧ exponent.isNone then return (← integerOf? negative whole, rest)
  else return (← floatOf? negative whole (fraction.getD []) (exponent.getD 0), rest)

/-- A number. -/
def number? : List Char → Option (Json × List Char)
  | '0' :: 'x' :: rest => radix? 16 rest
  | '0' :: 'o' :: rest => radix? 8 rest
  | '0' :: 'b' :: rest => radix? 2 rest
  | cs =>
    match sign cs with
    | (_, 'i' :: 'n' :: 'f' :: rest) => some (zero, rest)
    | (_, 'n' :: 'a' :: 'n' :: rest) => some (zero, rest)
    | (negative, rest) => decimal? negative rest

/-! ### Dates and times -/

/-- A number of exactly `count` digits. -/
def fixed? (count : Nat) (cs : List Char) : Option (Nat × List Char) :=
  let digits := cs.take count
  if digits.length = count ∧ digits.all isDigit then some (valueOf 10 digits, cs.drop count)
  else none

/-- A number of two digits in a range. -/
def twoDigits? (low high : Nat) (cs : List Char) : Option (Nat × List Char) := do
  let (n, rest) ← fixed? 2 cs
  if low ≤ n ∧ n ≤ high then some (n, rest) else none

/-- What follows a given character. -/
def after? (c : Char) : List Char → Option (List Char)
  | [] => none
  | d :: rest => if d = c then some rest else none

/-- Whether a year has a leap day. -/
def isLeapYear (year : Nat) : Bool :=
  year % 4 = 0 && (year % 100 ≠ 0 || year % 400 = 0)

/-- The number of days of a month. -/
def daysOfMonth (year month : Nat) : Nat :=
  if month = 2 then if isLeapYear year then 29 else 28
  else if month = 4 ∨ month = 6 ∨ month = 9 ∨ month = 11 then 30
  else 31

/-- What follows a date. -/
def date? (cs : List Char) : Option (List Char) := do
  let (year, rest) ← fixed? 4 cs
  let (month, rest) ← twoDigits? 1 12 (← after? '-' rest)
  let (_, rest) ← twoDigits? 1 (daysOfMonth year month) (← after? '-' rest)
  pure rest

/-- What follows a time of day. -/
def time? (cs : List Char) : Option (List Char) := do
  let (_, rest) ← twoDigits? 0 23 cs
  let (_, rest) ← twoDigits? 0 59 (← after? ':' rest)
  let (_, rest) ← twoDigits? 0 60 (← after? ':' rest)
  match rest with
  | '.' :: rest =>
    if (rest.takeWhile isDigit).isEmpty then none else some (rest.dropWhile isDigit)
  | rest => some rest

/-- What follows the offset of a time, if one is there. -/
def offset? : List Char → Option (List Char)
  | 'Z' :: rest => some rest
  | 'z' :: rest => some rest
  | c :: rest =>
    if c = '+' ∨ c = '-' then do
      let (_, rest) ← twoDigits? 0 23 rest
      let (_, rest) ← twoDigits? 0 59 (← after? ':' rest)
      pure rest
    else some (c :: rest)
  | [] => some []

/-- Whether a time of day begins here: two digits and a colon. -/
def beginsTime (cs : List Char) : Bool :=
  (cs.take 2).all isDigit && (cs.drop 2).head? = some ':'

/-- Whether a date begins here: four digits and a hyphen. -/
def beginsDate (cs : List Char) : Bool :=
  (cs.take 4).all isDigit && (cs.drop 4).head? = some '-'

/-- What follows a date and the time that may come with it. -/
def dateWithTime? (cs : List Char) : Option (List Char) := do
  match ← date? cs with
  | c :: rest =>
    if (c = 'T' ∨ c = 't' ∨ c = ' ') ∧ beginsTime rest then offset? (← time? rest)
    else some (c :: rest)
  | [] => some []

/-- A date, a time or both. -/
def dateTime? (cs : List Char) : Option (Json × List Char) := do
  let rest ← if beginsDate cs then dateWithTime? cs else time? cs
  let written := String.ofList (cs.take (cs.length - rest.length))
  pure (.object [("datetime", .string written)], rest)

/-! ### Scalars -/

/-- A scalar other than a text. -/
def scalar? : List Char → Option (Json × List Char)
  | 't' :: 'r' :: 'u' :: 'e' :: rest => some (.bool true, rest)
  | 'f' :: 'a' :: 'l' :: 's' :: 'e' :: rest => some (.bool false, rest)
  | cs => if beginsDate cs || beginsTime cs then dateTime? cs else number? cs

end OpenApiTs.Toml
