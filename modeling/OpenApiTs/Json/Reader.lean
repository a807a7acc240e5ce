import OpenApiTs.Json.Basic
import OpenApiTs.Text.Quoted

/-!
# Reading JSON

A reader for one JSON text. Each reading step takes the characters still to be read and returns
what it read with the rest. Arrays and objects may be nested to a given depth. A repeated key
keeps its first place and takes its last value.

## Main definitions

* `Json.Reader.number?`: a number; an integer that fits neither 64-bit kind is a binary64 number.
* `Json.Reader.value?`: a value nested at most so deep.
* `Json.read?`: a whole text.
-/

namespace OpenApiTs.Json

namespace Reader

/-- The blanks between tokens. -/
def isSpace (c : Char) : Bool := c = ' ' || c = '\n' || c = '\t' || c = '\r'

/-- The characters after leading blanks. -/
def skip (cs : List Char) : List Char := cs.dropWhile isSpace

/-- A decimal digit. -/
def isDigit (c : Char) : Bool := '0' ≤ c && c ≤ '9'

/-- The value of a digit. -/
def digitValue (c : Char) : Nat := c.toNat - 48

/-- The bound of a 64-bit natural number. -/
def wordBound : Nat := Nat.pow 2 64

/-! ### Numbers -/

/-- The leading digits that fit a 64-bit significand and the number of digits left over. -/
def wholePart : Nat → List Char → Nat × Nat
  | significand, [] => (significand, 0)
  | significand, c :: rest =>
    let next := significand * 10 + digitValue c
    if next < wordBound then wholePart next rest else (significand, rest.length + 1)

/-- The significand with the fractional digits that still fit, and how many they are. -/
def fractionPart : Nat → List Char → Nat × Nat
  | significand, [] => (significand, 0)
  | significand, c :: rest =>
    let next := significand * 10 + digitValue c
    if next < wordBound then
      let (s, n) := fractionPart next rest
      (s, n + 1)
    else (significand, 0)

/-- The natural number written by digits. -/
def natOfDigits (cs : List Char) : Nat := cs.foldl (fun n c => n * 10 + digitValue c) 0

/-- The bound of the exponents that are computed with. -/
def exponentBound : Int := 2147483647

/-- An exponent: mark, optional sign, digits. -/
def exponent? : List Char → Option (Option Int × List Char)
  | c :: rest =>
    if c = 'e' ∨ c = 'E' then
      let (negative, rest) :=
        match rest with
        | '+' :: rest => (false, rest)
        | '-' :: rest => (true, rest)
        | rest => (false, rest)
      let digits := rest.takeWhile isDigit
      if digits.isEmpty then none
      else
        let magnitude : Int := natOfDigits digits
        some (some (if negative then -magnitude else magnitude), rest.dropWhile isDigit)
    else some (none, c :: rest)
  | [] => some (none, [])

/-- A fraction: a point and at least one digit. -/
def fraction? : List Char → Option (Option (List Char) × List Char)
  | '.' :: rest =>
    let digits := rest.takeWhile isDigit
    if digits.isEmpty then none else some (some digits, rest.dropWhile isDigit)
  | rest => some (none, rest)

/-- The number written by whole digits, an optional fraction and an optional exponent. -/
def numberOf? (negative : Bool) (whole : List Char) (fraction : Option (List Char))
    (exponent : Option Int) : Option Number :=
  let (significand, dropped) := wholePart 0 whole
  match fraction, exponent with
  | none, none =>
    if dropped = 0 then
      if negative then
        if significand = 0 ∨ Nat.pow 2 63 < significand then
          (Binary64.ofRatio? true significand 1).map .double
        else some (.int (-significand))
      else some (.int significand)
    else (Binary64.ofScaledDigits? negative significand dropped).map .double
  | _, _ =>
    let (significand, used) := fractionPart significand (fraction.getD [])
    let power := exponent.getD 0
    if exponentBound < power then
      if significand = 0 then some (.double (Binary64.zero negative)) else none
    else if power < -exponentBound then some (.double (Binary64.zero negative))
    else
      let total := max (-exponentBound - 1) (min exponentBound ((dropped : Int) - used + power))
      (Binary64.ofScaledDigits? negative significand total).map .double

/-- A number. -/
def number? (cs : List Char) : Option (Number × List Char) := do
  let (negative, cs) :=
    match cs with
    | '-' :: rest => (true, rest)
    | cs => (false, cs)
  let whole := cs.takeWhile isDigit
  if whole.isEmpty then none
  if whole.head? = some '0' ∧ 1 < whole.length then none
  let (fraction, cs) ← fraction? (cs.dropWhile isDigit)
  let (exponent, cs) ← exponent? cs
  let n ← numberOf? negative whole fraction exponent
  pure (n, cs)

/-! ### Values -/

/-- Items separated by commas up to the closing bracket, at least one. The count bounds the number
of items. -/
def items? {α : Type} (closing : Char) (item? : List Char → Option (α × List Char)) :
    Nat → List Char → Option (List α × List Char)
  | 0, _ => none
  | count + 1, cs => do
    let (x, cs) ← item? (skip cs)
    match skip cs with
    | c :: rest =>
      if c = ',' then
        let (xs, rest) ← items? closing item? count rest
        pure (x :: xs, rest)
      else if c = closing then pure ([x], rest)
      else none
    | [] => none

/-- A member of an object: a quoted key, a colon and a value. -/
def member? (value? : List Char → Option (Json × List Char)) :
    List Char → Option ((String × Json) × List Char)
  | '"' :: cs => do
    let (key, cs) ← Text.unquote? cs
    match skip cs with
    | ':' :: cs => do
      let (x, cs) ← value? (skip cs)
      pure ((String.ofList key, x), cs)
    | _ => none
  | _ => none

/-- A value whose arrays and objects are nested at most `depth` deep. -/
def value? : Nat → List Char → Option (Json × List Char)
  | _, '"' :: cs => do
    let (s, cs) ← Text.unquote? cs
    pure (.string (String.ofList s), cs)
  | 0, '[' :: _ => none
  | 0, '\x7b' :: _ => none
  | depth + 1, '[' :: cs =>
    match skip cs with
    | ']' :: cs => some (.array [], cs)
    | cs => (items? ']' (value? depth) cs.length cs).map fun (xs, cs) => (.array xs, cs)
  | depth + 1, '\x7b' :: cs =>
    match skip cs with
    | '\x7d' :: cs => some (.object [], cs)
    | cs =>
      (items? '\x7d' (member? (value? depth)) cs.length cs).map fun (members, cs) =>
        (.object (members.foldl (fun all (k, x) => Entries.put k x all) []), cs)
  | _, 'n' :: 'u' :: 'l' :: 'l' :: cs => some (.null, cs)
  | _, 't' :: 'r' :: 'u' :: 'e' :: cs => some (.bool true, cs)
  | _, 'f' :: 'a' :: 'l' :: 's' :: 'e' :: cs => some (.bool false, cs)
  | _, cs => (number? cs).map fun (n, cs) => (.number n, cs)

end Reader

/-- How deep arrays and objects of a document may be nested. -/
def maxDepth : Nat := 127

/-- The value of a whole text, if it is a JSON text nested at most `depth` deep. -/
def read? (depth : Nat) (text : String) : Option Json :=
  match Reader.value? depth (Reader.skip text.toList) with
  | some (x, rest) => if (Reader.skip rest).isEmpty then some x else none
  | none => none

end OpenApiTs.Json
