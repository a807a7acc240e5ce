import OpenApiTs.Text.Quoted

/-!
# Texts in TOML

The four ways of writing a text: between quotation marks with escapes or between apostrophes
without, each on one line or, with the mark three times, over several. Every line break is a line
feed here, since a TOML text is read with its carriage returns before line feeds taken out.

## Main definitions

* `Toml.isPlain`: the characters that may stand for themselves.
* `Toml.escape?`: what follows a backslash.
* `Toml.basic?`, `Toml.literal?`: a text on one line, from behind its opening mark.
* `Toml.basicLines?`, `Toml.literalLines?`: a text over several lines.
* `Toml.text?`: a text of any of the four kinds.
-/

namespace OpenApiTs.Toml

/-- A tab, or a character that is not an ASCII control character. -/
def isPlain (c : Char) : Bool := c = '\t' || (32 ≤ c.toNat && c.toNat ≠ 127)

/-- A blank within a line. -/
def isBlank (c : Char) : Bool := c = ' ' || c = '\t'

/-! ### Escapes -/

/-- The character with a number, unless it is a surrogate or out of range. -/
def charOf? (n : Nat) : Option Char :=
  if n < 0xD800 ∨ (0xDFFF < n ∧ n ≤ 0x10FFFF) then some (Char.ofNat n) else none

/-- The number that hexadecimal digits write. -/
def hexNumber? (cs : List Char) : Option Nat :=
  cs.foldlM (fun n c => return n * 16 + (← Text.hexValue? c)) 0

/-- The character that exactly `count` hexadecimal digits write, and what follows them. -/
def hexChar? (count : Nat) (cs : List Char) : Option (Char × List Char) := do
  let digits := cs.take count
  if digits.length < count then none
  let c ← charOf? (← hexNumber? digits)
  pure (c, cs.drop count)

/-- The character that an escape writes, from behind the backslash, and what follows. -/
def escape? : List Char → Option (Char × List Char)
  | 'b' :: rest => some (Char.ofNat 8, rest)
  | 't' :: rest => some ('\t', rest)
  | 'n' :: rest => some ('\n', rest)
  | 'f' :: rest => some (Char.ofNat 12, rest)
  | 'r' :: rest => some ('\r', rest)
  | '"' :: rest => some ('"', rest)
  | '\\' :: rest => some ('\\', rest)
  | 'u' :: rest => hexChar? 4 rest
  | 'U' :: rest => hexChar? 8 rest
  | _ => none

/-! ### One line -/

/-- A text with escapes up to its closing quotation mark, and what follows. The count bounds the
number of characters. -/
def basic? : Nat → List Char → Option (List Char × List Char)
  | 0, _ => none
  | _ + 1, [] => none
  | _ + 1, '"' :: rest => some ([], rest)
  | count + 1, '\\' :: rest => do
    let (c, rest) ← escape? rest
    let (cs, rest) ← basic? count rest
    pure (c :: cs, rest)
  | count + 1, c :: rest => do
    if !isPlain c then none
    let (cs, rest) ← basic? count rest
    pure (c :: cs, rest)

/-- A text without escapes up to its closing apostrophe, and what follows. -/
def literal? : List Char → Option (List Char × List Char)
  | [] => none
  | '\'' :: rest => some ([], rest)
  | c :: rest => if isPlain c then (literal? rest).map fun (cs, rest) => (c :: cs, rest) else none

/-! ### Several lines -/

/-- The end of a text over several lines: three marks, before which one or two more belong to the
text. -/
def closing? (mark : Char) (cs : List Char) : Option (List Char × List Char) :=
  let marks := (cs.takeWhile (· = mark)).length
  if marks < 3 then none
  else
    let inside := min (marks - 3) 2
    some (List.replicate inside mark, cs.drop (inside + 3))

/-- Whether only blanks follow up to the end of the line. -/
def endsLine (cs : List Char) : Bool := (cs.dropWhile isBlank).head? = some '\n'

/-- A text with escapes over several lines. A backslash at the end of a line takes the blanks and
line breaks that follow it out. The count bounds the number of characters. -/
def basicLines? : Nat → List Char → Option (List Char × List Char)
  | 0, _ => none
  | count + 1, cs =>
    match closing? '"' cs with
    | some result => some result
    | none =>
      match cs with
      | [] => none
      | '\\' :: rest =>
        if endsLine rest then
          basicLines? count (rest.dropWhile fun c => isBlank c || c = '\n')
        else do
          let (c, rest) ← escape? rest
          let (cs, rest) ← basicLines? count rest
          pure (c :: cs, rest)
      | c :: rest => do
        if !isPlain c && c ≠ '\n' then none
        let (cs, rest) ← basicLines? count rest
        pure (c :: cs, rest)

/-- A text without escapes over several lines. -/
def literalLines? : List Char → Option (List Char × List Char)
  | [] => none
  | c :: rest =>
    match closing? '\'' (c :: rest) with
    | some result => some result
    | none =>
      if isPlain c || c = '\n' then
        (literalLines? rest).map fun (cs, rest) => (c :: cs, rest)
      else none

/-- What follows a line break that stands first. -/
def dropBreak : List Char → List Char
  | '\n' :: rest => rest
  | cs => cs

/-- A text of any kind and what follows it. -/
def text? : List Char → Option (List Char × List Char)
  | '"' :: '"' :: '"' :: rest => basicLines? (rest.length + 1) (dropBreak rest)
  | '"' :: rest => basic? (rest.length + 1) rest
  | '\'' :: '\'' :: '\'' :: rest => literalLines? (dropBreak rest)
  | '\'' :: rest => literal? rest
  | _ => none

end OpenApiTs.Toml
