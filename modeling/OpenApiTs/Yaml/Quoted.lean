import OpenApiTs.Text.Quoted
import OpenApiTs.Yaml.Gap

/-!
# Quoted scalars

A scalar between apostrophes, in which an apostrophe is written twice, or between quotation marks,
with escapes. Both may go over several lines, whatever their indentation.

## Main definitions

* `Yaml.escape?`: what follows a backslash.
* `Yaml.singleWord`, `Yaml.doubleWord?`: the characters up to the next gap or closing mark.
* `Yaml.single?`, `Yaml.double?`: a quoted scalar from behind its opening mark.
-/

namespace OpenApiTs.Yaml

/-! ### Escapes -/

/-- The character that a letter after a backslash stands for. -/
def letterEscape? (c : Char) : Option Char :=
  if c = '0' then some (Char.ofNat 0)
  else if c = 'a' then some (Char.ofNat 7)
  else if c = 'b' then some (Char.ofNat 8)
  else if c = 't' ∨ c = '\t' then some '\t'
  else if c = 'n' then some '\n'
  else if c = 'v' then some (Char.ofNat 11)
  else if c = 'f' then some (Char.ofNat 12)
  else if c = 'r' then some '\r'
  else if c = 'e' then some (Char.ofNat 27)
  else if c = ' ' ∨ c = '"' ∨ c = '/' ∨ c = '\\' then some c
  else if c = 'N' then some '\u0085'
  else if c = '_' then some '\u00A0'
  else if c = 'L' then some '\u2028'
  else if c = 'P' then some '\u2029'
  else none

/-- How many hexadecimal digits follow a letter after a backslash. -/
def escapeDigits (c : Char) : Nat :=
  if c = 'x' then 2 else if c = 'u' then 4 else if c = 'U' then 8 else 0

/-- The character that exactly `count` hexadecimal digits write, and what follows them. -/
def hexEscape? (count : Nat) (cells : List Cell) : Option (Char × List Cell) := do
  let digits := chars (cells.take count)
  if digits.length < count then none
  let n ← digits.foldlM (fun n c => return n * 16 + (← Text.hexValue? c)) 0
  if (0xD800 ≤ n ∧ n ≤ 0xDFFF) ∨ 0x10FFFF < n then none
  else some (Char.ofNat n, cells.drop count)

/-- The character that an escape writes, from behind the backslash, and what follows. -/
def escape? : List Cell → Option (Char × List Cell)
  | [] => none
  | c :: rest =>
    match escapeDigits c.char with
    | 0 => (letterEscape? c.char).map fun d => (d, rest)
    | count => hexEscape? count rest

/-! ### Words -/

/-- The characters up to a gap or the closing apostrophe, and what follows. -/
def singleWord : List Cell → List Char × List Cell
  | [] => ([], [])
  | [c] => if c.isGap || c.char = '\'' then ([], [c]) else ([c.char], [])
  | c :: d :: rest =>
    if c.isGap then ([], c :: d :: rest)
    else if c.char = '\'' then
      if d.char = '\'' then
        let (cs, rest) := singleWord rest
        ('\'' :: cs, rest)
      else ([], c :: d :: rest)
    else
      let (cs, rest) := singleWord (d :: rest)
      (c.char :: cs, rest)

/-- The characters up to a gap, the closing quotation mark or a line break behind a backslash, the
gap that such a line break begins, and what follows. The count bounds the number of characters. -/
def doubleWord? : Nat → List Cell → Option (List Char × Gap × List Cell)
  | 0, _ => none
  | _ + 1, [] => some ([], {}, [])
  | count + 1, c :: rest =>
    if c.isGap || c.char = '"' then some ([], {}, c :: rest)
    else if c.char = '\\' then
      if rest.head?.any Cell.isBreak then some ([], { broken := true }, rest.drop 1)
      else do
        let (d, rest) ← escape? rest
        let (cs, gap, rest) ← doubleWord? count rest
        pure (d :: cs, gap, rest)
    else do
      let (cs, gap, rest) ← doubleWord? count rest
      pure (c.char :: cs, gap, rest)

/-! ### Scalars -/

/-- Words and gaps up to a closing mark, and what follows it. No line of it may separate documents.
The count bounds the number of words. -/
def quoted? (mark : Char) (word? : List Cell → Option (List Char × Gap × List Cell)) :
    Nat → List Cell → Option (List Char × List Cell)
  | 0, _ => none
  | _ + 1, [] => none
  | count + 1, cells =>
    if beginsAnyMarker cells then none
    else do
      let (word, gap, rest) ← word? cells
      if isNext mark rest then pure (word, rest.drop 1)
      else do
        let (gap, rest) ← gap.read? 0 rest
        let (cs, rest) ← quoted? mark word? count rest
        pure (word ++ gap.fold ++ cs, rest)

/-- A scalar between apostrophes, from behind the first. -/
def single? (cells : List Cell) : Option (List Char × List Cell) :=
  let word? (cells : List Cell) : Option (List Char × Gap × List Cell) :=
    let (word, rest) := singleWord cells
    some (word, {}, rest)
  quoted? '\'' word? (cells.length + 1) cells

/-- A scalar between quotation marks, from behind the first. -/
def double? (cells : List Cell) : Option (List Char × List Cell) :=
  quoted? '"' (fun cells => doubleWord? (cells.length + 1) cells) (cells.length + 1) cells

end OpenApiTs.Yaml
