import OpenApiTs.Yaml.Cell

/-!
# Block scalars

A scalar whose lines are set off by indentation. A bar keeps its line breaks; an angle bracket folds
a single line break between two lines that do not begin with a blank into a space. What happens to
the line breaks at the end is stated by a hyphen (none is kept), a plus sign (all are kept) or
neither (one is kept). A digit states the indentation, which otherwise is that of the first line
that is not empty.

## Main definitions

* `Yaml.Chomping`, `Yaml.BlockHeader`: what stands after the bar or angle bracket.
* `Yaml.indentation?`: the beginnings of lines, with the empty lines.
* `Yaml.block?`: a block scalar.
-/

namespace OpenApiTs.Yaml

/-- What happens to the line breaks at the end. -/
inductive Chomping where
  | strip
  | clip
  | keep
  deriving DecidableEq, Repr

/-- What the first line of a block scalar states. -/
structure BlockHeader where
  chomping : Chomping := .clip
  /-- How much more than its surroundings the scalar is indented, if that is stated. -/
  increment : Option Nat := none

/-! ### The first line -/

/-- A chomping mark, if one is there. -/
def chomping : List Cell → Chomping × List Cell
  | [] => (.clip, [])
  | c :: rest =>
    if c.char = '+' then (.keep, rest)
    else if c.char = '-' then (.strip, rest)
    else (.clip, c :: rest)

/-- A stated indentation, if one is there. It is not zero. -/
def increment? : List Cell → Option (Option Nat × List Cell)
  | [] => some (none, [])
  | c :: rest =>
    if c.isDigit then if c.char = '0' then none else some (some (c.char.toNat - 48), rest)
    else some (none, c :: rest)

/-- What follows the end of a line on which only blanks and a comment are left. -/
def endLine? (cells : List Cell) : Option (List Cell) :=
  match cells.dropWhile Cell.isBlank with
  | [] => some []
  | c :: rest =>
    if c.isBreak then some rest
    else if c.char = '#' then some (dropLine rest)
    else none

/-- The first line, from behind the bar or angle bracket. The two marks stand in either order. -/
def blockHeader? (cells : List Cell) : Option (BlockHeader × List Cell) := do
  let (before, rest) := chomping cells
  let (increment, rest) ← increment? rest
  let (after, rest) := if before = .clip && increment.isSome then chomping rest else (before, rest)
  pure (⟨after, increment⟩, ← endLine? rest)

/-! ### Lines -/

/-- Whether a column is still in the indentation. -/
def inIndentation (indent : Option Nat) (column : Nat) : Bool :=
  match indent with
  | some n => column < n
  | none => true

/-- The line breaks of empty lines up to the next line, the furthest column that was reached, and
the rest from the end of the indentation. A tab may not stand in the indentation. -/
def indentation? (indent : Option Nat) : Nat → List Cell → Option (List Char × Nat × List Cell)
  | furthest, [] => some ([], furthest, [])
  | furthest, c :: rest =>
    if c.isBreak then
      (indentation? indent furthest rest).map fun (breaks, found) => (c.char :: breaks, found)
    else if c.char = ' ' && inIndentation indent c.column then
      indentation? indent (max furthest (c.column + 1)) rest
    else if c.char = '\t' && inIndentation indent c.column then none
    else some ([], furthest, c :: rest)

/-- What is left open after a line of a block scalar. -/
structure BlockEdge where
  /-- The line break that ends the last line. -/
  lastBreak : List Char := []
  /-- The line breaks of the empty lines after it. -/
  breaks : List Char := []
  /-- Whether the last line begins with a blank. -/
  indented : Bool := false

/-- What stands between the last line and one that begins with a blank or not. -/
def BlockEdge.between (e : BlockEdge) (literal indented : Bool) : List Char :=
  if !literal && e.lastBreak = ['\n'] && !e.indented && !indented then
    if e.breaks = [] then [' '] else e.breaks
  else e.lastBreak ++ e.breaks

/-- The line breaks at the end that are kept. -/
def BlockEdge.chomp (e : BlockEdge) : Chomping → List Char
  | .strip => []
  | .clip => e.lastBreak
  | .keep => e.lastBreak ++ e.breaks

/-- The text of the lines that begin in column `indent`, and what follows. The count bounds their
number. -/
def blockLines? (literal : Bool) (indent : Nat) (chomping : Chomping) :
    Nat → BlockEdge → List Cell → Option (List Char × List Cell)
  | 0, _, _ => none
  | _ + 1, edge, [] => some (edge.chomp chomping, [])
  | count + 1, edge, c :: rest =>
    if c.column ≠ indent then some (edge.chomp chomping, c :: rest)
    else do
      let line := (c :: rest).takeWhile fun d => !d.isBreak
      let after := (c :: rest).drop line.length
      let (breaks, _, next) ← indentation? (some indent) 0 (after.drop 1)
      let (text, next) ← blockLines? literal indent chomping count
        ⟨chars (after.take 1), breaks, c.isBlank⟩ next
      pure (edge.between literal c.isBlank ++ (chars line ++ text), next)

/-- A block scalar from behind the bar or angle bracket, in surroundings whose next deeper column
is `base`. -/
def block? (literal : Bool) (base : Nat) (cells : List Cell) : Option (List Char × List Cell) := do
  let (header, rest) ← blockHeader? cells
  let stated := header.increment.map fun n => base - 1 + n
  let (breaks, furthest, rest) ← indentation? stated 0 rest
  let indent := stated.getD (max furthest (max base 1))
  blockLines? literal indent header.chomping (rest.length + 1) { breaks := breaks } rest

end OpenApiTs.Yaml
