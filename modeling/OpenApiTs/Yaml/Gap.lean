import OpenApiTs.Yaml.Cell

/-!
# Gaps in flow scalars

Between two words of a plain or quoted scalar stand blanks, or line breaks with blanks around them.
Blanks alone are kept. A single line break is folded into a space; of several, all but the first
are kept.

## Main definitions

* `Yaml.Gap`: a gap that has been read.
* `Yaml.Gap.read?`: reads on in a gap.
* `Yaml.Gap.fold`: the text that a gap stands for.
-/

namespace OpenApiTs.Yaml

/-- A gap between two words. -/
structure Gap where
  /-- Whether a line has ended in it. -/
  broken : Bool := false
  /-- The first line break, if it is kept or folded. -/
  first : List Char := []
  /-- The further line breaks. -/
  later : List Char := []
  /-- The blanks on the line of the first word, while that line has not ended. -/
  blanks : List Char := []
  deriving DecidableEq, Repr

namespace Gap

/-- The gap with one more blank. -/
def addBlank (g : Gap) (c : Char) : Gap :=
  if g.broken then g else { g with blanks := g.blanks ++ [c] }

/-- The gap with one more line break. -/
def addBreak (g : Gap) (c : Char) : Gap :=
  if g.broken then { g with later := g.later ++ [c] }
  else { g with broken := true, first := [c], blanks := [] }

/-- The whole gap and what follows it. A tab may not stand in the first `indent` columns of a
line. -/
def read? (indent : Nat) : Gap → List Cell → Option (Gap × List Cell)
  | g, [] => some (g, [])
  | g, c :: rest =>
    if c.isBreak then read? indent (g.addBreak c.char) rest
    else if c.isBlank then
      if g.broken && c.char = '\t' && c.column < indent then none
      else read? indent (g.addBlank c.char) rest
    else some (g, c :: rest)

/-- The text that a gap stands for. -/
def fold (g : Gap) : List Char :=
  if g.broken then
    if g.first = ['\n'] then if g.later = [] then [' '] else g.later
    else g.first ++ g.later
  else g.blanks

end Gap

end OpenApiTs.Yaml
