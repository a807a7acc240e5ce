import OpenApiTs.Yaml.Gap

/-!
# Plain scalars

A scalar without marks goes on until something that cannot belong to it: a colon before a blank, a
comment, a separator of documents, a line that is indented too little or, within brackets, a comma
or a bracket.

## Main definitions

* `Yaml.word?`: one word of a plain scalar.
* `Yaml.plain?`: a plain scalar.
-/

namespace OpenApiTs.Yaml

/-- A bracket or a comma. -/
def isFlowMark (c : Char) : Bool :=
  c = ',' || c = '[' || c = ']' || c = '\x7b' || c = '\x7d'

/-- Whether a character that may not follow a colon within brackets is next. -/
def flowMarkNext : List Cell → Bool
  | [] => false
  | c :: _ => isFlowMark c.char || c.char = '?'

/-- The characters up to the end of a word, and what follows. -/
def word? (flow : Bool) : List Cell → Option (List Char × List Cell)
  | [] => some ([], [])
  | c :: rest =>
    if c.isGap then some ([], c :: rest)
    else if flow && c.char = ':' && flowMarkNext rest then none
    else if (c.char = ':' && endsWord rest) || (flow && isFlowMark c.char) then
      some ([], c :: rest)
    else (word? flow rest).map fun (cs, rest) => (c.char :: cs, rest)

/-- A plain scalar that has been read. -/
structure Plain where
  text : List Char
  /-- Whether a line ended after its last word. -/
  lineEnded : Bool
  rest : List Cell

/-- Whether the scalar ends before a next line with this beginning. -/
def endsBlock (flow : Bool) (indent : Nat) : List Cell → Bool
  | [] => true
  | c :: _ => !flow && c.column < indent

/-- A plain scalar from behind a gap on. The lines after the first begin in column `indent` or
later, unless they are within brackets. The count bounds the number of words. -/
def plainFrom? (flow : Bool) (indent : Nat) : Nat → Gap → List Cell → Option Plain
  | 0, _, _ => none
  | count + 1, gap, cells =>
    if beginsAnyMarker cells || isNext '#' cells then some ⟨[], gap.broken, cells⟩
    else do
      let (word, rest) ← word? flow cells
      if word.isEmpty then return ⟨[], gap.broken, rest⟩
      let text := gap.fold ++ word
      match rest with
      | [] => pure ⟨text, false, []⟩
      | c :: _ =>
        if !c.isGap then pure ⟨text, false, rest⟩
        else do
          let (next, rest) ← Gap.read? indent {} rest
          if endsBlock flow indent rest then pure ⟨text, next.broken, rest⟩
          else do
            let more ← plainFrom? flow indent count next rest
            pure { more with text := text ++ more.text }

/-- A plain scalar. -/
def plain? (flow : Bool) (indent : Nat) (cells : List Cell) : Option Plain :=
  plainFrom? flow indent (cells.length + 1) {} cells

end OpenApiTs.Yaml
