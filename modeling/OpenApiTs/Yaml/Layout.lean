import OpenApiTs.Yaml.Directive
import OpenApiTs.Yaml.Plain
import OpenApiTs.Yaml.Quoted

/-!
# Layout

The tokens of a text, with the structure that lies in its indentation. Outside brackets, an entry
or a key in a new column begins a collection, and a line in a lesser column ends it.

A colon makes a key of what was read before it on the same line. Where a key may begin, its place
is noted down as a candidate; when the colon comes, the key token is put into that place. There is
one candidate for the block context and one for each open bracket.

## Main definitions

* `Yaml.Candidate`: where a key may have begun.
* `Yaml.Layout`: what has been read.
* `Yaml.Layout.step?`: reads one more token.
* `Yaml.tokens?`: the tokens of a text.
-/

namespace OpenApiTs.Yaml

/-- Where a key may have begun. -/
structure Candidate where
  /-- Whether nothing but a key may stand there. -/
  required : Bool
  /-- How many tokens come before it. -/
  number : Nat
  start : Cell

/-- What has been read of a text. -/
structure Layout where
  /-- The tokens, the last one first. -/
  tokens : List Token := []
  /-- How many tokens there are. -/
  count : Nat := 0
  /-- The columns of the open block collections, the innermost first. -/
  columns : List Nat := []
  /-- Whether a key may begin next. -/
  keyAllowed : Bool := true
  /-- The candidate within the innermost brackets, or outside all of them. -/
  candidate : Option Candidate := none
  /-- The candidates outside the innermost brackets, the nearest first. There are as many as there
  are open brackets. -/
  outer : List (Option Candidate) := []

namespace Layout

/-- Whether brackets are open. -/
def inFlow (l : Layout) : Bool := !l.outer.isEmpty

/-- The first column in which something inside the innermost block collection may stand. -/
def innerColumn (l : Layout) : Nat :=
  match l.columns with
  | [] => 0
  | column :: _ => column + 1

/-- One more token. -/
def push (l : Layout) (token : Token) : Layout :=
  { l with tokens := token :: l.tokens, count := l.count + 1 }

/-- A token put behind the first `number` tokens. -/
def insert (l : Layout) (number : Nat) (token : Token) : Layout :=
  let after := l.count - number
  { l with
    tokens := l.tokens.take after ++ token :: l.tokens.drop after
    count := l.count + 1 }

/-! ### Block collections -/

/-- Whether a column begins a new block collection. -/
def opensBlock (l : Layout) (column : Nat) : Bool := !l.inFlow && l.innerColumn ≤ column

/-- The layout with a block collection begun in a column, if it is a new one there. -/
def openBlock (l : Layout) (number column : Nat) (token : Token) : Layout :=
  if l.opensBlock column then { l.insert number token with columns := column :: l.columns } else l

/-- The layout with only the outer block collections `kept` left open. -/
def closeTo (l : Layout) (kept : List Nat) : Layout :=
  let ended := l.columns.length - kept.length
  { l with
    columns := kept
    tokens := List.replicate ended .blockEnd ++ l.tokens
    count := l.count + ended }

/-- The layout with the block collections beyond a column ended. -/
def closeBeyond (l : Layout) (column : Nat) : Layout :=
  if l.inFlow then l else l.closeTo (l.columns.dropWhile (column < ·))

/-- The layout with all block collections ended. -/
def closeAll (l : Layout) : Layout :=
  if l.inFlow then l else l.closeTo []

/-! ### Candidates -/

/-- How many octets behind the beginning of a key its colon may be. -/
def keyLength : Nat := 1024

/-- A candidate seen from a later cell: none if the key would be too long or go over a line; this
fails for a candidate that is required. -/
def renew? (cell : Cell) : Option Candidate → Option (Option Candidate)
  | none => some none
  | some c =>
    if c.start.line < cell.line ∨ c.start.offset + keyLength < cell.offset then
      if c.required then none else some none
    else some (some c)

/-- All candidates seen from a later cell. -/
def renewAll? (l : Layout) (cell : Cell) : Option Layout := do
  pure { l with candidate := ← renew? cell l.candidate, outer := ← l.outer.mapM (renew? cell) }

/-- The layout without its innermost candidate, which must not be required. -/
def dropCandidate? (l : Layout) : Option Layout :=
  match l.candidate with
  | some c => if c.required then none else some { l with candidate := none }
  | none => some l

/-- The layout with a candidate at a cell, if a key may begin there. -/
def note? (l : Layout) (cell : Cell) : Option Layout := do
  if !l.keyAllowed then return l
  let required := !l.inFlow && l.columns.head? = some cell.column
  let l ← l.dropCandidate?
  pure { l with candidate := some ⟨required, l.count, cell⟩ }

/-! ### Tokens -/

/-- Whether a key may begin behind blanks, line breaks and comments, and what follows them. Outside
brackets, a line break allows a key, and a tab may not stand where a key is allowed. A byte order
mark may begin a line. -/
def skip (flow : Bool) : Bool → Bool → List Cell → Bool × List Cell
  | allowed, _, [] => (allowed, [])
  | allowed, comment, c :: rest =>
    if c.isBreak then skip flow (allowed || !flow) false rest
    else if comment || c.char = '#' then skip flow allowed true rest
    else if c.char = ' ' || (c.char = '\t' && (flow || !allowed)) ||
      (c.char = '\uFEFF' && c.column = 0) then skip flow allowed false rest
    else (allowed, c :: rest)

/-- A token that stands between block collections. -/
def boundary? (l : Layout) (token : Token) : Option Layout := do
  let l ← l.closeAll.dropCandidate?
  pure { l.push token with keyAllowed := false }

/-- An opening bracket. -/
def openFlow? (l : Layout) (cell : Cell) (token : Token) : Option Layout := do
  let l ← l.note? cell
  pure { l.push token with keyAllowed := true, candidate := none, outer := l.candidate :: l.outer }

/-- A closing bracket. -/
def closeFlow? (l : Layout) (token : Token) : Option Layout := do
  let l ← l.dropCandidate?
  let l := { l.push token with keyAllowed := false }
  match l.outer with
  | [] => pure l
  | candidate :: outer => pure { l with candidate := candidate, outer := outer }

/-- A comma. -/
def comma? (l : Layout) : Option Layout := do
  let l ← l.dropCandidate?
  pure { l.push .comma with keyAllowed := true }

/-- The hyphen before an entry. -/
def entry? (l : Layout) (cell : Cell) : Option Layout := do
  if !l.inFlow && !l.keyAllowed then none
  let l ← (l.openBlock l.count cell.column .blockSequence).dropCandidate?
  pure { l.push .entry with keyAllowed := true }

/-- The question mark before a key. -/
def key? (l : Layout) (cell : Cell) : Option Layout := do
  if !l.inFlow && !l.keyAllowed then none
  let l ← (l.openBlock l.count cell.column .blockMapping).dropCandidate?
  pure { l.push .key with keyAllowed := !l.inFlow }

/-- The colon before a value. -/
def value? (l : Layout) (cell : Cell) : Option Layout :=
  match l.candidate with
  | some c =>
    let l := l.insert c.number .key
    let l := l.openBlock c.number c.start.column .blockMapping
    some { l.push .value with keyAllowed := false, candidate := none }
  | none => do
    if !l.inFlow && !l.keyAllowed then none
    let l := l.openBlock l.count cell.column .blockMapping
    pure { l.push .value with keyAllowed := !l.inFlow }

/-- A token that may begin a key. -/
def node? (l : Layout) (cell : Cell) (token : Token) : Option Layout := do
  let l ← l.note? cell
  pure { l.push token with keyAllowed := false }

/-- A plain scalar. -/
def plain? (l : Layout) (cell : Cell) (rest : List Cell) : Option (Layout × List Cell) := do
  let scalar ← Yaml.plain? l.inFlow l.innerColumn (cell :: rest)
  let l ← l.node? cell (.scalar scalar.text true)
  pure ({ l with keyAllowed := scalar.lineEnded }, scalar.rest)

/-- A block scalar. -/
def blockScalar? (l : Layout) (literal : Bool) (rest : List Cell) :
    Option (Layout × List Cell) := do
  let l ← l.dropCandidate?
  let (text, rest) ← block? literal l.innerColumn rest
  pure ({ l.push (.scalar text false) with keyAllowed := true }, rest)

/-- The characters that begin no plain scalar. -/
def isIndicator (c : Char) : Bool :=
  ['\t', '-', '?', ':', ',', '[', ']', '\x7b', '\x7d', '#', '&', '*', '!', '|', '>', '\'', '"',
    '%', '@', '`'].contains c

/-- Whether a plain scalar begins with a character before these cells. A hyphen begins one unless a
blank follows, and so do a question mark and a colon outside brackets. -/
def beginsPlain (l : Layout) (c : Char) (rest : List Cell) : Bool :=
  !isIndicator c || (c = '-' && !rest.head?.any Cell.isBlank) ||
    (!l.inFlow && (c = '?' || c = ':') && !endsWord rest)

/-- The layout with the token at a cell read, and what follows it. -/
def read? (l : Layout) (cell : Cell) (rest : List Cell) : Option (Layout × List Cell) := do
  let c := cell.char
  if cell.column = 0 ∧ c = '%' then
    let (token, rest) ← directive? rest
    pure (← l.boundary? token, rest)
  else if beginsMarker '-' (cell :: rest) then pure (← l.boundary? .documentStart, rest.drop 2)
  else if beginsMarker '.' (cell :: rest) then pure (← l.boundary? .documentEnd, rest.drop 2)
  else if c = '[' then pure (← l.openFlow? cell .openSequence, rest)
  else if c = '\x7b' then pure (← l.openFlow? cell .openMapping, rest)
  else if c = ']' then pure (← l.closeFlow? .closeSequence, rest)
  else if c = '\x7d' then pure (← l.closeFlow? .closeMapping, rest)
  else if c = ',' then pure (← l.comma?, rest)
  else if c = '-' ∧ endsWord rest then pure (← l.entry? cell, rest)
  else if c = '?' ∧ (l.inFlow ∨ endsWord rest) then pure (← l.key? cell, rest)
  else if c = ':' ∧ (l.inFlow ∨ endsWord rest) then pure (← l.value? cell, rest)
  else if c = '*' then
    let (name, rest) ← name? rest
    pure (← l.node? cell (.alias name), rest)
  else if c = '&' then
    let (name, rest) ← name? rest
    pure (← l.node? cell (.anchor name), rest)
  else if c = '!' then
    let (token, rest) ← tag? l.inFlow rest
    pure (← l.node? cell token, rest)
  else if c = '|' ∧ !l.inFlow then l.blockScalar? true rest
  else if c = '>' ∧ !l.inFlow then l.blockScalar? false rest
  else if c = '\'' then
    let (text, rest) ← single? rest
    pure (← l.node? cell (.scalar text false), rest)
  else if c = '"' then
    let (text, rest) ← double? rest
    pure (← l.node? cell (.scalar text false), rest)
  else if l.beginsPlain c rest then l.plain? cell rest
  else none

/-- The layout with the next token read and what follows it; no cells if there is none. -/
def step? (l : Layout) (cells : List Cell) : Option (Layout × List Cell) :=
  match skip l.inFlow l.keyAllowed false cells with
  | (allowed, []) => some ({ l with keyAllowed := allowed }, [])
  | (allowed, cell :: rest) => do
    let l ← { l with keyAllowed := allowed }.renewAll? cell
    (l.closeBeyond cell.column).read? cell rest

/-- All tokens read. The count bounds their number. -/
def readAll? : Nat → Layout → List Cell → Option Layout
  | 0, _, _ => none
  | _ + 1, l, [] => l.closeAll.dropCandidate?
  | count + 1, l, cells => do
    let (l, rest) ← l.step? cells
    readAll? count l rest

end Layout

/-- The tokens of a text. -/
def tokens? (cells : List Cell) : Option (List Token) :=
  (Layout.readAll? (cells.length + 1) {} cells).map fun l => l.tokens.reverse

end OpenApiTs.Yaml
