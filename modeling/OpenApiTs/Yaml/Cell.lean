/-!
# Placed characters

A YAML text is read as a list of characters that know their line and column, since indentation
decides the structure. A carriage return, a line feed, both in a row and a next-line character are
one line break each, and stand as a line feed; the line and paragraph separators are line breaks
that stand for themselves.

## Main definitions

* `Yaml.Cell`: a character with its place.
* `Yaml.cells?`: the cells of a text without forbidden characters.
* `Yaml.Cell.isBreak`, `Yaml.Cell.isBlank`, `Yaml.Cell.isWord`: classes of characters.
* `Yaml.beginsMarker`: three hyphens or points that separate documents.
-/

namespace OpenApiTs.Yaml

/-- A character and its place. -/
structure Cell where
  char : Char
  /-- How many octets of UTF-8 come before it in the text. -/
  offset : Nat
  /-- How many lines come before its own. -/
  line : Nat
  /-- How many characters come before it on its line. -/
  column : Nat
  deriving DecidableEq, Repr

/-! ### Classes of characters -/

/-- The characters that may stand in a text. -/
def isAllowed (c : Char) : Bool :=
  let n := c.toNat
  n = 9 || n = 10 || n = 13 || (0x20 ≤ n && n ≤ 0x7E) || n = 0x85 || (0xA0 ≤ n && n ≤ 0xFFFD) ||
    0x10000 ≤ n

/-- The line and paragraph separators. -/
def isSeparator (c : Char) : Bool := c = '\u2028' || c = '\u2029'

/-- A line break. -/
def Cell.isBreak (c : Cell) : Bool := c.char = '\n' || isSeparator c.char

/-- A space or a tab. -/
def Cell.isBlank (c : Cell) : Bool := c.char = ' ' || c.char = '\t'

/-- A blank or a line break. -/
def Cell.isGap (c : Cell) : Bool := c.isBlank || c.isBreak

/-- A decimal digit. -/
def Cell.isDigit (c : Cell) : Bool := '0' ≤ c.char && c.char ≤ '9'

/-- A character of a name: an ASCII letter, a digit, a hyphen or an underscore. -/
def Cell.isWord (c : Cell) : Bool :=
  c.isDigit || ('a' ≤ c.char && c.char ≤ 'z') || ('A' ≤ c.char && c.char ≤ 'Z') ||
    c.char = '-' || c.char = '_'

/-- Whether the text ends here or goes on with a blank or a line break. -/
def endsWord : List Cell → Bool
  | [] => true
  | c :: _ => c.isGap

/-- Whether the next character is the given one. -/
def isNext (char : Char) : List Cell → Bool
  | [] => false
  | c :: _ => c.char = char

/-- The characters of cells. -/
def chars (cells : List Cell) : List Char := cells.map Cell.char

/-- Whether a line begins with three hyphens, or three points, and then ends or goes on with a
blank. -/
def beginsMarker (mark : Char) : List Cell → Bool
  | a :: b :: c :: rest =>
    a.column = 0 && a.char = mark && b.char = mark && c.char = mark && endsWord rest
  | _ => false

/-- Whether a line that separates documents begins here. -/
def beginsAnyMarker (cells : List Cell) : Bool := beginsMarker '-' cells || beginsMarker '.' cells

/-- What follows the next line break, or nothing. -/
def dropLine (cells : List Cell) : List Cell := (cells.dropWhile fun c => !c.isBreak).drop 1

/-! ### Placing -/

/-- The cells of characters from a place on. -/
def place : Nat → Nat → Nat → List Char → List Cell
  | _, _, _, [] => []
  | offset, line, column, '\r' :: '\n' :: rest =>
    ⟨'\n', offset, line, column⟩ :: place (offset + 2) (line + 1) 0 rest
  | offset, line, column, c :: rest =>
    let next := offset + c.utf8Size
    if c = '\n' ∨ c = '\r' ∨ c = '\u0085' then
      ⟨'\n', offset, line, column⟩ :: place next (line + 1) 0 rest
    else if isSeparator c then ⟨c, offset, line, column⟩ :: place next (line + 1) 0 rest
    else ⟨c, offset, line, column⟩ :: place next line (column + 1) rest

/-- The cells of a text; none if a forbidden character stands in it. -/
def cells? (text : String) : Option (List Cell) :=
  if text.toList.all isAllowed then some (place 0 0 0 text.toList) else none

end OpenApiTs.Yaml
