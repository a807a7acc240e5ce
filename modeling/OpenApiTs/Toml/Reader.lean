import OpenApiTs.Text.Lines
import OpenApiTs.Toml.Quoted
import OpenApiTs.Toml.Scalar
import OpenApiTs.Toml.Table

/-!
# Reading TOML

A reader for a whole TOML text. A text is a sequence of statements, each on lines of its own:
headers and assignments. The assignments up to the first header belong to the outermost table.

## Main definitions

* `Toml.Statement`: a header or an assignment.
* `Toml.key?`: a dotted key.
* `Toml.value?`: a value, with arrays and tables nested at most so deep.
* `Toml.read?`: the object that a text describes.
-/

namespace OpenApiTs.Toml

/-- A dotted key: the way and its end. -/
structure Key where
  path : List String
  last : String
  deriving DecidableEq, Repr

/-- A statement. -/
inductive Statement where
  | table (key : Key)
  | arrayTable (key : Key)
  | assignment (key : Key) (value : Json)

/-- How many parts a dotted key, and how many levels a value, may not reach. -/
def levelBound : Nat := 80

/-! ### Blanks -/

/-- What follows blanks within a line. -/
def skipBlanks (cs : List Char) : List Char := cs.dropWhile isBlank

/-- What follows a comment, if one is there. A comment ends before a line break or a character that
may not stand in it. -/
def skipComment : List Char → List Char
  | '#' :: rest => rest.dropWhile isPlain
  | cs => cs

/-- What follows blanks, line breaks and comments. The count bounds the number of comments. -/
def skipLines : Nat → List Char → List Char
  | 0, cs => cs
  | count + 1, cs =>
    match cs.dropWhile fun c => isBlank c || c = '\n' with
    | '#' :: rest => skipLines count (rest.dropWhile isPlain)
    | cs => cs

/-- What follows the end of a line with nothing more than a comment on it. -/
def endLine? (cs : List Char) : Option (List Char) :=
  match skipComment (skipBlanks cs) with
  | '\n' :: rest => some rest
  | [] => some []
  | _ => none

/-! ### Keys -/

/-- A character of a key without marks. -/
def isBare (c : Char) : Bool :=
  ('a' ≤ c && c ≤ 'z') || ('A' ≤ c && c ≤ 'Z') || isDigit c || c = '_' || c = '-'

/-- A part of a key and what follows it. -/
def keyPart? : List Char → Option (String × List Char)
  | '"' :: rest =>
    (basic? (rest.length + 1) rest).map fun (cs, rest) => (String.ofList cs, rest)
  | '\'' :: rest => (literal? rest).map fun (cs, rest) => (String.ofList cs, rest)
  | cs =>
    let part := cs.takeWhile isBare
    if part.isEmpty then none else some (String.ofList part, cs.dropWhile isBare)

/-- The parts of a dotted key and what follows them. The count bounds the number of parts. -/
def keyParts? : Nat → List Char → Option (List String × List Char)
  | 0, _ => none
  | count + 1, cs => do
    let (part, rest) ← keyPart? (skipBlanks cs)
    match skipBlanks rest with
    | '.' :: rest => do
      let (parts, rest) ← keyParts? count rest
      pure (part :: parts, rest)
    | rest => some ([part], rest)

/-- A dotted key and what follows it. -/
def key? (cs : List Char) : Option (Key × List Char) := do
  let (parts, rest) ← keyParts? levelBound cs
  if levelBound ≤ parts.length then none
  pure (⟨parts.dropLast, ← parts.getLast?⟩, rest)

/-! ### Values -/

/-- The elements of an array up to its closing bracket. The count bounds their number. -/
def elements? (element? : List Char → Option (Json × List Char)) :
    Nat → List Char → Option (List Json × List Char)
  | 0, _ => none
  | count + 1, cs =>
    match skipLines cs.length cs with
    | ']' :: rest => some ([], rest)
    | cs => do
      let (x, rest) ← element? cs
      match skipLines rest.length rest with
      | ',' :: rest => do
        let (xs, rest) ← elements? element? count rest
        pure (x :: xs, rest)
      | ']' :: rest => some ([x], rest)
      | _ => none

/-- A dotted key, an equals sign and a value. -/
def pair? (element? : List Char → Option (Json × List Char)) (cs : List Char) :
    Option ((Key × Json) × List Char) := do
  let (key, rest) ← key? cs
  match rest with
  | '=' :: rest => do
    let (x, rest) ← element? (skipBlanks rest)
    pure ((key, x), skipBlanks rest)
  | _ => none

/-- The pairs of an inline table up to its closing brace, at least one. The count bounds their
number. -/
def pairs? (element? : List Char → Option (Json × List Char)) :
    Nat → List Char → Option (List (Key × Json) × List Char)
  | 0, _ => none
  | count + 1, cs => do
    let (first, rest) ← pair? element? cs
    match rest with
    | ',' :: rest => do
      let (others, rest) ← pairs? element? count rest
      pure (first :: others, rest)
    | '\x7d' :: rest => some ([first], rest)
    | _ => none

/-- The members of an inline table. -/
def inlineTable? (pairs : List (Key × Json)) : Option Json := do
  let members ← pairs.foldlM (fun members (key, x) => assign key.path key.last x members) []
  pure (.object (membersToJson members))

/-- A value in which arrays and inline tables are nested at most `depth` deep. -/
def value? : Nat → List Char → Option (Json × List Char)
  | 0, '[' :: _ => none
  | 0, '\x7b' :: _ => none
  | depth + 1, '[' :: cs =>
    (elements? (value? depth) (cs.length + 1) cs).map fun (xs, rest) => (.array xs, rest)
  | depth + 1, '\x7b' :: cs =>
    match skipBlanks cs with
    | '\x7d' :: rest => some (.object [], rest)
    | cs => do
      let (pairs, rest) ← pairs? (value? depth) cs.length cs
      pure (← inlineTable? pairs, rest)
  | _, '"' :: cs => (text? ('"' :: cs)).map fun (s, rest) => (.string (String.ofList s), rest)
  | _, '\'' :: cs => (text? ('\'' :: cs)).map fun (s, rest) => (.string (String.ofList s), rest)
  | _, cs => scalar? cs

/-! ### Statements -/

/-- The key of a header up to its closing brackets. -/
def header? (closing : List Char) (cs : List Char) : Option (Key × List Char) := do
  let (key, rest) ← key? cs
  pure (key, ← closing.isPrefixOf? rest)

/-- A statement and what follows its line. -/
def statement? : List Char → Option (Statement × List Char)
  | '[' :: '[' :: cs => do
    let (key, rest) ← header? [']', ']'] cs
    pure (.arrayTable key, ← endLine? rest)
  | '[' :: cs => do
    let (key, rest) ← header? [']'] cs
    pure (.table key, ← endLine? rest)
  | cs => do
    let ((key, x), rest) ← pair? (value? (levelBound - 1)) cs
    pure (.assignment key x, ← endLine? rest)

/-- The statements of a text. The count bounds their number. -/
def statements? : Nat → List Char → Option (List Statement)
  | 0, _ => none
  | count + 1, cs =>
    match skipLines cs.length cs with
    | [] => some []
    | cs => do
      let (statement, rest) ← statement? cs
      return statement :: (← statements? count rest)

/-! ### Assembly -/

/-- The members with the assignments up to the next header made. -/
def assignAll : List Statement → Members → Option Members
  | .assignment key x :: rest, members => do assignAll rest (← assign key.path key.last x members)
  | _, members => some members

/-- The members with all statements from the next header on carried out. -/
def assemble : List Statement → Members → Option Members
  | [], members => some members
  | .assignment _ _ :: rest, members => assemble rest members
  | .table key :: rest, members => do
    assemble rest (← openTable key.path key.last (assignAll rest) members)
  | .arrayTable key :: rest, members => do
    assemble rest (← appendTable key.path key.last (assignAll rest) members)

/-- The object that a text describes. -/
def read? (text : String) : Option Json := do
  let cs := Text.replacePair '\r' '\n' ['\n'] text.toList
  let cs := match cs with
    | '\uFEFF' :: rest => rest
    | cs => cs
  let statements ← statements? (cs.length + 1) cs
  let members ← assemble statements (← assignAll statements [])
  pure (.object (membersToJson members))

end OpenApiTs.Toml
