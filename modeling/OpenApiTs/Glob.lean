/-!
# Glob patterns

A pattern of plain characters, `?` for any character, `*` for any text, `**` for any number of
whole path components, and brackets for one character inside or outside a set. Single wildcards
match the path separator like any other character.

## Main definitions

* `Glob.Token`, `Glob`: the parts of a pattern.
* `Glob.parse`: reads a pattern or says what is wrong with it.
* `Glob.row`: which suffixes of a text match.
* `Glob.admits`: whether a text as a whole matches.
-/

namespace OpenApiTs

/-- The character between path components. -/
def pathSeparator : Char := '/'

namespace Glob

/-- An inclusive range of characters. -/
structure CharRange where
  low : Char
  high : Char
  deriving DecidableEq, Repr

/-- Whether a character lies in the range. -/
def CharRange.holds (r : CharRange) (c : Char) : Bool := r.low ≤ c && c ≤ r.high

/-- A part of a pattern. -/
inductive Token where
  | char (c : Char)
  | anyChar
  | anyText
  | anyComponents
  | within (ranges : List CharRange)
  | except (ranges : List CharRange)
  deriving DecidableEq, Repr

/-- What is wrong with a pattern. -/
inductive Fault where
  | wildcards
  | recursiveWildcards
  | invalidRange
  deriving DecidableEq, Repr

/-- The text of a fault. -/
def Fault.message : Fault → String
  | .wildcards => "wildcards are either regular `*` or recursive `**`"
  | .recursiveWildcards => "recursive wildcards must form a single path component"
  | .invalidRange => "invalid range pattern"

end Glob

/-- A pattern. -/
abbrev Glob := List Glob.Token

namespace Glob

/-! ### Reading -/

/-- The ranges between brackets: two characters around a hyphen, or one character. -/
def ranges : List Char → List CharRange
  | a :: '-' :: b :: rest => ⟨a, b⟩ :: ranges rest
  | a :: rest => ⟨a, a⟩ :: ranges rest
  | [] => []

/-- The set that opens after a bracket, and how many characters it takes with its closing
bracket. The first character of a set is never its end. -/
def set? : List Char → Option (Token × Nat)
  | '!' :: c :: rest =>
    (rest.findIdx? (· == ']')).map fun n => (.except (ranges ((c :: rest).take (n + 1))), n + 3)
  | '!' :: [] => none
  | c :: rest =>
    (rest.findIdx? (· == ']')).map fun n => (.within (ranges ((c :: rest).take (n + 1))), n + 2)
  | [] => none

/-- Whether a recursive wildcard may start after a character. -/
def startsComponent : Option Char → Bool
  | none => true
  | some c => c == pathSeparator

/-- The tokens with a recursive wildcard after them; a recursive wildcard that is not the first
token of the pattern absorbs the ones right after it. -/
def pushComponents (tokens : List Token) : List Token :=
  if 1 < tokens.length ∧ tokens.head? = some .anyComponents then tokens
  else .anyComponents :: tokens

/-- Reads a pattern. The tokens so far stand in reverse, `before` is the last character, and
`skip` characters were already taken by a set. -/
def parseFrom (before : Option Char) (tokens : List Token) (skip : Nat) :
    List Char → Except Fault Glob
  | [] => .ok tokens.reverse
  | c :: rest =>
    match skip with
    | skip + 1 => parseFrom (some c) tokens skip rest
    | 0 =>
      if c = '?' then parseFrom (some c) (.anyChar :: tokens) 0 rest
      else if c = '*' then
        match rest with
        | '*' :: '*' :: _ => .error .wildcards
        | '*' :: d :: _ =>
          if startsComponent before && d == pathSeparator then
            parseFrom (some c) (pushComponents tokens) 2 rest
          else .error .recursiveWildcards
        | ['*'] =>
          if startsComponent before then parseFrom (some c) (pushComponents tokens) 1 rest
          else .error .recursiveWildcards
        | _ => parseFrom (some c) (.anyText :: tokens) 0 rest
      else if c = '[' then
        match set? rest with
        | some (token, taken) => parseFrom (some c) (token :: tokens) taken rest
        | none => .error .invalidRange
      else parseFrom (some c) (.char c :: tokens) 0 rest

/-- Reads a pattern. -/
def parse (pattern : String) : Except Fault Glob :=
  parseFrom none [] 0 pattern.toList

/-! ### Matching

Tokens are matched from the last to the first, each against all suffixes of the text at once, so
that the work is at most the length of the pattern times that of the text. -/

/-- Whether a token for one character admits it. -/
def Token.holds : Token → Char → Bool
  | .char d, c => c == d
  | .anyChar, _ => true
  | .within rs, c => rs.any fun r => r.holds c
  | .except rs, c => !rs.any fun r => r.holds c
  | .anyText, _ => false
  | .anyComponents, _ => false

/-- The row of a token for one character before tokens of a row. -/
def charRow (holds : Char → Bool) : List Char → List Bool → List Bool
  | c :: cs, _ :: below => (holds c && below.headD false) :: charRow holds cs below
  | _, _ => [false]

/-- The row of a wildcard for any text before tokens of a row: a suffix matches if it or a shorter
one does without the wildcard. -/
def textRow : List Bool → List Bool
  | [] => []
  | here :: below =>
    let later := textRow below
    (here || later.headD false) :: later

/-- Which suffixes match after some of their characters up to a separator, or after all of them,
are left out. -/
def componentRow : List Char → List Bool → List Bool
  | c :: cs, _ :: below =>
    let later := componentRow cs below
    (c == pathSeparator && below.headD false || later.headD false) :: later
  | _, below => below

/-- The row of a token before tokens of a row. -/
def Token.row (cs : List Char) (below : List Bool) : Token → List Bool
  | .anyText => textRow below
  | .anyComponents => List.zipWith or below (componentRow cs below)
  | token => charRow token.holds cs below

/-- The row of a text: for each of its suffixes, the longest first and the empty one last, whether
it matches as a whole. -/
def row : Glob → List Char → List Bool
  | [], cs => cs.map (fun _ => false) ++ [true]
  | token :: rest, cs => token.row cs (row rest cs)

/-- Whether a text as a whole matches. -/
def admits (glob : Glob) (text : String) : Bool := (row glob text.toList).headD false

end Glob

end OpenApiTs
