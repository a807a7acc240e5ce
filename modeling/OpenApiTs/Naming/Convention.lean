import OpenApiTs.Text.Blank
import OpenApiTs.Text.Words

/-!
# Case conventions

A convention says how the words of a name are joined: with capitals, with capitals after the
first word, or in small letters with underscores. A name that already reads as the convention is
kept as it is, so that acronyms survive.

## Main definitions

* `Convention`: the three conventions.
* `Convention.apply`: a name brought under a convention.
* `Naming.compose`: parts of a name joined with capitals.
-/

namespace OpenApiTs

/-- How the words of a name are joined. -/
inductive Convention where
  | camel
  | snake
  | pascal
  deriving DecidableEq, Repr

namespace Convention

/-- Whether a name already reads as the convention. -/
def conforms : Convention → List Char → Bool
  | _, [] => false
  | .pascal, c :: rest => Text.isAsciiUpper c && (c :: rest).all Text.isAsciiAlphanumeric
  | .camel, c :: rest => Text.isAsciiLower c && (c :: rest).all Text.isAsciiAlphanumeric
  | .snake, c :: rest =>
    Text.isAsciiLower c &&
      (c :: rest).all fun d => Text.isAsciiLower d || Text.isAsciiDigit d || d == '_'

/-- The words joined under the convention. -/
def join : Convention → List (List Text.Cluster) → List Char
  | .pascal, words => words.flatMap Text.capitalized
  | .camel, [] => []
  | .camel, first :: rest => Text.lowered first ++ rest.flatMap Text.capitalized
  | .snake, words => ['_'].intercalate (words.map Text.lowered)

/-- A name with spaces for its separators and punctuation, and none at its ends. -/
def spaced (cs : List Char) : List Char :=
  let marked := cs.map fun c => if Text.isAlphanumeric c then c else ' '
  Text.dropBlankEnd (marked.dropWhile Text.isBlank)

/-- A list of characters brought under the convention. -/
def applyList (convention : Convention) (cs : List Char) : List Char :=
  if convention.conforms cs then cs else convention.join (Text.words (spaced cs))

/-- A name brought under the convention. -/
def apply (convention : Convention) (raw : String) : String :=
  String.ofList (convention.applyList raw.toList)

/-- A name that already reads as the convention is kept. -/
theorem apply_of_conforms {convention : Convention} {raw : String}
    (h : convention.conforms raw.toList = true) : convention.apply raw = raw := by
  rw [apply, applyList, if_pos h, String.ofList_toList]

end Convention

/-- Parts of a name joined with capitals. -/
def Naming.compose (parts : List String) : String :=
  String.join (parts.map Convention.pascal.apply)

end OpenApiTs
