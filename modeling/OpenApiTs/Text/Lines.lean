/-!
# Pieces of a text

Cutting a text at a separator or into lines, removing a given beginning or end, and replacing
every occurrence of a given piece.

## Main definitions

* `Text.lines`: the lines of a text; a line ends at a line feed, with or without a carriage
  return before it.
* `Text.dropPrefix?`, `Text.dropSuffix?`: the rest of a text after or before a given piece.
* `Text.replaceAll`: every occurrence of a piece, from the left, replaced by another.
-/

namespace OpenApiTs.Text

/-- A line without the carriage return that ends it. -/
def dropCarriageReturn : List Char → List Char
  | [] => []
  | ['\r'] => []
  | c :: rest => c :: dropCarriageReturn rest

/-- The lines of a list of characters. The end of the last line may be missing, and a text that
ends in a line feed has no empty line after it. -/
def lineList (cs : List Char) : List (List Char) :=
  let pieces := cs.splitOn '\n'
  match pieces.getLast? with
  | some [] => pieces.dropLast.map dropCarriageReturn
  | some last => pieces.dropLast.map dropCarriageReturn ++ [last]
  | none => []

/-- The lines of a text. -/
def lines (s : String) : List String :=
  (lineList s.toList).map String.ofList

/-- The rest of `s` after the beginning `lead`, if `s` begins so. -/
def dropPrefix? (s lead : String) : Option String :=
  (lead.toList.isPrefixOf? s.toList).map String.ofList

/-- The part of `s` before the end `tail`, if `s` ends so. -/
def dropSuffix? (s tail : String) : Option String :=
  (tail.toList.reverse.isPrefixOf? s.toList.reverse).map fun rest => String.ofList rest.reverse

/-- Whether `s` begins with `lead`. -/
def startsWith (s lead : String) : Bool :=
  lead.toList.isPrefixOf s.toList

/-- Whether `s` ends with `tail`. -/
def endsWith (s tail : String) : Bool :=
  tail.toList.isSuffixOf s.toList

/-- The pieces of `s` between the characters `sep`; there is one more piece than separators. -/
def pieces (s : String) (sep : Char) : List String :=
  (s.toList.splitOn sep).map String.ofList

/-- Every occurrence of `c` replaced by the text `by_`. -/
def replaceChar (c : Char) (by_ : String) (s : String) : String :=
  String.ofList (s.toList.flatMap fun d => if d = c then by_.toList else [d])

@[simp] theorem toList_replaceChar (c : Char) (by_ s : String) :
    (replaceChar c by_ s).toList = s.toList.flatMap fun d => if d = c then by_.toList else [d] :=
  String.toList_ofList

/-- Every occurrence of the two characters `a`, `b` in a row, from the left, replaced. -/
def replacePair (a b : Char) (by_ : List Char) : List Char → List Char
  | [] => []
  | [c] => [c]
  | c :: d :: rest =>
    if c = a ∧ d = b then by_ ++ replacePair a b by_ rest else c :: replacePair a b by_ (d :: rest)

end OpenApiTs.Text
