import OpenApiTs.Json.Basic
import OpenApiTs.Decimal.Shortest
import OpenApiTs.Text.Quoted

/-!
# JSON texts

The compact text of a value, without blanks, and its indented text, with two spaces a level and
one member or element a line.

## Main definitions

* `Json.numberStyle`: how numbers are written.
* `Json.compact`: the compact text.
* `Json.indented`: the indented text.
-/

namespace OpenApiTs.Json

/-- Numbers are positional while the leading digit stands between `10 ^ -5` and `10 ^ 15`, and an
exponent that is not negative has a plus sign. -/
def numberStyle : Decimal.Notation := ⟨-5, 15, "+"⟩

/-- The text of an integer. -/
def integerText (n : Int) : String :=
  if n < 0 then "-" ++ n.natAbs.repr else n.natAbs.repr

/-- The text of a number. -/
def Number.text : Number → String
  | .int n => integerText n
  | .double x => numberStyle.text x

mutual

/-- The compact text of a value. -/
def compact : Json → String
  | .null => "null"
  | .bool true => "true"
  | .bool false => "false"
  | .number n => n.text
  | .string s => Text.quote s
  | .array elements => "[" ++ String.intercalate "," (compactElements elements) ++ "]"
  | .object members => "\x7b" ++ String.intercalate "," (compactMembers members) ++ "\x7d"

/-- The compact texts of the elements of an array. -/
def compactElements : List Json → List String
  | [] => []
  | x :: rest => compact x :: compactElements rest

/-- The compact texts of the members of an object. -/
def compactMembers : List (String × Json) → List String
  | [] => []
  | (k, x) :: rest => (Text.quote k ++ ":" ++ compact x) :: compactMembers rest

end

/-- A line end followed by the indentation of a level. -/
def newLine (level : Nat) : String :=
  String.ofList ('\n' :: List.replicate (2 * level) ' ')

/-- Opening and closing brackets around items on lines of their own. -/
def block (opening closing : String) (level : Nat) (items : List String) : String :=
  if items.isEmpty then opening ++ closing
  else
    opening ++ newLine (level + 1) ++ String.intercalate ("," ++ newLine (level + 1)) items ++
      newLine level ++ closing

mutual

/-- The indented text of a value at a level. -/
def indentedAt (level : Nat) : Json → String
  | .null => "null"
  | .bool true => "true"
  | .bool false => "false"
  | .number n => n.text
  | .string s => Text.quote s
  | .array elements => block "[" "]" level (indentedElements (level + 1) elements)
  | .object members => block "\x7b" "\x7d" level (indentedMembers (level + 1) members)

/-- The indented texts of the elements of an array. -/
def indentedElements (level : Nat) : List Json → List String
  | [] => []
  | x :: rest => indentedAt level x :: indentedElements level rest

/-- The indented texts of the members of an object. -/
def indentedMembers (level : Nat) : List (String × Json) → List String
  | [] => []
  | (k, x) :: rest => (Text.quote k ++ ": " ++ indentedAt level x) :: indentedMembers level rest

end

/-- The indented text of a value. -/
def indented (value : Json) : String := indentedAt 0 value

end OpenApiTs.Json
