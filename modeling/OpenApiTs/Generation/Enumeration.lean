import OpenApiTs.Generation.Object

/-!
# Enumerations

An enumeration of texts only, or of numbers only, is declared with a member for each value and
exports the union of its values besides. Any other enumeration is an alias of that union.

## Main definitions

* `Enumeration.members`: the members for a list of values.
* `Gen.enumerationDeclaration`: the declaration of an enumeration.
-/

namespace OpenApiTs

namespace Enumeration

/-- The first of `count` numbers from `n` on that makes a member name free. -/
def firstFree (used : List String) (member : String) : Nat → Nat → String
  | 0, n => member ++ n.repr
  | count + 1, n =>
    if used.contains (member ++ n.repr) then firstFree used member count (n + 1)
    else member ++ n.repr

/-- The name of the member at position `i` for a value, free of the names used. Of as many numbers
as there are names used and one more, one makes the name free. -/
def memberName (used : List String) (i : Nat) (value : Json) : String :=
  let natural := Naming.memberName value
  let member := if Naming.isIdentifier natural then natural else "Value" ++ (i + 1).repr
  if used.contains member then firstFree used member used.length 2 else member

/-- The members for values from position `i` on: names with the values they stand for. -/
def membersFrom (used : List String) : Nat → List Json → List (String × String)
  | _, [] => []
  | i, value :: rest =>
    let name := memberName used i value
    (name, value.compact) :: membersFrom (name :: used) (i + 1) rest

/-- The members for a list of values. -/
def members (values : List Json) : List (String × String) := membersFrom [] 0 values

/-- A member on a line of its declaration. -/
def memberLine (member : String × String) : String :=
  "  " ++ member.1 ++ " = " ++ member.2 ++ ",\n"

/-- Whether values make a declaration with members. -/
def isUniform (values : List Json) : Bool := values.all Json.isString || values.all Json.isNumber

/-- The union of values. -/
def union (values : List Json) : String := " | ".intercalate (values.map Json.compact)

end Enumeration

namespace Gen

/-- The declaration of an enumeration. -/
def enumerationDeclaration (run : Setting) (s : Schema) (pointer name : String) :
    Gen Declaration := do
  let values := s.literals
  let docs := run.docs s [] ""
  if Enumeration.isUniform values then
    let valuesName ← claim fun r => r.claimExport (name ++ "Values")
    let lines := String.join ((Enumeration.members values).map Enumeration.memberLine)
    pure
      { content :=
          docs ++ "export enum " ++ name ++ " \x7b\n" ++ lines ++ "\x7d\n\n" ++
            aliasText "" valuesName (Enumeration.union values)
        exports := [valuesName]
        kind := .enumeration
        source := pointer }
  else pure (aliasDeclaration docs name ⟨Enumeration.union values, []⟩ pointer)

end Gen

end OpenApiTs
