import OpenApiTs.Generation.Context

/-!
# Bodies of interfaces

The fields of an object with its index signature, as they stand on lines of an interface or
between braces in a type.

## Main definitions

* `ObjectField`: a field.
* `Body`: fields and the values of the index signature.
* `Body.lines`, `Body.inline`: the two layouts.
-/

namespace OpenApiTs

/-- A field of an object. -/
structure ObjectField where
  /-- The key as it is written. -/
  key : String
  optional : Bool
  use : TypeUse
  /-- The documentation comment of the field on a line of an interface. -/
  docs : String := ""
  deriving DecidableEq, Repr

namespace ObjectField

/-- The field without a comment. -/
def text (f : ObjectField) : String :=
  f.key ++ (if f.optional then "?" else "") ++ ": " ++ f.use.text

/-- The field on a line of an interface. -/
def line (f : ObjectField) : String := f.docs ++ "  " ++ f.text ++ ";\n"

end ObjectField

/-- The fields of an object by raw name, and the values of its index signature. -/
structure Body where
  fields : List (String × ObjectField) := []
  index : Option TypeUse := none
  deriving DecidableEq, Repr

namespace Body

/-- Whether there is nothing in the body. -/
def isEmpty (b : Body) : Bool := b.fields.isEmpty && b.index.isNone

/-- The declarations mentioned by the fields and by the index signature. -/
def mentions (b : Body) : List String :=
  Names.union (b.fields.foldl (fun names (_, f) => Names.union names f.use.mentions) [])
    ((b.index.map TypeUse.mentions).getD [])

/-- The index signature. Beside fields it allows every value, so that each field agrees with
it. -/
def indexText? (b : Body) : Option String :=
  b.index.map fun use =>
    "[key: string]: " ++ (if b.fields.isEmpty then use.text else "unknown")

/-- The body on lines of an interface. -/
def lines (b : Body) : String :=
  String.join (b.fields.map fun (_, f) => f.line) ++
    (match b.indexText? with
      | some text => "  " ++ text ++ ";\n"
      | none => "")

/-- The lines of the body between braces. -/
def block (b : Body) : String := "\x7b\n" ++ b.lines ++ "\x7d"

/-- The body in a type. -/
def inline (b : Body) : String :=
  "\x7b " ++ "; ".intercalate (b.fields.map (fun (_, f) => f.text) ++ b.indexText?.toList) ++
    " \x7d"

end Body

end OpenApiTs
