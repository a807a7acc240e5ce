import OpenApiTs.Schema.Basic

/-!
# Shapes of schemas

A schema can satisfy several shape tests at once: an object may carry `oneOf`, an enumeration may
declare a type. The tests are made in a fixed order and the first that holds decides: union,
intersection, object, array, enumeration, constant, scalars, unknown.

## Main definitions

* `Scalar`: the scalar types.
* `Shape`, `Schema.shape`: the shape of a schema.
* `Schema.isNullable`: whether a schema admits null, in any of its encodings.
* `Shape.Maker`: which kind of declaration a shape becomes.
-/

namespace OpenApiTs

/-- The scalar types. -/
inductive Scalar where
  | string
  | number
  | integer
  | boolean
  | null
  deriving DecidableEq, Repr

namespace Scalar

/-- The name of a scalar type in a schema. -/
def name : Scalar → String
  | .string => "string"
  | .number => "number"
  | .integer => "integer"
  | .boolean => "boolean"
  | .null => "null"

/-- The scalar type with a name. -/
def ofName? (name : String) : Option Scalar :=
  [string, number, integer, boolean, null].find? fun s => s.name == name

end Scalar

/-- What a schema describes. -/
inductive Shape where
  | union
  | intersection
  | object
  | array
  | enumeration
  | constant
  /-- One or more scalar types. -/
  | scalars (types : List Scalar)
  | unknown
  deriving DecidableEq, Repr

namespace Shape

/-- The kinds of declaration makers. -/
inductive Maker where
  | object
  | union
  | enumeration
  | alias
  deriving DecidableEq, Repr

/-- Which maker declares a shape. -/
def maker : Shape → Maker
  | .union => .union
  | .intersection | .object => .object
  | .enumeration => .enumeration
  | .array | .constant | .scalars _ | .unknown => .alias

/-- Shapes that are declared as interfaces or enumerations. Their declarations cannot admit null,
so it is added where they are used. -/
def isNominal : Shape → Bool
  | .object | .intersection | .enumeration => true
  | _ => false

end Shape

namespace Schema

/-- Whether null is admitted: by the flag, by a list of types, or as a value of an enumeration. -/
def isNullable (s : Schema) : Bool := s.nullable || s.listsNull || s.enumeration.any Json.isNull

/-- The scalar types for declared names, each once; none if a name is no scalar type. -/
def scalars? : List String → Option (List Scalar)
  | names => names.foldlM (fun found name =>
      match Scalar.ofName? name with
      | some s => some (if found.contains s then found else found ++ [s])
      | none => none) []

/-- The shape of declared scalar types. Null beside other types only makes them nullable. -/
def scalarShape (s : Schema) : Shape :=
  match scalars? s.typeNames with
  | none => .unknown
  | some found =>
    let kept := if 1 < found.length then found.filter (· != .null) else found
    if kept.isEmpty then .unknown else .scalars kept

/-- The shape of a schema. -/
def shape (s : Schema) : Shape :=
  if !s.oneOf.isEmpty || !s.anyOf.isEmpty then .union
  else if !s.allOf.isEmpty then .intersection
  else if s.declares "object" || !s.properties.isEmpty then .object
  else if s.declares "array" then .array
  else if s.enumeration.any fun v => !v.isNull then .enumeration
  else if s.constant.isSome then .constant
  else s.scalarShape

/-- Whether uses of a declaration for the schema have to add null. -/
def needsNullAtUse (s : Schema) : Bool := s.isNullable && s.shape.isNominal

end Schema

end OpenApiTs
