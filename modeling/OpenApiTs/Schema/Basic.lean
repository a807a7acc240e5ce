import OpenApiTs.Json.Basic

/-!
# Schemas

A node of the schema tree is a reference to another place of the document, an inline schema, or a
boolean that admits everything or nothing.

## Main definitions

* `SchemaNode`, `Schema`: nodes and inline schemas.
* `TypeNames`: one declared type or a list of them.
* `Schema.declares`, `Schema.isRequired`, `Schema.literal?`: facts that a schema states directly.
* `Schema.isBlank`: a schema that states nothing.
-/

namespace OpenApiTs

/-- The declared type: one name, or a list of names. -/
inductive TypeNames where
  | one (name : String)
  | many (names : List String)
  deriving DecidableEq, Repr

/-- What tells the branches of a union apart. -/
structure Discriminator where
  propertyName : String
  mapping : List (String × String) := []
  deriving DecidableEq, Repr

mutual

/-- A node of the schema tree. -/
inductive SchemaNode where
  | reference (pointer : String)
  | schema (schema : Schema)
  | boolean (allowed : Bool)

/-- An inline schema. -/
structure Schema where
  types : Option TypeNames := none
  format : Option String := none
  title : Option String := none
  description : Option String := none
  properties : List (String × SchemaNode) := []
  required : List String := []
  /-- The schema of the members that no property names; a boolean allows or forbids them. -/
  additional : Option SchemaNode := none
  items : Option SchemaNode := none
  oneOf : List SchemaNode := []
  anyOf : List SchemaNode := []
  allOf : List SchemaNode := []
  discriminator : Option Discriminator := none
  enumeration : List Json := []
  /-- The only value allowed; the value null is not the same as no value. -/
  constant : Option Json := none
  nullable : Bool := false
  deprecated : Bool := false
  byDefault : Option Json := none
  exampleValue : Option Json := none

end

instance : Inhabited Schema := ⟨{}⟩

namespace TypeNames

/-- The declared names in order. -/
def names : TypeNames → List String
  | .one name => [name]
  | .many names => names

end TypeNames

namespace SchemaNode

/-- The pointer of a reference. -/
def pointer? : SchemaNode → Option String
  | .reference pointer => some pointer
  | _ => none

/-- The inline schema of a node. -/
def schema? : SchemaNode → Option Schema
  | .schema s => some s
  | _ => none

end SchemaNode

namespace Schema

/-- The declared type names in order. -/
def typeNames (s : Schema) : List String := (s.types.map TypeNames.names).getD []

/-- The declared type names other than "null". -/
def declaredTypes (s : Schema) : List String := s.typeNames.filter (· != "null")

/-- Whether a name is among the declared types. -/
def declares (s : Schema) (name : String) : Bool := s.typeNames.contains name

/-- Whether a list of types has the name "null". -/
def listsNull (s : Schema) : Bool :=
  match s.types with
  | some (.many names) => names.contains "null"
  | _ => false

/-- Whether a property is required. -/
def isRequired (s : Schema) (property : String) : Bool := s.required.contains property

/-- The value that a schema pins itself to: a constant, or an enumeration of one value. -/
def literal? (s : Schema) : Option Json :=
  match s.constant, s.enumeration with
  | some value, _ => some value
  | none, [value] => some value
  | none, _ => none

/-- The values of an enumeration other than null, each once. -/
def literals (s : Schema) : List Json :=
  let add (seen : List Json) (value : Json) : List Json :=
    if seen.any fun other => other.same value then seen else seen ++ [value]
  (s.enumeration.filter fun v => !v.isNull).foldl add []

/-- Whether a schema states nothing at all. -/
def isBlank (s : Schema) : Bool :=
  s.types.isNone && s.format.isNone && s.title.isNone && s.description.isNone &&
    s.properties.isEmpty && s.required.isEmpty && s.additional.isNone && s.items.isNone &&
    s.oneOf.isEmpty && s.anyOf.isEmpty && s.allOf.isEmpty && s.discriminator.isNone &&
    s.enumeration.isEmpty && s.constant.isNone && !s.nullable && !s.deprecated &&
    s.byDefault.isNone && s.exampleValue.isNone

end Schema

end OpenApiTs
