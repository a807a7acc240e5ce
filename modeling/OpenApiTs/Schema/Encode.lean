import OpenApiTs.Schema.Basic

/-!
# Schemas as JSON

The JSON form of a node. A schema is an object of the fields that it states, in a fixed order;
absent and empty ones are left out.

## Main definitions

* `SchemaNode.toJson`, `Schema.toJson`: the JSON form.
-/

namespace OpenApiTs

/-- The JSON form of declared types. -/
def TypeNames.toJson : TypeNames → Json
  | .one name => .string name
  | .many names => .array (names.map .string)

/-- The JSON form of a discriminator. -/
def Discriminator.toJson (d : Discriminator) : Json :=
  .object <|
    ("propertyName", .string d.propertyName) ::
      if d.mapping.isEmpty then []
      else [("mapping", .object (d.mapping.map fun (key, value) => (key, .string value)))]

namespace Schema

/-- A member that is there if its value is. -/
def memberOf (key : String) : Option Json → List (String × Json)
  | some value => [(key, value)]
  | none => []

/-- A member with a list that is there unless the list is empty. -/
def memberOfList (key : String) : List Json → List (String × Json)
  | [] => []
  | values => [(key, .array values)]

/-- A member with a table that is there unless the table is empty. -/
def memberOfTable (key : String) : List (String × Json) → List (String × Json)
  | [] => []
  | members => [(key, .object members)]

/-- A member for a flag that is set. -/
def memberOfFlag (key : String) (flag : Bool) : List (String × Json) :=
  if flag then [(key, .bool true)] else []

end Schema

mutual

/-- The JSON form of a node. -/
def SchemaNode.toJson : SchemaNode → Json
  | .reference pointer => .object [("$ref", .string pointer)]
  | .schema s => s.toJson
  | .boolean allowed => .bool allowed

/-- The JSON form of a schema. -/
def Schema.toJson : Schema → Json
  | ⟨types, format, title, description, properties, required, additional, items, oneOf, anyOf,
      allOf, discriminator, enumeration, constant, nullable, deprecated, byDefault,
      exampleValue⟩ =>
    .object <|
      Schema.memberOf "type" (types.map TypeNames.toJson) ++
      Schema.memberOf "format" (format.map .string) ++
      Schema.memberOf "title" (title.map .string) ++
      Schema.memberOf "description" (description.map .string) ++
      Schema.memberOfTable "properties" (SchemaNode.tableToJson properties) ++
      Schema.memberOfList "required" (required.map .string) ++
      Schema.memberOf "additionalProperties" (SchemaNode.optionToJson additional) ++
      Schema.memberOf "items" (SchemaNode.optionToJson items) ++
      Schema.memberOfList "oneOf" (SchemaNode.listToJson oneOf) ++
      Schema.memberOfList "anyOf" (SchemaNode.listToJson anyOf) ++
      Schema.memberOfList "allOf" (SchemaNode.listToJson allOf) ++
      Schema.memberOf "discriminator" (discriminator.map Discriminator.toJson) ++
      Schema.memberOfList "enum" enumeration ++
      Schema.memberOf "const" constant ++
      Schema.memberOfFlag "nullable" nullable ++
      Schema.memberOfFlag "deprecated" deprecated ++
      Schema.memberOf "default" byDefault ++
      Schema.memberOf "example" exampleValue

/-- The JSON forms of a table of nodes. -/
def SchemaNode.tableToJson : List (String × SchemaNode) → List (String × Json)
  | [] => []
  | (key, node) :: rest => (key, node.toJson) :: SchemaNode.tableToJson rest

/-- The JSON forms of a list of nodes. -/
def SchemaNode.listToJson : List SchemaNode → List Json
  | [] => []
  | node :: rest => node.toJson :: SchemaNode.listToJson rest

/-- The JSON form of a node that may be absent. -/
def SchemaNode.optionToJson : Option SchemaNode → Option Json
  | none => none
  | some node => some node.toJson

end

end OpenApiTs
