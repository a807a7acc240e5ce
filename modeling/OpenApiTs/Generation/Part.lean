import OpenApiTs.Generation.Body

/-!
# Parts of a schema and what can be asked of them

The makers of declarations never look into the parts of a schema by themselves. A part answers for
itself: with a type for the place where it is used, with a declaration of its own, or with its
fields. So each maker is a function of a schema and of the answers of its parts.

## Main definitions

* `Answers`: what an inline schema can be asked for.
* `Part`: a node with its answers.
* `Parts`: the parts of a schema.
* `Part.use`: the type of a part where it is used.
-/

namespace OpenApiTs

/-- What an inline schema can be asked for. -/
structure Answers where
  /-- The type for a use at a location; a declaration that this needs is named after a hint. -/
  use : (location hint : String) → Gen TypeUse
  /-- The name of a declaration for the schema at a pointer, named after a raw name. -/
  declare : (pointer raw : String) → Gen String
  /-- The fields of the schema at a location, put into the body of an owner. -/
  collect : (location owner : String) → Body → Gen Body

/-- A node with the answers of its schema. -/
inductive Part where
  | reference (pointer : String)
  | boolean (allowed : Bool)
  | inline (schema : Schema) (answers : Answers)

/-- The parts of a schema. -/
structure Parts where
  properties : List (String × Part)
  additional : Option Part
  items : Option Part
  oneOf : List Part
  anyOf : List Part
  allOf : List Part

/-- How a reference that stands at a location is used. -/
abbrev Refer := (reference location : String) → Gen TypeUse

/-- The type of a part where it is used. -/
def Part.use (refer : Refer) (part : Part) (location hint : String) : Gen TypeUse :=
  match part with
  | .reference pointer => refer pointer location
  | .boolean allowed => pure (.ofBoolean allowed)
  | .inline _ answers => answers.use location hint

end OpenApiTs
