import OpenApiTs.Decode.Record
import OpenApiTs.Schema.Basic

/-!
# Decoding of schemas

A JSON value can stand for a node, for a list of nodes, for a table of nodes or for an inline
schema, depending on the place where it stands. All four readings of a value follow from the
readings of its parts, which makes the decoding a recursion on the value.

An object with a textual `$ref`, and an array of a single text, is a reference. Every other object
or array is an inline schema. Whatever goes wrong inside a node is reported as the failure of the
outermost choice.

## Main definitions

* `Schema.Readings`, `Schema.readings`: what a value stands for at each kind of place.
* `SchemaNode.decode`, `Schema.decode`: the decoders.
-/

namespace OpenApiTs

namespace TypeNames

/-- One name or a list of names. -/
def decode : Decoder TypeNames
  | .string name => .ok (.one name)
  | .array elements =>
    match elements.mapM Decode.string with
    | .ok names => .ok (.many names)
    | .error _ => .error (.noAlternative "SchemaType")
  | _ => .error (.noAlternative "SchemaType")

end TypeNames

/-- The description of a discriminator. -/
def Discriminator.record : Record Json Discriminator where
  name := "Discriminator"
  start := { propertyName := "" }
  fields := [
    .needed "propertyName" Decode.string fun name d => { d with propertyName := name },
    .defaulted "mapping" (Decode.table Decode.string) fun mapping d =>
      { d with mapping := mapping }]

namespace Schema

/-- What a JSON value stands for at each kind of place in a schema. -/
structure Readings where
  value : Json
  node : Except DecodeError SchemaNode
  nodes : Except DecodeError (List SchemaNode)
  table : Except DecodeError (List (String × SchemaNode))
  schema : Except DecodeError Schema

namespace Readings

/-- The reading by a decoder of plain values. -/
def plain {α : Type} (decode : Decoder α) (r : Readings) : Except DecodeError α := decode r.value

/-- The reading as a node or nothing. -/
def optionalNode (r : Readings) : Except DecodeError (Option SchemaNode) :=
  match r.value with
  | .null => .ok none
  | _ => r.node.map some

/-- The reading as a boolean, a node or nothing. -/
def optionalAdditional (r : Readings) : Except DecodeError (Option SchemaNode) :=
  match r.value, r.node with
  | .null, _ => .ok none
  | _, .ok node => .ok (some node)
  | _, .error _ => .error (.noAlternative "AdditionalProperties")

end Readings

/-- Any value. -/
def anyValue : Decoder Json := .ok

/-- The description of an inline schema. -/
def record : Record Readings Schema where
  name := "Schema"
  start := {}
  fields := [
    .defaulted "type" (Readings.plain (Decode.optional TypeNames.decode)) fun x s =>
      { s with types := x },
    .defaulted "format" (Readings.plain (Decode.optional Decode.string)) fun x s =>
      { s with format := x },
    .defaulted "title" (Readings.plain (Decode.optional Decode.string)) fun x s =>
      { s with title := x },
    .defaulted "description" (Readings.plain (Decode.optional Decode.string)) fun x s =>
      { s with description := x },
    .defaulted "properties" Readings.table fun x s => { s with properties := x },
    .defaulted "required" (Readings.plain (Decode.list Decode.string)) fun x s =>
      { s with required := x },
    .defaulted "additionalProperties" Readings.optionalAdditional fun x s =>
      { s with additional := x },
    .defaulted "items" Readings.optionalNode fun x s => { s with items := x },
    .defaulted "oneOf" Readings.nodes fun x s => { s with oneOf := x },
    .defaulted "anyOf" Readings.nodes fun x s => { s with anyOf := x },
    .defaulted "allOf" Readings.nodes fun x s => { s with allOf := x },
    .defaulted "discriminator" (Readings.plain (Decode.optional Discriminator.record.decode))
      fun x s => { s with discriminator := x },
    .defaulted "enum" (Readings.plain (Decode.list anyValue)) fun x s =>
      { s with enumeration := x },
    .defaulted "const" (Readings.plain anyValue) fun x s => { s with constant := some x },
    .defaulted "nullable" (Readings.plain Decode.boolean) fun x s => { s with nullable := x },
    .defaulted "deprecated" (Readings.plain Decode.boolean) fun x s => { s with deprecated := x },
    .defaulted "default" (Readings.plain (Decode.optional anyValue)) fun x s =>
      { s with byDefault := x },
    .defaulted "example" (Readings.plain (Decode.optional anyValue)) fun x s =>
      { s with exampleValue := x }]

/-- The error for a value that is no node. -/
def noNode : DecodeError := .noAlternative "SchemaNode"

/-- An inline schema as a node. -/
def asNode : Except DecodeError Schema → Except DecodeError SchemaNode
  | .ok s => .ok (.schema s)
  | .error _ => .error noNode

/-- The readings of a value that is neither an array nor an object. -/
def scalarReadings (value : Json) : Readings where
  value := value
  node :=
    match value with
    | .bool allowed => .ok (.boolean allowed)
    | _ => .error noNode
  nodes := .error (.wrongType value .sequence)
  table := .error (.wrongType value .map)
  schema := .error (.wrongType value (.record record.name))

/-- The readings of an array, from those of its elements. -/
def arrayReadings (elements : List Json) (parts : List Readings) : Readings :=
  let schema := record.ofElements parts
  { value := .array elements
    node :=
      match elements with
      | [.string pointer] => .ok (.reference pointer)
      | _ => asNode schema
    nodes := parts.mapM Readings.node
    table := .error (.wrongType (.array elements) .map)
    schema := schema }

/-- The readings of an object, from those of its members. -/
def objectReadings (members : List (String × Json)) (parts : List (String × Readings)) :
    Readings :=
  let schema := record.ofMembers parts
  { value := .object members
    node :=
      match Entries.get? "$ref" members with
      | some (.string pointer) => .ok (.reference pointer)
      | _ => asNode schema
    nodes := .error (.wrongType (.object members) .sequence)
    table := parts.foldlM (fun all (key, r) => return Entries.put key (← r.node) all) []
    schema := schema }

mutual

/-- What a value stands for. -/
def readings : Json → Readings
  | .array elements => arrayReadings elements (elementReadings elements)
  | .object members => objectReadings members (memberReadings members)
  | value => scalarReadings value

/-- What the elements of an array stand for. -/
def elementReadings : List Json → List Readings
  | [] => []
  | value :: rest => readings value :: elementReadings rest

/-- What the members of an object stand for. -/
def memberReadings : List (String × Json) → List (String × Readings)
  | [] => []
  | (key, value) :: rest => (key, readings value) :: memberReadings rest

end

/-- An inline schema. -/
def decode : Decoder Schema := fun value => (readings value).schema

end Schema

/-- A node. -/
def SchemaNode.decode : Decoder SchemaNode := fun value => (Schema.readings value).node

end OpenApiTs
