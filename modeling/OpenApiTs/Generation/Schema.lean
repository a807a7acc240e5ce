import OpenApiTs.Generation.Alias
import OpenApiTs.Generation.Enumeration
import OpenApiTs.Generation.Union

/-!
# Types and declarations of schemas

A schema is declared once for each pointer, by the maker of its shape. Where a schema is used, it
stands in its place if it can, and otherwise is declared and used by name. What a schema answers
follows from the answers of its parts.

## Main definitions

* `Gen.declareSchema`: the declaration of a schema at a pointer.
* `Gen.useSchema`: the type of a schema where it is used.
* `SchemaNode.part`, `Schema.parts`: nodes with their answers.
-/

namespace OpenApiTs

/-- The reference of an intersection that wraps nothing but one reference. -/
def Schema.soleReference? (s : Schema) : Option String :=
  match s.allOf with
  | [.reference pointer] =>
    if s.properties.isEmpty && s.additional.isNone then some pointer else none
  | _ => none

/-- How a schema stands where it is used. -/
inductive Placement where
  /-- As the one reference that it wraps. -/
  | wrapped (reference : String)
  /-- As a text in its place. -/
  | inPlace
  /-- By the name of a declaration. -/
  | byName
  deriving DecidableEq, Repr

/-- How a schema stands where it is used. -/
def Schema.placement (s : Schema) : Placement :=
  match s.shape with
  | .intersection =>
    match s.soleReference? with
    | some reference => .wrapped reference
    | none => .byName
  | .enumeration => if s.literals.length = 1 then .inPlace else .byName
  | .union => if s.isInlineUnion then .inPlace else .byName
  | _ => .inPlace

namespace Gen

variable (run : Setting) (refer : Refer)

/-- The declaration that the maker of a schema's shape makes. -/
def makeDeclaration (s : Schema) (parts : Parts) (pointer name raw : String) : Gen Declaration :=
  match s.shape.maker with
  | .object => objectDeclaration run refer s parts pointer name raw
  | .union => unionDeclaration run refer s parts pointer name raw
  | .enumeration => enumerationDeclaration run s pointer name
  | .alias => plainDeclaration run refer s parts pointer name raw

/-- The name of the declaration of a schema at a pointer. A pointer that has a name is not declared
again. -/
def declareSchema (s : Schema) (parts : Parts) (pointer raw : String) : Gen String := do
  match ← nameOf? pointer with
  | some name => pure name
  | none => do
    let name ← begin run pointer raw
    let d ← makeDeclaration run refer s parts pointer name raw
    finish pointer name d
    pure name

/-- The text of a schema in its place, without null unless it is a union. -/
def inPlaceUse (s : Schema) (parts : Parts) (location hint : String) : Gen TypeUse :=
  match s.shape with
  | .union => unionUse run refer s parts location hint
  | .object => inlineObject run refer s parts location hint
  | _ => plainUse run refer s parts location hint

/-- The type of a schema where it is used. -/
def useSchema (s : Schema) (parts : Parts) (location hint : String) : Gen TypeUse :=
  match s.placement with
  | .wrapped reference => do
    let use ← refer reference (Pointer.descend location ["allOf", "0"])
    pure (use.orNullIf s.isNullable)
  | .inPlace => do
    let use ← inPlaceUse run refer s parts location hint
    pure (use.orNullIf s.isNullable)
  | .byName => do
    let name ← declareSchema run refer s parts location hint
    pure (.ofDeclaration name s)

/-- What a schema answers, given its parts. -/
def answers (s : Schema) (parts : Parts) : Answers where
  use := useSchema run refer s parts
  declare := declareSchema run refer s parts
  collect := collect run refer s parts

end Gen

/-! ### Answers of all nodes -/

mutual

/-- A node with its answers. -/
def SchemaNode.part (run : Setting) (refer : Refer) : SchemaNode → Part
  | .reference pointer => .reference pointer
  | .boolean allowed => .boolean allowed
  | .schema s => .inline s (Gen.answers run refer s (s.parts run refer))

/-- The parts of a schema with their answers. -/
def Schema.parts (run : Setting) (refer : Refer) : Schema → Parts
  | { properties, additional, items, oneOf, anyOf, allOf, .. } =>
    { properties := SchemaNode.tableParts run refer properties
      additional := SchemaNode.optionPart run refer additional
      items := SchemaNode.optionPart run refer items
      oneOf := SchemaNode.listParts run refer oneOf
      anyOf := SchemaNode.listParts run refer anyOf
      allOf := SchemaNode.listParts run refer allOf }

/-- The parts of a table of nodes. -/
def SchemaNode.tableParts (run : Setting) (refer : Refer) :
    List (String × SchemaNode) → List (String × Part)
  | [] => []
  | (name, node) :: rest =>
    (name, node.part run refer) :: SchemaNode.tableParts run refer rest

/-- The parts of a list of nodes. -/
def SchemaNode.listParts (run : Setting) (refer : Refer) : List SchemaNode → List Part
  | [] => []
  | node :: rest => node.part run refer :: SchemaNode.listParts run refer rest

/-- The part of a node that may be absent. -/
def SchemaNode.optionPart (run : Setting) (refer : Refer) : Option SchemaNode → Option Part
  | none => none
  | some node => some (node.part run refer)

end

end OpenApiTs
