import OpenApiTs.Generation.Extends
import OpenApiTs.Generation.Part
import OpenApiTs.Naming.Rules

/-!
# Objects and intersections

An object with properties is an interface, or a type between braces where it is used; one without
is a record. An intersection is an interface that extends its object-like references and merges
its inline objects, as long as nothing else is among its entries; otherwise it is an alias of all
of them.

## Main definitions

* `Gen.field`: a field for a property.
* `Gen.collect`: the fields of a schema put into a body.
* `Gen.record`: the record for an object without properties.
* `Gen.inlineObject`: the type of an object where it is used.
* `Gen.objectDeclaration`: the declaration of an object or an intersection.
-/

namespace OpenApiTs.Gen

variable (run : Setting) (refer : Refer)

/-- A field for the property `rawName` of the object named `owner`. -/
def field (owner rawName : String) (part : Part) (required : Bool) (location : String) :
    Gen ObjectField := do
  let use ← part.use refer location (Naming.compose [owner, rawName])
  let docs :=
    match part with
    | .inline s _ => run.docs s [] "  "
    | _ => ""
  pure ⟨run.config.naming.fieldName rawName, !required, use, docs⟩

/-- The fields of properties below `location`, put into a body in order. -/
def collectFields (s : Schema) (location owner : String) :
    List (String × Part) → Body → Gen Body
  | [], body => pure body
  | (rawName, part) :: rest, body => do
    let f ← field run refer owner rawName part (s.isRequired rawName)
      (Pointer.child location rawName)
    collectFields s location owner rest { body with fields := Entries.put rawName f body.fields }

/-- The type of the members that no property names, if there can be any. -/
def additionalUse (parts : Parts) (location owner : String) : Gen (Option TypeUse) :=
  match parts.additional with
  | none | some (.boolean false) => pure none
  | some part =>
    some <$> part.use refer (Pointer.child location "additionalProperties")
      (Naming.compose [owner, "Value"])

/-- The fields and the index signature of a schema, put into a body. -/
def collect (s : Schema) (parts : Parts) (location owner : String) (body : Body) : Gen Body := do
  let body ← collectFields run refer s (Pointer.child location "properties") owner
    parts.properties body
  match ← additionalUse refer parts location owner with
  | some use => pure { body with index := some use }
  | none => pure body

/-- The record for an object without properties. -/
def record (parts : Parts) (location owner : String) : Gen TypeUse := do
  match parts.additional with
  | some (.boolean false) => pure (TypeUse.plain "never").record
  | _ => return ((← additionalUse refer parts location owner).getD .unknown).record

/-- The type of an object where it is used. -/
def inlineObject (s : Schema) (parts : Parts) (location hint : String) : Gen TypeUse := do
  if s.properties.isEmpty then record refer parts location hint
  else
    let body ← collect run refer s parts location hint {}
    pure ⟨body.inline, body.mentions⟩

/-! ### Intersections -/

/-- What the entries of an intersection amount to. -/
structure Composition where
  mentions : List String := []
  /-- The bases that an interface can extend. -/
  bases : List String := []
  /-- The types that only an alias can intersect. -/
  others : List String := []
  body : Body := {}

/-- An entry of an intersection, at position `i` below `location`, added to a composition. -/
def composeEntry (raw location : String) (i : Nat) (entry : Part) (c : Composition) :
    Gen Composition := do
  let location := Pointer.child location i.repr
  match entry with
  | .reference reference => do
    let pointer ← ofExcept (DocumentTree.canonicalize reference location)
    let objectLike ← ofExcept (run.isExtendable pointer)
    let base ← refer reference location
    let c := { c with mentions := Names.union c.mentions base.mentions }
    if objectLike then pure { c with bases := c.bases ++ [base.text] }
    else pure { c with others := c.others ++ [TypeUse.parenthesize base.text] }
  | .boolean true => pure c
  | .boolean false => pure { c with others := c.others ++ ["never"] }
  | .inline s answers =>
    if s.isMergeable then do
      let body ← answers.collect location raw c.body
      pure { c with body := body }
    else do
      let use ← answers.use location (Naming.compose [raw, "Part", (i + 1).repr])
      pure { c with
        mentions := Names.union c.mentions use.mentions
        others := c.others ++ [TypeUse.parenthesize use.text] }

/-- The entries of an intersection from position `i` on, added to a composition. -/
def composeEntries (raw location : String) :
    Nat → List Part → Composition → Gen Composition
  | _, [], c => pure c
  | i, entry :: rest, c => do
    let c ← composeEntry run refer raw location i entry c
    composeEntries raw location (i + 1) rest c

/-- The text of an interface. -/
def interfaceText (docs name : String) (bases : List String) (body : Body) : String :=
  docs ++ "export interface " ++ name ++
    (if bases.isEmpty then "" else " extends " ++ ", ".intercalate bases) ++ " " ++
    (if body.isEmpty then "\x7b\x7d" else body.block)

/-- The text of a type alias. -/
def aliasText (docs name text : String) : String :=
  docs ++ "export type " ++ name ++ " = " ++ text ++ ";"

/-- A type alias for the schema at a pointer. -/
def aliasDeclaration (docs name : String) (use : TypeUse) (pointer : String) : Declaration where
  content := aliasText docs name use.text
  dependencies := use.mentions
  kind := .union
  source := pointer

/-- The declaration of an object or an intersection. -/
def objectDeclaration (s : Schema) (parts : Parts) (pointer name raw : String) :
    Gen Declaration := do
  let docs := run.docs s [] ""
  if s.properties.isEmpty && s.allOf.isEmpty then
    let use ← record refer parts pointer raw
    pure (aliasDeclaration docs name use pointer)
  else
    let c ← composeEntries run refer raw (Pointer.child pointer "allOf") 0 parts.allOf {}
    let body ← collect run refer s parts pointer raw c.body
    let mentions := Names.union c.mentions body.mentions
    if c.others.isEmpty then
      pure
        { content := interfaceText docs name c.bases body
          dependencies := mentions
          kind := .interface
          source := pointer }
    else
      let operands := c.bases ++ c.others ++ (if body.isEmpty then [] else [body.block])
      pure (aliasDeclaration docs name ⟨" & ".intercalate operands, mentions⟩ pointer)

end OpenApiTs.Gen
