import OpenApiTs.Generation.Object

/-!
# Aliases of scalars, arrays and literals

Scalar types are written by their custom targets or by their general types, arrays by the type of
their items, constants and in-place enumerations by their literals. Everything unknown is the type
of every value.

## Main definitions

* `Setting.scalarText`: the text of a scalar type.
* `Gen.plainUse`: the type of such a schema, without null.
* `Gen.plainDeclaration`: its declaration, with null where the schema admits it.
-/

namespace OpenApiTs

/-- The text of a scalar type with a format, without custom targets. -/
def Scalar.text (s : Scalar) (format : Option String) : String :=
  match s with
  | .string => if format = some "binary" then "Blob" else "string"
  | .number | .integer => "number"
  | .boolean => "boolean"
  | .null => "null"

/-- The text of a scalar type with a format. -/
def Setting.scalarText (run : Setting) (s : Scalar) (format : Option String) : String :=
  (run.config.targetFor? s.name format).getD (s.text format)

/-- The literal type of a value. -/
def Json.literalText : Json → String
  | .array _ => "unknown"
  | .object _ => "unknown"
  | value => value.compact

namespace Gen

variable (run : Setting) (refer : Refer)

/-- A union of texts, each once. -/
def unionOf (texts : List String) : TypeUse := .plain (" | ".intercalate (Names.union [] texts))

/-- The type of a schema that is no union, intersection or object, without null. -/
def plainUse (s : Schema) (parts : Parts) (location hint : String) : Gen TypeUse :=
  match s.shape with
  | .array =>
    match parts.items with
    | some part => do
      let use ← part.use refer (Pointer.child location "items") (Naming.compose [hint, "Item"])
      pure use.array
    | none => pure TypeUse.unknown.array
  | .constant => pure (.plain (s.constant.getD .null).literalText)
  | .enumeration =>
    pure (unionOf ((s.enumeration.filter fun v => !v.isNull).map Json.literalText))
  | .scalars types => pure (unionOf (types.map fun t => run.scalarText t s.format))
  | _ => pure .unknown

/-- The declaration of a schema that is no union, intersection or object. -/
def plainDeclaration (s : Schema) (parts : Parts) (pointer name raw : String) :
    Gen Declaration := do
  let use ← plainUse run refer s parts pointer raw
  pure (aliasDeclaration (run.docs s [] "") name (use.orNullIf s.isNullable) pointer)

end Gen

end OpenApiTs
