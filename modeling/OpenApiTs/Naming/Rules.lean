import OpenApiTs.Json.Printer
import OpenApiTs.Naming.Convention
import OpenApiTs.Naming.Identifier
import OpenApiTs.Text.Lines

/-!
# Names of declarations, fields, operations and members

How the raw names of a document become names in generated code under the configured conventions.
Every name here is a function of its input alone; two raw names can have the same name.

## Main definitions

* `NamingRules`: the configured conventions, prefix and suffix.
* `NamingRules.typeName`: the name of a declaration.
* `NamingRules.fieldName`: the key of a field as it is written.
* `Naming.operationName`: the raw name of an operation.
* `Naming.memberName`: the name of an enumeration member for a value.
-/

namespace OpenApiTs

/-- The conventions of a run. -/
structure NamingRules where
  /-- Convention for type names. -/
  types : Convention := .pascal
  /-- Convention for field names; without one, names stay as they are. -/
  fields : Option Convention := none
  /-- Put before every type name. -/
  before : String := ""
  /-- Put after every type name. -/
  after : String := ""
  deriving DecidableEq, Repr

namespace NamingRules

/-- The cased name, or the word "type" cased where nothing is left of the raw name. -/
def stem (rules : NamingRules) (raw : String) : String :=
  let cased := rules.types.apply raw
  if cased.isEmpty then rules.types.apply "type" else cased

/-- What is appended to the name of a built-in type. -/
def reservedSuffix (rules : NamingRules) : String :=
  match rules.types with
  | .snake => "_type"
  | .camel | .pascal => "Type"

/-- A name that does not start with a digit. -/
def guardDigit (name : String) : String :=
  if name.toList.head?.any Text.isAsciiDigit then "_" ++ name else name

/-- The name of a declaration: the cased name between prefix and suffix, kept from starting with a
digit and from being the name of a built-in type. -/
def typeName (rules : NamingRules) (raw : String) : String :=
  let name := guardDigit (rules.before ++ rules.stem raw ++ rules.after)
  if name ∈ Naming.reserved then name ++ rules.reservedSuffix else name

/-- No declaration takes the name of a built-in type. -/
theorem typeName_not_reserved (rules : NamingRules) (raw : String) :
    rules.typeName raw ∉ Naming.reserved := by
  have hwords : ∀ suffix ∈ ["_type", "Type"], ∀ name ∈ Naming.reserved,
      name ++ suffix ∉ Naming.reserved := by decide
  have hsuffix : rules.reservedSuffix ∈ ["_type", "Type"] := by
    rw [reservedSuffix]
    split <;> decide
  rw [typeName]
  split
  · next h => exact hwords _ hsuffix _ h
  · next h => exact h

/-- The key of a field as it is written: quoted where it is no identifier. -/
def fieldName (rules : NamingRules) (raw : String) : String :=
  let name :=
    match rules.fields with
    | some convention => convention.apply raw
    | none => raw
  if Naming.isIdentifier name then name else Text.quote name

end NamingRules

namespace Naming

/-- The words that a path segment adds to the name of an operation. -/
def segmentWords (segment : String) : List String :=
  match (Text.dropPrefix? segment "\x7b").bind fun rest => Text.dropSuffix? rest "\x7d" with
  | some parameter => ["by", parameter]
  | none => [segment]

/-- The raw name of an operation: its identifier, unless that is blank, or its method followed by
the segments of its path. -/
def operationName (identifier : Option String) (method path : String) : String :=
  match identifier.filter fun id => !(Text.trim id).isEmpty with
  | some id => compose [id]
  | none =>
    let segments := (Text.pieces path '/').filter fun s => !s.isEmpty
    compose [" ".intercalate (method :: segments.flatMap segmentWords)]

/-- The raw name of an enumeration member for a value. -/
def rawMemberName : Json → String
  | .string s => Convention.pascal.apply s
  | .number n =>
    Text.replaceChar '.' "_" (Text.replaceChar '-' "Minus" ("Value" ++ n.text))
  | value => Convention.pascal.apply value.compact

/-- The name of an enumeration member for a value. -/
def memberName (value : Json) : String :=
  let raw := rawMemberName value
  if raw.isEmpty then "Empty"
  else if raw.toList.head?.any Text.isAsciiDigit then "Value" ++ raw
  else raw

end Naming

end OpenApiTs
