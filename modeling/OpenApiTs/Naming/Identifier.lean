import OpenApiTs.Text.Alphanumeric

/-!
# Identifiers

The names that can stand in generated code without quotation marks, and the names of built-in
types, which no declaration may take.

## Main definitions

* `Naming.isIdentifier`: a letter, underscore or dollar sign, then those and digits.
* `Naming.reserved`: names of built-in types.
-/

namespace OpenApiTs.Naming

/-- A character that can start an identifier. -/
def isIdentifierStart (c : Char) : Bool := Text.isAsciiLetter c || c == '_' || c == '$'

/-- A character that can stand after the first of an identifier. -/
def isIdentifierPart (c : Char) : Bool := Text.isAsciiAlphanumeric c || c == '_' || c == '$'

/-- Whether a list of characters is an identifier. -/
def isIdentifierList : List Char → Bool
  | [] => false
  | c :: rest => isIdentifierStart c && rest.all isIdentifierPart

/-- Whether a name is an identifier. -/
def isIdentifier (name : String) : Bool := isIdentifierList name.toList

/-- The names of built-in types. -/
def reserved : List String :=
  ["any", "bigint", "boolean", "never", "null", "number", "object", "string", "symbol",
    "undefined", "unknown", "void"]

end OpenApiTs.Naming
