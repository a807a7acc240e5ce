import OpenApiTs.Json.Printer
import OpenApiTs.Text.Inspect

/-!
# Decoding errors

Why a JSON value does not decode as a value of the domain. An error names what was found and what
was expected; its text is made in one place.

## Main definitions

* `DecodeError`: the causes.
* `DecodeError.message`: the text of a cause.
-/

namespace OpenApiTs

/-- What a decoder can expect at a place. -/
inductive Expected where
  | string
  | boolean
  | natural
  | sequence
  | map
  | unit
  | stringOrMap
  | singleKeyMap
  | fewerElements
  | record (name : String)
  /-- A record written by position, with its number of fields. -/
  | positional (name : String) (fields : Nat)
  deriving DecidableEq, Repr

/-- The text of an expectation. -/
def Expected.text : Expected → String
  | .string => "a string"
  | .boolean => "a boolean"
  | .natural => "u64"
  | .sequence => "a sequence"
  | .map => "a map"
  | .unit => "unit"
  | .stringOrMap => "string or map"
  | .singleKeyMap => "map with a single key"
  | .fewerElements => "fewer elements in array"
  | .record name => "struct " ++ name
  | .positional name fields =>
    "struct " ++ name ++ " with " ++ fields.repr ++ (if fields = 1 then " element" else " elements")

/-- Why a value does not decode. -/
inductive DecodeError where
  /-- The value has the wrong kind. -/
  | wrongType (found : Json) (expected : Expected)
  /-- The value has the right kind but is out of range. -/
  | wrongValue (found : Json) (expected : Expected)
  /-- An array has the wrong number of elements. -/
  | wrongLength (length : Nat) (expected : Expected)
  | missingField (name : String)
  | unknownVariant (name : String) (variants : List String)
  /-- No alternative of a choice decodes. -/
  | noAlternative (choice : String)

/-- The description of a value that was found. -/
def Json.description : Json → String
  | .null => "null"
  | .bool b => "boolean `" ++ (if b then "true" else "false") ++ "`"
  | .number (.int n) => "integer `" ++ Json.integerText n ++ "`"
  | .number (.double x) => "floating point `" ++ Json.numberStyle.text x ++ "`"
  | .string s => "string " ++ Text.inspect s
  | .array _ => "sequence"
  | .object _ => "map"

/-- The text of a decoding error. -/
def DecodeError.message : DecodeError → String
  | .wrongType found expected =>
    "invalid type: " ++ found.description ++ ", expected " ++ expected.text
  | .wrongValue found expected =>
    "invalid value: " ++ found.description ++ ", expected " ++ expected.text
  | .wrongLength length expected =>
    "invalid length " ++ length.repr ++ ", expected " ++ expected.text
  | .missingField name => "missing field `" ++ name ++ "`"
  | .unknownVariant name variants =>
    "unknown variant `" ++ name ++ "`, expected one of " ++
      ", ".intercalate (variants.map fun v => "`" ++ v ++ "`")
  | .noAlternative choice => "data did not match any variant of untagged enum " ++ choice

end OpenApiTs
