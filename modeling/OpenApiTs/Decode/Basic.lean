import OpenApiTs.Decode.Error

/-!
# Decoders

A decoder takes a JSON value and gives a value of the domain or the first error. Lists and maps
are decoded in order.

## Main definitions

* `Decoder`: decoders.
* `Dialect`: where formats that are read as JSON values differ in how values decode.
* `Decode.string`, `Decode.boolean`, `Decode.natural`, `Decode.list`, `Decode.table`: decoders for
  the plain shapes.
* `Decode.optional`: null stands for nothing.
* `Decode.variant`: one name of a list.
-/

namespace OpenApiTs

/-- From a JSON value to a value of the domain or the first error. -/
abbrev Decoder (α : Type) := Json → Except DecodeError α

/-- How values of a format decode. -/
structure Dialect where
  /-- Whether an array that stands for a record may be longer than the record. -/
  surplus : Bool
  /-- Whether a value stands for the payload of a variant that has none. -/
  isUnit : Json → Bool

/-- JSON: arrays have no surplus, and null is the missing payload. -/
def Dialect.json : Dialect := ⟨false, Json.isNull⟩

/-- TOML: surplus elements are passed over; as there is no null, an empty table or array is the
missing payload. -/
def Dialect.toml : Dialect where
  surplus := true
  isUnit
    | .object members => members.isEmpty
    | .array elements => elements.isEmpty
    | _ => false

namespace Decode

variable {α : Type}

/-- A string. -/
def string : Decoder String
  | .string s => .ok s
  | value => .error (.wrongType value .string)

/-- A boolean. -/
def boolean : Decoder Bool
  | .bool b => .ok b
  | value => .error (.wrongType value .boolean)

/-- A natural number of 64 bits. -/
def natural : Decoder Nat
  | .number (.int n) =>
    if 0 ≤ n then .ok n.toNat else .error (.wrongValue (.number (.int n)) .natural)
  | value => .error (.wrongType value .natural)

/-- An array, element by element. -/
def list (decode : Decoder α) : Decoder (List α)
  | .array elements => elements.mapM decode
  | value => .error (.wrongType value .sequence)

/-- An object, member by member. -/
def table (decode : Decoder α) : Decoder (List (String × α))
  | .object members =>
    members.foldlM (fun all (key, value) => return Entries.put key (← decode value) all) []
  | value => .error (.wrongType value .map)

/-- Null for nothing, or a value. -/
def optional (decode : Decoder α) : Decoder (Option α)
  | .null => .ok none
  | value => (decode value).map some

/-- One of the named variants: its name, or an object with the name as its only key and a missing
payload as its value. -/
def variant (variants : List (String × α)) (dialect : Dialect := .json) : Decoder α := fun value =>
  let named (name : String) : Except DecodeError α :=
    match variants.lookup name with
    | some x => .ok x
    | none => .error (.unknownVariant name (variants.map Prod.fst))
  match value with
  | .string name => named name
  | .object [(name, payload)] => do
    let x ← named name
    if dialect.isUnit payload then pure x else throw (.wrongType payload .unit)
  | .object members => .error (.wrongValue (.object members) .singleKeyMap)
  | other => .error (.wrongType other .stringOrMap)

end Decode

end OpenApiTs
