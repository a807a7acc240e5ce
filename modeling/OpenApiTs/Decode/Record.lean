import OpenApiTs.Decode.Basic

/-!
# Records

A record decodes from an object, whose members are taken in the order in which they stand, or from
an array, whose elements are taken in the order of the record's fields. Members that name no field
are passed over; a field that is not there keeps its default, unless it is required.

The values at the fields need not be bare JSON: a record over `ι` reads its fields from values of
type `ι`, so that a recursive decoder can hand down what it already knows about a part.

## Main definitions

* `Field`, `Record`: the description of a record.
* `Record.ofMembers`, `Record.ofElements`: decoding of an object and of an array.
* `Record.decode`: decoding of a JSON value.
-/

namespace OpenApiTs

/-- A field of a record `α`, read from a value of type `ι`. -/
structure Field (ι α : Type) where
  key : String
  required : Bool
  read : ι → α → Except DecodeError α

/-- A field that keeps its default when it is not there. -/
def Field.defaulted {ι α β : Type} (key : String) (decode : ι → Except DecodeError β)
    (store : β → α → α) : Field ι α :=
  ⟨key, false, fun value x => return store (← decode value) x⟩

/-- A field that has to be there. -/
def Field.needed {ι α β : Type} (key : String) (decode : ι → Except DecodeError β)
    (store : β → α → α) : Field ι α :=
  ⟨key, true, fun value x => return store (← decode value) x⟩

/-- The fields of a record in order, and the value that they are stored into. -/
structure Record (ι α : Type) where
  name : String
  start : α
  fields : List (Field ι α)

namespace Record

variable {ι α : Type}

/-- Stores the members in order. -/
def storeMembers (r : Record ι α) : List (String × ι) → α → Except DecodeError α
  | [], x => .ok x
  | (key, value) :: rest, x => do
    match r.fields.find? fun f => f.key == key with
    | some f => storeMembers r rest (← f.read value x)
    | none => storeMembers r rest x

/-- The first required field without a member. -/
def missing? (r : Record ι α) (members : List (String × ι)) : Option String :=
  (r.fields.find? fun f => f.required && !members.any fun m => m.1 == f.key).map Field.key

/-- A record from the members of an object. -/
def ofMembers (r : Record ι α) (members : List (String × ι)) : Except DecodeError α := do
  let x ← r.storeMembers members r.start
  match r.missing? members with
  | some key => throw (.missingField key)
  | none => pure x

/-- Stores elements into fields by position; `done` fields were stored before. -/
def storeElements (r : Record ι α) : Nat → List (Field ι α) → List ι → α → Except DecodeError α
  | _, [], _, x => .ok x
  | done, f :: fields, [], x =>
    if f.required then .error (.wrongLength done (.positional r.name r.fields.length))
    else storeElements r (done + 1) fields [] x
  | done, f :: fields, value :: rest, x => do
    storeElements r (done + 1) fields rest (← f.read value x)

/-- A record from the elements of an array. -/
def ofElements (r : Record ι α) (elements : List ι) : Except DecodeError α := do
  let x ← r.storeElements 0 r.fields elements r.start
  if r.fields.length < elements.length then
    throw (.wrongLength elements.length .fewerElements)
  pure x

/-- A record from a JSON value. -/
def decode (r : Record Json α) (dialect : Dialect := .json) : Decoder α
  | .object members => r.ofMembers members
  | .array elements =>
    r.ofElements (if dialect.surplus then elements.take r.fields.length else elements)
  | value => .error (.wrongType value (.record r.name))

end Record

end OpenApiTs
