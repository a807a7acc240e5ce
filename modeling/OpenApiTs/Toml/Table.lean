import OpenApiTs.Json.Basic

/-!
# Tables in TOML

A TOML text describes one table in pieces. A header opens a table that is then given keys, and
implies the tables on the way to it; a dotted key makes the tables on its way too. A table is
opened once at most, and a table made in one of these ways cannot be gone on with in the other.

## Main definitions

* `Toml.Item`: a member of a table that is still being put together.
* `Toml.alter`: a change of the table at the end of a path.
* `Toml.assign`: a value under a dotted key.
* `Toml.openTable`, `Toml.appendTable`: the table of a header, and a new element of a table array.
* `Toml.Item.toJson`: the finished value.
-/

namespace OpenApiTs.Toml

/-- How a table came to be there. -/
inductive Origin where
  /-- It has a header of its own. -/
  | header
  /-- It lies on the way to the table of a header. -/
  | implied
  /-- It lies on the way of a dotted key. -/
  | dotted
  deriving DecidableEq, Repr

/-- A member of a table. -/
inductive Item where
  | value (x : Json)
  | table (origin : Origin) (members : List (String × Item))
  /-- An array of tables: the last table, and those before it, the nearest first. -/
  | tables (last : List (String × Item)) (before : List (List (String × Item)))

/-- The members of a table. -/
abbrev Members := List (String × Item)

/-! ### Changes -/

/-- The members with a table at the end of a path changed. Tables that are missing on the way are
made with the origin `made`; a dotted key does not pass through a table with a header. A path leads
into the last table of an array. -/
def alter (made : Origin) (change : Origin → Members → Option Members) :
    List String → Origin → Members → Option Members
  | [], origin, members => change origin members
  | key :: path, _, members =>
    match Entries.get? key members with
    | none => do
      let inner ← alter made change path made []
      pure (Entries.put key (.table made inner) members)
    | some (.table origin inner) =>
      if made = .dotted ∧ origin = .header then none
      else do
        let inner ← alter made change path origin inner
        pure (Entries.put key (.table origin inner) members)
    | some (.tables last before) => do
      let last ← alter made change path .header last
      pure (Entries.put key (.tables last before) members)
    | some (.value _) => none

/-- The members with a new member. -/
def insert? (key : String) (item : Item) (members : Members) : Option Members :=
  if (Entries.get? key members).isSome then none else some (members ++ [(key, item)])

/-- The members with a value under a dotted key. The table that takes the value has to be one of
dotted keys if the key is dotted. -/
def assign (path : List String) (key : String) (x : Json) (members : Members) : Option Members :=
  let change (origin : Origin) (members : Members) : Option Members :=
    if path = [] ∨ origin = .dotted then insert? key (.value x) members else none
  alter .dotted change path .header members

/-- The members with the table of a header filled. The table must be new or implied. -/
def openTable (path : List String) (key : String) (fill : Members → Option Members)
    (members : Members) : Option Members :=
  let change (_ : Origin) (members : Members) : Option Members :=
    match Entries.get? key members with
    | none => return Entries.put key (.table .header (← fill [])) members
    | some (.table .implied inner) =>
      return Entries.put key (.table .header (← fill inner)) members
    | some _ => none
  alter .implied change path .header members

/-- The members with a filled table added to the table array of a header. -/
def appendTable (path : List String) (key : String) (fill : Members → Option Members)
    (members : Members) : Option Members :=
  let change (_ : Origin) (members : Members) : Option Members :=
    match Entries.get? key members with
    | none => return Entries.put key (.tables (← fill []) []) members
    | some (.tables last before) =>
      return Entries.put key (.tables (← fill []) (last :: before)) members
    | some _ => none
  alter .implied change path .header members

/-! ### Finished values -/

mutual

/-- The value of a member. -/
def Item.toJson : Item → Json
  | .value x => x
  | .table _ members => .object (membersToJson members)
  | .tables last before => .array ((tablesToJson before).reverse ++ [.object (membersToJson last)])

/-- The values of members. -/
def membersToJson : List (String × Item) → List (String × Json)
  | [] => []
  | (key, item) :: rest => (key, item.toJson) :: membersToJson rest

/-- The values of tables. -/
def tablesToJson : List (List (String × Item)) → List Json
  | [] => []
  | members :: rest => .object (membersToJson members) :: tablesToJson rest

end

end OpenApiTs.Toml
