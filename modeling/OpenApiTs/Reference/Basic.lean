import OpenApiTs.Failure
import OpenApiTs.Schema.Decode

/-!
# References

A reference is followed from pointer to pointer until it reaches an inline schema. A chain that
comes back to one of its pointers, or that ends at a boolean, stands for the schema that states
nothing.

## Main definitions

* `DocumentTree`: a document tree with a bound on the references in it.
* `DocumentTree.lookup`: the value that a reference leads to.
* `DocumentTree.resolve`: the schema that a reference stands for.
* `DocumentTree.schemaOf`: the schema that a node stands for.
* `DocumentTree.part`: the part of another kind that a reference leads to.
-/

namespace OpenApiTs

mutual

/-- The number of texts in a value, keys not counted. -/
def Json.textCount : Json → Nat
  | .string _ => 1
  | .array elements => Json.textCountElements elements
  | .object members => Json.textCountMembers members
  | _ => 0

/-- The number of texts in the elements of an array. -/
def Json.textCountElements : List Json → Nat
  | [] => 0
  | value :: rest => value.textCount + Json.textCountElements rest

/-- The number of texts in the members of an object. -/
def Json.textCountMembers : List (String × Json) → Nat
  | [] => 0
  | (_, value) :: rest => value.textCount + Json.textCountMembers rest

end

/-- A document tree, with the number of its texts at hand. -/
structure DocumentTree where
  root : Json
  texts : Nat
  texts_eq : texts = root.textCount

namespace DocumentTree

/-- A document tree. -/
def of (root : Json) : DocumentTree := ⟨root, root.textCount, rfl⟩

/-- A bound on the distinct pointers in a chain of references: each but the first is a text of the
tree, and one more step comes back to one of them. -/
def bound (tree : DocumentTree) : Nat := tree.texts + 2

/-- The pointer of a reference that stands at `from_`. -/
def canonicalize (reference from_ : String) : Except Failure String :=
  match Pointer.canonicalize reference with
  | .ok pointer => .ok pointer
  | .error fault => .error (.unsupported from_ (.reference reference fault))

/-- The value that a reference at `from_` leads to. -/
def lookup (tree : DocumentTree) (reference from_ : String) : Except Failure Json := do
  let pointer ← canonicalize reference from_
  match Pointer.lookup? tree.root pointer with
  | some value => pure value
  | none => throw (.unresolved pointer from_)

/-- The node at a canonical pointer that is referenced from `from_`. -/
def node (tree : DocumentTree) (pointer from_ : String) : Except Failure SchemaNode := do
  let value ← tree.lookup pointer from_
  match SchemaNode.decode value with
  | .ok node => pure node
  | .error error => throw (.unsupported pointer (.undecodable error))

/-- Follows a chain of references that has passed the pointers of `chain`. -/
def follow (tree : DocumentTree) : Nat → List String → String → String → Except Failure Schema
  | 0, _, _, _ => .ok {}
  | steps + 1, chain, pointer, from_ => do
    if chain.contains pointer then return {}
    match ← tree.node pointer from_ with
    | .reference next => do
      let next ← canonicalize next pointer
      follow tree steps (pointer :: chain) next pointer
    | .schema s => return s
    | .boolean _ => return {}

/-- The schema that a reference at `from_` stands for. -/
def resolve (tree : DocumentTree) (reference from_ : String) : Except Failure Schema := do
  let pointer ← canonicalize reference from_
  tree.follow tree.bound [] pointer from_

/-- The schema that a node at `location` stands for. -/
def schemaOf (tree : DocumentTree) (node : SchemaNode) (location : String) :
    Except Failure Schema :=
  match node with
  | .schema s => .ok s
  | .reference pointer => tree.resolve pointer location
  | .boolean _ => .ok {}

/-- The part that a reference at `from_` leads to. -/
def part {α : Type} (tree : DocumentTree) (decode : Decoder α) (reference from_ : String) :
    Except Failure α := do
  let value ← tree.lookup reference from_
  match decode value with
  | .ok x => pure x
  | .error error => throw (.unsupported reference (.undecodable error))

end DocumentTree

end OpenApiTs
