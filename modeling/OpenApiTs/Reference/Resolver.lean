import OpenApiTs.Reference.Basic

/-!
# A resolver that remembers

A resolver keeps the schema of every pointer on a chain that it has followed to its end, and stops
a later chain at the first pointer it knows.

## Main definitions

* `Resolver`: a document tree and the schemas known.
* `Resolver.resolve`: the schema of a reference, and the resolver that knows it.
* `Resolver.schemaOf`: the schema of a node.
-/

namespace OpenApiTs

/-- A document tree and the schemas known by pointer. -/
structure Resolver where
  tree : DocumentTree
  known : List (String × Schema) := []

namespace Resolver

/-- Follows a chain that has passed the pointers of `chain`, up to its end or to a known pointer.
The pointers passed are returned with the schema. -/
def follow (r : Resolver) :
    Nat → List String → String → String → Except Failure (Schema × List String)
  | 0, chain, _, _ => .ok ({}, chain)
  | steps + 1, chain, pointer, from_ => do
    match Entries.get? pointer r.known with
    | some s => return (s, chain)
    | none =>
      if chain.contains pointer then return ({}, chain)
      match ← r.tree.node pointer from_ with
      | .reference next => do
        let next ← DocumentTree.canonicalize next pointer
        follow r steps (pointer :: chain) next pointer
      | .schema s => return (s, pointer :: chain)
      | .boolean _ => return ({}, pointer :: chain)

/-- The resolver that knows a schema for every pointer of a chain. -/
def learn (r : Resolver) (chain : List String) (s : Schema) : Resolver :=
  { r with known := chain.foldr (fun pointer known => Entries.put pointer s known) r.known }

/-- The schema that a reference at `from_` stands for. A failure teaches nothing. -/
def resolve (r : Resolver) (reference from_ : String) : Except Failure Schema × Resolver :=
  let followed : Except Failure (Schema × List String) := do
    let pointer ← DocumentTree.canonicalize reference from_
    r.follow r.tree.bound [] pointer from_
  match followed with
  | .ok (s, chain) => (.ok s, r.learn chain s)
  | .error failure => (.error failure, r)

/-- The schema that a node at `location` stands for. -/
def schemaOf (r : Resolver) (node : SchemaNode) (location : String) :
    Except Failure Schema × Resolver :=
  match node with
  | .schema s => (.ok s, r)
  | .reference pointer => r.resolve pointer location
  | .boolean _ => (.ok {}, r)

/-- The number of pointers known. -/
def memoized (r : Resolver) : Nat := r.known.length

end Resolver

end OpenApiTs
