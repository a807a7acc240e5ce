import OpenApiTs.Generation.Schema

/-!
# References to declarations

A reference is used by the name of the declaration of its target, which is made on its first use.
A target that is itself a reference is declared as an alias. A reference into an excluded schema is
the type of every value.

References nest only while targets are without a name, and each target is named before the next
reference is followed; all of them but the first are texts of the document tree. So the number of
those texts bounds how deep references nest.

## Main definitions

* `Gen.ensureNamedWith`, `Gen.referenceWith`: names and uses of targets, given how the references
  inside them are used.
* `Gen.refer`: how references are used.
* `Gen.ensureNamed`, `Gen.typeOf`, `Gen.inlineType`, `Gen.generateNamed`: the entry points.
-/

namespace OpenApiTs.Gen

variable (run : Setting)

/-- Declares a pointer by a type. -/
def declareAlias (pointer raw : String) (use : Gen TypeUse) : Gen String := do
  let name ← begin run pointer raw
  let use ← use
  finish pointer name (aliasDeclaration "" name use pointer)
  pure name

/-- The use of the target of a pointer that is itself a reference. A chain of references without an
end is the type of every value. -/
def chainUse (refer : Refer) (pointer target : String) : Gen TypeUse := do
  let s ← ofExcept (run.tree.resolve pointer pointer)
  if s.isBlank then pure .unknown else refer target pointer

/-- The name of the declaration at a pointer that is referenced from `from_`. -/
def ensureNamedWith (refer : Refer) (reference from_ : String) : Gen String := do
  let pointer ← ofExcept (DocumentTree.canonicalize reference from_)
  match ← nameOf? pointer with
  | some name => pure name
  | none => do
    let raw := Naming.compose [Pointer.last pointer]
    let value ← ofExcept (run.tree.lookup pointer from_)
    match (value.member? "$ref").bind Json.string?, value.bool? with
    | some target, _ => declareAlias run pointer raw (chainUse run refer pointer target)
    | none, some allowed => declareAlias run pointer raw (pure (.ofBoolean allowed))
    | none, none => do
      let s ← ofExcept (run.tree.resolve pointer from_)
      declareSchema run refer s (s.parts run refer) pointer raw

/-- Whether uses of the declaration at a pointer have to add null. An alias of a reference leaves
that to its target. -/
def needsNullAtUse (pointer : String) : Except Failure Bool := do
  let value ← run.tree.lookup pointer pointer
  if (value.member? "$ref").isSome then return false
  let s ← run.tree.resolve pointer pointer
  return s.needsNullAtUse

/-- The use of a reference that stands at `from_`. -/
def referenceWith (refer : Refer) (reference from_ : String) : Gen TypeUse := do
  let pointer ← ofExcept (DocumentTree.canonicalize reference from_)
  if run.excludes pointer then pure .unknown
  else do
    let name ← ensureNamedWith run refer pointer from_
    let null ← ofExcept (needsNullAtUse run pointer)
    pure ((TypeUse.named name).orNullIf null)

/-- How references are used while at most so many nest. -/
def referAt : Nat → Refer
  | 0, _, _ => pure .unknown
  | bound + 1, reference, from_ => referenceWith run (referAt bound) reference from_

/-- How references are used. -/
def refer : Refer := referAt run run.tree.bound

/-! ### Entry points -/

/-- The name of the declaration at a pointer that is referenced from `from_`. -/
def ensureNamed (pointer from_ : String) : Gen String :=
  ensureNamedWith run (refer run) pointer from_

/-- The type of a node where it is used. -/
def typeOf (node : SchemaNode) (location hint : String) : Gen TypeUse :=
  (node.part run (refer run)).use (refer run) location hint

/-- The type of an inline schema where it is used. -/
def inlineType (s : Schema) (location hint : String) : Gen TypeUse :=
  useSchema run (refer run) s (s.parts run (refer run)) location hint

/-- The name of the declaration of an inline schema at a pointer. -/
def generateNamed (s : Schema) (pointer raw : String) : Gen String :=
  declareSchema run (refer run) s (s.parts run (refer run)) pointer raw

end OpenApiTs.Gen
