import OpenApiTs.Generation.Object

/-!
# Unions

A union lists the types of its branches. An inline branch that needs a declaration is named after
the literal that tells it apart, else after its title, else after its position; other branches
stand in their place. A null branch only makes the union nullable, and null is written once, at
the end.

## Main definitions

* `Schema.branches`: the branches of a union and the keyword that they stand under.
* `Gen.branchName`: the raw name of a branch that needs a declaration.
* `Gen.unionUse`: the type of a union.
* `Gen.unionDeclaration`: the declaration of a union.
-/

namespace OpenApiTs

namespace Schema

/-- Whether the branches of a union stand under `oneOf`, which goes before `anyOf`. -/
def prefersOneOf (s : Schema) : Bool := !s.oneOf.isEmpty

/-- The keyword of the branches of a union. -/
def branchKeyword (s : Schema) : String := if s.prefersOneOf then "oneOf" else "anyOf"

/-- The branches of a union. -/
def branches (s : Schema) : List SchemaNode := if s.prefersOneOf then s.oneOf else s.anyOf

/-- Whether an inline branch needs a declaration of its own. -/
def needsDeclaration (s : Schema) : Bool :=
  match s.shape with
  | .object | .intersection | .union => true
  | .enumeration => 1 < s.literals.length
  | _ => false

/-- Whether a union stands in its place where it is used. -/
def isInlineUnion (s : Schema) : Bool :=
  s.discriminator.isNone &&
    !s.branches.any fun branch =>
      match branch with
      | .schema b => b.needsDeclaration
      | _ => false

end Schema

/-- The parts of the branches of a union. -/
def Parts.branches (parts : Parts) (s : Schema) : List Part :=
  if s.prefersOneOf then parts.oneOf else parts.anyOf

namespace Gen

variable (run : Setting) (refer : Refer)

/-! ### Names of branches -/

/-- The word that a literal lends to a name. -/
def literalWord? : Json → Option String
  | .string s => if (Text.trim s).isEmpty then none else some s
  | .number n => some n.text
  | .bool b => some (if b then "true" else "false")
  | _ => none

/-- The first word of a literal among properties below `location`. -/
def firstLiteral? (location : String) :
    List (String × SchemaNode) → Except Failure (Option String)
  | [] => .ok none
  | (name, node) :: rest => do
    let property ← run.tree.schemaOf node (Pointer.child location name)
    match property.literal?.bind literalWord? with
    | some word => return some word
    | none => firstLiteral? location rest

/-- The word of the literal that tells a branch apart: that of the discriminating property, or the
first of any property where no property is named. -/
def branchLiteral? (discriminator : Option String) (branch : Schema) (location : String) :
    Except Failure (Option String) :=
  let candidates :=
    match discriminator with
    | some property =>
      ((Entries.get? property branch.properties).map fun node => (property, node)).toList
    | none => branch.properties
  firstLiteral? run (Pointer.child location "properties") candidates

/-- The raw name of the branch at a position of a union. -/
def branchName (discriminator : Option String) (branch : Schema) (unionName : String)
    (position : Nat) (location : String) : Except Failure String := do
  match ← branchLiteral? run discriminator branch location with
  | some literal => return Naming.compose [literal, "Variant"]
  | none =>
    match branch.title.filter fun title => !(Text.trim title).isEmpty with
    | some title => return Naming.compose [title]
    | none => return Naming.compose [unionName, "Variant", position.repr]

/-! ### Members -/

/-- The members of a union with null set apart. -/
structure Members where
  texts : List String := []
  mentions : List String := []
  nullable : Bool := false
  deriving DecidableEq, Repr

namespace Members

/-- The members with the type of one more branch. -/
def add (m : Members) (use : TypeUse) : Members :=
  let m := { m with mentions := Names.union m.mentions use.mentions }
  match Text.dropSuffix? use.text " | null" with
  | some text => { m with nullable := true, texts := Names.add m.texts text }
  | none =>
    if use.text == "null" then { m with nullable := true }
    else if use.text == "never" then m
    else { m with texts := Names.add m.texts use.text }

/-- The type of all members. -/
def use (m : Members) : TypeUse :=
  let text :=
    if m.texts.isEmpty then if m.nullable then "null" else "never"
    else " | ".intercalate m.texts
  ⟨if m.nullable && text != "null" then text ++ " | null" else text, m.mentions⟩

end Members

/-- The type of the branch at position `i`, which stands at `location`. -/
def branchUse (discriminator : Option String) (unionName location : String) (i : Nat)
    (branch : Part) : Gen TypeUse :=
  match branch with
  | .reference reference => refer reference location
  | .boolean allowed => pure (.ofBoolean allowed)
  | .inline s answers =>
    if s.needsDeclaration then do
      let raw ← ofExcept (branchName run discriminator s unionName (i + 1) location)
      let name ← answers.declare location raw
      pure (.ofDeclaration name s)
    else answers.use location (Naming.compose [unionName, "Variant", (i + 1).repr])

/-- The branches from position `i` on, which stand below `location`, added to the members. -/
def addBranches (discriminator : Option String) (unionName location : String) :
    Nat → List Part → Members → Gen Members
  | _, [], m => pure m
  | i, branch :: rest, m => do
    let use ← branchUse run refer discriminator unionName (Pointer.child location i.repr) i branch
    addBranches discriminator unionName location (i + 1) rest (m.add use)

/-- The type of a union at a location. -/
def unionUse (s : Schema) (parts : Parts) (location unionName : String) : Gen TypeUse := do
  let m ← addBranches run refer (s.discriminator.map Discriminator.propertyName) unionName
    (Pointer.child location s.branchKeyword) 0 (parts.branches s) { nullable := s.isNullable }
  pure m.use

/-- The declaration of a union. -/
def unionDeclaration (s : Schema) (parts : Parts) (pointer name raw : String) :
    Gen Declaration := do
  let use ← unionUse run refer s parts pointer raw
  let tags := s.discriminator.map fun d => "@discriminator " ++ d.propertyName
  pure (aliasDeclaration (run.docs s tags.toList "") name use pointer)

end Gen

end OpenApiTs
