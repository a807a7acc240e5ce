import OpenApiTs.Generation.Operation
import OpenApiTs.Proofs.Registry

/-!
# How types and declarations follow from names

The rules by which types of nodes and declarations are made, without the order in which a run makes
them. A rule looks up the names of pointers in one state, in which they are all known, and takes the
types of the parts of a schema from a relation that is given. So a property of types that the rules
preserve holds of every type, and what can be said about a declaration is read off the rule that
made it.

## Main definitions

* `Schema.HasPart`: the parts of a schema with their locations.
* `Setting.origin`: what a reference finds at its target.
* `ReferenceUse`, `BranchUse`, `UnionUse`, `ObjectUse`, `PlainUse`, `NodeUse`: types of references
  and nodes where they are used.
* `Collects`, `Composes`: bodies and compositions.
* `ParameterField`: fields for parameters.
* `Makes`, `Synthesizes`: declarations of nodes, and of the parameters and responses of operations.
-/

namespace OpenApiTs

/-- A relation between nodes, the locations at which they stand, and their types. -/
abbrev UseRelation := SchemaNode → String → TypeUse → Prop

/-! ### What declarations are made for -/

/-- The parts of a schema at a location, with their own locations. -/
inductive Schema.HasPart (s : Schema) (location : String) : SchemaNode → String → Prop
  | property {name node} (h : (name, node) ∈ s.properties) :
      HasPart s location node (Pointer.child (Pointer.child location "properties") name)
  | additional {node} (h : s.additional = some node) :
      HasPart s location node (Pointer.child location "additionalProperties")
  | items {node} (h : s.items = some node) :
      HasPart s location node (Pointer.child location "items")
  | oneOf {i : Nat} {node} (h : s.oneOf[i]? = some node) :
      HasPart s location node (Pointer.child (Pointer.child location "oneOf") i.repr)
  | anyOf {i : Nat} {node} (h : s.anyOf[i]? = some node) :
      HasPart s location node (Pointer.child (Pointer.child location "anyOf") i.repr)
  | allOf {i : Nat} {node} (h : s.allOf[i]? = some node) :
      HasPart s location node (Pointer.child (Pointer.child location "allOf") i.repr)

theorem Schema.hasPart_branch {s : Schema} {location : String} {i : Nat} {node : SchemaNode}
    (h : s.branches[i]? = some node) :
    s.HasPart location node (Pointer.child (Pointer.child location s.branchKeyword) i.repr) := by
  unfold Schema.branches at h
  unfold Schema.branchKeyword
  split at h
  · next hone =>
    rw [if_pos hone]
    exact .oneOf h
  · next hone =>
    rw [if_neg hone]
    exact .anyOf h

/-- What a reference at `from_` finds at a pointer: a node that is itself a reference, a boolean, or
the schema that the pointer stands for. -/
def Setting.origin (run : Setting) (pointer from_ : String) : Except Failure SchemaNode := do
  let value ← run.tree.lookup pointer from_
  match (value.member? "$ref").bind Json.string?, value.bool? with
  | some target, _ => pure (.reference target)
  | none, some allowed => pure (.boolean allowed)
  | none, none => return .schema (← run.tree.resolve pointer from_)

/-! ### Types of nodes -/

section Uses

variable (run : Setting) (p : Progress) (U : UseRelation)

/-- The type of a reference: of every value where the filter excludes the target, and else the name
of the target. -/
inductive ReferenceUse (reference : String) : TypeUse → Prop
  | excluded (hc : Pointer.canonicalize reference = .ok reference)
      (hx : run.excludes reference = true) : ReferenceUse reference .unknown
  | named {name null} (hc : Pointer.canonicalize reference = .ok reference)
      (hx : run.excludes reference = false) (hn : p.name? reference = some name)
      (hnull : Gen.needsNullAtUse run reference = .ok null) :
      ReferenceUse reference ((TypeUse.named name).orNullIf null)

/-- The type of a branch: the name of its declaration if it needs one. -/
inductive BranchUse : UseRelation
  | declared {s location name} (hs : s.needsDeclaration = true)
      (hn : p.name? location = some name) :
      BranchUse (.schema s) location (.ofDeclaration name s)
  | inPlace {node location use} (hs : ∀ s, node = .schema s → s.needsDeclaration = false)
      (h : U node location use) : BranchUse node location use

/-- The types of nodes from position `i` on that stand below a location. -/
inductive Row (R : UseRelation) (location : String) : Nat → List SchemaNode → List TypeUse → Prop
  | nil (i) : Row R location i [] []
  | cons {i node nodes use uses} (h : R node (Pointer.child location i.repr) use)
      (rest : Row R location (i + 1) nodes uses) : Row R location i (node :: nodes) (use :: uses)

/-- The type of a union: its members are the types of its branches. -/
inductive UnionUse (s : Schema) (location : String) : TypeUse → Prop
  | mk {uses} (h : Row (BranchUse p U) (Pointer.child location s.branchKeyword) 0 s.branches uses) :
      UnionUse s location
        (uses.foldl Gen.Members.add { nullable := s.isNullable : Gen.Members }).use

/-- The documentation comment of the field of a node. -/
def SchemaNode.fieldDocs : SchemaNode → String
  | .schema s => run.docs s [] "  "
  | _ => ""

/-- The fields of properties below a location, put into a body in order. -/
inductive Fields (s : Schema) (location : String) :
    List (String × SchemaNode) → Body → Body → Prop
  | nil (body) : Fields s location [] body body
  | cons {name node rest body body' use} (h : U node (Pointer.child location name) use)
      (hrest : Fields s location rest
        { body with
          fields := Entries.put name
            ⟨run.config.naming.fieldName name, !s.isRequired name, use, node.fieldDocs run⟩
            body.fields } body') :
      Fields s location ((name, node) :: rest) body body'

/-- The type of the members that no property names. -/
inductive AdditionalUse (location : String) : Option SchemaNode → Option TypeUse → Prop
  | absent : AdditionalUse location none none
  | forbidden : AdditionalUse location (some (.boolean false)) none
  | present {node use} (hn : node ≠ .boolean false)
      (h : U node (Pointer.child location "additionalProperties") use) :
      AdditionalUse location (some node) (some use)

/-- The fields and the index signature of a schema, put into a body. -/
inductive Collects (s : Schema) (location : String) (body : Body) : Body → Prop
  | mk {body' index}
      (hf : Fields run U s (Pointer.child location "properties") s.properties body body')
      (ha : AdditionalUse U location s.additional index) :
      Collects s location body { body' with index := index.or body'.index }

/-- The record for an object without properties. -/
inductive RecordUse (s : Schema) (location : String) : TypeUse → Prop
  | forbidden (h : s.additional = some (.boolean false)) :
      RecordUse s location (TypeUse.plain "never").record
  | allowed {index} (h : s.additional ≠ some (.boolean false))
      (ha : AdditionalUse U location s.additional index) :
      RecordUse s location (index.getD .unknown).record

/-- The type of an object in its place. -/
inductive ObjectUse (s : Schema) (location : String) : TypeUse → Prop
  | record {use} (hp : s.properties.isEmpty = true) (h : RecordUse U s location use) :
      ObjectUse s location use
  | body {body} (hp : s.properties.isEmpty = false) (h : Collects run U s location {} body) :
      ObjectUse s location ⟨body.inline, body.mentions⟩

/-- The type of a schema that is no union, intersection or object, without null. -/
inductive PlainUse (s : Schema) (location : String) : TypeUse → Prop
  | array {node use} (hs : s.shape = .array) (hi : s.items = some node)
      (h : U node (Pointer.child location "items") use) : PlainUse s location use.array
  | anyArray (hs : s.shape = .array) (hi : s.items = none) :
      PlainUse s location TypeUse.unknown.array
  | constant (hs : s.shape = .constant) :
      PlainUse s location (.plain (s.constant.getD .null).literalText)
  | enumeration (hs : s.shape = .enumeration) :
      PlainUse s location
        (Gen.unionOf ((s.enumeration.filter fun v => !v.isNull).map Json.literalText))
  | scalars {types} (hs : s.shape = .scalars types) :
      PlainUse s location (Gen.unionOf (types.map fun t => run.scalarText t s.format))
  | unknown (hs : s.shape = .unknown) : PlainUse s location .unknown

/-- The type of a node where it is used. -/
inductive NodeUse : UseRelation
  | reference {reference location use} (h : ReferenceUse run p reference use) :
      NodeUse (.reference reference) location use
  | boolean (allowed location) : NodeUse (.boolean allowed) location (.ofBoolean allowed)
  | wrapped {s reference location use} (hs : s.placement = .wrapped reference)
      (h : ReferenceUse run p reference use) :
      NodeUse (.schema s) location (use.orNullIf s.isNullable)
  | byName {s location name} (hs : s.placement = .byName) (hn : p.name? location = some name) :
      NodeUse (.schema s) location (.ofDeclaration name s)
  | union {s location use} (hp : s.placement = .inPlace) (hs : s.shape = .union)
      (h : UnionUse p U s location use) : NodeUse (.schema s) location (use.orNullIf s.isNullable)
  | object {s location use} (hs : s.shape = .object) (h : ObjectUse run U s location use) :
      NodeUse (.schema s) location (use.orNullIf s.isNullable)
  | plain {s location use} (hm : s.shape.maker = .alias ∨ s.shape = .enumeration)
      (hp : s.placement = .inPlace) (h : PlainUse run U s location use) :
      NodeUse (.schema s) location (use.orNullIf s.isNullable)

/-! ### Declarations -/

/-- The entries of an intersection from position `i` on, added to a composition. -/
inductive Composes (location : String) :
    Nat → List SchemaNode → Gen.Composition → Gen.Composition → Prop
  | nil (i c) : Composes location i [] c c
  | base {i reference rest use c c'} (hr : ReferenceUse run p reference use)
      (hx : run.isExtendable reference = .ok true)
      (h : Composes location (i + 1) rest
        { c with
          mentions := Names.union c.mentions use.mentions
          bases := c.bases ++ [use.text] } c') :
      Composes location i (.reference reference :: rest) c c'
  | other {i reference rest use c c'} (hr : ReferenceUse run p reference use)
      (hx : run.isExtendable reference = .ok false)
      (h : Composes location (i + 1) rest
        { c with
          mentions := Names.union c.mentions use.mentions
          others := c.others ++ [TypeUse.parenthesize use.text] } c') :
      Composes location i (.reference reference :: rest) c c'
  | anything {i rest c c'} (h : Composes location (i + 1) rest c c') :
      Composes location i (.boolean true :: rest) c c'
  | nothing {i rest c c'}
      (h : Composes location (i + 1) rest { c with others := c.others ++ ["never"] } c') :
      Composes location i (.boolean false :: rest) c c'
  | merged {i s rest c c' body} (hs : s.isMergeable = true)
      (hb : Collects run U s (Pointer.child location i.repr) c.body body)
      (h : Composes location (i + 1) rest { c with body := body } c') :
      Composes location i (.schema s :: rest) c c'
  | part {i s rest use c c'} (hs : s.isMergeable = false)
      (hu : U (.schema s) (Pointer.child location i.repr) use)
      (h : Composes location (i + 1) rest
        { c with
          mentions := Names.union c.mentions use.mentions
          others := c.others ++ [TypeUse.parenthesize use.text] } c') :
      Composes location i (.schema s :: rest) c c'

/-- The type of a node that is a reference to `target`: of every value where the chain of
references has no end. -/
inductive LinkUse (pointer target : String) : TypeUse → Prop
  | endless {s} (hs : run.tree.resolve pointer pointer = .ok s) (hb : s.isBlank = true) :
      LinkUse pointer target .unknown
  | follows {s use} (hs : run.tree.resolve pointer pointer = .ok s) (hb : s.isBlank = false)
      (h : ReferenceUse run p target use) : LinkUse pointer target use

/-- The declaration of a node at a pointer under a name. -/
inductive Makes (pointer name : String) : SchemaNode → Declaration → Prop
  | link {target use} (h : LinkUse run p pointer target use) :
      Makes pointer name (.reference target) (Gen.aliasDeclaration "" name use pointer)
  | boolean (allowed) :
      Makes pointer name (.boolean allowed)
        (Gen.aliasDeclaration "" name (.ofBoolean allowed) pointer)
  | record {s use} (hs : s.shape.maker = .object)
      (he : (s.properties.isEmpty && s.allOf.isEmpty) = true) (h : RecordUse U s pointer use) :
      Makes pointer name (.schema s) (Gen.aliasDeclaration (run.docs s [] "") name use pointer)
  | interface {s c body} (hs : s.shape.maker = .object)
      (he : (s.properties.isEmpty && s.allOf.isEmpty) = false)
      (hc : Composes run p U (Pointer.child pointer "allOf") 0 s.allOf {} c)
      (hb : Collects run U s pointer c.body body) (ho : c.others.isEmpty = true) :
      Makes pointer name (.schema s)
        { content := Gen.interfaceText (run.docs s [] "") name c.bases body
          dependencies := Names.union c.mentions body.mentions
          kind := .interface
          source := pointer }
  | intersection {s c body} (hs : s.shape.maker = .object)
      (he : (s.properties.isEmpty && s.allOf.isEmpty) = false)
      (hc : Composes run p U (Pointer.child pointer "allOf") 0 s.allOf {} c)
      (hb : Collects run U s pointer c.body body) (ho : c.others.isEmpty = false) :
      Makes pointer name (.schema s)
        (Gen.aliasDeclaration (run.docs s [] "") name
          ⟨" & ".intercalate
            (c.bases ++ c.others ++ (if body.isEmpty then [] else [body.block])),
            Names.union c.mentions body.mentions⟩ pointer)
  | union {s use} (hs : s.shape = .union) (h : UnionUse p U s pointer use) :
      Makes pointer name (.schema s)
        (Gen.aliasDeclaration
          (run.docs s (s.discriminator.map fun d => "@discriminator " ++ d.propertyName).toList "")
          name use pointer)
  | enumeration {s valuesName} (hs : s.shape = .enumeration)
      (hu : Enumeration.isUniform s.literals = true) :
      Makes pointer name (.schema s)
        { content :=
            run.docs s [] "" ++ "export enum " ++ name ++ " \x7b\n" ++
              String.join ((Enumeration.members s.literals).map Enumeration.memberLine) ++
              "\x7d\n\n" ++ Gen.aliasText "" valuesName (Enumeration.union s.literals)
          exports := [valuesName]
          kind := .enumeration
          source := pointer }
  | literals {s} (hs : s.shape = .enumeration)
      (hu : Enumeration.isUniform s.literals = false) :
      Makes pointer name (.schema s)
        (Gen.aliasDeclaration (run.docs s [] "") name ⟨Enumeration.union s.literals, []⟩ pointer)
  | plain {s use} (hs : s.shape.maker = .alias) (h : PlainUse run U s pointer use) :
      Makes pointer name (.schema s)
        (Gen.aliasDeclaration (run.docs s [] "") name (use.orNullIf s.isNullable) pointer)

/-! ### Operations -/

/-- The type of a body. -/
inductive BodyUse : UseRelation
  | reference {reference location use} (h : ReferenceUse run p reference use) :
      BodyUse (.reference reference) location use
  | boolean (allowed location) : BodyUse (.boolean allowed) location (.ofBoolean allowed)
  | schema {s location name} (hn : p.name? location = some name) :
      BodyUse (.schema s) location (.ofDeclaration name s)

/-- A field for a parameter, whose comment can come from its schema or be its own. -/
structure ParameterField (f : ObjectField) : Prop where
  key : ∃ raw, f.key = run.config.naming.fieldName raw
  use : f.use = .unknown ∨ ∃ node location, U node location f.use
  docs : (∃ node : SchemaNode, f.docs = node.fieldDocs run) ∨
    ∃ texts, f.docs = run.comment texts "  "

/-- The declarations of an operation under a name: the interface of its parameters, and the union of
its responses. Their sources are parts of the operation. -/
inductive Synthesizes (name : String) : Declaration → Prop
  | parameters {fields path} {method : Method} (h : ∀ f ∈ fields, ParameterField run U f) :
      Synthesizes name
        (Gen.parametersDeclaration fields
          (Pointer.descend "#/paths" [path, method.name, "parameters"]) name)
  | responses {uses : List TypeUse} {texts path} {method : Method}
      (h : ∀ use ∈ uses, ∃ node location, BodyUse run p node location use) :
      Synthesizes name
        (Gen.aliasDeclaration (run.comment texts "") name
          ⟨" | ".intercalate (uses.foldl (fun texts use => Names.add texts use.text) []),
            uses.foldl (fun names use => Names.union names use.mentions) []⟩
          (Pointer.descend "#/paths" [path, method.name, "responses"]))

end Uses

/-! ### Shapes and places of schemas -/

namespace Shape

theorem maker_eq_union_iff {shape : Shape} : shape.maker = .union ↔ shape = .union := by
  cases shape <;> simp [maker]

theorem maker_eq_enumeration_iff {shape : Shape} :
    shape.maker = .enumeration ↔ shape = .enumeration := by
  cases shape <;> simp [maker]

theorem isNominal_iff {shape : Shape} :
    shape.isNominal = true ↔ shape.maker = .object ∨ shape.maker = .enumeration := by
  cases shape <;> simp [isNominal, maker]

end Shape

namespace Schema

variable {s : Schema}

/-- Of scalar types, null is the only one or none of them. -/
theorem scalarShape_cases (s : Schema) :
    s.scalarShape = .unknown ∨
      ∃ types, s.scalarShape = .scalars types ∧ (types = [.null] ∨ Scalar.null ∉ types) := by
  unfold scalarShape
  split
  · exact .inl rfl
  · next found _ =>
    have hkept : ∀ kept, kept = (if 1 < found.length then found.filter (· != .null) else found) →
        kept = [.null] ∨ kept = [] ∨ Scalar.null ∉ kept := by
      rintro _ rfl
      split
      · exact .inr (.inr fun hmem => by simpa using (List.mem_filter.mp hmem).2)
      · next hlength =>
        match found, hlength with
        | [], _ => exact .inr (.inl rfl)
        | [t], _ =>
          by_cases ht : t = .null
          · exact .inl (congrArg (fun t => [t]) ht)
          · exact .inr (.inr fun hmem => ht (List.mem_singleton.mp hmem).symm)
        | _ :: _ :: _, hlength => exact absurd (by simp) hlength
    have hcases := hkept _ rfl
    dsimp only
    generalize (if 1 < found.length then found.filter (· != .null) else found) = kept at hcases ⊢
    split
    · exact .inl rfl
    · next hempty =>
      have hne : kept ≠ [] := fun h => hempty (List.isEmpty_iff.mpr h)
      exact .inr ⟨kept, rfl, hcases.imp_right fun h => h.resolve_left hne⟩

theorem scalars_of_shape {types : List Scalar} (h : s.shape = .scalars types) :
    types = [.null] ∨ Scalar.null ∉ types := by
  unfold shape at h
  split_ifs at h
  rcases s.scalarShape_cases with hshape | ⟨types, hshape, htypes⟩
  · rw [hshape] at h
    cases h
  · rw [hshape] at h
    cases h
    exact htypes

/-- A schema of the shape of a constant has one. -/
theorem constant_of_shape (h : s.shape = .constant) : ∃ value, s.constant = some value := by
  refine Option.isSome_iff_exists.mp ?_
  unfold shape at h
  split_ifs at h with _ _ _ _ _ hconstant
  · exact hconstant
  · rcases s.scalarShape_cases with hshape | ⟨types, hshape, -⟩
    · rw [hshape] at h
      cases h
    · rw [hshape] at h
      cases h

/-- Only an intersection has entries and is made as an object. -/
theorem allOf_of_object (h : s.shape.maker = .object) (hne : s.shape ≠ .intersection) :
    s.allOf = [] := by
  unfold shape at h hne
  split_ifs at h hne with _ hallOf
  · cases h
  · exact absurd rfl hne
  all_goals simpa using hallOf

/-- A wrapped reference is the first entry of the intersection. -/
theorem allOf_of_wrapped {reference : String} (h : s.placement = .wrapped reference) :
    s.allOf[0]? = some (.reference reference) := by
  unfold placement at h
  split at h
  · split at h
    · next sole hsole =>
      cases h
      unfold soleReference? at hsole
      split at hsole
      · next hallOf =>
        split at hsole
        · cases hsole
          rw [hallOf]
          rfl
        · cases hsole
      · cases hsole
    · cases h
  · split at h <;> cases h
  · split at h <;> cases h
  · cases h

theorem shape_of_wrapped {reference : String} (h : s.placement = .wrapped reference) :
    s.shape = .intersection := by
  unfold placement at h
  split at h
  · assumption
  · split at h <;> cases h
  · split at h <;> cases h
  · cases h

theorem shape_of_byName (h : s.placement = .byName) :
    s.shape = .union ∨ s.shape = .intersection ∨ s.shape = .enumeration := by
  unfold placement at h
  split at h
  · next hshape => exact .inr (.inl hshape)
  · next hshape => exact .inr (.inr hshape)
  · next hshape => exact .inl hshape
  · cases h

/-- What stands in its place is a union, an object, or made by the rules for plain types. -/
theorem maker_of_inPlace (h : s.placement = .inPlace) (hunion : s.shape ≠ .union)
    (hobject : s.shape ≠ .object) : s.shape.maker = .alias ∨ s.shape = .enumeration := by
  unfold placement at h
  split at h
  · split at h <;> cases h
  · next hshape => exact .inr hshape
  · next hshape => exact absurd hshape hunion
  · next hintersection henumeration _ =>
    refine .inl ?_
    cases hshape : s.shape with
    | union => exact absurd hshape hunion
    | object => exact absurd hshape hobject
    | intersection => exact absurd hshape hintersection
    | enumeration => exact absurd hshape henumeration
    | array | constant | scalars | unknown => rfl

end Schema

section Drafts

variable {run : Setting} {p : Progress} {U : UseRelation} {pointer name : String}
  {node : SchemaNode} {d : Declaration}

/-- A maker leaves the name to the registry. -/
theorem Makes.draft (h : Makes run p U pointer name node d) : d.Draft := by
  cases h <;> exact ⟨rfl, rfl⟩

/-- Only enumerations export more than their names. -/
theorem Makes.exports_eq_nil {s : Schema} (h : Makes run p U pointer name (.schema s) d)
    (hs : s.shape.maker ≠ .enumeration) : d.exports = [] := by
  cases h with
  | enumeration hshape => exact absurd (Shape.maker_eq_enumeration_iff.mpr hshape) hs
  | record | interface | intersection | union | literals | plain => rfl

theorem Synthesizes.draft (h : Synthesizes run p U name d) : d.Draft := by
  cases h <;> exact ⟨rfl, rfl⟩

/-- Operations declare no enumerations. -/
theorem Synthesizes.exports_eq_nil (h : Synthesizes run p U name d) : d.exports = [] := by
  cases h <;> rfl

/-- The source of a declaration of a node is the pointer of the node. -/
theorem Makes.source_eq (h : Makes run p U pointer name node d) : d.source = pointer := by
  cases h <;> rfl

/-- The source of a declaration of an operation is a part of the operation. -/
theorem Synthesizes.source_eq (h : Synthesizes run p U name d) :
    ∃ path part, ∃ method : Method,
      d.source = Pointer.descend "#/paths" [path, method.name, part] := by
  cases h with
  | parameters | responses => exact ⟨_, _, _, rfl⟩

end Drafts

end OpenApiTs
