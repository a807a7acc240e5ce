import Mathlib.Data.List.Forall2
import OpenApiTs.Generation.Schema

/-!
# Trees of schemas with counterparts

Two trees of schemas of the same form have the same references and booleans at the same places, and
in the place of each inline schema of one stands a counterpart in the other. What a run reads from a
schema itself is little: if it reads the same from counterparts, they have the same shape, stand in
the same way where they are used, and need a declaration in the same cases.

## Main definitions

* `SchemaNode.Paired`, `Schema.Paired`: trees of the same form with related counterparts.
* `Schema.Own`: a run reads the same from two schemas themselves.

## Main results

* `SchemaNode.Paired.refl`, `SchemaNode.Paired.mono`: what holds of counterparts lifts to trees.
* `Schema.Paired.shape_eq`, `Schema.Paired.placement_eq`, `Schema.Paired.needsDeclaration_eq`:
  counterparts are treated alike.
-/

namespace OpenApiTs

/-! ### Trees of the same form -/

mutual

/-- Two nodes of the same form, in which inline schemas at the same place are related. -/
inductive SchemaNode.Paired (R : Schema → Schema → Prop) : SchemaNode → SchemaNode → Prop
  | reference (pointer) : SchemaNode.Paired R (.reference pointer) (.reference pointer)
  | boolean (allowed) : SchemaNode.Paired R (.boolean allowed) (.boolean allowed)
  | schema {s s'} (h : Schema.Paired R s s') : SchemaNode.Paired R (.schema s) (.schema s')

/-- Two inline schemas that are related and have parts of the same form, whose inline schemas are
related in turn. -/
inductive Schema.Paired (R : Schema → Schema → Prop) : Schema → Schema → Prop
  | mk {s s'} (own : R s s')
      (properties : List.Forall₂ (Property.Paired R) s.properties s'.properties)
      (additional : Option.Rel (SchemaNode.Paired R) s.additional s'.additional)
      (items : Option.Rel (SchemaNode.Paired R) s.items s'.items)
      (oneOf : List.Forall₂ (SchemaNode.Paired R) s.oneOf s'.oneOf)
      (anyOf : List.Forall₂ (SchemaNode.Paired R) s.anyOf s'.anyOf)
      (allOf : List.Forall₂ (SchemaNode.Paired R) s.allOf s'.allOf) : Schema.Paired R s s'

/-- Two properties of the same name. -/
inductive Property.Paired (R : Schema → Schema → Prop) :
    String × SchemaNode → String × SchemaNode → Prop
  | mk {name node node'} (h : SchemaNode.Paired R node node') :
      Property.Paired R (name, node) (name, node')

end

section Lift

variable {R R' : Schema → Schema → Prop}

section Refl

variable (h : ∀ s, R s s)
include h

-- The hypothesis is used by the block as a whole, not by each of its theorems.
set_option linter.unusedSectionVars false in
mutual

theorem SchemaNode.Paired.refl : (node : SchemaNode) → SchemaNode.Paired R node node
  | .reference pointer => .reference pointer
  | .boolean allowed => .boolean allowed
  | .schema s => .schema (Schema.Paired.refl s)

theorem Schema.Paired.refl : (s : Schema) → Schema.Paired R s s
  | ⟨_, _, _, _, properties, _, additional, items, oneOf, anyOf, allOf, _, _, _, _, _, _, _⟩ =>
    .mk (h _) (paired_refl_table properties) (paired_refl_option additional)
      (paired_refl_option items) (paired_refl_list oneOf) (paired_refl_list anyOf)
      (paired_refl_list allOf)

private theorem paired_refl_table : (table : List (String × SchemaNode)) →
    List.Forall₂ (Property.Paired R) table table
  | [] => .nil
  | (_, node) :: rest => .cons ⟨SchemaNode.Paired.refl node⟩ (paired_refl_table rest)

private theorem paired_refl_list : (nodes : List SchemaNode) →
    List.Forall₂ (SchemaNode.Paired R) nodes nodes
  | [] => .nil
  | node :: rest => .cons (SchemaNode.Paired.refl node) (paired_refl_list rest)

private theorem paired_refl_option : (node : Option SchemaNode) →
    Option.Rel (SchemaNode.Paired R) node node
  | none => .none
  | some node => .some (SchemaNode.Paired.refl node)

end

end Refl

section Mono

variable (h : ∀ {s s'}, R s s' → R' s s')
include h

-- The hypothesis is used by the block as a whole, not by each of its theorems.
set_option linter.unusedSectionVars false in
mutual

theorem SchemaNode.Paired.mono :
    (node : SchemaNode) → {node' : SchemaNode} → SchemaNode.Paired R node node' →
      SchemaNode.Paired R' node node'
  | _, _, .reference pointer => .reference pointer
  | _, _, .boolean allowed => .boolean allowed
  | .schema s, _, .schema hs => .schema (Schema.Paired.mono s hs)

theorem Schema.Paired.mono :
    (s : Schema) → {s' : Schema} → Schema.Paired R s s' → Schema.Paired R' s s'
  | ⟨_, _, _, _, properties, _, additional, items, oneOf, anyOf, allOf, _, _, _, _, _, _, _⟩, _,
      .mk own hproperties hadditional hitems honeOf hanyOf hallOf =>
    .mk (h own) (paired_mono_table properties hproperties)
      (paired_mono_option additional hadditional) (paired_mono_option items hitems)
      (paired_mono_list oneOf honeOf) (paired_mono_list anyOf hanyOf)
      (paired_mono_list allOf hallOf)

private theorem paired_mono_table :
    (table : List (String × SchemaNode)) → {table' : List (String × SchemaNode)} →
      List.Forall₂ (Property.Paired R) table table' → List.Forall₂ (Property.Paired R') table table'
  | [], _, .nil => .nil
  | (_, node) :: rest, _, .cons (.mk hnode) hrest =>
    .cons ⟨SchemaNode.Paired.mono node hnode⟩ (paired_mono_table rest hrest)

private theorem paired_mono_list :
    (nodes : List SchemaNode) → {nodes' : List SchemaNode} →
      List.Forall₂ (SchemaNode.Paired R) nodes nodes' →
      List.Forall₂ (SchemaNode.Paired R') nodes nodes'
  | [], _, .nil => .nil
  | node :: rest, _, .cons hnode hrest =>
    .cons (SchemaNode.Paired.mono node hnode) (paired_mono_list rest hrest)

private theorem paired_mono_option :
    (node : Option SchemaNode) → {node' : Option SchemaNode} →
      Option.Rel (SchemaNode.Paired R) node node' → Option.Rel (SchemaNode.Paired R') node node'
  | none, _, .none => .none
  | some node, _, .some hnode => .some (SchemaNode.Paired.mono node hnode)

end

end Mono

end Lift

/-! ### What a run reads from a schema itself -/

/-- A run reads the same from two schemas themselves. Where texts are compared `exactly`, it also
writes the same comments for them. -/
structure Schema.Own (run : Setting) (exactly : Prop) (s s' : Schema) : Prop where
  format : s.format = s'.format
  title : s.title = s'.title
  required : s.required = s'.required
  discriminator : s.discriminator = s'.discriminator
  enumeration : s.enumeration = s'.enumeration
  constant : s.constant = s'.constant
  nullable : s.isNullable = s'.isNullable
  object : s.declares "object" = s'.declares "object"
  array : s.declares "array" = s'.declares "array"
  scalars : s.scalarShape = s'.scalarShape
  docs : exactly → run.docs s = run.docs s'

/-- The schema with nothing but what it states itself. -/
def Schema.withoutParts (s : Schema) : Schema :=
  { s with
    properties := []
    additional := none
    items := none
    oneOf := []
    anyOf := []
    allOf := [] }

section Facts

variable {run : Setting} {exactly : Prop} {s s' : Schema}

theorem Schema.Own.refl (s : Schema) : s.Own run exactly s :=
  ⟨rfl, rfl, rfl, rfl, rfl, rfl, rfl, rfl, rfl, rfl, fun _ => rfl⟩

theorem isEmpty_eq_of_forall₂ {α β : Type} {R : α → β → Prop} {l : List α} {l' : List β}
    (h : List.Forall₂ R l l') : l.isEmpty = l'.isEmpty := by
  cases h <;> rfl

theorem isNone_eq_of_rel {α β : Type} {R : α → β → Prop} {o : Option α} {o' : Option β}
    (h : Option.Rel R o o') : o.isNone = o'.isNone := by
  cases h <;> rfl

namespace Schema.Paired

theorem own {R : Schema → Schema → Prop} (h : s.Paired R s') : R s s' := by
  obtain ⟨hown⟩ := h
  exact hown

variable (h : s.Paired (Schema.Own run exactly) s')
include h

theorem shape_eq : s.shape = s'.shape := by
  obtain ⟨hown, hproperties, -, -, honeOf, hanyOf, hallOf⟩ := h
  unfold Schema.shape
  rw [isEmpty_eq_of_forall₂ honeOf, isEmpty_eq_of_forall₂ hanyOf, isEmpty_eq_of_forall₂ hallOf,
    isEmpty_eq_of_forall₂ hproperties, hown.object, hown.array, hown.enumeration, hown.constant,
    hown.scalars]

theorem literals_eq : s.literals = s'.literals := by
  unfold Schema.literals
  rw [h.own.enumeration]

theorem literal?_eq : s.literal? = s'.literal? := by
  unfold Schema.literal?
  rw [h.own.constant, h.own.enumeration]

theorem isRequired_eq (name : String) : s.isRequired name = s'.isRequired name := by
  unfold Schema.isRequired
  rw [h.own.required]

theorem isMergeable_eq : s.isMergeable = s'.isMergeable := by
  unfold Schema.isMergeable
  rw [h.shape_eq]

theorem needsNullAtUse_eq : s.needsNullAtUse = s'.needsNullAtUse := by
  unfold Schema.needsNullAtUse
  rw [h.shape_eq, h.own.nullable]

theorem ofDeclaration_eq (name : String) :
    TypeUse.ofDeclaration name s = TypeUse.ofDeclaration name s' := by
  unfold TypeUse.ofDeclaration
  rw [h.needsNullAtUse_eq]

theorem needsDeclaration_eq : s.needsDeclaration = s'.needsDeclaration := by
  unfold Schema.needsDeclaration
  rw [h.shape_eq, h.literals_eq]

theorem prefersOneOf_eq : s.prefersOneOf = s'.prefersOneOf := by
  obtain ⟨-, -, -, -, honeOf, -, -⟩ := h
  unfold Schema.prefersOneOf
  rw [isEmpty_eq_of_forall₂ honeOf]

theorem branchKeyword_eq : s.branchKeyword = s'.branchKeyword := by
  unfold Schema.branchKeyword
  rw [h.prefersOneOf_eq]

theorem branches :
    List.Forall₂ (SchemaNode.Paired (Schema.Own run exactly)) s.branches s'.branches := by
  have hprefers := h.prefersOneOf_eq
  obtain ⟨-, -, -, -, honeOf, hanyOf, -⟩ := h
  unfold Schema.branches
  rw [← hprefers]
  split
  · exact honeOf
  · exact hanyOf

theorem isInlineUnion_eq : s.isInlineUnion = s'.isInlineUnion := by
  have hbranches := h.branches
  unfold Schema.isInlineUnion
  rw [h.own.discriminator]
  refine congrArg (fun b => s'.discriminator.isNone && !b) ?_
  generalize s.branches = nodes at hbranches
  generalize s'.branches = nodes' at hbranches
  induction hbranches with
  | nil => rfl
  | cons hbranch _ ih =>
    rw [List.any_cons, List.any_cons, ih]
    cases hbranch with
    | reference | boolean => rfl
    | schema hs => exact congrArg (· || _) hs.needsDeclaration_eq

theorem soleReference?_eq : s.soleReference? = s'.soleReference? := by
  obtain ⟨-, hproperties, hadditional, -, -, -, hallOf⟩ := h
  unfold Schema.soleReference?
  rw [isEmpty_eq_of_forall₂ hproperties, isNone_eq_of_rel hadditional]
  generalize s.allOf = nodes at hallOf
  generalize s'.allOf = nodes' at hallOf
  cases hallOf with
  | nil => rfl
  | cons hnode hrest =>
    cases hnode with
    | reference pointer => cases hrest <;> rfl
    | boolean | schema => rfl

theorem placement_eq : s.placement = s'.placement := by
  unfold Schema.placement
  rw [h.shape_eq, h.literals_eq, h.soleReference?_eq, h.isInlineUnion_eq]

end Schema.Paired

end Facts

end OpenApiTs
