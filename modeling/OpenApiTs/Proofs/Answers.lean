import OpenApiTs.Generation.Schema
import Mathlib.Data.List.Forall2

/-!
# Answers of nodes

A schema answers by what its parts answer. So a property that the answers of a schema have whenever
those of its parts do is one of the answers of all nodes. This is the induction over nodes that the
makers need, with the property left open.

## Main definitions

* `NodeAnswers`, `PartsAnswers`: a property of answers, of a node and of all parts of a schema.
* `EachFrom`: a property of the nodes of a row and their positions.

## Main results

* `NodeAnswers.of_parts`, `PartsAnswers.of_parts`: the induction.
-/

namespace OpenApiTs

/-- The answers in the part of a node have a property. -/
inductive NodeAnswers (P : Schema → Answers → Prop) : SchemaNode → Part → Prop
  | reference (pointer) : NodeAnswers P (.reference pointer) (.reference pointer)
  | boolean (allowed) : NodeAnswers P (.boolean allowed) (.boolean allowed)
  | schema {s answers} (h : P s answers) : NodeAnswers P (.schema s) (.inline s answers)

/-- The answers in all parts of a schema have a property. -/
structure PartsAnswers (P : Schema → Answers → Prop) (s : Schema) (parts : Parts) : Prop where
  properties : List.Forall₂ (fun e part => e.1 = part.1 ∧ NodeAnswers P e.2 part.2)
    s.properties parts.properties
  additional : Option.Rel (NodeAnswers P) s.additional parts.additional
  items : Option.Rel (NodeAnswers P) s.items parts.items
  oneOf : List.Forall₂ (NodeAnswers P) s.oneOf parts.oneOf
  anyOf : List.Forall₂ (NodeAnswers P) s.anyOf parts.anyOf
  allOf : List.Forall₂ (NodeAnswers P) s.allOf parts.allOf

namespace PartsAnswers

variable {P : Schema → Answers → Prop} {s : Schema} {parts : Parts} {part : Part}

private theorem exists_of_rel_some {node : Option SchemaNode}
    (h : Option.Rel (NodeAnswers P) node (some part)) :
    ∃ n, node = some n ∧ NodeAnswers P n part := by
  cases h with
  | some h => exact ⟨_, rfl, h⟩

private theorem eq_none_of_rel_none {node : Option SchemaNode}
    (h : Option.Rel (NodeAnswers P) node none) : node = none := by
  cases h
  rfl

theorem exists_additional (h : PartsAnswers P s parts) (hp : parts.additional = some part) :
    ∃ node, s.additional = some node ∧ NodeAnswers P node part :=
  exists_of_rel_some (hp ▸ h.additional)

theorem additional_eq_none (h : PartsAnswers P s parts) (hp : parts.additional = none) :
    s.additional = none :=
  eq_none_of_rel_none (hp ▸ h.additional)

theorem exists_items (h : PartsAnswers P s parts) (hp : parts.items = some part) :
    ∃ node, s.items = some node ∧ NodeAnswers P node part :=
  exists_of_rel_some (hp ▸ h.items)

theorem items_eq_none (h : PartsAnswers P s parts) (hp : parts.items = none) : s.items = none :=
  eq_none_of_rel_none (hp ▸ h.items)

theorem branches (h : PartsAnswers P s parts) :
    List.Forall₂ (NodeAnswers P) s.branches (parts.branches s) := by
  unfold Schema.branches Parts.branches
  split
  · exact h.oneOf
  · exact h.anyOf

end PartsAnswers

/-- A property of all nodes of a row and their positions, which count from `i`. -/
def EachFrom (P : Nat → SchemaNode → Prop) (i : Nat) (nodes : List SchemaNode) : Prop :=
  ∀ (j : Nat) node, nodes[j]? = some node → P (i + j) node

namespace EachFrom

variable {P : Nat → SchemaNode → Prop} {i : Nat} {node : SchemaNode} {nodes : List SchemaNode}

theorem of_zero (h : ∀ (j : Nat) node, nodes[j]? = some node → P j node) : EachFrom P 0 nodes :=
  fun j node hj => (Nat.zero_add j).symm ▸ h j node hj

theorem head (h : EachFrom P i (node :: nodes)) : P i node := h 0 node rfl

theorem tail (h : EachFrom P i (node :: nodes)) : EachFrom P (i + 1) nodes := fun j n hj => by
  rw [Nat.add_right_comm, Nat.add_assoc]
  exact h (j + 1) n hj

end EachFrom

section Induction

variable {run : Setting} {refer : Refer} {P : Schema → Answers → Prop}
  (h : ∀ {s parts}, PartsAnswers P s parts → P s (Gen.answers run refer s parts))

include h

-- The hypothesis is used by the block as a whole, not by each of its theorems.
set_option linter.unusedSectionVars false in
mutual

/-- The answers of a node have a property that schemas get from their parts. -/
theorem NodeAnswers.of_parts : (node : SchemaNode) → NodeAnswers P node (node.part run refer)
  | .reference pointer => .reference pointer
  | .boolean allowed => .boolean allowed
  | .schema s => .schema (h (PartsAnswers.of_parts s))

/-- The answers of the parts of a schema have a property that schemas get from their parts. -/
theorem PartsAnswers.of_parts : (s : Schema) → PartsAnswers P s (s.parts run refer)
  | ⟨_, _, _, _, properties, _, additional, items, oneOf, anyOf, allOf, _, _, _, _, _, _, _⟩ =>
    { properties := table_of_parts properties
      additional := option_of_parts additional
      items := option_of_parts items
      oneOf := list_of_parts oneOf
      anyOf := list_of_parts anyOf
      allOf := list_of_parts allOf }

private theorem table_of_parts : (table : List (String × SchemaNode)) →
    List.Forall₂ (fun e part => e.1 = part.1 ∧ NodeAnswers P e.2 part.2) table
      (SchemaNode.tableParts run refer table)
  | [] => .nil
  | (_, node) :: rest => .cons ⟨rfl, NodeAnswers.of_parts node⟩ (table_of_parts rest)

private theorem list_of_parts : (nodes : List SchemaNode) →
    List.Forall₂ (NodeAnswers P) nodes (SchemaNode.listParts run refer nodes)
  | [] => .nil
  | node :: rest => .cons (NodeAnswers.of_parts node) (list_of_parts rest)

private theorem option_of_parts : (node : Option SchemaNode) →
    Option.Rel (NodeAnswers P) node (SchemaNode.optionPart run refer node)
  | none => .none
  | some node => .some (NodeAnswers.of_parts node)

end

end Induction

end OpenApiTs
