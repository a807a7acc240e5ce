import OpenApiTs.Proofs.Outcome
import OpenApiTs.Proofs.Rendering

/-!
# References are texts of the document

Every reference in a node that a document tree decodes to is a text of that tree, at whatever depth
it stands. So a run follows only as many references as there are texts, whatever the references
are.

## Main definitions

* `Json.texts`: the texts of a value.
* `SchemaNode.references`, `Schema.references`: the references in a node.
* `Setting.Textual`: the references in a node are texts of the document tree.

## Main results

* `Json.length_texts`: the list of texts is as long as their count.
* `Schema.readings_within`: decoding invents no reference.
* `Setting.textual_origin`: what a reference finds is textual.
* `Schema.references_part`: the references of a part are references of the schema.
-/

namespace OpenApiTs

/-! ### Texts and references -/

mutual

/-- The texts of a value, keys left out. -/
def Json.texts : Json → List String
  | .string s => [s]
  | .array elements => Json.elementTexts elements
  | .object members => Json.memberTexts members
  | _ => []

/-- The texts of the elements of an array. -/
def Json.elementTexts : List Json → List String
  | [] => []
  | value :: rest => value.texts ++ Json.elementTexts rest

/-- The texts of the members of an object. -/
def Json.memberTexts : List (String × Json) → List String
  | [] => []
  | (_, value) :: rest => value.texts ++ Json.memberTexts rest

end

mutual

/-- The references in a node. -/
def SchemaNode.references : SchemaNode → List String
  | .reference pointer => [pointer]
  | .schema s => s.references
  | .boolean _ => []

/-- The references in the parts of a schema. -/
def Schema.references : Schema → List String
  | { properties, additional, items, oneOf, anyOf, allOf, .. } =>
    SchemaNode.tableReferences properties ++ SchemaNode.optionReferences additional ++
      SchemaNode.optionReferences items ++ SchemaNode.listReferences oneOf ++
      SchemaNode.listReferences anyOf ++ SchemaNode.listReferences allOf

/-- The references in a table of nodes. -/
def SchemaNode.tableReferences : List (String × SchemaNode) → List String
  | [] => []
  | (_, node) :: rest => node.references ++ SchemaNode.tableReferences rest

/-- The references in a list of nodes. -/
def SchemaNode.listReferences : List SchemaNode → List String
  | [] => []
  | node :: rest => node.references ++ SchemaNode.listReferences rest

/-- The references in a node that may be absent. -/
def SchemaNode.optionReferences : Option SchemaNode → List String
  | none => []
  | some node => node.references

end

namespace Json

mutual

theorem length_texts : (value : Json) → value.texts.length = value.textCount
  | .null | .bool _ | .number _ | .string _ => rfl
  | .array elements => length_elementTexts elements
  | .object members => length_memberTexts members

private theorem length_elementTexts :
    (elements : List Json) → (elementTexts elements).length = textCountElements elements
  | [] => rfl
  | value :: rest => by
      rw [elementTexts, textCountElements, List.length_append, length_texts value,
        length_elementTexts rest]

private theorem length_memberTexts :
    (members : List (String × Json)) → (memberTexts members).length = textCountMembers members
  | [] => rfl
  | (_, value) :: rest => by
      rw [memberTexts, textCountMembers, List.length_append, length_texts value,
        length_memberTexts rest]

end

theorem texts_subset_of_mem_elements {value : Json} :
    {elements : List Json} → value ∈ elements → value.texts ⊆ elementTexts elements
  | first :: rest, h => by
      rw [elementTexts]
      rcases List.mem_cons.mp h with rfl | h
      · exact List.subset_append_left _ _
      · exact List.subset_append_of_subset_right _ (texts_subset_of_mem_elements h)

theorem texts_subset_of_mem_members {key : String} {value : Json} :
    {members : List (String × Json)} → (key, value) ∈ members → value.texts ⊆ memberTexts members
  | (_, first) :: rest, h => by
      rw [memberTexts]
      rcases List.mem_cons.mp h with h | h
      · cases h
        exact List.subset_append_left _ _
      · exact List.subset_append_of_subset_right _ (texts_subset_of_mem_members h)

end Json

/-! ### Look-up -/

namespace Pointer

/-- A canonical pointer is the reference as it is written. -/
theorem canonicalize_eq {reference pointer : String}
    (h : canonicalize reference = .ok pointer) : pointer = reference := by
  unfold canonicalize at h
  repeat' split at h
  all_goals cases h
  all_goals rfl

theorem texts_subset_of_step? {value part : Json} {segment : String}
    (h : step? value segment = some part) : part.texts ⊆ value.texts := by
  cases value with
  | object members => exact Json.texts_subset_of_mem_members (Entries.mem_of_get? h)
  | array elements =>
    obtain ⟨i, -, hi⟩ := Option.bind_eq_some_iff.mp h
    exact Json.texts_subset_of_mem_elements (List.mem_of_getElem? hi)
  | null | bool _ | number _ | string _ => cases h

theorem texts_subset_of_foldlM {value part : Json} :
    {segments : List String} → segments.foldlM step? value = some part → part.texts ⊆ value.texts
  | [], h => by
      cases h
      exact List.Subset.refl _
  | segment :: rest, h => by
      rw [List.foldlM_cons] at h
      obtain ⟨next, hnext, hrest⟩ := Option.bind_eq_some_iff.mp h
      exact List.Subset.trans (texts_subset_of_foldlM hrest) (texts_subset_of_step? hnext)

end Pointer

/-! ### Records -/

namespace Record

variable {ι α : Type} {P : α → Prop} {r : Record ι α}

/-- Stored members keep a property of the record that every field keeps for its value at hand. -/
theorem storeMembers_keeps :
    (members : List (String × ι)) → {x y : α} →
      (∀ f ∈ r.fields, ∀ m ∈ members, f.key = m.1 → ∀ x y, P x → f.read m.2 x = .ok y → P y) →
      P x → r.storeMembers members x = .ok y → P y
  | [], x, y, _, hx, h => by
      cases h
      exact hx
  | (key, value) :: rest, x, y, hf, hx, h => by
      have hrest : ∀ f ∈ r.fields, ∀ m ∈ rest, f.key = m.1 →
          ∀ x y, P x → f.read m.2 x = .ok y → P y :=
        fun f hmem m hm => hf f hmem m (List.mem_cons_of_mem _ hm)
      rw [storeMembers] at h
      split at h
      · next f hfind =>
        obtain ⟨x', hread, h⟩ := bind_eq_ok_iff.mp h
        have hkey : (f.key == key) = true :=
          List.find?_some (p := fun f : Field ι α => f.key == key) hfind
        exact storeMembers_keeps rest hrest
          (hf f (List.mem_of_find?_eq_some hfind) _ List.mem_cons_self (beq_iff_eq.mp hkey) x x'
            hx hread) h
      · exact storeMembers_keeps rest hrest hx h

/-- A decoded record is what its members store. -/
theorem storeMembers_of_ofMembers {members : List (String × ι)} {y : α}
    (h : r.ofMembers members = .ok y) : r.storeMembers members r.start = .ok y := by
  obtain ⟨x, hstore, h⟩ := bind_eq_ok_iff.mp h
  split at h
  · cases h
  · cases h
    exact hstore

theorem ofMembers_keeps {members : List (String × ι)} {y : α}
    (hf : ∀ f ∈ r.fields, ∀ m ∈ members, ∀ x y, P x → f.read m.2 x = .ok y → P y)
    (hx : P r.start) (h : r.ofMembers members = .ok y) : P y :=
  storeMembers_keeps members (fun f hmem m hm _ => hf f hmem m hm) hx (storeMembers_of_ofMembers h)

theorem storeElements_keeps :
    (done : Nat) → (fields : List (Field ι α)) → (elements : List ι) → {x y : α} →
      (∀ f ∈ fields, ∀ value ∈ elements, ∀ x y, P x → f.read value x = .ok y → P y) →
      P x → r.storeElements done fields elements x = .ok y → P y
  | _, [], _, x, y, _, hx, h => by
      cases h
      exact hx
  | done, f :: fields, [], x, y, _, hx, h => by
      rw [storeElements] at h
      split at h
      · cases h
      · exact storeElements_keeps (done + 1) fields [] (fun _ _ _ hm => nomatch hm) hx h
  | done, f :: fields, value :: rest, x, y, hf, hx, h => by
      obtain ⟨x', hread, h⟩ := bind_eq_ok_iff.mp h
      refine storeElements_keeps (done + 1) fields rest (fun g hg v hv => ?_) ?_ h
      · exact hf g (List.mem_cons_of_mem _ hg) v (List.mem_cons_of_mem _ hv)
      · exact hf f List.mem_cons_self value List.mem_cons_self x x' hx hread

theorem ofElements_keeps {elements : List ι} {y : α}
    (hf : ∀ f ∈ r.fields, ∀ value ∈ elements, ∀ x y, P x → f.read value x = .ok y → P y)
    (hx : P r.start) (h : r.ofElements elements = .ok y) : P y := by
  obtain ⟨x, hstore, h⟩ := bind_eq_ok_iff.mp h
  split at h
  · cases h
  · cases h
    exact storeElements_keeps 0 r.fields elements hf hx hstore

end Record

/-! ### Decoding -/

namespace SchemaNode

theorem listReferences_subset_iff {T : List String} {nodes : List SchemaNode} :
    listReferences nodes ⊆ T ↔ ∀ node ∈ nodes, node.references ⊆ T := by
  induction nodes with
  | nil => simp [listReferences]
  | cons node rest ih => rw [listReferences, List.append_subset, List.forall_mem_cons, ih]

theorem tableReferences_subset_iff {T : List String} {table : List (String × SchemaNode)} :
    tableReferences table ⊆ T ↔ ∀ e ∈ table, e.2.references ⊆ T := by
  induction table with
  | nil => simp [tableReferences]
  | cons e rest ih => rw [tableReferences, List.append_subset, List.forall_mem_cons, ih]

end SchemaNode

namespace Schema

variable {T : List String} {s : Schema}

theorem references_subset_iff :
    s.references ⊆ T ↔
      SchemaNode.tableReferences s.properties ⊆ T ∧
      SchemaNode.optionReferences s.additional ⊆ T ∧ SchemaNode.optionReferences s.items ⊆ T ∧
      SchemaNode.listReferences s.oneOf ⊆ T ∧ SchemaNode.listReferences s.anyOf ⊆ T ∧
      SchemaNode.listReferences s.allOf ⊆ T := by
  cases s
  rw [references]
  simp only [List.append_subset, and_assoc]

/-- The references of a part are references of the schema. -/
theorem references_part {location place : String} {node : SchemaNode}
    (h : s.HasPart location node place) (hs : s.references ⊆ T) : node.references ⊆ T := by
  obtain ⟨hproperties, hadditional, hitems, honeOf, hanyOf, hallOf⟩ := references_subset_iff.mp hs
  cases h with
  | property h => exact SchemaNode.tableReferences_subset_iff.mp hproperties _ h
  | additional h =>
    rw [h] at hadditional
    exact hadditional
  | items h =>
    rw [h] at hitems
    exact hitems
  | oneOf h => exact SchemaNode.listReferences_subset_iff.mp honeOf _ (List.mem_of_getElem? h)
  | anyOf h => exact SchemaNode.listReferences_subset_iff.mp hanyOf _ (List.mem_of_getElem? h)
  | allOf h => exact SchemaNode.listReferences_subset_iff.mp hallOf _ (List.mem_of_getElem? h)

/-- Whatever a value stands for, its references are among given texts. -/
structure Readings.Within (T : List String) (r : Readings) : Prop where
  node : ∀ node, r.node = .ok node → node.references ⊆ T
  nodes : ∀ nodes, r.nodes = .ok nodes → SchemaNode.listReferences nodes ⊆ T
  table : ∀ table, r.table = .ok table → SchemaNode.tableReferences table ⊆ T
  schema : ∀ s, r.schema = .ok s → s.references ⊆ T

namespace Readings

variable {r : Readings}

theorem Within.mono {T' : List String} (h : r.Within T) (hT : T ⊆ T') : r.Within T' where
  node x hx := List.Subset.trans (h.node x hx) hT
  nodes x hx := List.Subset.trans (h.nodes x hx) hT
  table x hx := List.Subset.trans (h.table x hx) hT
  schema x hx := List.Subset.trans (h.schema x hx) hT

theorem Within.optionalNode (h : r.Within T) {node : Option SchemaNode}
    (hn : r.optionalNode = .ok node) : SchemaNode.optionReferences node ⊆ T := by
  rw [Readings.optionalNode] at hn
  split at hn
  · cases hn
    exact List.nil_subset T
  · cases hnode : r.node with
    | error e =>
      rw [hnode] at hn
      cases hn
    | ok n =>
      rw [hnode] at hn
      cases hn
      exact h.node n hnode

theorem Within.optionalAdditional (h : r.Within T) {node : Option SchemaNode}
    (hn : r.optionalAdditional = .ok node) : SchemaNode.optionReferences node ⊆ T := by
  rw [Readings.optionalAdditional] at hn
  split at hn
  · cases hn
    exact List.nil_subset T
  · next hnode _ =>
    cases hn
    exact h.node _ hnode
  · cases hn

end Readings

section Fields

variable {β : Type} {key : String} {decode : Readings → Except DecodeError β}
  {store : β → Schema → Schema}

/-- A field keeps the references among given texts if what it stores does. -/
private theorem field_keeps
    (h : ∀ r : Readings, r.Within T → ∀ v x, decode r = .ok v → x.references ⊆ T →
      (store v x).references ⊆ T) :
    ∀ r : Readings, r.Within T → ∀ x y, x.references ⊆ T →
      (Field.defaulted key decode store).read r x = .ok y → y.references ⊆ T := by
  intro r hr x y hx hy
  obtain ⟨v, hv, hy⟩ := bind_eq_ok_iff.mp hy
  cases hy
  exact h r hr v x hv hx

private theorem plainField_keeps
    (h : ∀ v x, (store v x).references = x.references := by intro v x; cases x; rfl) :
    ∀ r : Readings, r.Within T → ∀ x y, x.references ⊆ T →
      (Field.defaulted key decode store).read r x = .ok y → y.references ⊆ T :=
  field_keeps fun _ _ v x _ hx => (h v x).symm ▸ hx

end Fields

private theorem record_keeps :
    ∀ f ∈ record.fields, ∀ r : Readings, r.Within T → ∀ x y, x.references ⊆ T →
      f.read r x = .ok y → y.references ⊆ T := by
  simp only [record, List.forall_mem_cons]
  refine ⟨plainField_keeps, plainField_keeps, plainField_keeps, plainField_keeps, field_keeps ?_,
    plainField_keeps, field_keeps ?_, field_keeps ?_, field_keeps ?_, field_keeps ?_,
    field_keeps ?_, plainField_keeps, plainField_keeps, plainField_keeps, plainField_keeps,
    plainField_keeps, plainField_keeps, plainField_keeps, fun f hf => nomatch hf⟩ <;>
    intro r hr v x hv hx <;>
    obtain ⟨h₁, h₂, h₃, h₄, h₅, h₆⟩ := references_subset_iff.mp hx
  · exact references_subset_iff.mpr ⟨hr.table v hv, h₂, h₃, h₄, h₅, h₆⟩
  · exact references_subset_iff.mpr ⟨h₁, hr.optionalAdditional hv, h₃, h₄, h₅, h₆⟩
  · exact references_subset_iff.mpr ⟨h₁, h₂, hr.optionalNode hv, h₄, h₅, h₆⟩
  · exact references_subset_iff.mpr ⟨h₁, h₂, h₃, hr.nodes v hv, h₅, h₆⟩
  · exact references_subset_iff.mpr ⟨h₁, h₂, h₃, h₄, hr.nodes v hv, h₆⟩
  · exact references_subset_iff.mpr ⟨h₁, h₂, h₃, h₄, h₅, hr.nodes v hv⟩

private theorem asNode_within {schema : Except DecodeError Schema} {node : SchemaNode}
    (h : ∀ s, schema = .ok s → s.references ⊆ T) (hn : asNode schema = .ok node) :
    node.references ⊆ T := by
  cases schema with
  | error e => cases hn
  | ok s =>
    cases hn
    exact h s rfl

private theorem nodes_within :
    (parts : List Readings) → (∀ r ∈ parts, r.Within T) → {nodes : List SchemaNode} →
      parts.mapM Readings.node = .ok nodes → SchemaNode.listReferences nodes ⊆ T
  | [], _, nodes, h => by
      cases h
      exact List.nil_subset T
  | r :: rest, hr, nodes, h => by
      rw [List.mapM_cons] at h
      obtain ⟨node, hnode, h⟩ := bind_eq_ok_iff.mp h
      obtain ⟨nodes', hnodes, h⟩ := bind_eq_ok_iff.mp h
      cases h
      rw [SchemaNode.listReferences, List.append_subset]
      exact ⟨(hr r List.mem_cons_self).node node hnode,
        nodes_within rest (fun q hq => hr q (List.mem_cons_of_mem r hq)) hnodes⟩

private theorem table_within :
    (parts : List (String × Readings)) → (∀ m ∈ parts, m.2.Within T) →
      {all table : List (String × SchemaNode)} → SchemaNode.tableReferences all ⊆ T →
      parts.foldlM (fun (all : List (String × SchemaNode)) (key, (r : Readings)) =>
        return Entries.put key (← r.node) all) all = (.ok table : Except DecodeError _) →
      SchemaNode.tableReferences table ⊆ T
  | [], _, all, table, hall, h => by
      cases h
      exact hall
  | (key, r) :: rest, hr, all, table, hall, h => by
      rw [List.foldlM_cons] at h
      obtain ⟨all', hput, h⟩ := bind_eq_ok_iff.mp h
      obtain ⟨node, hnode, hput⟩ := bind_eq_ok_iff.mp hput
      cases hput
      refine table_within rest (fun m hm => hr m (List.mem_cons_of_mem _ hm)) ?_ h
      rw [SchemaNode.tableReferences_subset_iff] at hall ⊢
      intro e he
      rcases Entries.mem_put he with rfl | he
      · exact (hr _ List.mem_cons_self).node node hnode
      · exact hall e he

mutual

/-- Decoding invents no reference. -/
theorem readings_within : (value : Json) → (readings value).Within value.texts
  | .null | .number _ | .string _ => by
      refine ⟨?_, ?_, ?_, ?_⟩ <;> exact nofun
  | .bool allowed => by
      refine ⟨fun node h => ?_, nofun, nofun, nofun⟩
      cases h
      exact List.nil_subset _
  | .array elements => by
      have hparts := elementReadings_within elements
      have hschema : ∀ s, record.ofElements (elementReadings elements) = .ok s →
          s.references ⊆ Json.elementTexts elements := fun s hs =>
        Record.ofElements_keeps (P := fun s => s.references ⊆ Json.elementTexts elements)
          (fun f hf r hr => record_keeps f hf r (hparts r hr)) (List.nil_subset _) hs
      refine ⟨fun node h => ?_, fun nodes h => nodes_within _ hparts h, nofun, hschema⟩
      change (match elements with
        | [.string pointer] => Except.ok (SchemaNode.reference pointer)
        | _ => asNode (record.ofElements (elementReadings elements))) = .ok node at h
      split at h
      · cases h
        exact List.Subset.refl _
      · exact asNode_within hschema h
  | .object members => by
      have hparts := memberReadings_within members
      have hschema : ∀ s, record.ofMembers (memberReadings members) = .ok s →
          s.references ⊆ Json.memberTexts members := fun s hs =>
        Record.ofMembers_keeps (P := fun s => s.references ⊆ Json.memberTexts members)
          (fun f hf m hm => record_keeps f hf m.2 (hparts m hm)) (List.nil_subset _) hs
      refine ⟨fun node h => ?_, nofun, fun table h => table_within _ hparts (List.nil_subset _) h,
        hschema⟩
      change (match Entries.get? "$ref" members with
        | some (.string pointer) => Except.ok (SchemaNode.reference pointer)
        | _ => asNode (record.ofMembers (memberReadings members))) = .ok node at h
      split at h
      · next pointer href =>
        cases h
        exact Json.texts_subset_of_mem_members (Entries.mem_of_get? href)
      · exact asNode_within hschema h

private theorem elementReadings_within :
    (elements : List Json) →
      ∀ r ∈ elementReadings elements, r.Within (Json.elementTexts elements)
  | [], _, h => nomatch h
  | value :: rest, r, h => by
      rw [Json.elementTexts]
      rcases List.mem_cons.mp h with rfl | h
      · exact (readings_within value).mono (List.subset_append_left _ _)
      · exact (elementReadings_within rest r h).mono (List.subset_append_right _ _)

private theorem memberReadings_within :
    (members : List (String × Json)) →
      ∀ m ∈ memberReadings members, m.2.Within (Json.memberTexts members)
  | [], _, h => nomatch h
  | (key, value) :: rest, m, h => by
      rw [Json.memberTexts]
      rcases List.mem_cons.mp h with rfl | h
      · exact (readings_within value).mono (List.subset_append_left _ _)
      · exact (memberReadings_within rest m h).mono (List.subset_append_right _ _)

end

end Schema

/-! ### References of parts -/

section Parts

variable {A : SchemaNode → String → Prop} {Q : String → Prop}
  (hpart : ∀ {s : Schema} {location node place}, A (.schema s) location →
    s.HasPart location node place → A node place)
  (hreference : ∀ {reference location}, A (.reference reference) location → Q reference)
include hpart hreference

-- The hypotheses are used by the block as a whole, not by each of its theorems.
set_option linter.unusedSectionVars false

mutual

/-- What holds of the references that stand somewhere in a node holds of all references in it. -/
theorem SchemaNode.forall_mem_references :
    (node : SchemaNode) → {location : String} → A node location →
      ∀ reference ∈ node.references, Q reference
  | .reference _, _, h => by
      rw [SchemaNode.references]
      exact List.forall_mem_singleton.mpr (hreference h)
  | .boolean _, _, _ => by
      rw [SchemaNode.references]
      exact List.forall_mem_nil _
  | .schema s, _, h => by
      rw [SchemaNode.references]
      exact Schema.forall_mem_references s h

theorem Schema.forall_mem_references :
    (s : Schema) → {location : String} → A (.schema s) location →
      ∀ reference ∈ s.references, Q reference
  | ⟨_, _, _, _, properties, _, additional, items, oneOf, anyOf, allOf, _, _, _, _, _, _, _⟩,
      _, h => by
      rw [Schema.references]
      simp only [List.forall_mem_append]
      refine ⟨⟨⟨⟨⟨?_, ?_⟩, ?_⟩, ?_⟩, ?_⟩, ?_⟩
      · exact tableReferences_forall properties
          fun e he => ⟨_, hpart h (.property he)⟩
      · exact optionReferences_forall additional
          fun node hnode => ⟨_, hpart h (.additional hnode)⟩
      · exact optionReferences_forall items
          fun node hnode => ⟨_, hpart h (.items hnode)⟩
      · refine listReferences_forall oneOf fun node hnode => ?_
        obtain ⟨i, hi⟩ := List.mem_iff_getElem?.mp hnode
        exact ⟨_, hpart h (.oneOf hi)⟩
      · refine listReferences_forall anyOf fun node hnode => ?_
        obtain ⟨i, hi⟩ := List.mem_iff_getElem?.mp hnode
        exact ⟨_, hpart h (.anyOf hi)⟩
      · refine listReferences_forall allOf fun node hnode => ?_
        obtain ⟨i, hi⟩ := List.mem_iff_getElem?.mp hnode
        exact ⟨_, hpart h (.allOf hi)⟩

private theorem tableReferences_forall :
    (table : List (String × SchemaNode)) → (∀ e ∈ table, ∃ place, A e.2 place) →
      ∀ reference ∈ SchemaNode.tableReferences table, Q reference
  | [], _ => nofun
  | (_, node) :: rest, h => by
      obtain ⟨⟨_, hnode⟩, hrest⟩ := List.forall_mem_cons.mp h
      rw [SchemaNode.tableReferences, List.forall_mem_append]
      exact ⟨SchemaNode.forall_mem_references node hnode,
        tableReferences_forall rest hrest⟩

private theorem listReferences_forall :
    (nodes : List SchemaNode) → (∀ node ∈ nodes, ∃ place, A node place) →
      ∀ reference ∈ SchemaNode.listReferences nodes, Q reference
  | [], _ => nofun
  | node :: rest, h => by
      obtain ⟨⟨_, hnode⟩, hrest⟩ := List.forall_mem_cons.mp h
      rw [SchemaNode.listReferences, List.forall_mem_append]
      exact ⟨SchemaNode.forall_mem_references node hnode,
        listReferences_forall rest hrest⟩

private theorem optionReferences_forall :
    (node : Option SchemaNode) → (∀ n, node = some n → ∃ place, A n place) →
      ∀ reference ∈ SchemaNode.optionReferences node, Q reference
  | none, _ => nofun
  | some node, h => by
      obtain ⟨_, hnode⟩ := h node rfl
      exact SchemaNode.forall_mem_references node hnode

end

end Parts

/-! ### What references find -/

theorem SchemaNode.references_subset_of_decode {value : Json} {node : SchemaNode}
    (h : SchemaNode.decode value = .ok node) : node.references ⊆ value.texts :=
  (Schema.readings_within value).node node h

namespace DocumentTree

variable {tree : DocumentTree} {reference pointer from_ : String}

/-- A canonical pointer is the reference as it is written. -/
theorem canonicalize_eq (h : canonicalize reference from_ = .ok pointer) : pointer = reference := by
  unfold canonicalize at h
  split at h
  · next hr =>
    cases h
    exact Pointer.canonicalize_eq hr
  · cases h

theorem texts_subset_of_lookup {value : Json} (h : tree.lookup reference from_ = .ok value) :
    value.texts ⊆ tree.root.texts := by
  obtain ⟨pointer, -, h⟩ := bind_eq_ok_iff.mp h
  split at h
  · next hvalue =>
    cases h
    exact Pointer.texts_subset_of_foldlM hvalue
  · cases h

/-- The target of a reference that stands alone is a text of the document tree. -/
theorem text_of_link {target : String} {value : Json}
    (hvalue : tree.lookup pointer from_ = .ok value)
    (htarget : (value.member? "$ref").bind Json.string? = some target) :
    target ∈ tree.root.texts := by
  obtain ⟨member, hmember, htarget⟩ := Option.bind_eq_some_iff.mp htarget
  have htexts := texts_subset_of_lookup hvalue
  cases value with
  | object members =>
    cases member with
    | string text =>
      cases htarget
      exact htexts (Json.texts_subset_of_mem_members (Entries.mem_of_get? hmember)
        List.mem_cons_self)
    | null | bool _ | number _ | array _ | object _ => cases htarget
  | null | bool _ | number _ | string _ | array _ => cases hmember

theorem references_subset_of_node {node : SchemaNode} (h : tree.node pointer from_ = .ok node) :
    node.references ⊆ tree.root.texts := by
  obtain ⟨value, hvalue, h⟩ := bind_eq_ok_iff.mp h
  split at h
  · next hnode =>
    cases h
    exact List.Subset.trans (SchemaNode.references_subset_of_decode hnode)
      (texts_subset_of_lookup hvalue)
  · cases h

theorem references_subset_of_follow :
    (steps : Nat) → (chain : List String) → {pointer from_ : String} → {s : Schema} →
      tree.follow steps chain pointer from_ = .ok s → s.references ⊆ tree.root.texts
  | 0, _, _, _, _, h => by
      cases h
      exact List.nil_subset _
  | steps + 1, chain, pointer, from_, s, h => by
      rw [follow] at h
      split at h
      · cases h
        exact List.nil_subset _
      · obtain ⟨-, -, h⟩ := bind_eq_ok_iff.mp h
        obtain ⟨node, hnode, h⟩ := bind_eq_ok_iff.mp h
        split at h
        · obtain ⟨next, -, h⟩ := bind_eq_ok_iff.mp h
          exact references_subset_of_follow steps _ h
        · cases h
          exact references_subset_of_node hnode
        · cases h
          exact List.nil_subset _

theorem references_subset_of_resolve {s : Schema} (h : tree.resolve reference from_ = .ok s) :
    s.references ⊆ tree.root.texts := by
  obtain ⟨pointer, -, h⟩ := bind_eq_ok_iff.mp h
  exact references_subset_of_follow _ _ h

end DocumentTree

namespace Setting

variable {run : Setting}

/-- The references in a node are texts of the document tree. -/
def Textual (run : Setting) (node : SchemaNode) : Prop := node.references ⊆ run.tree.root.texts

/-- What a reference finds is textual. -/
theorem textual_origin {pointer from_ : String} {node : SchemaNode}
    (h : run.origin pointer from_ = .ok node) : run.Textual node := by
  obtain ⟨value, hvalue, h⟩ := bind_eq_ok_iff.mp h
  split at h
  · next target href =>
    cases h
    exact List.cons_subset.mpr ⟨DocumentTree.text_of_link hvalue href, List.nil_subset _⟩
  · cases h
    exact List.nil_subset _
  · obtain ⟨s, hs, h⟩ := bind_eq_ok_iff.mp h
    cases h
    exact DocumentTree.references_subset_of_resolve hs

end Setting

end OpenApiTs
