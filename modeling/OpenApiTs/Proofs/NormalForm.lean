import OpenApiTs.Proofs.Places
import OpenApiTs.Schema.Encode

/-!
# The normal form of a schema

A value can spell a node in many ways: by position or by key, with keys that mean nothing, with
keys that are there twice, with nulls and empty lists. The JSON form of the node spells it in one
way, and decodes to the same node again. A decoded schema has properties under distinct keys and
no null where null stands for nothing, and this is all that its JSON form relies on: each of its
members is read into the field that it was written from, and a field that is left out has what the
schema starts with.

## Main definitions

* `SchemaNode.Restored`: the JSON form of a node decodes to the node.
* `Schema.Restorable`: a schema with restored parts and no field that is lost.
* `Schema.Fills`: members that turn one schema into another as they are read.
* `Json.Faithful`: a value decodes to restored nodes only.

## Main results

* `Schema.Restorable.restored`: restorable schemas are restored.
* `Json.faithful`: every value decodes to restored nodes only.
* `SchemaNode.decode_normalForm`: nodes have a normal form.
-/

namespace OpenApiTs

/-- The JSON form of a node decodes to the node. -/
def SchemaNode.Restored (node : SchemaNode) : Prop := SchemaNode.decode node.toJson = .ok node

/-- The parts of a schema are restored, keys are distinct, and null is not stated as a value where
it stands for nothing. -/
structure Schema.Restorable (s : Schema) : Prop where
  keys_nodup : (Entries.keys s.properties).Nodup
  properties : ∀ e ∈ s.properties, e.2.Restored
  additional : ∀ node, s.additional = some node → node.Restored
  items : ∀ node, s.items = some node → node.Restored
  oneOf : ∀ node ∈ s.oneOf, node.Restored
  anyOf : ∀ node ∈ s.anyOf, node.Restored
  allOf : ∀ node ∈ s.allOf, node.Restored
  mapping_nodup : ∀ d, s.discriminator = some d → (Entries.keys d.mapping).Nodup
  byDefault : s.byDefault ≠ some .null
  exampleValue : s.exampleValue ≠ some .null

/-! ### Lists and tables read back -/

section ReadBack

variable {ι α ε : Type} {f : ι → Except ε α} {g : α → ι}

theorem mapM_of_readBack :
    (xs : List α) → (∀ x ∈ xs, f (g x) = .ok x) → (xs.map g).mapM f = .ok xs
  | [], _ => rfl
  | x :: xs, h => by
      rw [List.map_cons, List.mapM_cons, h x List.mem_cons_self,
        mapM_of_readBack xs fun y hy => h y (List.mem_cons_of_mem x hy)]
      rfl

private theorem foldlM_of_readBack :
    (entries : List (String × α)) → (all : List (String × α)) →
      (Entries.keys (all ++ entries)).Nodup → (∀ e ∈ entries, f (g e.2) = .ok e.2) →
      (entries.map fun e => (e.1, g e.2)).foldlM
        (fun all (m : String × ι) => return Entries.put m.1 (← f m.2) all) all =
          (.ok (all ++ entries) : Except ε _)
  | [], all, _, _ => congrArg Except.ok (List.append_nil all).symm
  | (key, x) :: rest, all, hnodup, h => by
      have hkeys : Entries.keys (all ++ (key, x) :: rest) =
          Entries.keys all ++ key :: Entries.keys rest := List.map_append
      have hnew : key ∉ Entries.keys all := fun hmem =>
        List.disjoint_of_nodup_append (hkeys ▸ hnodup) hmem List.mem_cons_self
      rw [List.map_cons, List.foldlM_cons, h _ List.mem_cons_self]
      change List.foldlM _ (Entries.put key x all) _ = _
      rw [List.append_cons] at hnodup ⊢
      rw [Entries.put_of_not_mem hnew]
      exact foldlM_of_readBack rest _ hnodup fun e he => h e (List.mem_cons_of_mem _ he)

end ReadBack

namespace Decode

variable {α : Type} {decode : Decoder α} {encode : α → Json}

/-- A value is there if null stands for nothing and it is not null. -/
theorem optional_eq_some_iff {v : Json} {a : α} :
    Decode.optional decode v = .ok (some a) ↔ v ≠ .null ∧ decode v = .ok a := by
  cases v with
  | null => exact ⟨nofun, fun h => absurd rfl h.1⟩
  | bool _ | number _ | string _ | array _ | object _ =>
    refine ⟨fun h => ⟨nofun, ?_⟩, fun h => congrArg (Except.map some) h.2⟩
    obtain ⟨_, ha, heq⟩ := map_eq_ok_iff.mp h
    cases heq
    exact ha

theorem list_of_readBack (xs : List α) (h : ∀ x ∈ xs, decode (encode x) = .ok x) :
    Decode.list decode (.array (xs.map encode)) = .ok xs :=
  mapM_of_readBack xs h

theorem table_of_readBack (entries : List (String × α)) (hnodup : (Entries.keys entries).Nodup)
    (h : ∀ e ∈ entries, decode (encode e.2) = .ok e.2) :
    Decode.table decode (.object (entries.map fun e => (e.1, encode e.2))) = .ok entries :=
  foldlM_of_readBack entries [] hnodup h

end Decode

/-! ### Members read into a record -/

namespace Record

variable {ι α β : Type} {r : Record ι α} {members members' : List (String × ι)} {x y z : α}

/-- Members that turn one record into another as they are read. -/
def Fills (r : Record ι α) (members : List (String × ι)) (x y : α) : Prop :=
  r.storeMembers members x = .ok y

theorem Fills.append (h : r.Fills members x y) (h' : r.Fills members' y z) :
    r.Fills (members ++ members') x z := by
  unfold Fills at h h' ⊢
  induction members generalizing x with
  | nil =>
    cases h
    exact h'
  | cons m rest ih =>
    rw [List.cons_append]
    rw [storeMembers] at h ⊢
    split at h
    · obtain ⟨w, hw, h⟩ := bind_eq_ok_iff.mp h
      exact bind_eq_ok_iff.mpr ⟨w, hw, ih h⟩
    · exact ih h

/-- A member is read into its field. -/
theorem fills_single {key : String} {required : Bool} {decode : ι → Except DecodeError β}
    {store : β → α → α} {v : ι} {b : β}
    (hf : r.fields.find? (fun f => f.key == key) =
      some ⟨key, required, fun v x => return store (← decode v) x⟩)
    (h : decode v = .ok b) (hy : store b x = y) : r.Fills [(key, v)] x y := by
  subst hy
  rw [Fills, storeMembers, hf]
  exact bind_eq_ok_iff.mpr ⟨_, bind_eq_ok_iff.mpr ⟨b, h, rfl⟩, rfl⟩

/-- A decoded record has a property that its fields keep. -/
theorem decode_keeps {r : Record Json α} {P : α → Prop}
    (hf : ∀ f ∈ r.fields, ∀ v x y, P x → f.read v x = .ok y → P y) (hstart : P r.start)
    {v : Json} {y : α} (h : r.decode .json v = .ok y) : P y := by
  cases v with
  | object members => exact ofMembers_keeps (fun f hmem m _ => hf f hmem m.2) hstart h
  | array elements => exact ofElements_keeps (fun f hmem v _ => hf f hmem v) hstart h
  | null | bool _ | number _ | string _ => cases h

theorem Fills.ofMembers (h : r.Fills members r.start x) (hmissing : r.missing? members = none) :
    r.ofMembers members = .ok x := by
  rw [Record.ofMembers]
  refine bind_eq_ok_iff.mpr ⟨x, h, ?_⟩
  rw [hmissing]
  rfl

end Record

/-! ### Parts of a schema read back -/

namespace SchemaNode

theorem listToJson_eq (nodes : List SchemaNode) : listToJson nodes = nodes.map toJson := by
  induction nodes with
  | nil => rfl
  | cons node rest ih => rw [listToJson, ih, List.map_cons]

theorem tableToJson_eq (table : List (String × SchemaNode)) :
    tableToJson table = table.map fun e => (e.1, e.2.toJson) := by
  induction table with
  | nil => rfl
  | cons e rest ih => rw [tableToJson, ih, List.map_cons]

theorem optionToJson_eq (node : Option SchemaNode) : optionToJson node = node.map toJson := by
  cases node <;> rw [optionToJson] <;> rfl

theorem toJson_ne_null (node : SchemaNode) : node.toJson ≠ .null := by
  cases node with
  | reference _ => rw [toJson]; exact nofun
  | boolean _ => rw [toJson]; exact nofun
  | schema s => cases s; rw [toJson, Schema.toJson]; exact nofun

end SchemaNode

theorem TypeNames.decode_toJson (types : TypeNames) :
    TypeNames.decode types.toJson = .ok types := by
  cases types with
  | one name => rfl
  | many names =>
    have hnames : (names.map Json.string).mapM Decode.string = .ok names :=
      mapM_of_readBack names fun _ _ => rfl
    rw [TypeNames.toJson, TypeNames.decode, hnames]

theorem Discriminator.decode_toJson (d : Discriminator) (h : (Entries.keys d.mapping).Nodup) :
    Discriminator.record.decode .json d.toJson = .ok d := by
  obtain ⟨name, mapping⟩ := d
  have hname : Discriminator.record.Fills [("propertyName", .string name)]
      Discriminator.record.start ⟨name, []⟩ := Record.fills_single rfl rfl rfl
  cases mapping with
  | nil => exact hname.ofMembers rfl
  | cons e rest =>
    have htable : Decode.table Decode.string
        (.object ((e :: rest).map fun e => (e.1, .string e.2))) = .ok (e :: rest) :=
      Decode.table_of_readBack (e :: rest) h fun _ _ => rfl
    have hmapping : Discriminator.record.Fills
        [("mapping", .object ((e :: rest).map fun e => (e.1, .string e.2)))]
        ⟨name, []⟩ ⟨name, e :: rest⟩ := Record.fills_single rfl htable rfl
    exact (hname.append hmapping).ofMembers rfl

theorem Discriminator.nodup_mapping {v : Json} {d : Discriminator}
    (h : Discriminator.record.decode .json v = .ok d) : (Entries.keys d.mapping).Nodup := by
  have hstart : (Entries.keys Discriminator.record.start.mapping).Nodup := List.nodup_nil
  refine Record.decode_keeps (P := fun d => (Entries.keys d.mapping).Nodup) ?_ hstart h
  simp only [Discriminator.record, List.forall_mem_cons]
  refine ⟨fun v x y hx hy => ?_, fun v x y hx hy => ?_, fun f hf => nomatch hf⟩
  · obtain ⟨_, -, hy⟩ := bind_eq_ok_iff.mp hy
    cases hy
    exact hx
  · obtain ⟨mapping, hmapping, hy⟩ := bind_eq_ok_iff.mp hy
    cases hy
    cases v with
    | object members => exact nodup_keys_of_table hmapping
    | null | bool _ | number _ | string _ | array _ => cases hmapping

/-! ### Schemas read back -/

namespace Schema

theorem value_readings (v : Json) : (readings v).value = v := by
  cases v <;> rfl

/-- Members that turn one schema into another as they are read, and that do not make a reference of
the object that they are in. -/
structure Fills (members : List (String × Json)) (x y : Schema) : Prop where
  reads : record.Fills (memberReadings members) x y
  schematic : "$ref" ∉ Entries.keys members

theorem Fills.append {members members' : List (String × Json)} {x y z : Schema}
    (h : Fills members x y) (h' : Fills members' y z) : Fills (members ++ members') x z where
  reads := by
    have hreads := Record.Fills.append h.reads h'.reads
    rw [memberReadings_eq, memberReadings_eq, ← List.map_append, ← memberReadings_eq] at hreads
    exact hreads
  schematic := by
    rw [Entries.keys, List.map_append, List.mem_append, not_or]
    exact ⟨h.schematic, h'.schematic⟩

section Members

variable {α : Type} {x : Schema}

theorem fills_nil {y : Schema} (h : y = x) : Fills [] x y := ⟨congrArg Except.ok h.symm, nofun⟩

/-- A member is read into its field, and there is no field for references. -/
theorem fills_single {key : String} {decode : Readings → Except DecodeError α}
    {store : α → Schema → Schema}
    (hf : record.fields.find? (fun f => f.key == key) = some (.defaulted key decode store))
    {v : Json} {a : α} (h : decode (readings v) = .ok a) :
    Fills [(key, v)] x (store a x) where
  reads := Record.fills_single hf h rfl
  schematic hmem := by
    obtain rfl := List.mem_singleton.mp hmem
    exact nomatch hf

/-! A member that is left out changes nothing. -/

theorem fills_option (key : String) (value : Option α) {encode : α → Json} {json : Option Json}
    (hjson : json = value.map encode)
    {decode : Readings → Except DecodeError (Option α)} {store : Option α → Schema → Schema}
    (hf : record.fields.find? (fun f => f.key == key) = some (.defaulted key decode store))
    (h : ∀ a, value = some a → decode (readings (encode a)) = .ok (some a))
    (habsent : store none x = x) : Fills (memberOf key json) x (store value x) := by
  subst hjson
  cases value with
  | none => exact fills_nil habsent
  | some a => exact fills_single hf (h a rfl)

theorem fills_list (key : String) (values : List α) {encode : α → Json} {elements : List Json}
    (helements : elements = values.map encode)
    {decode : Readings → Except DecodeError (List α)} {store : List α → Schema → Schema}
    (hf : record.fields.find? (fun f => f.key == key) = some (.defaulted key decode store))
    (h : decode (readings (.array (values.map encode))) = .ok values)
    (habsent : store [] x = x) : Fills (memberOfList key elements) x (store values x) := by
  subst helements
  cases values with
  | nil => exact fills_nil habsent
  | cons a rest => exact fills_single hf h

theorem fills_table (key : String) (table : List (String × α)) {encode : α → Json}
    {members : List (String × Json)} (hmembers : members = table.map fun e => (e.1, encode e.2))
    {decode : Readings → Except DecodeError (List (String × α))}
    {store : List (String × α) → Schema → Schema}
    (hf : record.fields.find? (fun f => f.key == key) = some (.defaulted key decode store))
    (h : decode (readings (.object (table.map fun e => (e.1, encode e.2)))) = .ok table)
    (habsent : store [] x = x) : Fills (memberOfTable key members) x (store table x) := by
  subst hmembers
  cases table with
  | nil => exact fills_nil habsent
  | cons e rest => exact fills_single hf h

theorem fills_flag (key : String) (flag : Bool) {store : Bool → Schema → Schema}
    (hf : record.fields.find? (fun f => f.key == key) =
      some (.defaulted key (Readings.plain Decode.boolean) store))
    (habsent : store false x = x) : Fills (memberOfFlag key flag) x (store flag x) := by
  cases flag with
  | false => exact fills_nil habsent
  | true => exact fills_single hf rfl

/-- A constant is left out only if there is none: null is a constant like others. -/
theorem fills_constant (constant : Option Json) (habsent : { x with constant := none } = x) :
    Fills (memberOf "const" constant) x { x with constant := constant } := by
  cases constant with
  | none => exact fills_nil habsent
  | some value =>
    have hf : record.fields.find? (fun f => f.key == "const") = some (.defaulted "const"
        (Readings.plain anyValue) fun value s => { s with constant := some value }) := rfl
    exact fills_single hf (congrArg Except.ok (value_readings value))

end Members

/-! A value that is not null stands for something wherever null stands for nothing. -/

section Optional

variable {α : Type} {v : Json}

theorem plain_optional_eq_some_iff {decode : Decoder α} {a : α} :
    (readings v).plain (Decode.optional decode) = .ok (some a) ↔ v ≠ .null ∧ decode v = .ok a := by
  rw [Readings.plain, value_readings, Decode.optional_eq_some_iff]

theorem optionalNode_eq_some_iff {node : SchemaNode} :
    (readings v).optionalNode = .ok (some node) ↔ v ≠ .null ∧ SchemaNode.decode v = .ok node := by
  rw [readings_optionalNode, Decode.optional_eq_some_iff]

theorem optionalAdditional_eq_some_iff {node : SchemaNode} :
    (readings v).optionalAdditional = .ok (some node) ↔
      v ≠ .null ∧ SchemaNode.decode v = .ok node := by
  refine ⟨decode_of_optionalAdditional, fun ⟨hnull, h⟩ => ?_⟩
  have hnode : (readings v).node = .ok node := h
  rw [Readings.optionalAdditional, hnode]
  cases v with
  | null => exact absurd rfl hnull
  | bool _ | number _ | string _ | array _ | object _ => rfl

end Optional

/-- The JSON form of a schema fills an empty one with the fields of the schema. -/
theorem Restorable.fills {s : Schema} (h : s.Restorable) :
    ∃ members, s.toJson = .object members ∧ Fills members {} s := by
  obtain ⟨hkeys, hproperties, hadditional, hitems, honeOf, hanyOf, hallOf, hmapping, hdefault,
    hexample⟩ := h
  obtain ⟨types, format, title, description, properties, required, additional, items, oneOf,
    anyOf, allOf, discriminator, enumeration, constant, nullable, deprecated, byDefault,
    exampleValue⟩ := s
  rw [toJson]
  refine ⟨_, rfl, ?_⟩
  have htypes : ∀ t, types = some t →
      (readings t.toJson).plain (Decode.optional TypeNames.decode) = .ok (some t) :=
    fun t _ => plain_optional_eq_some_iff.mpr
      ⟨by cases t <;> exact nofun, TypeNames.decode_toJson t⟩
  have htext {text? : Option String} : ∀ text, text? = some text →
      (readings (.string text)).plain (Decode.optional Decode.string) = .ok (some text) :=
    fun text _ => rfl
  have htable : (readings (.object (properties.map fun e => (e.1, e.2.toJson)))).table =
      .ok properties :=
    (readings_table _).trans (Decode.table_of_readBack properties hkeys hproperties)
  have hrequired : (readings (.array (required.map Json.string))).plain
      (Decode.list Decode.string) = .ok required :=
    Decode.list_of_readBack required fun _ _ => rfl
  have hadditional : ∀ node, additional = some node →
      (readings node.toJson).optionalAdditional = .ok (some node) :=
    fun node hnode =>
      optionalAdditional_eq_some_iff.mpr ⟨node.toJson_ne_null, hadditional node hnode⟩
  have hitems : ∀ node, items = some node →
      (readings node.toJson).optionalNode = .ok (some node) :=
    fun node hnode => optionalNode_eq_some_iff.mpr ⟨node.toJson_ne_null, hitems node hnode⟩
  have hnodes {nodes : List SchemaNode} (h : ∀ node ∈ nodes, node.Restored) :
      (readings (.array (nodes.map SchemaNode.toJson))).nodes = .ok nodes :=
    (readings_nodes _).trans (Decode.list_of_readBack nodes h)
  have hdiscriminator : ∀ d, discriminator = some d →
      (readings d.toJson).plain (Decode.optional Discriminator.record.decode) = .ok (some d) :=
    fun d hd => plain_optional_eq_some_iff.mpr ⟨nofun, d.decode_toJson (hmapping d hd)⟩
  have henumeration : (readings (.array (enumeration.map id))).plain (Decode.list anyValue) =
      .ok enumeration := Decode.list_of_readBack enumeration fun _ _ => rfl
  have hvalue {value? : Option Json} (h : value? ≠ some .null) : ∀ value, value? = some value →
      (readings value).plain (Decode.optional anyValue) = .ok (some value) :=
    fun value hvalue => plain_optional_eq_some_iff.mpr ⟨fun hnull => h (hnull ▸ hvalue), rfl⟩
  have h := fills_option "type" types rfl rfl htypes (x := {}) rfl
  have h := h.append (fills_option "format" format rfl rfl htext rfl)
  have h := h.append (fills_option "title" title rfl rfl htext rfl)
  have h := h.append (fills_option "description" description rfl rfl htext rfl)
  have h := h.append
    (fills_table "properties" properties (SchemaNode.tableToJson_eq _) rfl htable rfl)
  have h := h.append (fills_list "required" required rfl rfl hrequired rfl)
  have h := h.append (fills_option "additionalProperties" additional
    (SchemaNode.optionToJson_eq _) rfl hadditional rfl)
  have h := h.append (fills_option "items" items (SchemaNode.optionToJson_eq _) rfl hitems rfl)
  have h := h.append
    (fills_list "oneOf" oneOf (SchemaNode.listToJson_eq _) rfl (hnodes honeOf) rfl)
  have h := h.append
    (fills_list "anyOf" anyOf (SchemaNode.listToJson_eq _) rfl (hnodes hanyOf) rfl)
  have h := h.append
    (fills_list "allOf" allOf (SchemaNode.listToJson_eq _) rfl (hnodes hallOf) rfl)
  have h := h.append (fills_option "discriminator" discriminator rfl rfl hdiscriminator rfl)
  have h := h.append
    (fills_list "enum" enumeration (List.map_id _).symm rfl henumeration rfl)
  have h := h.append (fills_constant constant rfl)
  have h := h.append (fills_flag "nullable" nullable rfl rfl)
  have h := h.append (fills_flag "deprecated" deprecated rfl rfl)
  have h := h.append
    (fills_option "default" byDefault Option.map_id'.symm rfl (hvalue hdefault) rfl)
  have h := h.append
    (fills_option "example" exampleValue Option.map_id'.symm rfl (hvalue hexample) rfl)
  exact h

theorem Restorable.restored {s : Schema} (h : s.Restorable) : (SchemaNode.schema s).Restored := by
  obtain ⟨members, hjson, hfills⟩ := h.fills
  have hs : record.ofMembers (memberReadings members) = .ok s := hfills.reads.ofMembers rfl
  rw [SchemaNode.Restored, SchemaNode.toJson, hjson, SchemaNode.decode_object,
    Entries.get?_eq_none_iff.mpr hfills.schematic, hs]
  rfl

end Schema

/-! ### Decoded schemas are restorable -/

/-- Whatever a value stands for is restored from its JSON form. -/
structure Json.Faithful (v : Json) : Prop where
  node : ∀ node, SchemaNode.decode v = .ok node → node.Restored
  nodes : ∀ nodes, Decode.list SchemaNode.decode v = .ok nodes → ∀ node ∈ nodes, node.Restored
  table : ∀ table, Decode.table SchemaNode.decode v = .ok table →
    (Entries.keys table).Nodup ∧ ∀ e ∈ table, e.2.Restored
  schema : ∀ s, Schema.decode v = .ok s → s.Restorable

namespace Schema

section Fields

variable {β : Type} {key : String} {decode : Readings → Except DecodeError β}
  {store : β → Schema → Schema}

/-- A field keeps schemas restorable if what it stores does. -/
private theorem field_restorable
    (h : ∀ v : Json, v.Faithful → ∀ b x, decode (readings v) = .ok b → Restorable x →
      Restorable (store b x)) :
    ∀ v : Json, v.Faithful → ∀ x y, Restorable x →
      (Field.defaulted key decode store).read (readings v) x = .ok y → Restorable y := by
  intro v hv x y hx hy
  obtain ⟨b, hb, hy⟩ := bind_eq_ok_iff.mp hy
  cases hy
  exact h v hv b x hb hx

private theorem plainField_restorable
    (h : ∀ b x, Restorable x → Restorable (store b x) := by exact fun _ _ hx => { hx with }) :
    ∀ v : Json, v.Faithful → ∀ x y, Restorable x →
      (Field.defaulted key decode store).read (readings v) x = .ok y → Restorable y :=
  field_restorable fun _ _ b x _ hx => h b x hx

end Fields

private theorem record_restorable :
    ∀ f ∈ record.fields, ∀ v : Json, v.Faithful → ∀ x y, Restorable x →
      f.read (readings v) x = .ok y → Restorable y := by
  simp only [record, List.forall_mem_cons]
  refine ⟨plainField_restorable, plainField_restorable, plainField_restorable,
    plainField_restorable, field_restorable ?_, plainField_restorable, field_restorable ?_,
    field_restorable ?_, field_restorable ?_, field_restorable ?_, field_restorable ?_,
    field_restorable ?_, plainField_restorable, plainField_restorable, plainField_restorable,
    plainField_restorable, field_restorable ?_, field_restorable ?_,
    fun _ hmem => absurd hmem List.not_mem_nil⟩ <;>
    intro v hv b x hb hx
  · obtain ⟨hkeys, hproperties⟩ := hv.table b (readings_table v ▸ hb)
    exact { hx with keys_nodup := hkeys, properties := hproperties }
  · refine { hx with additional := fun node hnode => ?_ }
    obtain rfl : b = some node := hnode
    exact hv.node node (optionalAdditional_eq_some_iff.mp hb).2
  · refine { hx with items := fun node hnode => ?_ }
    obtain rfl : b = some node := hnode
    exact hv.node node (optionalNode_eq_some_iff.mp hb).2
  · exact { hx with oneOf := hv.nodes b (readings_nodes v ▸ hb) }
  · exact { hx with anyOf := hv.nodes b (readings_nodes v ▸ hb) }
  · exact { hx with allOf := hv.nodes b (readings_nodes v ▸ hb) }
  · refine { hx with mapping_nodup := fun d hd => ?_ }
    obtain rfl : b = some d := hd
    exact Discriminator.nodup_mapping (plain_optional_eq_some_iff.mp hb).2
  · refine { hx with byDefault := ?_ }
    rintro (rfl : b = some .null)
    obtain ⟨hnull, hvalue⟩ := plain_optional_eq_some_iff.mp hb
    exact hnull (Except.ok.inj hvalue)
  · refine { hx with exampleValue := ?_ }
    rintro (rfl : b = some .null)
    obtain ⟨hnull, hvalue⟩ := plain_optional_eq_some_iff.mp hb
    exact hnull (Except.ok.inj hvalue)

theorem restorable_empty : Restorable {} := by
  refine ⟨List.nodup_nil, ?_, ?_, ?_, ?_, ?_, ?_, ?_, ?_, ?_⟩ <;> exact nofun

theorem restored_of_asNode {schema : Except DecodeError Schema} {node : SchemaNode}
    (h : ∀ s, schema = .ok s → s.Restorable) (hn : asNode schema = .ok node) : node.Restored := by
  cases schema with
  | error e => cases hn
  | ok s =>
    cases hn
    exact (h s rfl).restored

end Schema

namespace SchemaNode

theorem restored_reference (pointer : String) : (reference pointer).Restored := by
  rw [Restored, toJson, decode_object]
  rfl

theorem restored_boolean (allowed : Bool) : (boolean allowed).Restored := by
  rw [Restored, toJson]
  rfl

end SchemaNode

namespace Json

open Schema

theorem faithful_array {elements : List Json} (h : ∀ v ∈ elements, v.Faithful) :
    (array elements).Faithful := by
  have hschema : ∀ s, record.ofElements (elementReadings elements) = .ok s → s.Restorable := by
    rw [elementReadings_eq]
    refine fun s hs => Record.ofElements_keeps (fun f hf r hr => ?_) restorable_empty hs
    obtain ⟨v, hv, rfl⟩ := List.mem_map.mp hr
    exact record_restorable f hf v (h v hv)
  refine ⟨fun node hnode => ?_, fun nodes hnodes node hnode => ?_, nofun, hschema⟩
  · change (arrayReadings elements (elementReadings elements)).node = .ok node at hnode
    unfold arrayReadings at hnode
    dsimp only at hnode
    split at hnode
    · cases hnode
      exact SchemaNode.restored_reference _
    · exact restored_of_asNode hschema hnode
  · obtain ⟨i, hi⟩ := List.mem_iff_getElem?.mp hnode
    obtain ⟨v, hv, hdecode⟩ := exists_element_of_list hnodes hi
    exact (h v (List.mem_of_getElem? hv)).node node hdecode

theorem faithful_object {members : List (String × Json)} (h : ∀ m ∈ members, m.2.Faithful) :
    (object members).Faithful := by
  have hschema : ∀ s, record.ofMembers (memberReadings members) = .ok s → s.Restorable := by
    rw [memberReadings_eq]
    refine fun s hs => Record.ofMembers_keeps (fun f hf m hm => ?_) restorable_empty hs
    obtain ⟨m, hmem, rfl⟩ := List.mem_map.mp hm
    exact record_restorable f hf m.2 (h m hmem)
  refine ⟨fun node hnode => ?_, nofun, fun table htable => ?_, hschema⟩
  · rw [SchemaNode.decode_object] at hnode
    split at hnode
    · cases hnode
      exact SchemaNode.restored_reference _
    · exact restored_of_asNode hschema hnode
  · refine ⟨nodup_keys_of_table htable, fun e he => ?_⟩
    obtain ⟨v, hv, hdecode⟩ := exists_member_of_table htable e he
    exact (h _ hv).node e.2 hdecode

mutual

/-- Whatever a value stands for, it is restored from its JSON form. -/
theorem faithful : (v : Json) → v.Faithful
  | .null | .number _ | .string _ => by
      refine ⟨?_, ?_, ?_, ?_⟩ <;> exact nofun
  | .bool allowed => by
      refine ⟨fun node h => ?_, nofun, nofun, nofun⟩
      cases h
      exact SchemaNode.restored_boolean allowed
  | .array elements => faithful_array (faithful_elements elements)
  | .object members => faithful_object (faithful_members members)

private theorem faithful_elements : (elements : List Json) → ∀ v ∈ elements, v.Faithful
  | [] => List.forall_mem_nil _
  | v :: rest => List.forall_mem_cons.mpr ⟨faithful v, faithful_elements rest⟩

private theorem faithful_members :
    (members : List (String × Json)) → ∀ m ∈ members, m.2.Faithful
  | [] => List.forall_mem_nil _
  | (_, v) :: rest => List.forall_mem_cons.mpr ⟨faithful v, faithful_members rest⟩

end

end Json

/-! ### Normal forms -/

/-- A decoded node has a JSON form that decodes to the node, whatever it was decoded from. -/
theorem SchemaNode.decode_normalForm {v : Json} {node : SchemaNode}
    (h : SchemaNode.decode v = .ok node) : SchemaNode.decode node.toJson = .ok node :=
  v.faithful.node node h

/-- A record by position, with a constant null and with a reference by position in it. -/
def Json.positional : Json :=
  .array [.array [.string "object"], .null, .null, .null,
    .object [
      ("kind", .object [("const", .null), ("default", .null), ("kind", .null)]),
      ("base", .array [.string "#/components/schemas/Base"])],
    .array [], .bool false, .bool true]

/-- The node that `Json.positional` spells. -/
def SchemaNode.ofPositional : SchemaNode :=
  .schema {
    types := some (.many ["object"])
    properties := [
      ("kind", .schema { constant := some .null }),
      ("base", .reference "#/components/schemas/Base")]
    additional := some (.boolean false)
    items := some (.boolean true) }

theorem SchemaNode.decode_normalForm_positional :
    SchemaNode.decode .positional = .ok ofPositional ∧
      SchemaNode.decode ofPositional.toJson = .ok ofPositional := by
  have h : SchemaNode.decode .positional = .ok ofPositional := rfl
  exact ⟨h, decode_normalForm h⟩

end OpenApiTs
