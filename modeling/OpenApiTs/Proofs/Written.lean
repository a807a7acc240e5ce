import OpenApiTs.Proofs.Places

/-!
# Parts of a document as they are written

The values of a document tree that parts are decoded from: path items and component schemas to begin
with, and from there on the values of fields, at their keys in an object or at their positions in an
array, and what references lead to. A part that is written as an object, and is decoded on the way
from the document to a node, stands at the pointer that the way is spelled with. An array that
stands for a record has its parts elsewhere, but they are decoded from values that are read all the
same. So what is said about parts is stated once for both: for any way to say where values stand
that commits itself to nothing as soon as a part is written as an array.

## Main definitions

* `Role`: what a value is read as.
* `Json.Writes`: the values of a tree that are read in some role.
* `Json.IsPlain`: all of them are objects, or booleans for schemas.
* `Json.Refers`: the references among the values that are read.
* `Json.refTexts`: all members `$ref`.
* `Json.Follows`: the pointers that a run can follow to schemas.
* `Json.check`: a test of all of them.
* `Json.Placement`: where values can be said to stand.
* `Json.Placement.Stands`: a value that is read in a role stands at a location and decodes to a
  given part.
* `Json.Placement.Bears`: a node stands at a location, or states nothing.

## Main results

* `Operation.stands_part`, `Json.Placement.Bears.part`, `Json.Placement.bears_target`: the nodes in
  operations, in schemas and at the targets of references stand where they are said to.
* `Document.stands_path`, `Document.stands_component`: so do path items and component schemas.
* `Json.Placement.Bears.references`: the references in a node are among those that are read.
* `Json.Writes.of_check`, `Json.Refers.of_check`: what a test shows of all values and references.
-/

namespace OpenApiTs

/-! ### Roles -/

/-- What a value is read as: a part, or the entry for one, which can be a reference. -/
inductive Role where
  | pathItem
  | operation
  | parameter
  | body
  | response
  | mediaType
  | schema
  | entry (role : Role)
  deriving DecidableEq, Repr

/-- How a field holds parts: one or null, a table, or a list. -/
inductive Slot where
  | single
  | table
  | list
  deriving DecidableEq, Repr

/-- The values in a field. -/
def Slot.values : Slot → Json → List Json
  | .single, .null => []
  | .single, value => [value]
  | .table, .object members => members.map Prod.snd
  | .list, .array elements => elements
  | _, _ => []

namespace Role

/-- The keys of the fields of a part in the order of the record. -/
def keys : Role → List String
  | pathItem => PathItem.record.fields.map Field.key
  | operation => Operation.record.fields.map Field.key
  | parameter => Parameter.record.fields.map Field.key
  | body => RequestBody.record.fields.map Field.key
  | response => Response.record.fields.map Field.key
  | mediaType => MediaType.record.fields.map Field.key
  | schema => Schema.record.fields.map Field.key
  | entry _ => []

/-- The fields of a part that hold parts. -/
def slots : Role → List (String × Slot × Role)
  | pathItem =>
    ("parameters", .list, entry parameter) :: Method.all.map fun m => (m.name, .single, operation)
  | operation =>
    [("parameters", .list, entry parameter), ("requestBody", .single, entry body),
      ("responses", .table, entry response)]
  | parameter | mediaType => [("schema", .single, entry schema)]
  | body | response => [("content", .table, mediaType)]
  | schema =>
    [("properties", .table, entry schema), ("additionalProperties", .single, entry schema),
      ("items", .single, entry schema), ("oneOf", .list, entry schema),
      ("anyOf", .list, entry schema), ("allOf", .list, entry schema)]
  | entry _ => []

/-- What the target of a reference to a part is read as. Only references to schemas can lead to
further references. -/
def target : Role → Role
  | schema => entry schema
  | role => role

/-- The value of a field: at its key in an object, at its position in an array. -/
def member? (role : Role) (key : String) : Json → Option Json
  | .object members => Entries.get? key members
  | .array elements => elements[role.keys.idxOf key]?
  | _ => none

/-- The values in the fields of a value that is read as a part. -/
def parts (role : Role) (value : Json) : List (Role × Json) :=
  role.slots.flatMap fun (key, slot, part) =>
    ((role.member? key value).elim [] slot.values).map fun v => (part, v)

/-- Whether a part is a schema or the entry for one. -/
def isSchema : Role → Bool
  | schema | entry schema => true
  | _ => false

/-- Whether a value is an object, or a boolean for a schema. -/
def isPlain (role : Role) : Json → Bool
  | .object _ => true
  | .bool _ => role.isSchema
  | _ => false

theorem nodup_keys (role : Role) : role.keys.Nodup := by
  cases role with
  | entry role => exact List.nodup_nil
  | pathItem | operation | parameter | body | response | mediaType | schema => decide

end Role

namespace Json

/-- The members of an object or the elements of an array. -/
def children : Json → List Json
  | .object members => members.map Prod.snd
  | .array elements => elements
  | _ => []

/-- The path items and the component schemas of a tree. -/
def starts (root : Json) : List (Role × Json) :=
  (((Pointer.lookup? root "#/paths").elim [] children).map fun v => (.pathItem, v)) ++
    ((Pointer.lookup? root Setting.componentSchemas).elim [] children).map fun v =>
      (.entry .schema, v)

/-- What an entry stands for: the part that it is, or the target of its reference. -/
def behind (root : Json) : Role → Json → List (Role × Json)
  | .entry role, value =>
    match Referable.pointer? value with
    | none => [(role, value)]
    | some reference =>
      match Pointer.canonicalize reference with
      | .ok pointer => (Pointer.lookup? root pointer).toList.map fun v => (role.target, v)
      | .error _ => []
  | _, _ => []

/-- The values of a tree that are read in some role. -/
inductive Writes (root : Json) : Role → Json → Prop
  | start {role value} (h : (role, value) ∈ root.starts) : Writes root role value
  | part {role value part v} (h : Writes root role value) (hv : (part, v) ∈ role.parts value) :
      Writes root part v
  | behind {role value part v} (h : Writes root role value)
      (hv : (part, v) ∈ root.behind role value) : Writes root part v

/-- A value that is read as the entry for a part is a reference. -/
def Refers (root : Json) (role : Role) (reference : String) : Prop :=
  ∃ value, root.Writes (.entry role) value ∧ Referable.pointer? value = some reference

mutual

/-- The texts of the members `$ref` in a value, whatever they are read as. -/
def refTexts : Json → List String
  | .array elements => refTextsElements elements
  | .object members => refTextsMembers members
  | _ => []

/-- The texts of the members `$ref` in elements. -/
def refTextsElements : List Json → List String
  | [] => []
  | value :: rest => value.refTexts ++ refTextsElements rest

/-- The texts of the members `$ref` among members and in them. -/
def refTextsMembers : List (String × Json) → List String
  | [] => []
  | (key, value) :: rest =>
    (if key = "$ref" then value.string?.toList else []) ++ value.refTexts ++ refTextsMembers rest

end

/-- A pointer that a run can follow to a schema: that of a component schema, or a reference. -/
def Follows (root : Json) (pointer : String) : Prop :=
  root.Refers .schema pointer ∨ ∃ name, pointer = Pointer.child Setting.componentSchemas name

/-- All values that are read in some role are objects, or booleans for schemas. -/
def IsPlain (root : Json) : Prop :=
  ∀ role value, root.Writes role value → role.isPlain value = true

variable {root value v : Json} {role part : Role}

theorem mem_children_of_lookup? {pointer segment : String}
    (h : Pointer.lookup? root (Pointer.child pointer segment) = some v) :
    v ∈ (Pointer.lookup? root pointer).elim [] children := by
  rw [Pointer.lookup?_child] at h
  obtain ⟨value, hvalue, h⟩ := Option.bind_eq_some_iff.mp h
  rw [hvalue]
  cases value with
  | object members => exact List.mem_map.mpr ⟨_, Entries.mem_of_get? h, rfl⟩
  | array elements =>
    obtain ⟨i, -, hi⟩ := Option.bind_eq_some_iff.mp h
    exact List.mem_of_getElem? hi
  | null | bool _ | number _ | string _ => cases h

namespace Writes

theorem pathItem {path : String}
    (h : Pointer.lookup? root (Pointer.child "#/paths" path) = some v) :
    root.Writes .pathItem v :=
  .start (List.mem_append_left _ (List.mem_map_of_mem (mem_children_of_lookup? h)))

theorem component {name : String}
    (h : Pointer.lookup? root (Pointer.child Setting.componentSchemas name) = some v) :
    root.Writes (.entry .schema) v :=
  .start (List.mem_append_right _ (List.mem_map_of_mem (mem_children_of_lookup? h)))

theorem field {key : String} {slot : Slot} {member : Json} (h : root.Writes role value)
    (hslot : (key, slot, part) ∈ role.slots) (hmember : role.member? key value = some member)
    (hv : v ∈ slot.values member) : root.Writes part v := by
  refine h.part (List.mem_flatMap.mpr ⟨_, hslot, List.mem_map_of_mem ?_⟩)
  rw [hmember]
  exact hv

theorem item (h : root.Writes (.entry role) value) (hitem : Referable.pointer? value = none) :
    root.Writes role value := by
  refine h.behind ?_
  rw [Json.behind, hitem]
  exact List.mem_singleton_self _

theorem target {reference : String} (h : root.Writes (.entry role) value)
    (hreference : Referable.pointer? value = some reference)
    (hcanonical : Pointer.canonicalize reference = .ok reference)
    (hv : Pointer.lookup? root reference = some v) : root.Writes role.target v := by
  refine h.behind ?_
  rw [Json.behind, hreference]
  simp only [hcanonical, hv]
  exact List.mem_singleton_self _

end Writes

/-- What is at a pointer that is followed is read as the entry for a schema. -/
theorem Follows.writes {pointer : String} (h : root.Follows pointer)
    (hcanonical : Pointer.canonicalize pointer = .ok pointer)
    (hv : Pointer.lookup? root pointer = some v) : root.Writes (.entry .schema) v := by
  rcases h with ⟨value, hwrites, hreference⟩ | ⟨name, rfl⟩
  · exact hwrites.target hreference hcanonical hv
  · exact .component hv

/-! The values that are read in some role can be enumerated as long as no references lead back. -/

/-- Whether a test holds of a value and of all values that are read from there on, at most so many
steps away. -/
def check (root : Json) (test : Role → Json → Bool) : Nat → Role → Json → Bool
  | 0, _, _ => false
  | n + 1, role, value =>
    test role value &&
      (role.parts value ++ root.behind role value).all fun e => check root test n e.1 e.2

/-- A test that holds of all values from the start on holds of all values that are read. -/
theorem Writes.of_check (test : Role → Json → Bool) {n : Nat}
    (hstarts : root.starts.all (fun e => root.check test n e.1 e.2) = true)
    (h : root.Writes role value) : test role value = true := by
  have hcheck : ∃ n, root.check test n role value = true := by
    have hnext {role part : Role} {value v : Json}
        (hv : (part, v) ∈ role.parts value ++ root.behind role value)
        (ih : ∃ n, root.check test n role value = true) :
        ∃ n, root.check test n part v = true := by
      obtain ⟨n | n, hn⟩ := ih
      · cases hn
      · exact ⟨n, List.all_eq_true.mp (Bool.and_eq_true_iff.mp hn).2 _ hv⟩
    induction h with
    | start h => exact ⟨n, List.all_eq_true.mp hstarts _ h⟩
    | part _ hv ih => exact hnext (List.mem_append_left _ hv) ih
    | behind _ hv ih => exact hnext (List.mem_append_right _ hv) ih
  obtain ⟨n | n, hn⟩ := hcheck
  · cases hn
  · exact (Bool.and_eq_true_iff.mp hn).1

/-- A test that holds of all references from the start on holds of all that are read. -/
theorem Refers.of_check (test : String → Bool) {n : Nat}
    (hstarts : root.starts.all (fun e =>
      root.check (fun _ value => (Referable.pointer? value).all test) n e.1 e.2) = true)
    {reference : String} (h : root.Refers role reference) : test reference = true := by
  obtain ⟨value, hwrites, hreference⟩ := h
  have htest := hwrites.of_check _ hstarts
  rwa [hreference] at htest

end Json

/-! ### Where parts stand -/

namespace Json

variable {α β : Type} {root : Json} {role part : Role} {slot : Slot} {location key : String}

/-- A way to say where the values of a tree stand: a part of an object or of an array stands below
its segment, and what a pointer leads to stands at the pointer. Once any part is written as an
array, everything can stand everywhere. -/
structure Placement (root : Json) where
  At : String → Json → Prop
  at_step : ∀ {location value segment v}, At location value →
    Pointer.step? value segment = some v → At (Pointer.child location segment) v
  at_lookup : ∀ {pointer value}, Pointer.lookup? root pointer = some value → At pointer value
  at_of_array : ∀ {role elements}, root.Writes role (.array elements) → ∀ location value,
    At location value

namespace Placement

/-- Where no part is written as an array, values stand at the pointers that lead to them. -/
def lookups (hplain : root.IsPlain) : root.Placement where
  At location value := Pointer.lookup? root location = some value
  at_step hvalue hstep := by
    rw [Pointer.lookup?_child, hvalue]
    exact hstep
  at_lookup := id
  at_of_array hwrites := nomatch hplain _ _ hwrites

/-- Nothing is said about where values stand. -/
def anywhere (root : Json) : root.Placement where
  At _ _ := True
  at_step _ _ := trivial
  at_lookup _ := trivial
  at_of_array _ _ _ := trivial

/-- A value that is read in a role stands at a location and decodes to a part. -/
def Stands (place : root.Placement) (role : Role) (decode : Decoder α) (location : String)
    (x : α) : Prop :=
  ∃ value, place.At location value ∧ value.distinctKeys = true ∧ root.Writes role value ∧
    decode value = .ok x

/-- The value of a field stands at a location and decodes to what the field holds, and the values in
it are read in a role. -/
def Holds (place : root.Placement) (slot : Slot) (role : Role) (decode : Decoder α)
    (location : String) (x : α) : Prop :=
  ∃ value, place.At location value ∧ value.distinctKeys = true ∧
    (∀ v ∈ slot.values value, root.Writes role v) ∧ decode value = .ok x

variable {place : root.Placement}

namespace Holds

/-- The entry of a table stands below its key. -/
theorem table {decode : Decoder α} {table : List (String × α)}
    (h : place.Holds .table role (Decode.table decode) location table) {x : α}
    (hx : (key, x) ∈ table) : place.Stands role decode (Pointer.child location key) x := by
  obtain ⟨value, hat, hkeys, hwrites, htable⟩ := h
  cases value with
  | object members =>
    obtain ⟨v, hv, hdecode⟩ := exists_member_of_table htable _ hx
    have hstep : Pointer.step? (.object members) key = some v :=
      (Entries.get?_eq_some_iff (nodup_of_distinctKeys hkeys)).mpr hv
    exact ⟨v, place.at_step hat hstep, distinctKeys_of_step? hkeys hstep,
      hwrites v (List.mem_map.mpr ⟨_, hv, rfl⟩), hdecode⟩
  | array _ | null | bool _ | number _ | string _ => cases htable

/-- The entry of a list stands below its position. -/
theorem list {decode : Decoder α} {list : List α}
    (h : place.Holds .list role (Decode.list decode) location list) {i : Nat} {x : α}
    (hi : list[i]? = some x) : place.Stands role decode (Pointer.child location i.repr) x := by
  obtain ⟨value, hat, hkeys, hwrites, hlist⟩ := h
  cases value with
  | array elements =>
    obtain ⟨v, hv, hdecode⟩ := exists_element_of_list hlist hi
    have hstep : Pointer.step? (.array elements) i.repr = some v := by
      rw [Pointer.step?, Pointer.index?_repr]
      exact hv
    exact ⟨v, place.at_step hat hstep, distinctKeys_of_step? hkeys hstep,
      hwrites v (List.mem_of_getElem? hv), hdecode⟩
  | object _ | null | bool _ | number _ | string _ => cases hlist

/-- What a field holds stands at the field unless null is there. -/
theorem single {read : Decoder β} {decode : Decoder α} {y : β} {x : α}
    (h : place.Holds .single role read location y)
    (hdecode : ∀ value, read value = .ok y → value ≠ .null ∧ decode value = .ok x) :
    place.Stands role decode location x := by
  obtain ⟨value, hat, hkeys, hwrites, hread⟩ := h
  obtain ⟨hnull, hx⟩ := hdecode value hread
  refine ⟨value, hat, hkeys, hwrites value ?_, hx⟩
  cases value with
  | null => exact absurd rfl hnull
  | object _ | array _ | bool _ | number _ | string _ => exact List.mem_singleton_self _

theorem optional {decode : Decoder α} {x : α}
    (h : place.Holds .single role (Decode.optional decode) location (some x)) :
    place.Stands role decode location x := by
  refine h.single fun value hvalue => ?_
  cases value with
  | null => cases hvalue
  | object _ | array _ | bool _ | number _ | string _ =>
    unfold Decode.optional at hvalue
    obtain ⟨y, hy, heq⟩ := map_eq_ok_iff.mp hvalue
    cases heq
    exact ⟨nofun, hy⟩

end Holds

/-- The value of a field of a part that is read stands below its key. -/
theorem holds_of_member {value v : Json} {read : Decoder β} {y : β}
    (hat : place.At location value) (hkeys : value.distinctKeys = true)
    (h : root.Writes role value) (hslot : (key, slot, part) ∈ role.slots)
    (hmember : role.member? key value = some v) (hread : read v = .ok y) :
    place.Holds slot part read (Pointer.child location key) y := by
  have hwrites := fun w hw => h.field hslot hmember (v := w) hw
  cases value with
  | object members =>
    exact ⟨v, place.at_step hat hmember, distinctKeys_of_step? hkeys hmember, hwrites, hread⟩
  | array elements =>
    have hstep : Pointer.step? (.array elements) (role.keys.idxOf key).repr = some v := by
      rw [Pointer.step?, Pointer.index?_repr]
      exact hmember
    exact ⟨v, place.at_of_array h _ _, distinctKeys_of_step? hkeys hstep, hwrites, hread⟩
  | null | bool _ | number _ | string _ => cases hmember

namespace Stands

/-- A field of a record that holds anything stands below its key. -/
theorem field {r : Record Json α} {x : α} (h : place.Stands role (r.decode .json) location x)
    (hrole : role.keys = r.fields.map Field.key) (hslot : (key, slot, part) ∈ role.slots)
    {decode : Decoder β} {proj : α → β} (hr : r.HasField key decode proj)
    (hne : proj x ≠ proj r.start) :
    place.Holds slot part decode (Pointer.child location key) (proj x) := by
  obtain ⟨value, hat, hkeys, hwrites, hx⟩ := h
  cases value with
  | object members =>
    cases hget : Entries.get? key members with
    | none => exact absurd (hr.of_absent hget hx) hne
    | some v =>
      exact holds_of_member hat hkeys hwrites hslot hget
        (hr.of_get? (nodup_of_distinctKeys hkeys) hget hx)
  | array elements =>
    have hnodup : (r.fields.map Field.key).Nodup := hrole ▸ role.nodup_keys
    cases hget : elements[role.keys.idxOf key]? with
    | none => exact absurd (hr.of_no_element hnodup hx (hrole ▸ hget)) hne
    | some v =>
      exact holds_of_member hat hkeys hwrites hslot hget
        (hr.of_element hnodup hx (hrole ▸ hget))
  | null | bool _ | number _ | string _ => cases hx

/-- An entry that decodes to a reference is one of the references of the document. -/
theorem refers {decode : Decoder α} {reference : String}
    (h : place.Stands (.entry role) (Referable.decode decode) location (.reference reference)) :
    root.Refers role reference := by
  obtain ⟨value, -, -, hwrites, hdecode⟩ := h
  unfold Referable.decode at hdecode
  split at hdecode
  · next hreference =>
    cases hdecode
    exact ⟨value, hwrites, hreference⟩
  · cases hdecode
  · cases hdecode

end Stands

/-! ### Entries and their parts -/

section Entries

variable {run : Setting} {place : run.tree.root.Placement} {decode : Decoder α}
  {pointer owner : String} {x : α}

/-- A located part stands where it is said to. -/
theorem stands_locate (hkeys : run.tree.root.distinctKeys = true) {entry : Referable α}
    (hrole : role.target = role)
    (hentry : place.Stands (.entry role) (Referable.decode decode) pointer entry)
    (h : Gen.locate run decode pointer entry = .ok (x, owner)) :
    place.Stands role decode owner x := by
  obtain ⟨value, hat, hvaluekeys, hwrites, hdecode⟩ := hentry
  unfold Referable.decode at hdecode
  split at hdecode
  · next reference hreference =>
    cases hdecode
    obtain ⟨part, hpart, h⟩ := bind_eq_ok_iff.mp h
    obtain ⟨target, htarget, h⟩ := bind_eq_ok_iff.mp h
    cases h
    obtain rfl := DocumentTree.canonicalize_eq htarget
    obtain ⟨v, hlookup, hx⟩ := DocumentTree.lookup_of_part hpart
    obtain ⟨hcanonical, hv⟩ := DocumentTree.lookup?_of_lookup hlookup
    have hwrites' := hwrites.target hreference hcanonical hv
    rw [hrole] at hwrites'
    exact ⟨v, place.at_lookup hv, distinctKeys_of_lookup? hkeys hv, hwrites', hx⟩
  · next hreference hitem =>
    cases hdecode
    cases h
    exact ⟨value, hat, hvaluekeys, hwrites.item hreference, hitem⟩
  · cases hdecode

end Entries

end Placement

end Json

/-! ### Operations -/

section Operations

open Json Json.Placement

variable {run : Setting} {place : run.tree.root.Placement} {item : PathItem} {o : Operation}
  {path pointer location : String}

/-- The schema of the chosen media type of a body or a response stands where it is said to. -/
theorem MediaType.stands_located {α : Type} {role : Role} {r : Record Json α} {x : α}
    {content : α → List (String × MediaType)} {owner mediaType : String} {located : LocatedNode}
    (h : place.Stands role (r.decode .json) owner x)
    (hrole : role.keys = r.fields.map Field.key)
    (hslot : ("content", .table, .mediaType) ∈ role.slots)
    (hr : r.HasField "content" (Decode.table MediaType.record.decode) content)
    (hstart : content r.start = [])
    (hlocated : MediaType.located? (content x) owner = some (mediaType, located)) :
    place.Stands (.entry .schema) SchemaNode.decode located.location located.node := by
  obtain ⟨media, hmem, hnode, hlocation⟩ := mem_of_located? hlocated
  have hcontent := h.field hrole hslot hr (by rw [hstart]; exact List.ne_nil_of_mem hmem)
  have hschema := (hcontent.table hmem).field rfl List.mem_cons_self hasField_schema
    (by rw [hnode]; nofun)
  rw [hnode] at hschema
  rw [hlocation]
  exact hschema.optional

section Parts

variable (hkeys : run.tree.root.distinctKeys = true)
include hkeys

/-- A parameter of an operation stands where it is said to. -/
theorem Gen.stands_parameter
    (hitem : place.Stands .pathItem PathItem.record.decode (Pointer.child "#/paths" path) item)
    (ho : place.Stands .operation Operation.record.decode pointer o)
    {merged : List LocatedParameter} (h : allParameters run item o path pointer = .ok merged)
    {p : LocatedParameter} (hp : p ∈ merged) :
    place.Stands .parameter Parameter.record.decode p.pointer p.parameter := by
  rcases mem_allParameters h hp with ⟨j, entry, hj, hlocate⟩ | ⟨j, entry, hj, hlocate⟩
  · have hentries := hitem.field rfl List.mem_cons_self PathItem.hasField_parameters
      (List.ne_nil_of_mem (List.mem_of_getElem? hj))
    exact stands_locate hkeys rfl (hentries.list hj) hlocate
  · have hentries := ho.field rfl List.mem_cons_self Operation.hasFields.1
      (List.ne_nil_of_mem (List.mem_of_getElem? hj))
    exact stands_locate hkeys rfl (hentries.list hj) hlocate

/-- A node of an operation stands where it is said to. -/
theorem Operation.stands_part
    (hitem : place.Stands .pathItem PathItem.record.decode (Pointer.child "#/paths" path) item)
    (ho : place.Stands .operation Operation.record.decode pointer o) {node : SchemaNode}
    {spot : String} (h : o.HasPart run item path pointer node spot) :
    place.Stands (.entry .schema) SchemaNode.decode spot node := by
  obtain ⟨-, hrequest, hresponses⟩ := Operation.hasFields
  cases h with
  | request hentry hbody hlocated =>
    have hfield : place.Holds .single (.entry .body) _ _ o.requestBody :=
      ho.field rfl (by decide) hrequest (by rw [hentry]; nofun)
    rw [hentry] at hfield
    exact MediaType.stands_located (stands_locate hkeys rfl hfield.optional hbody) rfl
      List.mem_cons_self RequestBody.hasField_content rfl hlocated
  | @parameter merged p node hmerged hp hn =>
    have hparameter := Gen.stands_parameter hkeys hitem ho hmerged hp
    have hschema := hparameter.field rfl List.mem_cons_self Parameter.hasField_schema
      (by rw [hn]; nofun)
    rw [hn] at hschema
    exact hschema.optional
  | response hbodies hb =>
    obtain ⟨status, entry, response, owner, mediaType, hentry, hlocate, hlocated⟩ :=
      Gen.mem_responseBodies hbodies hb
    have hfield : place.Holds .table (.entry .response) _ _ o.responses :=
      ho.field rfl (by decide) hresponses (List.ne_nil_of_mem hentry)
    exact MediaType.stands_located (stands_locate hkeys rfl (hfield.table hentry) hlocate) rfl
      List.mem_cons_self Response.hasField_content rfl hlocated

end Parts

/-- An operation of a path stands below its method. -/
theorem PathItem.stands_operation
    (h : place.Stands .pathItem PathItem.record.decode location item) {method : Method}
    (ho : (method, o) ∈ item.operations) :
    place.Stands .operation Operation.record.decode (Pointer.child location method.name) o := by
  have hmethod := PathItem.operation?_of_mem ho
  have hslot : (method.name, Slot.single, Role.operation) ∈ Role.pathItem.slots := by
    cases method <;> decide
  have hfield := h.field rfl hslot (PathItem.hasField_operation method)
    (by rw [hmethod]; cases method <;> nofun)
  rw [hmethod] at hfield
  exact hfield.optional

end Operations

/-! ### Documents -/

/-- The entries of a table at a pointer stand below their keys if they are read in a role. -/
theorem Json.Placement.stands_of_lookup? {root value : Json} (place : root.Placement)
    (hkeys : root.distinctKeys = true) {role : Role} {base key : String}
    (hvalue : Pointer.lookup? root base = some value)
    (hwrites : ∀ key v, Pointer.lookup? root (Pointer.child base key) = some v →
      root.Writes role v)
    {α : Type} {decode : Decoder α} {table : List (String × α)} {x : α}
    (htable : Decode.table decode value = .ok table) (h : (key, x) ∈ table) :
    place.Stands role decode (Pointer.child base key) x := by
  have hvaluekeys := Json.distinctKeys_of_lookup? hkeys hvalue
  refine Json.Placement.Holds.table
    ⟨value, place.at_lookup hvalue, hvaluekeys, fun v hv => ?_, htable⟩ h
  cases value with
  | object entries =>
    obtain ⟨⟨segment, v⟩, hentry, rfl⟩ := List.mem_map.mp hv
    refine hwrites segment v ?_
    rw [Pointer.lookup?_child, hvalue]
    exact (Entries.get?_eq_some_iff (Json.nodup_of_distinctKeys hvaluekeys)).mpr hentry
  | array _ | null | bool _ | number _ | string _ => cases hv

namespace Document

variable {root : Json} (place : root.Placement) (hkeys : root.distinctKeys = true) {d : Document}
  (hd : ofTree root = .ok d)
include hkeys hd

/-- The paths of a document stand below their key. -/
theorem stands_path {path : String} {item : PathItem} (h : (path, item) ∈ d.paths) :
    place.Stands .pathItem PathItem.record.decode (Pointer.child "#/paths" path) item := by
  obtain ⟨⟨members, rfl⟩, hdecode⟩ := decode_of_ofTree hd
  have hr := hasField_paths (.object members)
  cases hget : Entries.get? "paths" members with
  | none =>
    rw [hr.of_absent hget hdecode] at h
    cases h
  | some value =>
    have hvalue : Pointer.lookup? (.object members) "#/paths" = some value := by
      rw [show "#/paths" = Pointer.child "#" "paths" by decide, Pointer.lookup?_child]
      exact hget
    exact place.stands_of_lookup? hkeys hvalue (fun _ _ => .pathItem)
      (hr.of_get? (Json.nodup_of_distinctKeys hkeys) hget hdecode) h

/-- The component schemas of a document stand below their key unless an array stands for all
components. -/
theorem stands_component
    (hcomponents : ∀ elements, Pointer.lookup? root "#/components" ≠ some (.array elements))
    {name : String} {node : SchemaNode} (h : (name, node) ∈ d.schemas) :
    place.Stands (.entry .schema) SchemaNode.decode (Pointer.child Setting.componentSchemas name)
      node := by
  obtain ⟨⟨members, rfl⟩, hdecode⟩ := decode_of_ofTree hd
  have hr := hasField_components (.object members)
  cases hget : Entries.get? "components" members with
  | none =>
    rw [hr.of_absent hget hdecode] at h
    cases h
  | some value =>
    have hvalue : Pointer.lookup? (.object members) "#/components" = some value := by
      rw [show "#/components" = Pointer.child "#" "components" by decide, Pointer.lookup?_child]
      exact hget
    have hschemas := hr.of_get? (Json.nodup_of_distinctKeys hkeys) hget hdecode
    cases value with
    | object components =>
      cases hget' : Entries.get? "schemas" components with
      | none =>
        have hnil : d.schemas = [] := hasField_schemas.of_absent hget' hschemas
        rw [hnil] at h
        cases h
      | some table =>
        have htable :
            Pointer.lookup? (.object members) Setting.componentSchemas = some table := by
          rw [show Setting.componentSchemas = Pointer.child "#/components" "schemas" by decide,
            Pointer.lookup?_child, hvalue]
          exact hget'
        have hnodup := Json.nodup_of_distinctKeys (Json.distinctKeys_of_lookup? hkeys hvalue)
        exact place.stands_of_lookup? hkeys htable (fun _ _ => .component)
          (hasField_schemas.of_get? hnodup hget' hschemas) h
    | array elements => exact absurd hvalue (hcomponents elements)
    | null | bool _ | number _ | string _ => cases hschemas

end Document

/-! ### Schemas -/

namespace Json.Placement

variable {root : Json} {place : root.Placement} {s : Schema} {node : SchemaNode}
  {location spot : String}

/-- A field of a schema that holds anything stands below its key. -/
theorem Stands.schemaField
    (h : place.Stands (.entry .schema) SchemaNode.decode location (.schema s)) {key : String}
    {slot : Slot} {part : Role} (hslot : (key, slot, part) ∈ Role.schema.slots) {β : Type}
    {read : Schema.Readings → Except DecodeError β} {proj : Schema → β}
    (hr : Schema.record.HasField key read proj) {decode : Decoder β}
    (hread : ∀ value, read (Schema.readings value) = decode value) (hne : proj s ≠ proj {}) :
    place.Holds slot part decode (Pointer.child location key) (proj s) := by
  obtain ⟨value, hat, hkeys, hwrites, hx⟩ := h
  cases value with
  | object members =>
    obtain ⟨hitem, hschema⟩ := SchemaNode.ofMembers_of_decode hx
    cases hget : Entries.get? key members with
    | none =>
      have hreading : Entries.get? key (Schema.memberReadings members) = none := by
        rw [Schema.get?_memberReadings, hget]
        rfl
      exact absurd (hr.of_absent hreading hschema) hne
    | some v =>
      have hnodup := nodup_of_distinctKeys hkeys
      rw [← Schema.keys_memberReadings] at hnodup
      have hreading : Entries.get? key (Schema.memberReadings members) =
          some (Schema.readings v) := by
        rw [Schema.get?_memberReadings, hget]
        rfl
      refine holds_of_member hat hkeys (hwrites.item hitem) hslot hget ?_
      rw [← hread]
      exact hr.of_get? hnodup hreading hschema
  | array elements =>
    obtain ⟨hitem, hschema⟩ := SchemaNode.ofElements_of_decode hx
    cases hget : elements[Role.schema.keys.idxOf key]? with
    | none =>
      refine absurd (hr.of_no_element Role.schema.nodup_keys hschema ?_) hne
      rw [List.getElem?_map]
      exact congrArg (Option.map Schema.readings) hget
    | some v =>
      refine holds_of_member hat hkeys (hwrites.item hitem) hslot hget ?_
      rw [← hread]
      refine hr.of_element Role.schema.nodup_keys hschema ?_
      rw [List.getElem?_map]
      exact congrArg (Option.map Schema.readings) hget
  | null | bool _ | number _ | string _ => cases hx

/-- The parts of a schema stand where they are said to. -/
theorem Stands.part (h : place.Stands (.entry .schema) SchemaNode.decode location (.schema s))
    (hp : s.HasPart location node spot) :
    place.Stands (.entry .schema) SchemaNode.decode spot node := by
  obtain ⟨hproperties, hadditional, hitems, honeOf, hanyOf, hallOf⟩ := Schema.hasFields
  cases hp with
  | property hmem =>
    exact (h.schemaField (by decide) hproperties Schema.readings_table
      (List.ne_nil_of_mem hmem)).table hmem
  | additional hn =>
    have hholds : place.Holds .single (.entry .schema) _ _ s.additional :=
      h.schemaField (by decide) hadditional (fun _ => rfl) (by rw [hn]; nofun)
    rw [hn] at hholds
    exact hholds.single fun value => Schema.decode_of_optionalAdditional
  | items hn =>
    have hholds : place.Holds .single (.entry .schema) _ _ s.items :=
      h.schemaField (by decide) hitems Schema.readings_optionalNode (by rw [hn]; nofun)
    rw [hn] at hholds
    exact hholds.optional
  | oneOf hi =>
    exact (h.schemaField (by decide) honeOf Schema.readings_nodes
      (List.ne_nil_of_mem (List.mem_of_getElem? hi))).list hi
  | anyOf hi =>
    exact (h.schemaField (by decide) hanyOf Schema.readings_nodes
      (List.ne_nil_of_mem (List.mem_of_getElem? hi))).list hi
  | allOf hi =>
    exact (h.schemaField (by decide) hallOf Schema.readings_nodes
      (List.ne_nil_of_mem (List.mem_of_getElem? hi))).list hi

/-- A node stands at a location as an entry for a schema. Where an array leads on to the end of a
chain of references, the node can also be the schema that states nothing. -/
def Bears (place : root.Placement) (location : String) (node : SchemaNode) : Prop :=
  place.Stands (.entry .schema) SchemaNode.decode location node ∨
    node = .schema {} ∧ ∃ role elements, root.Writes role (.array elements)

namespace Bears

/-- Where no part is written as an array, a node that stands somewhere is decoded from a value. -/
theorem stands {hplain : root.IsPlain} (h : (lookups hplain).Bears location node) :
    (lookups hplain).Stands (.entry .schema) SchemaNode.decode location node :=
  h.resolve_right fun ⟨_, _, _, hwrites⟩ => nomatch hplain _ _ hwrites

/-- The parts of a schema stand where they are said to. A schema that states nothing has none. -/
theorem part (h : place.Bears location (.schema s)) (hp : s.HasPart location node spot) :
    place.Bears spot node := by
  rcases h with h | ⟨heq, -⟩
  · exact .inl (h.part hp)
  · cases heq
    cases hp with
    | property h => cases h
    | additional h | items h | oneOf h | anyOf h | allOf h => cases h

/-- A reference that stands somewhere is among those that are read. -/
theorem refers {reference : String} (h : place.Bears location (.reference reference)) :
    root.Refers .schema reference := by
  rcases h with ⟨value, -, -, hwrites, hdecode⟩ | ⟨heq, -⟩
  · exact ⟨value, hwrites, SchemaNode.pointer?_of_decode hdecode⟩
  · cases heq

/-- The references in a node that stands somewhere are among those that are read. -/
theorem references (h : place.Bears location node) :
    ∀ reference ∈ node.references, root.Refers .schema reference :=
  SchemaNode.forall_mem_references (A := fun node location => place.Bears location node) part refers
    node h

end Bears

/-! ### What references find -/

section Origin

variable {run : Setting} {place : run.tree.root.Placement} {reference pointer from_ : String}

/-- What a chain of references comes to is read as the entry for a schema if its start is. -/
theorem writes_of_passes {spot : String} (h : run.tree.Passes reference from_ pointer spot)
    (hstart : ∀ value, Pointer.lookup? run.tree.root reference = some value →
      run.tree.root.Writes (.entry .schema) value) :
    ∀ value, Pointer.lookup? run.tree.root pointer = some value →
      run.tree.root.Writes (.entry .schema) value := by
  induction h with
  | first h =>
    obtain rfl := Pointer.canonicalize_eq h
    exact hstart
  | next _ hlink ih =>
    obtain ⟨value, next, hvalue, hdecode, hnext⟩ := hlink
    obtain rfl := Pointer.canonicalize_eq hnext
    exact fun v hv => (ih value hvalue).target (SchemaNode.pointer?_of_decode hdecode) hnext hv

/-- What is found at a pointer stands there if it is read as a schema. -/
theorem bears_of_origin (hkeys : run.tree.root.distinctKeys = true)
    (hwrites : ∀ value, Pointer.lookup? run.tree.root pointer = some value →
      run.tree.root.Writes (.entry .schema) value)
    (h : run.origin pointer from_ = .ok node) : place.Bears pointer node := by
  obtain ⟨value, hlookup, -⟩ := bind_eq_ok_iff.mp h
  obtain ⟨hcanonical, hvalue⟩ := DocumentTree.lookup?_of_lookup hlookup
  rcases DocumentTree.hostsNode_origin h value hvalue with
    hdecode | ⟨elements, s, rfl, rfl, hs⟩
  · exact .inl ⟨value, place.at_lookup hvalue, Json.distinctKeys_of_lookup? hkeys hvalue,
      hwrites value hvalue, hdecode⟩
  · -- An array leads on to the schema at the end of its chain of references.
    have harray := hwrites _ hvalue
    cases hs ▸ run.tree.resolves_resolve pointer pointer with
    | stopped hpasses hstop =>
      cases hstop with
      | schema hend hdecode =>
        exact .inl ⟨_, place.at_of_array harray _ _, Json.distinctKeys_of_lookup? hkeys hend,
          writes_of_passes hpasses hwrites _ hend, hdecode⟩
      | boolean => exact .inr ⟨rfl, _, _, harray⟩
    | repeated => exact .inr ⟨rfl, _, _, harray⟩

/-- What a reference finds stands at its target if the reference is one that is followed. -/
theorem bears_target (hkeys : run.tree.root.distinctKeys = true)
    (h : run.tree.root.Follows reference) (ho : run.origin reference from_ = .ok node) :
    place.Bears reference node := by
  obtain ⟨_, hlookup, -⟩ := bind_eq_ok_iff.mp ho
  obtain ⟨hcanonical, -⟩ := DocumentTree.lookup?_of_lookup hlookup
  exact bears_of_origin hkeys (fun _ hvalue => h.writes hcanonical hvalue) ho

end Origin

end Json.Placement

/-- The references in a node at a pointer that is followed are references of the document. -/
theorem Json.Follows.references {root value : Json} {pointer : String} {node : SchemaNode}
    (h : root.Follows pointer) (hkeys : root.distinctKeys = true)
    (hcanonical : Pointer.canonicalize pointer = .ok pointer)
    (hvalue : Pointer.lookup? root pointer = some value)
    (hdecode : SchemaNode.decode value = .ok node) :
    ∀ r ∈ node.references, root.Refers .schema r := by
  have hbears : (Placement.anywhere root).Bears pointer node :=
    .inl ⟨value, trivial, distinctKeys_of_lookup? hkeys hvalue, h.writes hcanonical hvalue, hdecode⟩
  exact hbears.references

end OpenApiTs
