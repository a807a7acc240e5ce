import OpenApiTs.Document.Load
import OpenApiTs.Proofs.Chains
import OpenApiTs.Proofs.Decoding
import OpenApiTs.Proofs.Operations

/-!
# Nodes stand where the document has them

A node keeps the location at which the document tree has the value that it was decoded from. So a
reference to a location finds what the node there was decoded to, although nodes and references take
different ways into the document. The tree need not have a value at the location: an array that
stands for a record has its fields at no pointers.

## Main definitions

* `DocumentTree.Hosts`: what stands at a location decodes to a given part.
* `DocumentTree.HostsNode`: what stands at a location is a given node, or is an array that a
  reference finds as a schema.

## Main results

* `Operation.hosts_part`, `DocumentTree.hostsNode_part`, `DocumentTree.hostsNode_origin`: the nodes
  in operations, in schemas and at the targets of references.
* `DocumentTree.HostsNode.cases`: a node at a pointer with a schema is this schema or a link.
-/

namespace OpenApiTs

namespace DocumentTree

variable {α β : Type} {tree : DocumentTree} {location : String}

/-- A reference that leads anywhere is a pointer to what it leads to. -/
theorem lookup?_of_lookup {reference from_ : String} {value : Json}
    (h : tree.lookup reference from_ = .ok value) :
    Pointer.canonicalize reference = .ok reference ∧
      Pointer.lookup? tree.root reference = some value := by
  obtain ⟨target, htarget, hfound⟩ := bind_eq_ok_iff.mp h
  obtain rfl := canonicalize_eq htarget
  refine ⟨canonicalize_eq_ok_iff.mp htarget, ?_⟩
  split at hfound
  · next hvalue =>
    cases hfound
    exact hvalue
  · cases hfound

/-- The part that a reference leads to is what the value there decodes to. -/
theorem lookup_of_part {decode : Decoder α} {reference from_ : String} {x : α}
    (h : tree.part decode reference from_ = .ok x) :
    ∃ value, tree.lookup reference from_ = .ok value ∧ decode value = .ok x := by
  obtain ⟨value, hlookup, hpart⟩ := bind_eq_ok_iff.mp h
  refine ⟨value, hlookup, ?_⟩
  split at hpart
  · next hdecode =>
    cases hpart
    exact hdecode
  · cases hpart

/-- What stands at a location, if anything does, decodes to a part. -/
def Hosts (tree : DocumentTree) (decode : Decoder α) (location : String) (x : α) : Prop :=
  ∀ value, Pointer.lookup? tree.root location = some value → decode value = .ok x

namespace Hosts

/-- The field of a record stands below its key, which is no position. -/
theorem field (hkeys : tree.root.distinctKeys = true) {r : Record Json α} {x : α}
    (h : tree.Hosts (r.decode .json) location x) {key : String} {decode : Decoder β}
    {proj : α → β} (hr : r.HasField key decode proj) (hindex : Pointer.index? key = none) :
    tree.Hosts decode (Pointer.child location key) (proj x) := by
  intro part hpart
  rw [Pointer.lookup?_child] at hpart
  obtain ⟨value, hvalue, hstep⟩ := Option.bind_eq_some_iff.mp hpart
  have hx := h value hvalue
  cases value with
  | object members =>
    exact hr.of_get? (Json.nodup_of_distinctKeys (Json.distinctKeys_of_lookup? hkeys hvalue)) hstep
      hx
  | array elements =>
    rw [Pointer.step?, hindex] at hstep
    cases hstep
  | null | bool _ | number _ | string _ => cases hstep

/-- The entry of a table stands below its key. -/
theorem table (hkeys : tree.root.distinctKeys = true) {decode : Decoder α}
    {table : List (String × α)} (h : tree.Hosts (Decode.table decode) location table)
    {key : String} {x : α} (hx : (key, x) ∈ table) :
    tree.Hosts decode (Pointer.child location key) x := by
  intro part hpart
  rw [Pointer.lookup?_child] at hpart
  obtain ⟨value, hvalue, hstep⟩ := Option.bind_eq_some_iff.mp hpart
  have htable := h value hvalue
  cases value with
  | object members =>
    obtain ⟨v, hv, hdecode⟩ := exists_member_of_table htable _ hx
    have hnodup := Json.nodup_of_distinctKeys (Json.distinctKeys_of_lookup? hkeys hvalue)
    have hget : Entries.get? key members = some part := hstep
    rw [(Entries.get?_eq_some_iff hnodup).mpr hv] at hget
    cases hget
    exact hdecode
  | array _ | null | bool _ | number _ | string _ => cases htable

/-- The entry of a list stands below its position. -/
theorem list {decode : Decoder α} {list : List α}
    (h : tree.Hosts (Decode.list decode) location list) {i : Nat} {x : α}
    (hi : list[i]? = some x) : tree.Hosts decode (Pointer.child location i.repr) x := by
  intro part hpart
  rw [Pointer.lookup?_child] at hpart
  obtain ⟨value, hvalue, hstep⟩ := Option.bind_eq_some_iff.mp hpart
  have hlist := h value hvalue
  cases value with
  | array elements =>
    obtain ⟨v, hv, hdecode⟩ := exists_element_of_list hlist hi
    rw [Pointer.step?, Pointer.index?_repr, Option.bind_some, hv] at hstep
    cases hstep
    exact hdecode
  | object _ | null | bool _ | number _ | string _ => cases hlist

theorem optional {decode : Decoder α} {x : α}
    (h : tree.Hosts (Decode.optional decode) location (some x)) : tree.Hosts decode location x := by
  intro value hvalue
  have hx := h value hvalue
  cases value with
  | null => cases hx
  | object _ | array _ | bool _ | number _ | string _ =>
    unfold Decode.optional at hx
    obtain ⟨y, hy, heq⟩ := map_eq_ok_iff.mp hx
    cases heq
    exact hy

theorem item {decode : Decoder α} {x : α}
    (h : tree.Hosts (Referable.decode decode) location (.item x)) :
    tree.Hosts decode location x := by
  intro value hvalue
  have hx := h value hvalue
  unfold Referable.decode at hx
  split at hx
  · cases hx
  · next hdecode =>
    cases hx
    exact hdecode
  · cases hx

/-- A part that a reference leads to stands at its target. -/
theorem of_part {decode : Decoder α} {reference from_ target : String} {x : α}
    (h : tree.part decode reference from_ = .ok x)
    (htarget : canonicalize reference from_ = .ok target) : tree.Hosts decode target x := by
  obtain ⟨value, hlookup, hdecode⟩ := lookup_of_part h
  obtain rfl := canonicalize_eq htarget
  intro value' hvalue'
  cases (lookup?_of_lookup hlookup).2.symm.trans hvalue'
  exact hdecode

end Hosts

/-- A located part stands where it is said to. -/
theorem hosts_locate {run : Setting} {decode : Decoder α} {pointer owner : String} {x : α}
    {entry : Referable α} (hentry : run.tree.Hosts (Referable.decode decode) pointer entry)
    (h : Gen.locate run decode pointer entry = .ok (x, owner)) :
    run.tree.Hosts decode owner x := by
  cases entry with
  | item part =>
    cases h
    exact hentry.item
  | reference reference =>
    obtain ⟨part, hpart, h⟩ := bind_eq_ok_iff.mp h
    obtain ⟨target, htarget, h⟩ := bind_eq_ok_iff.mp h
    cases h
    exact .of_part hpart htarget

end DocumentTree

/-! ### Records of a document -/

section Records

theorem MediaType.hasField_schema :
    MediaType.record.HasField "schema" (Decode.optional SchemaNode.decode) MediaType.schema := by
  refine ⟨⟨_, rfl, Field.read_stored fun _ _ => rfl⟩, ?_⟩
  simp only [MediaType.record, List.forall_mem_cons]
  exact ⟨.inl rfl, fun _ hmem => nomatch hmem⟩

theorem RequestBody.hasField_content :
    RequestBody.record.HasField "content" (Decode.table MediaType.record.decode)
      RequestBody.content := by
  refine ⟨⟨_, rfl, Field.read_stored fun _ _ => rfl⟩, ?_⟩
  simp only [RequestBody.record, List.forall_mem_cons]
  exact ⟨.inr (Field.keeps_stored fun _ _ => rfl), .inr (Field.keeps_stored fun _ _ => rfl),
    .inl rfl, fun _ hmem => nomatch hmem⟩

theorem Response.hasField_content :
    Response.record.HasField "content" (Decode.table MediaType.record.decode)
      Response.content := by
  refine ⟨⟨_, rfl, Field.read_stored fun _ _ => rfl⟩, ?_⟩
  simp only [Response.record, List.forall_mem_cons]
  exact ⟨.inr (Field.keeps_stored fun _ _ => rfl), .inl rfl, fun _ hmem => nomatch hmem⟩

theorem Parameter.hasField_schema :
    Parameter.record.HasField "schema" (Decode.optional SchemaNode.decode) Parameter.schema := by
  refine ⟨⟨_, rfl, Field.read_stored fun _ _ => rfl⟩, ?_⟩
  simp only [Parameter.record, List.forall_mem_cons]
  and_intros <;>
    first
      | exact .inl rfl
      | exact .inr (Field.keeps_stored fun _ _ => rfl)
      | exact List.forall_mem_nil _

theorem Operation.hasFields :
    Operation.record.HasField "parameters" Parameter.decodeList Operation.parameters ∧
    Operation.record.HasField "requestBody"
      (Decode.optional (Referable.decode RequestBody.record.decode)) Operation.requestBody ∧
    Operation.record.HasField "responses"
      (Decode.table (Referable.decode Response.record.decode)) Operation.responses := by
  refine ⟨⟨⟨_, rfl, Field.read_stored fun _ _ => rfl⟩, ?_⟩,
    ⟨⟨_, rfl, Field.read_stored fun _ _ => rfl⟩, ?_⟩,
    ⟨⟨_, rfl, Field.read_stored fun _ _ => rfl⟩, ?_⟩⟩ <;>
    simp only [Operation.record, List.forall_mem_cons] <;> and_intros <;>
    first
      | exact .inl rfl
      | exact .inr (Field.keeps_stored fun _ _ => rfl)
      | exact List.forall_mem_nil _

theorem PathItem.hasField_parameters :
    PathItem.record.HasField "parameters" Parameter.decodeList PathItem.parameters := by
  refine ⟨⟨_, rfl, Field.read_stored fun _ _ => rfl⟩, ?_⟩
  simp only [PathItem.record, List.forall_mem_cons]
  and_intros <;>
    first
      | exact .inl rfl
      | exact .inr (Field.keeps_stored fun _ _ => rfl)
      | exact List.forall_mem_nil _

theorem PathItem.hasField_operation (method : Method) :
    PathItem.record.HasField method.name Operation.decodeOptional (·.operation? method) := by
  cases method <;> refine ⟨⟨_, rfl, Field.read_stored fun _ _ => rfl⟩, ?_⟩ <;>
    simp only [PathItem.record, List.forall_mem_cons] <;> and_intros <;>
    first
      | exact .inl rfl
      | exact .inr (Field.keeps_stored fun _ _ => rfl)
      | exact List.forall_mem_nil _

theorem Document.hasField_paths (tree : Json) :
    (Document.record tree).HasField "paths" (Decode.table PathItem.record.decode)
      Document.paths := by
  refine ⟨⟨_, rfl, Field.read_stored fun _ _ => rfl⟩, ?_⟩
  simp only [Document.record, List.forall_mem_cons]
  and_intros <;>
    first
      | exact .inl rfl
      | exact .inr (Field.keeps_stored fun _ _ => rfl)
      | exact List.forall_mem_nil _

theorem Document.hasField_components (tree : Json) :
    (Document.record tree).HasField "components" Document.componentsRecord.decode
      Document.schemas := by
  refine ⟨⟨_, rfl, Field.read_stored fun _ _ => rfl⟩, ?_⟩
  simp only [Document.record, List.forall_mem_cons]
  and_intros <;>
    first
      | exact .inl rfl
      | exact .inr (Field.keeps_stored fun _ _ => rfl)
      | exact List.forall_mem_nil _

theorem Document.hasField_schemas :
    Document.componentsRecord.HasField "schemas" (Decode.table SchemaNode.decode) id := by
  refine ⟨⟨_, rfl, Field.read_stored fun _ _ => rfl⟩, ?_⟩
  simp only [Document.componentsRecord, List.forall_mem_cons]
  exact ⟨.inl rfl, fun _ hmem => nomatch hmem⟩

end Records

/-! ### Parts of operations -/

/-- The schema of the chosen media type of a content is that of one of its media types. -/
theorem MediaType.mem_of_located? {content : List (String × MediaType)} {owner mediaType : String}
    {located : LocatedNode} (h : located? content owner = some (mediaType, located)) :
    ∃ media, (mediaType, media) ∈ content ∧ media.schema = some located.node ∧
      located.location = schemaPointer owner mediaType := by
  obtain ⟨⟨chosen, media⟩, hchoose, h⟩ := Option.bind_eq_some_iff.mp h
  obtain ⟨node, hnode, h⟩ := Option.bind_eq_some_iff.mp h
  cases h
  refine ⟨media, ?_, hnode, rfl⟩
  unfold choose? at hchoose
  split at hchoose
  · next hget =>
    cases hchoose
    exact Entries.mem_of_get? hget
  · exact List.mem_of_head? hchoose

namespace Gen

variable {run : Setting} {item : PathItem} {o : Operation} {path pointer : String}

private theorem mem_mergeParameter {p q : LocatedParameter} :
    {merged : List LocatedParameter} → q ∈ mergeParameter p merged → q = p ∨ q ∈ merged
  | [], h => .inl (List.mem_singleton.mp h)
  | first :: rest, h => by
      rw [mergeParameter] at h
      split at h
      · rcases List.mem_cons.mp h with h | h
        · exact .inl h
        · exact .inr (List.mem_cons_of_mem _ h)
      · rcases List.mem_cons.mp h with rfl | h
        · exact .inr List.mem_cons_self
        · exact (mem_mergeParameter h).imp id (List.mem_cons_of_mem _)

/-- A merged parameter was there before, or an entry is located as it. -/
private theorem mem_mergeParameters {p : LocatedParameter} :
    {i : Nat} → {entries : List (Referable Parameter)} →
      {merged merged' : List LocatedParameter} →
      mergeParameters run pointer i entries merged = .ok merged' → p ∈ merged' →
      p ∈ merged ∨ ∃ (j : Nat) (entry : Referable Parameter), entries[j]? = some entry ∧
        locate run Parameter.record.decode (Pointer.child pointer (i + j).repr) entry =
          .ok (p.parameter, p.pointer)
  | _, [], _, _, h, hp => by
      cases h
      exact .inl hp
  | i, entry :: rest, merged, merged', h, hp => by
      obtain ⟨⟨parameter, target⟩, hlocate, h⟩ := bind_eq_ok_iff.mp h
      have hlater {before : List LocatedParameter}
          (h : mergeParameters run pointer (i + 1) rest before = .ok merged') :
          p ∈ before ∨ ∃ (j : Nat) (other : Referable Parameter),
            (entry :: rest)[j]? = some other ∧
            locate run Parameter.record.decode (Pointer.child pointer (i + j).repr) other =
              .ok (p.parameter, p.pointer) := by
        refine (mem_mergeParameters h hp).imp_right fun ⟨j, other, hj, hother⟩ => ?_
        rw [Nat.add_right_comm] at hother
        exact ⟨j + 1, other, hj, hother⟩
      dsimp only at h
      split at h
      · exact hlater h
      · rcases hlater h with hmem | hentry
        · rcases mem_mergeParameter hmem with rfl | hmem
          · exact .inr ⟨0, entry, rfl, hlocate⟩
          · exact .inl hmem
        · exact .inr hentry

/-- A parameter of an operation is that of an entry of its path or of its own. -/
theorem mem_allParameters {merged : List LocatedParameter} {p : LocatedParameter}
    (h : allParameters run item o path pointer = .ok merged) (hp : p ∈ merged) :
    (∃ (j : Nat) (entry : Referable Parameter), item.parameters[j]? = some entry ∧
      locate run Parameter.record.decode
        (Pointer.child (Pointer.descend "#/paths" [path, "parameters"]) j.repr) entry =
          .ok (p.parameter, p.pointer)) ∨
    ∃ (j : Nat) (entry : Referable Parameter), o.parameters[j]? = some entry ∧
      locate run Parameter.record.decode
        (Pointer.child (Pointer.child pointer "parameters") j.repr) entry =
          .ok (p.parameter, p.pointer) := by
  obtain ⟨ofPath, hofPath, h⟩ := bind_eq_ok_iff.mp h
  rcases mem_mergeParameters h hp with hmem | ⟨j, entry, hj, hlocate⟩
  · rcases mem_mergeParameters hofPath hmem with hnone | ⟨j, entry, hj, hlocate⟩
    · cases hnone
    · rw [Nat.zero_add] at hlocate
      exact .inl ⟨j, entry, hj, hlocate⟩
  · rw [Nat.zero_add] at hlocate
    exact .inr ⟨j, entry, hj, hlocate⟩

/-- A body of responses is that of an entry. -/
theorem mem_responseBodies {b : String × LocatedNode} :
    {responses : List (String × Referable Response)} → {bodies : List (String × LocatedNode)} →
      responseBodies run pointer responses = .ok bodies → b ∈ bodies →
      ∃ status entry response owner mediaType, (status, entry) ∈ responses ∧
        locate run Response.record.decode (Pointer.child pointer status) entry =
          .ok (response, owner) ∧
        MediaType.located? response.content owner = some (mediaType, b.2)
  | [], _, h, hb => by
      cases h
      cases hb
  | (status, entry) :: rest, bodies, h, hb => by
      obtain ⟨⟨response, owner⟩, hlocate, h⟩ := bind_eq_ok_iff.mp h
      obtain ⟨others, hothers, h⟩ := bind_eq_ok_iff.mp h
      have hlater (hb : b ∈ others) : ∃ status' entry' response owner mediaType,
          (status', entry') ∈ (status, entry) :: rest ∧
            locate run Response.record.decode (Pointer.child pointer status') entry' =
              .ok (response, owner) ∧
            MediaType.located? response.content owner = some (mediaType, b.2) := by
        obtain ⟨status', entry', response, owner, mediaType, hmem, hrest⟩ :=
          mem_responseBodies hothers hb
        exact ⟨status', entry', response, owner, mediaType, List.mem_cons_of_mem _ hmem, hrest⟩
      split at h
      · next mediaType located hlocated =>
        cases h
        rcases List.mem_cons.mp hb with rfl | hb
        · exact ⟨status, entry, response, owner, mediaType, List.mem_cons_self, hlocate, hlocated⟩
        · exact hlater hb
      · cases h
        exact hlater hb

end Gen

/-! ### Operations -/

theorem PathItem.operation?_of_mem {item : PathItem} {method : Method} {o : Operation}
    (h : (method, o) ∈ item.operations) : item.operation? method = some o := by
  obtain ⟨m, -, hm⟩ := List.mem_filterMap.mp h
  obtain ⟨o', ho', heq⟩ := Option.map_eq_some_iff.mp hm
  cases heq
  exact ho'

section Operations

open DocumentTree

variable {run : Setting} {item : PathItem} {o : Operation} {path pointer location : String}
  (hkeys : run.tree.root.distinctKeys = true)
include hkeys

/-- The schema of the chosen media type of a content stands where it is said to. -/
theorem MediaType.hosts_located {content : List (String × MediaType)} {owner mediaType : String}
    {located : LocatedNode}
    (h : run.tree.Hosts (Decode.table MediaType.record.decode) (Pointer.child owner "content")
      content)
    (hlocated : MediaType.located? content owner = some (mediaType, located)) :
    run.tree.Hosts SchemaNode.decode located.location located.node := by
  obtain ⟨media, hmem, hnode, hlocation⟩ := mem_of_located? hlocated
  have hmedia := (h.table hkeys hmem).field hkeys hasField_schema (by decide)
  rw [hnode] at hmedia
  rw [hlocation]
  exact hmedia.optional

/-- A node of an operation stands where it is said to. -/
theorem Operation.hosts_part
    (hitem : run.tree.Hosts PathItem.record.decode (Pointer.child "#/paths" path) item)
    (ho : run.tree.Hosts Operation.record.decode pointer o) {node : SchemaNode} {place : String}
    (h : o.HasPart run item path pointer node place) :
    run.tree.Hosts SchemaNode.decode place node := by
  obtain ⟨hparameters, hrequest, hresponses⟩ := Operation.hasFields
  cases h with
  | request hentry hbody hlocated =>
    have hfield := ho.field hkeys hrequest (by decide)
    rw [hentry] at hfield
    exact MediaType.hosts_located hkeys ((hosts_locate hfield.optional hbody).field hkeys
      RequestBody.hasField_content (by decide)) hlocated
  | @parameter merged p node hmerged hp hn =>
    have hparameter : run.tree.Hosts Parameter.record.decode p.pointer p.parameter := by
      rcases Gen.mem_allParameters hmerged hp with ⟨j, entry, hj, hlocate⟩ | ⟨j, entry, hj, hlocate⟩
      · have hentries := hitem.field hkeys PathItem.hasField_parameters (by decide)
        exact hosts_locate (hentries.list hj) hlocate
      · have hentries := ho.field hkeys hparameters (by decide)
        exact hosts_locate (hentries.list hj) hlocate
    have hschema := hparameter.field hkeys Parameter.hasField_schema (by decide)
    rw [hn] at hschema
    exact hschema.optional
  | response hbodies hb =>
    obtain ⟨status, entry, response, owner, mediaType, hentry, hlocate, hlocated⟩ :=
      Gen.mem_responseBodies hbodies hb
    have hfield := ho.field hkeys hresponses (by decide)
    exact MediaType.hosts_located hkeys ((hosts_locate (hfield.table hkeys hentry) hlocate).field
      hkeys Response.hasField_content (by decide)) hlocated

/-- An operation of a path stands below its method. -/
theorem PathItem.hosts_operation (h : run.tree.Hosts PathItem.record.decode location item)
    {method : Method} (ho : (method, o) ∈ item.operations) :
    run.tree.Hosts Operation.record.decode (Pointer.child location method.name) o := by
  have hmethod := operation?_of_mem ho
  have hfield := h.field hkeys (PathItem.hasField_operation method) (by cases method <;> decide)
  rw [hmethod] at hfield
  exact hfield.optional

omit hkeys in
theorem Document.decode_of_ofTree {tree : Json} {d : Document}
    (hd : Document.ofTree tree = .ok d) :
    (∃ members, tree = .object members) ∧ (Document.record tree).decode .json tree = .ok d := by
  obtain ⟨_, hcheck, hd⟩ := bind_eq_ok_iff.mp hd
  refine ⟨?_, ?_⟩
  · cases tree with
    | object members => exact ⟨members, rfl⟩
    | array _ | null | bool _ | number _ | string _ => cases hcheck
  · split at hd
    · next hdecode =>
      cases hd
      exact hdecode
    · cases hd

omit hkeys in
/-- A document keeps the tree that it was decoded from. -/
theorem Document.tree_of_ofTree {tree : Json} {d : Document}
    (hd : Document.ofTree tree = .ok d) : d.tree = tree := by
  have hkeeps : ∀ f ∈ (Document.record tree).fields, f.Keeps Document.tree := by
    simp only [Document.record, List.forall_mem_cons]
    and_intros <;>
      first
        | exact Field.keeps_stored fun _ _ => rfl
        | exact List.forall_mem_nil _
  obtain ⟨⟨members, rfl⟩, hdecode⟩ := Document.decode_of_ofTree hd
  exact Record.ofMembers_keeps (P := fun d => d.tree = .object members)
    (fun f hf m _ x y hx hy => (hkeeps f hf m.2 x y hy).trans hx) rfl hdecode

/-- The paths of a document stand below their key. -/
theorem Document.hosts_path {d : Document} (hd : Document.ofTree run.tree.root = .ok d)
    (h : (path, item) ∈ d.paths) :
    run.tree.Hosts PathItem.record.decode (Pointer.child "#/paths" path) item := by
  have hroot : run.tree.Hosts ((Document.record run.tree.root).decode .json) "#" d := by
    intro value hvalue
    cases hvalue
    exact (Document.decode_of_ofTree hd).2
  have hpaths := hroot.field hkeys (Document.hasField_paths _) (by decide)
  rw [show Pointer.child "#" "paths" = "#/paths" by decide] at hpaths
  exact hpaths.table hkeys h

end Operations

/-! ### Parts of schemas -/

namespace Schema

theorem hasFields :
    record.HasField "properties" Readings.table properties ∧
    record.HasField "additionalProperties" Readings.optionalAdditional additional ∧
    record.HasField "items" Readings.optionalNode items ∧
    record.HasField "oneOf" Readings.nodes oneOf ∧
    record.HasField "anyOf" Readings.nodes anyOf ∧
    record.HasField "allOf" Readings.nodes allOf := by
  refine ⟨⟨⟨_, rfl, Field.read_stored fun _ _ => rfl⟩, ?_⟩,
    ⟨⟨_, rfl, Field.read_stored fun _ _ => rfl⟩, ?_⟩,
    ⟨⟨_, rfl, Field.read_stored fun _ _ => rfl⟩, ?_⟩,
    ⟨⟨_, rfl, Field.read_stored fun _ _ => rfl⟩, ?_⟩,
    ⟨⟨_, rfl, Field.read_stored fun _ _ => rfl⟩, ?_⟩,
    ⟨⟨_, rfl, Field.read_stored fun _ _ => rfl⟩, ?_⟩⟩ <;>
    simp only [record, List.forall_mem_cons] <;> and_intros <;>
    first
      | exact .inl rfl
      | exact .inr (Field.keeps_stored fun _ _ => rfl)
      | exact List.forall_mem_nil _

theorem elementReadings_eq (elements : List Json) :
    elementReadings elements = elements.map readings := by
  induction elements with
  | nil => rfl
  | cons value rest ih => exact congrArg (readings value :: ·) ih

theorem memberReadings_eq (members : List (String × Json)) :
    memberReadings members = members.map fun m => (m.1, readings m.2) := by
  induction members with
  | nil => rfl
  | cons m rest ih => exact congrArg ((m.1, readings m.2) :: ·) ih

theorem keys_memberReadings (members : List (String × Json)) :
    Entries.keys (memberReadings members) = Entries.keys members := by
  rw [memberReadings_eq, Entries.keys, List.map_map]
  rfl

theorem get?_memberReadings (key : String) (members : List (String × Json)) :
    Entries.get? key (memberReadings members) = (Entries.get? key members).map readings := by
  induction members with
  | nil => rfl
  | cons m rest ih =>
    rw [memberReadings, Entries.get?, Entries.get?]
    split
    · rfl
    · exact ih

/-! The readings of a value as a list, a table or an optional node are decodings of it. -/

theorem readings_nodes (value : Json) :
    (readings value).nodes = Decode.list SchemaNode.decode value := by
  cases value with
  | array elements =>
    change (elementReadings elements).mapM Readings.node = elements.mapM SchemaNode.decode
    rw [elementReadings_eq, List.mapM_map]
    rfl
  | object _ | null | bool _ | number _ | string _ => rfl

theorem readings_table (value : Json) :
    (readings value).table = Decode.table SchemaNode.decode value := by
  cases value with
  | object members =>
    change (memberReadings members).foldlM _ _ = members.foldlM _ _
    rw [memberReadings_eq, List.foldlM_map]
    rfl
  | array _ | null | bool _ | number _ | string _ => rfl

theorem readings_optionalNode (value : Json) :
    (readings value).optionalNode = Decode.optional SchemaNode.decode value := by
  cases value <;> rfl

end Schema

/-- An object is a reference if it has one, and an inline schema otherwise. -/
theorem SchemaNode.decode_object (members : List (String × Json)) :
    SchemaNode.decode (.object members) =
      match Entries.get? "$ref" members with
      | some (.string pointer) => .ok (.reference pointer)
      | _ => Schema.asNode (Schema.record.ofMembers (Schema.memberReadings members)) := rfl

/-- What is read as an additional node is a node and not null. -/
theorem Schema.decode_of_optionalAdditional {value : Json} {node : SchemaNode}
    (h : (readings value).optionalAdditional = .ok (some node)) :
    value ≠ .null ∧ SchemaNode.decode value = .ok node := by
  rw [Readings.optionalAdditional] at h
  split at h
  · cases h
  · next hdecode hnull =>
    cases h
    exact ⟨fun heq => hnull (by rw [heq]; rfl), hdecode⟩
  · cases h

/-- An object that is an inline schema is no reference, and its members are those of the schema. -/
theorem SchemaNode.ofMembers_of_decode {members : List (String × Json)} {s : Schema}
    (h : SchemaNode.decode (.object members) = .ok (.schema s)) :
    Referable.pointer? (.object members) = none ∧
      Schema.record.ofMembers (Schema.memberReadings members) = .ok s := by
  rw [SchemaNode.decode_object] at h
  split at h
  · cases h
  · next hreference =>
    refine ⟨?_, ?_⟩
    · change (Entries.get? "$ref" members).bind Json.string? = none
      cases hget : Entries.get? "$ref" members with
      | none => rfl
      | some value =>
        cases value with
        | string reference => exact absurd hget (hreference reference)
        | null | bool _ | number _ | array _ | object _ => rfl
    · cases hschema : Schema.record.ofMembers (Schema.memberReadings members) with
      | error e =>
        rw [hschema] at h
        cases h
      | ok s' =>
        rw [hschema] at h
        cases h
        rfl

/-- An array that is an inline schema is no reference, and its elements are those of the schema. -/
theorem SchemaNode.ofElements_of_decode {elements : List Json} {s : Schema}
    (h : SchemaNode.decode (.array elements) = .ok (.schema s)) :
    Referable.pointer? (.array elements) = none ∧
      Schema.record.ofElements (elements.map Schema.readings) = .ok s := by
  change (Schema.arrayReadings elements (Schema.elementReadings elements)).node = _ at h
  rw [Schema.elementReadings_eq] at h
  unfold Schema.arrayReadings at h
  dsimp only at h
  split at h
  · cases h
  · next hreference =>
    refine ⟨?_, ?_⟩
    · unfold Referable.pointer?
      split
      · next heq =>
        cases heq
        exact absurd rfl (hreference _)
      · next heq => cases heq
      · rfl
    · cases hschema : Schema.record.ofElements (elements.map Schema.readings) with
      | error e =>
        rw [hschema] at h
        cases h
      | ok s' =>
        rw [hschema] at h
        cases h
        rfl

/-- What is read as a reference has its pointer. -/
theorem SchemaNode.pointer?_of_decode {value : Json} {reference : String}
    (h : SchemaNode.decode value = .ok (.reference reference)) :
    Referable.pointer? value = some reference := by
  cases value with
  | object members =>
    rw [SchemaNode.decode_object] at h
    split at h
    · next hget =>
      cases h
      change (Entries.get? "$ref" members).bind Json.string? = _
      rw [hget]
      rfl
    · cases hschema : Schema.record.ofMembers (Schema.memberReadings members) <;>
        rw [hschema] at h <;> cases h
  | array elements =>
    change (Schema.arrayReadings elements (Schema.elementReadings elements)).node = _ at h
    unfold Schema.arrayReadings at h
    dsimp only at h
    split at h
    · cases h
      rfl
    · cases hschema : Schema.record.ofElements (Schema.elementReadings elements) <;>
        rw [hschema] at h <;> cases h
  | null | bool _ | number _ | string _ => cases h

namespace DocumentTree

variable {tree : DocumentTree} {s : Schema} {node : SchemaNode} {location place : String}

/-- What stands at a location, if anything does, decodes to a node, or it is an array and the node
is the schema that a reference to the location finds. -/
def HostsNode (tree : DocumentTree) (node : SchemaNode) (location : String) : Prop :=
  ∀ value, Pointer.lookup? tree.root location = some value →
    SchemaNode.decode value = .ok node ∨
      ∃ elements s, value = .array elements ∧ node = .schema s ∧
        tree.resolve location location = .ok s

theorem Hosts.hostsNode (h : tree.Hosts SchemaNode.decode location node) :
    tree.HostsNode node location := fun value hvalue => .inl (h value hvalue)

/-- A field of a schema stands below its key. An array has no fields at pointers. -/
theorem HostsNode.field {β : Type} (hkeys : tree.root.distinctKeys = true)
    (h : tree.HostsNode (.schema s) location) {key : String}
    {read : Schema.Readings → Except DecodeError β} {proj : Schema → β}
    (hr : Schema.record.HasField key read proj) {decode : Decoder β}
    (hread : ∀ value, read (Schema.readings value) = decode value)
    (hindex : Pointer.index? key = none) :
    tree.Hosts decode (Pointer.child location key) (proj s) := by
  intro part hpart
  rw [Pointer.lookup?_child] at hpart
  obtain ⟨value, hvalue, hstep⟩ := Option.bind_eq_some_iff.mp hpart
  cases value with
  | object members =>
    have hschema : Schema.record.ofMembers (Schema.memberReadings members) = .ok s := by
      rcases h _ hvalue with hnode | ⟨_, _, harray, -⟩
      · exact (SchemaNode.ofMembers_of_decode hnode).2
      · cases harray
    have hnodup := Json.nodup_of_distinctKeys (Json.distinctKeys_of_lookup? hkeys hvalue)
    rw [← Schema.keys_memberReadings] at hnodup
    have hget : Entries.get? key (Schema.memberReadings members) =
        some (Schema.readings part) := by
      rw [Schema.get?_memberReadings]
      exact congrArg (Option.map Schema.readings) hstep
    rw [← hread]
    exact hr.of_get? hnodup hget hschema
  | array elements =>
    rw [Pointer.step?, hindex] at hstep
    cases hstep
  | null | bool _ | number _ | string _ => cases hstep

/-- The parts of a schema stand where they are said to. -/
theorem hostsNode_part (hkeys : tree.root.distinctKeys = true)
    (h : tree.HostsNode (.schema s) location) (hp : s.HasPart location node place) :
    tree.HostsNode node place := by
  obtain ⟨hproperties, hadditional, hitems, honeOf, hanyOf, hallOf⟩ := Schema.hasFields
  refine Hosts.hostsNode ?_
  cases hp with
  | property hmem =>
    exact (h.field hkeys hproperties Schema.readings_table (by decide)).table hkeys hmem
  | additional hn =>
    have hfield := h.field hkeys hadditional (fun _ => rfl) (by decide)
    rw [hn] at hfield
    exact fun value hvalue => (Schema.decode_of_optionalAdditional (hfield value hvalue)).2
  | items hn =>
    have hfield := h.field hkeys hitems Schema.readings_optionalNode (by decide)
    rw [hn] at hfield
    exact hfield.optional
  | oneOf hi => exact (h.field hkeys honeOf Schema.readings_nodes (by decide)).list hi
  | anyOf hi => exact (h.field hkeys hanyOf Schema.readings_nodes (by decide)).list hi
  | allOf hi => exact (h.field hkeys hallOf Schema.readings_nodes (by decide)).list hi

/-- A value with a reference is a link. -/
theorem decode_of_member? {value : Json} {reference : String}
    (h : (value.member? "$ref").bind Json.string? = some reference) :
    SchemaNode.decode value = .ok (.reference reference) := by
  obtain ⟨member, hmember, hreference⟩ := Option.bind_eq_some_iff.mp h
  cases value with
  | object members =>
    cases member with
    | string text =>
      cases hreference
      rw [SchemaNode.decode_object, show Entries.get? "$ref" members = _ from hmember]
    | null | bool _ | number _ | array _ | object _ => cases hreference
  | null | bool _ | number _ | string _ | array _ => cases hmember

/-- A value without a reference that is no boolean and that a reference finds as a schema. -/
private theorem hostsNode_of_resolve {value : Json}
    (hcanonical : Pointer.canonicalize location = .ok location)
    (hvalue : Pointer.lookup? tree.root location = some value)
    (hnone : (value.member? "$ref").bind Json.string? = none) (hbool : value.bool? = none)
    (hs : tree.resolve location place = .ok s) : tree.HostsNode (.schema s) location := by
  intro value' hvalue'
  cases hvalue.symm.trans hvalue'
  cases value with
  | array elements => exact .inr ⟨elements, s, rfl, rfl, resolve_of_links hs .refl location⟩
  | object members =>
    have hdecode : SchemaNode.decode (.object members) =
        Schema.asNode (Schema.record.ofMembers (Schema.memberReadings members)) := by
      rw [SchemaNode.decode_object]
      split
      · next reference href =>
        rw [Json.member?, href] at hnone
        cases hnone
      · rfl
    cases hschema : Schema.record.ofMembers (Schema.memberReadings members) with
    | error e =>
      rw [hschema] at hdecode
      cases hs.symm.trans (resolve_of_stops hcanonical (.undecodable hvalue hdecode))
    | ok s' =>
      rw [hschema] at hdecode
      cases hs.symm.trans (resolve_of_stops hcanonical (.schema hvalue hdecode))
      exact .inl hdecode
  | bool _ => cases hbool
  | null | number _ | string _ =>
    cases hs.symm.trans (resolve_of_stops hcanonical (.undecodable hvalue rfl))

/-- What a reference finds stands at its target. -/
theorem hostsNode_origin {run : Setting} {pointer from_ : String}
    (h : run.origin pointer from_ = .ok node) : run.tree.HostsNode node pointer := by
  intro value hvalue
  obtain ⟨found, hlookup, h⟩ := bind_eq_ok_iff.mp h
  obtain ⟨hcanonical, hfound⟩ := lookup?_of_lookup hlookup
  cases hvalue.symm.trans hfound
  split at h
  · next reference href =>
    cases h
    exact .inl (decode_of_member? href)
  · next allowed hnone hbool =>
    cases h
    cases value with
    | bool _ =>
      cases hbool
      exact .inl rfl
    | null | number _ | string _ | array _ | object _ => cases hbool
  · next hnone hbool =>
    obtain ⟨s, hs, h⟩ := bind_eq_ok_iff.mp h
    cases h
    exact hostsNode_of_resolve hcanonical hvalue hnone hbool hs value
      hvalue

/-- A node at a pointer that stands for a schema is the schema itself, a link of the chain, or a
boolean, which states nothing. -/
theorem HostsNode.cases (h : tree.HostsNode node location)
    (hs : tree.resolve location location = .ok s) :
    node = .schema s ∨ (∃ target, node = .reference target ∧ tree.Link location target) ∨
      s = {} := by
  have hcanonical := canonical_of_resolve hs
  cases hvalue : Pointer.lookup? tree.root location with
  | none => cases hs.symm.trans (resolve_of_stops hcanonical (.missing hvalue))
  | some value =>
    rcases h value hvalue with hnode | ⟨_, s', -, rfl, hs'⟩
    · cases node with
      | schema s' =>
        cases hs.symm.trans (resolve_of_stops hcanonical (.schema hvalue hnode))
        exact .inl rfl
      | boolean allowed =>
        cases hs.symm.trans (resolve_of_stops hcanonical (.boolean hvalue hnode))
        exact .inr (.inr rfl)
      | reference target =>
        cases hnext : Pointer.canonicalize target with
        | error fault =>
          cases hs.symm.trans (resolve_of_stops hcanonical (.malformed hvalue hnode hnext))
        | ok next =>
          obtain rfl := Pointer.canonicalize_eq hnext
          exact .inr (.inl ⟨_, rfl, _, _, hvalue, hnode, hnext⟩)
    · cases hs.symm.trans hs'
      exact .inl rfl

end DocumentTree

end OpenApiTs
