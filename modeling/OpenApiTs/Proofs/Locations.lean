import OpenApiTs.Proofs.Reports
import OpenApiTs.Proofs.Written

/-!
# Where references to nothing are reported

In a document whose parts are written as objects, a failure to find a value names a pointer at which
there is no value, and mostly the place of an object whose `$ref` is this pointer: a part of a
schema, an entry of an operation, or the pointer before in a chain of references. A reference in an
intersection is the exception. Before it is used, its target is examined for whether an interface
can extend it, as if the target were referenced from itself. So where the target is missing, the
failure names it twice, and not the entry of the intersection.

## Main definitions

* `Json.HasRef`: a reference that is written at a location.
* `Json.Reported`: the failures to find a value that can be reported.
* `Json.IsPlain.At`, `Json.IsPlain.IsEntry`: where nodes stand, and the references that stand at the
  places of entries of intersections.
* `ReportLaw.written`: the law that references are reported where they are written.

## Main results

* `Leads.misses_resolve`, `Leads.misses_origin`: what look-ups along chains of references report.
* `Setting.misses_examine`: what the examination of an entry of an intersection reports.
* `ReportLaw.written_covers`: the law covers a document.
* `generate_unresolved`: what a run reports.
-/

namespace OpenApiTs

/-! ### Written references -/

namespace Json

/-- There is an object at a location, and its member `$ref` is a reference. -/
def HasRef (root : Json) (location reference : String) : Prop :=
  ∃ members, Pointer.lookup? root location = some (.object members) ∧
    Entries.get? "$ref" members = some (.string reference)

/-- There is no value at a pointer, and the failure to find one can be reported for a place: the
pointer is the reference that is written there, or the place is the pointer itself and it is the
reference of an entry of an intersection. -/
def Reported (root : Json) (pointer from_ : String) : Prop :=
  Pointer.lookup? root pointer = none ∧
    (root.HasRef from_ pointer ∨
      from_ = pointer ∧ ∃ location, ∃ i : Nat,
        root.HasRef (Pointer.descend location ["allOf", i.repr]) pointer)

/-- A value that is read as the entry for a part and is a reference is written as one. -/
theorem IsPlain.hasRef {root value : Json} {role : Role} {location reference : String}
    (hplain : root.IsPlain) (hvalue : Pointer.lookup? root location = some value)
    (hwrites : root.Writes (.entry role) value)
    (hreference : Referable.pointer? value = some reference) : root.HasRef location reference := by
  have hrole := hplain _ _ hwrites
  cases value with
  | object members =>
    obtain ⟨member, hmember, htext⟩ := Option.bind_eq_some_iff.mp hreference
    cases member with
    | string text =>
      cases htext
      exact ⟨members, hvalue, hmember⟩
    | null | bool _ | number _ | array _ | object _ => cases htext
  | array _ => cases hrole
  | null | bool _ | number _ | string _ => cases hreference

end Json

/-! ### Where nodes stand -/

namespace Json

/-- Whatever a pointer leads to is read as the entry for a schema. -/
def LeadsToSchema (root : Json) (pointer : String) : Prop :=
  ∀ value, Pointer.lookup? root pointer = some value → root.Writes (.entry .schema) value

variable {root : Json} {hplain : root.IsPlain} {reference location from_ : String}
  {node : SchemaNode}

/-- A node is decoded from the value at a location, which is read as the entry for a schema. -/
abbrev IsPlain.At (hplain : root.IsPlain) (node : SchemaNode) (location : String) : Prop :=
  (Placement.lookups hplain).Stands (.entry .schema) SchemaNode.decode location node

/-- A reference that stands at a location is written there. -/
theorem IsPlain.At.hasRef (h : hplain.At (.reference reference) location) :
    root.HasRef location reference := by
  obtain ⟨value, hvalue, -, hwrites, hdecode⟩ := h
  exact hplain.hasRef hvalue hwrites (SchemaNode.pointer?_of_decode hdecode)

theorem IsPlain.At.leadsToSchema (h : hplain.At node location) : root.LeadsToSchema location := by
  obtain ⟨value, hvalue, -, hwrites, -⟩ := h
  intro v hv
  cases hvalue.symm.trans hv
  exact hwrites

theorem leadsToSchema_of_leads (h : Leads hplain.At reference from_)
    (hcanonical : Pointer.canonicalize reference = .ok reference) :
    root.LeadsToSchema reference := by
  rcases h with h | ⟨node, h⟩
  · obtain ⟨value, -, -, hwrites, hdecode⟩ := h
    exact fun v hv => hwrites.target (SchemaNode.pointer?_of_decode hdecode) hcanonical hv
  · exact h.leadsToSchema

end Json

/-! ### Look-ups -/

section LookUps

variable {run : Setting} {reference from_ pointer place location : String} {node : SchemaNode}
  {s : Schema}

/-- A reference is reported where it is written. -/
theorem Json.HasRef.misses_lookup (h : run.tree.root.HasRef from_ reference) :
    Misses run.tree.root.Reported (run.tree.lookup reference from_) := by
  refine Misses.bind .canonicalize fun target htarget => ?_
  obtain rfl := DocumentTree.canonicalize_eq htarget
  split
  · exact .ok
  · next hvalue =>
    intro pointer place heq
    cases heq
    exact ⟨hvalue, .inl h⟩

/-- A chain that breaks does so behind a reference that is written, or at its start. -/
theorem Json.IsPlain.unresolved_of_resolve (hplain : run.tree.root.IsPlain)
    (hstart : Pointer.canonicalize reference = .ok reference →
      run.tree.root.LeadsToSchema reference)
    (h : run.tree.resolve reference from_ = .error (.unresolved pointer place)) :
    Pointer.lookup? run.tree.root pointer = none ∧
      (run.tree.root.HasRef place pointer ∨ pointer = reference ∧ place = from_) := by
  cases h ▸ run.tree.resolves_resolve reference from_ with
  | stopped hpasses hstop =>
    obtain ⟨first, hfirst⟩ := hpasses.exists_first
    obtain rfl := Pointer.canonicalize_eq hfirst
    cases hstop with
    | missing hvalue =>
      refine ⟨hvalue, ?_⟩
      cases hpasses with
      | first hfirst => exact .inr ⟨Pointer.canonicalize_eq hfirst, rfl⟩
      | next hpasses hlink =>
        obtain ⟨value, target, hlookup, hdecode, hnext⟩ := hlink
        obtain rfl := Pointer.canonicalize_eq hnext
        exact .inl (hplain.hasRef hlookup
          (Json.Placement.writes_of_passes hpasses (hstart hfirst) value hlookup)
          (SchemaNode.pointer?_of_decode hdecode))

section Leads

variable {hplain : run.tree.root.IsPlain} (h : Leads hplain.At reference from_)
include h

theorem Leads.misses_lookup : Misses run.tree.root.Reported (run.tree.lookup reference from_) := by
  rcases h with h | ⟨node, value, hvalue, -⟩
  · exact h.hasRef.misses_lookup
  · refine Misses.bind .canonicalize fun target htarget => ?_
    obtain rfl := DocumentTree.canonicalize_eq htarget
    rw [show Pointer.lookup? run.tree.root target = some value from hvalue]
    exact .ok

theorem Leads.misses_resolve :
    Misses run.tree.root.Reported (run.tree.resolve reference from_) := by
  intro pointer place hresolve
  obtain ⟨hvalue, hwritten | ⟨rfl, rfl⟩⟩ :=
    hplain.unresolved_of_resolve (Json.leadsToSchema_of_leads h) hresolve
  · exact ⟨hvalue, .inl hwritten⟩
  · rcases h with h | ⟨node, value, hsome, -⟩
    · exact ⟨hvalue, .inl h.hasRef⟩
    · cases hvalue.symm.trans hsome

theorem Leads.misses_origin : Misses run.tree.root.Reported (run.origin reference from_) := by
  refine Misses.bind h.misses_lookup fun value _ => ?_
  split
  · exact .ok
  · exact .ok
  · exact h.misses_resolve.bind fun s _ => .ok

theorem Leads.at_of_origin (hkeys : run.tree.root.distinctKeys = true)
    (horigin : run.origin reference from_ = .ok node) : hplain.At node reference := by
  obtain ⟨value, hlookup, -⟩ := bind_eq_ok_iff.mp horigin
  obtain ⟨hcanonical, -⟩ := DocumentTree.lookup?_of_lookup hlookup
  exact (Json.Placement.bears_of_origin hkeys (Json.leadsToSchema_of_leads h hcanonical)
    horigin).stands

end Leads

theorem Json.IsPlain.At.misses_needsNullAtUse {hplain : run.tree.root.IsPlain}
    (h : hplain.At node pointer) :
    Misses run.tree.root.Reported (Gen.needsNullAtUse run pointer) := by
  have hleads : Leads hplain.At pointer pointer := .inr ⟨node, h⟩
  refine hleads.misses_lookup.bind fun value _ => ?_
  split
  · exact .ok
  · exact hleads.misses_resolve.bind fun s _ => .ok

/-! ### Entries of intersections -/

/-- A schema that a reference stands for stands at the end of the chain, or it states nothing. -/
theorem Json.Placement.stands_of_resolve (hkeys : run.tree.root.distinctKeys = true)
    (place : run.tree.root.Placement) (hstart : run.tree.root.LeadsToSchema reference)
    (h : run.tree.resolve reference from_ = .ok s) :
    (∃ pointer, place.Stands (.entry .schema) SchemaNode.decode pointer (.schema s)) ∨ s = {} := by
  cases h ▸ run.tree.resolves_resolve reference from_ with
  | stopped hpasses hstop =>
    cases hstop with
    | schema hvalue hdecode =>
      exact .inl ⟨_, _, place.at_lookup hvalue, Json.distinctKeys_of_lookup? hkeys hvalue,
        Json.Placement.writes_of_passes hpasses hstart _ hvalue, hdecode⟩
    | boolean => exact .inr rfl
  | repeated => exact .inr rfl

/-- A reference stands at the place of an entry of an intersection. -/
def Json.IsPlain.IsEntry (hplain : run.tree.root.IsPlain) (reference : String) : Prop :=
  ∃ location, ∃ i : Nat,
    hplain.At (.reference reference) (Pointer.descend location ["allOf", i.repr])

theorem Setting.misses_entriesExtendable (hplain : run.tree.root.IsPlain)
    {examine : Setting.Examination}
    (hexamine : ∀ reference seen, hplain.IsEntry reference →
      Misses run.tree.root.Reported (examine reference seen)) (location : String) :
    (i : Nat) → (nodes : List SchemaNode) →
      (∀ reference, .reference reference ∈ nodes → hplain.IsEntry reference) →
      (seen : List String) →
      Misses run.tree.root.Reported (Setting.entriesExtendable examine location i nodes seen)
  | _, [], _, _ => .ok
  | i, node :: rest, h, seen => by
      have hrest := misses_entriesExtendable hplain hexamine location (i + 1) rest
        fun r hr => h r (List.mem_cons_of_mem _ hr)
      unfold Setting.entriesExtendable
      cases node with
      | reference reference =>
        refine Misses.bind .canonicalize fun base hbase => ?_
        obtain rfl := DocumentTree.canonicalize_eq hbase
        refine (hexamine _ seen (h _ List.mem_cons_self)).bind fun result _ => ?_
        obtain ⟨good, seen'⟩ := result
        dsimp only
        split
        · exact hrest seen'
        · exact .ok
      | schema part =>
        dsimp only
        split
        · exact hrest seen
        · exact .ok
      | boolean allowed =>
        dsimp only
        split
        · exact hrest seen
        · exact .ok

/-- An entry of an intersection is examined as if it were referenced from itself, so that a missing
one is reported for itself. What is found is an intersection of further entries at most. -/
theorem Setting.misses_examine (hplain : run.tree.root.IsPlain)
    (hkeys : run.tree.root.distinctKeys = true) :
    (bound : Nat) → (reference : String) → (seen : List String) → hplain.IsEntry reference →
      Misses run.tree.root.Reported (run.examine bound reference seen)
  | 0, _, _, _ => .ok
  | bound + 1, reference, seen, hentry => by
      unfold Setting.examine
      split
      · exact .ok
      dsimp only
      split
      · exact .ok
      obtain ⟨location, i, hat⟩ := hentry
      have hleads := Json.leadsToSchema_of_leads (.inl hat)
      refine Misses.bind (fun pointer place hresolve => ?_) fun s hs => ?_
      · -- A chain that breaks at its start names the start as the place.
        obtain ⟨hvalue, hwritten | ⟨rfl, rfl⟩⟩ := hplain.unresolved_of_resolve hleads hresolve
        · exact ⟨hvalue, .inl hwritten⟩
        · exact ⟨hvalue, .inr ⟨rfl, location, i, hat.hasRef⟩⟩
      · split
        · exact .ok
        split
        · exact .ok
        · -- Further entries stand below the schema at the end of the chain.
          refine misses_entriesExtendable hplain (misses_examine hplain hkeys bound) _ 0 _
            (fun r hr => ?_) _
          rcases (Json.Placement.lookups hplain).stands_of_resolve hkeys
            (hleads (DocumentTree.canonical_of_resolve hs)) hs with ⟨pointer, hschema⟩ | rfl
          · obtain ⟨j, hj⟩ := List.mem_iff_getElem?.mp hr
            exact ⟨pointer, j, hschema.part (.allOf hj)⟩
          · cases hr
        · exact .ok

theorem Json.IsPlain.IsEntry.misses_isExtendable {hplain : run.tree.root.IsPlain}
    (hkeys : run.tree.root.distinctKeys = true) (h : hplain.IsEntry reference) :
    Misses run.tree.root.Reported (run.isExtendable reference) :=
  (Setting.misses_examine hplain hkeys _ reference [] h).bind fun _ _ => .ok

end LookUps

/-! ### Entries of operations -/

section Operations

open Json Json.Placement

variable {run : Setting} {hplain : run.tree.root.IsPlain} {pointer : String}

/-- A part that an entry refers to is reported where the entry is written. -/
theorem Json.Placement.Stands.misses_locate {α : Type} {role : Role} {decode : Decoder α}
    {entry : Referable α}
    (h : (lookups hplain).Stands (.entry role) (Referable.decode decode) pointer entry) :
    Misses run.tree.root.Reported (Gen.locate run decode pointer entry) := by
  cases entry with
  | item part => exact .ok
  | reference reference =>
    obtain ⟨value, hvalue, -, hwrites, hdecode⟩ := h
    unfold Referable.decode at hdecode
    split at hdecode
    · next hreference =>
      cases hdecode
      have hlookup := (hplain.hasRef hvalue hwrites hreference).misses_lookup
      refine Misses.bind (hlookup.bind fun v _ => ?_) fun part _ =>
        Misses.canonicalize.bind fun target _ => .ok
      split
      · exact .ok
      · exact nofun
    · cases hdecode
    · cases hdecode

theorem Gen.misses_mergeParameters :
    (i : Nat) → (entries : List (Referable Parameter)) →
      (∀ (j : Nat) entry, entries[j]? = some entry → Misses run.tree.root.Reported
        (locate run Parameter.record.decode (Pointer.child pointer (i + j).repr) entry)) →
      (merged : List LocatedParameter) →
      Misses run.tree.root.Reported (mergeParameters run pointer i entries merged)
  | _, [], _, _ => .ok
  | i, entry :: rest, h, merged => by
      have hrest := misses_mergeParameters (i + 1) rest fun j other hj => by
        rw [Nat.add_right_comm]
        exact h (j + 1) other hj
      refine (h 0 entry rfl).bind fun located _ => ?_
      obtain ⟨parameter, target⟩ := located
      dsimp only
      split
      · exact hrest merged
      · exact hrest _

theorem Gen.misses_responseBodies :
    (responses : List (String × Referable Response)) →
      (∀ e ∈ responses, Misses run.tree.root.Reported
        (locate run Response.record.decode (Pointer.child pointer e.1) e.2)) →
      Misses run.tree.root.Reported (responseBodies run pointer responses)
  | [], _ => .ok
  | (status, entry) :: rest, h => by
      obtain ⟨hentry, hrest⟩ := List.forall_mem_cons.mp h
      refine hentry.bind fun located _ => ?_
      obtain ⟨response, owner⟩ := located
      refine (misses_responseBodies rest hrest).bind fun bodies _ => ?_
      split <;> exact .ok

/-! ### The law -/

section Law

variable {run : Setting} (hkeys : run.tree.root.distinctKeys = true)
  (hplain : run.tree.root.IsPlain)

/-- The law that references are reported where they are written, but for entries of
intersections. -/
def ReportLaw.written : ReportLaw run where
  At := hplain.At
  Reports := run.tree.root.Reported
  at_part := .part
  at_origin h := h.at_of_origin hkeys
  origin h := h.misses_origin
  resolve h := h.misses_resolve
  null h := h.misses_needsNullAtUse
  extendable h := Json.IsPlain.IsEntry.misses_isExtendable hkeys ⟨_, _, h⟩

/-- The entries of an operation are reported where they are written. -/
theorem ReportLaw.written_coversOperation {item : PathItem} {o : Operation} {path pointer : String}
    (hitem : (lookups hplain).Stands .pathItem PathItem.record.decode
      (Pointer.child "#/paths" path) item)
    (ho : (lookups hplain).Stands .operation Operation.record.decode pointer o) :
    (written hkeys hplain).CoversOperation item o path pointer := by
  obtain ⟨hparameters, hrequest, hresponses⟩ := Operation.hasFields
  refine ⟨Operation.stands_part hkeys hitem ho, fun entry hentry => ?_, ?_, ?_⟩
  · have hfield : (lookups hplain).Holds .single (.entry .body) _ _ o.requestBody :=
      ho.field rfl (by decide) hrequest (by rw [hentry]; nofun)
    rw [hentry] at hfield
    exact hfield.optional.misses_locate
  · refine Misses.bind (Gen.misses_mergeParameters 0 _ (fun j entry hj => ?_) _) fun merged _ =>
      Gen.misses_mergeParameters 0 _ (fun j entry hj => ?_) _
    · have hfield := hitem.field rfl List.mem_cons_self PathItem.hasField_parameters
        (List.ne_nil_of_mem (List.mem_of_getElem? hj))
      rw [Nat.zero_add]
      exact (hfield.list hj).misses_locate
    · have hfield := ho.field rfl List.mem_cons_self hparameters
        (List.ne_nil_of_mem (List.mem_of_getElem? hj))
      rw [Nat.zero_add]
      exact (hfield.list hj).misses_locate
  · refine Gen.misses_responseBodies _ fun e he => ?_
    have hfield : (lookups hplain).Holds .table (.entry .response) _ _ o.responses :=
      ho.field rfl (by decide) hresponses (List.ne_nil_of_mem he)
    exact (hfield.table he).misses_locate

theorem ReportLaw.written_covers {d : Document} (hd : Document.ofTree run.tree.root = .ok d)
    (hcomponents :
      ∀ elements, Pointer.lookup? run.tree.root "#/components" ≠ some (.array elements)) :
    (written hkeys hplain).Covers d where
  components h := ⟨_, Document.stands_component _ hkeys hd hcomponents h⟩
  operations hitem ho :=
    have hpath := Document.stands_path (lookups hplain) hkeys hd hitem
    written_coversOperation hkeys hplain hpath (PathItem.stands_operation hpath ho)

end Law

end Operations

/-! ### Runs -/

/-- In a document whose parts are objects, a run that fails to find a value reports a pointer at
which there is none. An object with this pointer as its `$ref` stands at the place that is reported,
unless the reference is an entry of an intersection: then the place can be the pointer itself. No
object in the tree may have a key twice, as no object that a reader gives has. -/
theorem generate_unresolved {tree : Json} {d : Document} {config : Config}
    {pointer from_ : String} (hd : Document.ofTree tree = .ok d) (hkeys : tree.distinctKeys = true)
    (hplain : tree.IsPlain)
    (hcomponents : ∀ elements, Pointer.lookup? tree "#/components" ≠ some (.array elements))
    (h : generate d config = .error (.unresolved pointer from_)) :
    Pointer.lookup? tree pointer = none ∧
      (tree.HasRef from_ pointer ∨
        from_ = pointer ∧ ∃ location, ∃ i : Nat,
          tree.HasRef (Pointer.descend location ["allOf", i.repr]) pointer) := by
  obtain rfl := Document.tree_of_ofTree hd
  unfold generate at h
  split at h
  · cases h
  · next filter hfilter =>
    have hcovers :=
      @ReportLaw.written_covers ⟨.of d.tree, config, filter⟩ hkeys hplain d hd hcomponents
    have hobeys := ReportLaw.obeys_document hcovers {} ReportLaw.named_empty
    dsimp only at h
    split at h
    · cases h
    · next failure q hrun =>
      cases h
      exact hobeys.1 pointer from_ (congrArg Prod.fst hrun)

/-- A document with an intersection that refers to a missing schema. -/
def missingBaseTree : Json :=
  .object [
    ("openapi", .string "3.0.0"),
    ("paths", .object []),
    ("components", .object [
      ("schemas", .object [
        ("A", .object [
          ("allOf", .array [
            .object [("$ref", .string "#/components/schemas/Missing")],
            .object [("properties", .object [("x", .object [("type", .string "string")])])]])])])])]

/-- The missing schema is reported for itself, and nothing is written there. -/
theorem generate_missingBaseTree :
    ∃ d, Document.ofTree missingBaseTree = .ok d ∧
      generate d {} = .error
        (.unresolved "#/components/schemas/Missing" "#/components/schemas/Missing") ∧
      Pointer.lookup? missingBaseTree "#/components/schemas/Missing" = none ∧
      missingBaseTree.HasRef "#/components/schemas/A/allOf/0" "#/components/schemas/Missing" := by
  have hrun : (Document.ofTree missingBaseTree).toOption.any (fun d =>
      match generate d {} with
      | .error (.unresolved pointer from_) =>
        pointer == "#/components/schemas/Missing" && from_ == "#/components/schemas/Missing"
      | _ => false) = true := by
    decide +kernel
  have hnone : Pointer.lookup? missingBaseTree "#/components/schemas/Missing" = none := by
    decide +kernel
  cases hd : Document.ofTree missingBaseTree with
  | error fault =>
    rw [hd] at hrun
    cases hrun
  | ok d =>
    rw [hd] at hrun
    dsimp only [Except.toOption, Option.any] at hrun
    split at hrun
    · next heq =>
      obtain ⟨hpointer, hfrom⟩ := Bool.and_eq_true_iff.mp hrun
      rw [beq_iff_eq] at hpointer hfrom
      subst hpointer hfrom
      exact ⟨d, rfl, heq, hnone, _, rfl, rfl⟩
    · cases hrun

theorem generate_unresolved_missingBaseTree :
    ∃ d, Document.ofTree missingBaseTree = .ok d ∧ missingBaseTree.distinctKeys = true ∧
      missingBaseTree.IsPlain ∧
      (∀ elements, Pointer.lookup? missingBaseTree "#/components" ≠ some (.array elements)) ∧
      generate d {} = .error
        (.unresolved "#/components/schemas/Missing" "#/components/schemas/Missing") ∧
      Pointer.lookup? missingBaseTree "#/components/schemas/Missing" = none ∧
      (missingBaseTree.HasRef "#/components/schemas/Missing" "#/components/schemas/Missing" ∨
        "#/components/schemas/Missing" = "#/components/schemas/Missing" ∧
          ∃ location, ∃ i : Nat, missingBaseTree.HasRef
            (Pointer.descend location ["allOf", i.repr]) "#/components/schemas/Missing") := by
  obtain ⟨d, hd, hgenerate, -⟩ := generate_missingBaseTree
  have hkeys : missingBaseTree.distinctKeys = true := by decide +kernel
  have hplain : missingBaseTree.IsPlain := fun role value =>
    Json.Writes.of_check Role.isPlain (n := 12) (by decide +kernel)
  have hcomponents : ∀ elements,
      Pointer.lookup? missingBaseTree "#/components" ≠ some (.array elements) := by
    intro elements h
    cases h
  exact ⟨d, hd, hkeys, hplain, hcomponents, hgenerate,
    generate_unresolved hd hkeys hplain hcomponents hgenerate⟩

end OpenApiTs
