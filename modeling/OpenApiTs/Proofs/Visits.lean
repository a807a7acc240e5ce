import OpenApiTs.Proofs.Output
import OpenApiTs.Proofs.Written

/-!
# Pointers that a run makes up

A run carries nodes together with the pointers at which it takes them to stand, and remembers the
names of their declarations by these pointers. It spells a pointer out by itself, from the keys on
the way down to the node. In a document whose parts are written as objects, each such pointer leads
to a value that decodes to the very node, so that no two nodes share a pointer, and a declaration
that is found by a pointer is that of the node at hand.

## Main definitions

* `Document.Visits`: the nodes that a run can come to, with their pointers.
* `Document.Uses`: the types of these nodes, as the rules make them.
* `UseLaw.visits`: the law of visits.

## Main results

* `Document.Visits.bears`: visited nodes stand at their pointers.
* `Gen.document_identifies`: the names that a run remembers by pointers.
* `Gen.document_positionalTree`: an operation that is written as an array has its parts elsewhere.
-/

namespace OpenApiTs

/-! ### Visits -/

/-- The nodes that a run on a document can come to, with the pointers at which it takes them to
stand: component schemas, the nodes in operations, the parts of schemas, and what references find.
The relation is an overapproximation: a run does not come to what the filter excludes, nor to the
parts of a schema whose shape hides them. -/
inductive Document.Visits (run : Setting) (d : Document) : SchemaNode → String → Prop
  | component {name node found from_} (h : (name, node) ∈ d.schemas)
      (hfound : run.origin (Pointer.child Setting.componentSchemas name) from_ = .ok found) :
      Visits run d found (Pointer.child Setting.componentSchemas name)
  | operation {path item method o node location} (hitem : (path, item) ∈ d.paths)
      (ho : (method, o) ∈ item.operations)
      (h : o.HasPart run item path (Pointer.descend "#/paths" [path, method.name]) node location) :
      Visits run d node location
  | part {s location node place} (h : Visits run d (.schema s) location)
      (hp : s.HasPart location node place) : Visits run d node place
  | target {reference location node from_} (h : Visits run d (.reference reference) location)
      (hfound : run.origin reference from_ = .ok node) : Visits run d node reference

/-- The types of visited nodes, as the rules make them from the types of visited nodes. -/
inductive Document.Uses (run : Setting) (d : Document) (p : Progress) : UseRelation
  | intro {U : UseRelation} {node location use} (hvisits : d.Visits run node location)
      (hU : ∀ {node location use}, U node location use → Uses run d p node location use)
      (h : NodeUse run p U node location use) : Uses run d p node location use

namespace Document.Visits

variable {run : Setting} {d : Document} {node node' : SchemaNode} {pointer : String}

/-- A visited node stands at its pointer, by any way to say so. -/
theorem bears (place : run.tree.root.Placement) (hd : Document.ofTree run.tree.root = .ok d)
    (hkeys : run.tree.root.distinctKeys = true) (h : d.Visits run node pointer) :
    place.Bears pointer node := by
  induction h with
  | component _ hfound => exact Json.Placement.bears_target hkeys (.inr ⟨_, rfl⟩) hfound
  | operation hitem ho h =>
    have hpath := Document.stands_path place hkeys hd hitem
    exact .inl (Operation.stands_part hkeys hpath (PathItem.stands_operation hpath ho) h)
  | part _ hp ih => exact ih.part hp
  | target _ hfound ih => exact Json.Placement.bears_target hkeys (.inl ih.refers) hfound

/-- A visited node is decoded from the value at its pointer if the parts of the document are
objects. -/
theorem stands (hd : Document.ofTree run.tree.root = .ok d)
    (hkeys : run.tree.root.distinctKeys = true) (hplain : run.tree.root.IsPlain)
    (h : d.Visits run node pointer) :
    ∃ value, Pointer.lookup? run.tree.root pointer = some value ∧
      run.tree.root.Writes (.entry .schema) value ∧ SchemaNode.decode value = .ok node := by
  obtain ⟨value, hvalue, -, hwrites, hdecode⟩ := (h.bears (.lookups hplain) hd hkeys).stands
  exact ⟨value, hvalue, hwrites, hdecode⟩

/-- Only one node is visited at a pointer. -/
theorem unique (hd : Document.ofTree run.tree.root = .ok d)
    (hkeys : run.tree.root.distinctKeys = true) (hplain : run.tree.root.IsPlain)
    (h : d.Visits run node pointer) (h' : d.Visits run node' pointer) : node = node' := by
  obtain ⟨value, hvalue, -, hdecode⟩ := h.stands hd hkeys hplain
  obtain ⟨value', hvalue', -, hdecode'⟩ := h'.stands hd hkeys hplain
  cases hvalue.symm.trans hvalue'
  cases hdecode.symm.trans hdecode'
  rfl

end Document.Visits

/-! ### The law -/

namespace UseLaw

variable {run : Setting}

/-- The law of visits: nodes stand where a run takes them to stand, and types are made from the
types of such nodes. A law is asked where a node stands whenever a declaration is asked for, whether
it is made then or found by its pointer. -/
def visits (run : Setting) (d : Document) : UseLaw run where
  At := d.Visits run
  Refers reference := (∃ location, d.Visits run (.reference reference) location) ∨
    ∃ name node, (name, node) ∈ d.schemas ∧ reference = Pointer.child Setting.componentSchemas name
  at_part := .part
  refers_of_at h := .inl ⟨_, h⟩
  at_origin h _ hfound := by
    rcases h with ⟨location, h⟩ | ⟨name, node, h, rfl⟩
    · exact .target h hfound
    · exact .component h hfound
  Holds p := d.Uses run p
  holds_of_use hvisits h := .intro hvisits id h

theorem visits_covers (d : Document) : (visits run d).Covers d :=
  ⟨fun h => .inr ⟨_, _, h, rfl⟩, fun hitem ho _ _ h => .operation hitem ho h⟩

end UseLaw

/-! ### Runs -/

namespace Gen

/-- In a document whose parts are objects, every pointer that a run makes up for a node leads to a
value that decodes to this node, and the run makes it up for no other node. Whether the run succeeds
or not, what it remembers by a pointer is a name of its own, and the declaration under the name is
made for the node at the pointer, from the types of nodes at their own pointers. -/
theorem document_identifies {run : Setting} {d : Document}
    (hd : Document.ofTree run.tree.root = .ok d) (hkeys : run.tree.root.distinctKeys = true)
    (hplain : run.tree.root.IsPlain) {result : Except Failure (List OperationTypes × Option String)}
    {p : Progress} (h : (document run d).run.run {} = (result, p)) :
    (∀ {node pointer}, d.Visits run node pointer →
      ∃ value, Pointer.lookup? run.tree.root pointer = some value ∧
        SchemaNode.decode value = .ok node) ∧
    (∀ {node node' pointer}, d.Visits run node pointer → d.Visits run node' pointer →
      node = node') ∧
    (∀ {pointer name}, p.name? pointer = some name →
      (∃ node, d.Visits run node pointer) ∧
        ∀ {other}, p.name? other = some name → other = pointer) ∧
    ∀ {node pointer name declared}, d.Visits run node pointer → p.name? pointer = some name →
      p.registry.lookup? name = some declared →
        ∃ draft, Makes run p (d.Uses run p) pointer name node draft ∧
          declared = (draft.dropDependency name).rename name := by
  have hsound := (UseLaw.visits run d).sound_of_run (UseLaw.visits_covers d) h
  refine ⟨fun hvisits => ?_, fun hvisits => hvisits.unique hd hkeys hplain, fun hname => ?_,
    fun {node pointer name declared} hvisits hname hdeclared => ?_⟩
  · obtain ⟨value, hvalue, -, hdecode⟩ := hvisits.stands hd hkeys hplain
    exact ⟨value, hvalue, hdecode⟩
  · exact ⟨hsound.stands hname, fun hother => hsound.orderly.injective hother hname⟩
  · obtain ⟨node', draft, hvisits', hmakes, heq⟩ :=
      hsound.made_at hname hdeclared p (le_refl p)
    obtain rfl := hvisits.unique hd hkeys hplain hvisits'
    exact ⟨draft, hmakes, heq⟩

/-- A run on the document of pets. -/
def petRun : Setting := ⟨.of petTree, {}, {}⟩

/-- The parts of the document are objects, and a run on it remembers the name of a component. -/
theorem document_identifies_petRun :
    ∃ d result p, Document.ofTree petTree = .ok d ∧ petTree.distinctKeys = true ∧
      petTree.IsPlain ∧ (document petRun d).run.run {} = (result, p) ∧
      p.name? "#/components/schemas/Pet" = some "Pet" ∧
      ∃ node, d.Visits petRun node "#/components/schemas/Pet" ∧
        ∃ value, Pointer.lookup? petTree "#/components/schemas/Pet" = some value ∧
          SchemaNode.decode value = .ok node := by
  have hrun : (Document.ofTree petTree).toOption.any (fun d =>
      ((document petRun d).run.run {}).2.name? "#/components/schemas/Pet" == some "Pet") =
      true := by
    decide +kernel
  have hkeys : petTree.distinctKeys = true := by decide +kernel
  have hplain : petTree.IsPlain := fun role value =>
    Json.Writes.of_check Role.isPlain (n := 12) (by decide +kernel)
  cases hd : Document.ofTree petTree with
  | error fault =>
    rw [hd] at hrun
    cases hrun
  | ok d =>
    rw [hd] at hrun
    have hname := beq_iff_eq.mp hrun
    have hidentifies := @document_identifies petRun d hd hkeys hplain _ _ rfl
    obtain ⟨⟨node, hvisits⟩, -⟩ := hidentifies.2.2.1 hname
    exact ⟨d, _, _, rfl, hkeys, hplain, rfl, hname, node, hvisits, hidentifies.1 hvisits⟩

/-- A document whose operation is written as an array. -/
def positionalTree : Json :=
  .object [
    ("openapi", .string "3.0.0"),
    ("paths", .object [
      ("/x", .object [
        ("get", .array [
          .null, .null, .null, .array [], .array [],
          .object [
            ("content", .object [
              ("application/json", .object [
                ("schema", .object [
                  ("properties", .object [
                    ("a", .object [("type", .string "string")])])])])])]])])])]

/-- Below path items and operations all parts of the document are objects. But the operation is an
array, and the pointer at which a run declares the schema of the request body leads nowhere. -/
theorem document_positionalTree :
    ∃ d p, Document.ofTree positionalTree = .ok d ∧ positionalTree.distinctKeys = true ∧
      (∀ role value, positionalTree.Writes role value → role ≠ .pathItem → role ≠ .operation →
        role.isPlain value = true) ∧
      ((document ⟨.of positionalTree, {}, {}⟩ d).run.run {}).2 = p ∧
      p.name? "#/paths/~1x/get/requestBody/content/application~1json/schema" =
        some "GetXRequest" ∧
      Pointer.lookup? positionalTree
        "#/paths/~1x/get/requestBody/content/application~1json/schema" = none := by
  have hrun : (Document.ofTree positionalTree).toOption.any (fun d =>
      ((document ⟨.of positionalTree, {}, {}⟩ d).run.run {}).2.name?
        "#/paths/~1x/get/requestBody/content/application~1json/schema" == some "GetXRequest") =
      true := by
    decide +kernel
  have hplain (role : Role) (value : Json) (h : positionalTree.Writes role value)
      (hpath : role ≠ .pathItem) (hoperation : role ≠ .operation) :
      role.isPlain value = true := by
    have htest := h.of_check
      (fun role value => role == .pathItem || role == .operation || role.isPlain value) (n := 12)
      (by decide +kernel)
    simpa [hpath, hoperation] using htest
  cases hd : Document.ofTree positionalTree with
  | error fault =>
    rw [hd] at hrun
    cases hrun
  | ok d =>
    rw [hd] at hrun
    exact ⟨d, _, rfl, by decide +kernel, hplain, rfl, beq_iff_eq.mp hrun, by decide +kernel⟩

end Gen

end OpenApiTs
