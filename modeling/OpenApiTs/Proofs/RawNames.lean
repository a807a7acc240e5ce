import OpenApiTs.Proofs.Agreement
import OpenApiTs.Proofs.Children
import OpenApiTs.Proofs.Output

/-!
# Where names come from

Each name that a run gives out is given out for a raw name, and each raw name belongs to a node that
the run can come to or to an operation. Components and targets of references are named after the
last segment of their pointers. What stands inside a schema is named after the raw name of the
schema and after its place there, and a branch of a union possibly after a literal or a title. So an
exported name can be followed back to the document. The relation is an upper bound: a node that has
a raw name need not be declared.

## Main definitions

* `Document.HasOperation`: the operations for which a run makes types.
* `Setting.Hints`: the nodes that a run can come to, with their raw names.
* `Setting.Raw`: the raw names of a run.
* `Gen.Draws`: computations that take no names but those for the raw names of a run.

## Main results

* `Gen.draws_useSchema`, `Gen.draws_referAt`, `Gen.draws_operationTypes`: uses of schemas and of
  references, and the types of operations.
* `Gen.draws_document`: a run on a document.
* `Output.raw_of_mem_exports`: what the output exports comes from raw names of the document.
-/

namespace OpenApiTs

/-! ### Raw names of a document -/

/-- An operation of a document on a path that the filter admits, with its raw name. -/
structure Document.HasOperation (d : Document) (filter : Filter) (path : String) (item : PathItem)
    (method : Method) (o : Operation) (name : String) : Prop where
  path_mem : (path, item) ∈ d.paths
  admitted : filter.admitsPath path = true
  operation_mem : (method, o) ∈ item.operations
  name_eq : name = Naming.operationName o.operationId method.name path

/-- The nodes that a run on a document can come to, each with a raw name that a declaration of the
node would be named after. -/
inductive Setting.Hints (run : Setting) (d : Document) : SchemaNode → String → Prop
  | component {name node entry} (hmem : (name, entry) ∈ d.schemas)
      (hadmits : run.filter.admitsSchema name = true)
      (hnode : run.origin (Pointer.child Setting.componentSchemas name) Setting.componentSchemas =
        .ok node) :
      Hints run d node (Naming.compose [name])
  | target {reference raw from_ node} (h : Hints run d (.reference reference) raw)
      (hx : run.excludes reference = false) (hnode : run.origin reference from_ = .ok node) :
      Hints run d node (Naming.compose [Pointer.last reference])
  | property {s raw name node} (h : Hints run d (.schema s) raw)
      (hn : (name, node) ∈ s.properties) : Hints run d node (Naming.compose [raw, name])
  | additional {s raw node} (h : Hints run d (.schema s) raw) (hn : s.additional = some node) :
      Hints run d node (Naming.compose [raw, "Value"])
  | items {s raw node} (h : Hints run d (.schema s) raw) (hn : s.items = some node) :
      Hints run d node (Naming.compose [raw, "Item"])
  | merged {s raw node} {i : Nat} (h : Hints run d (.schema s) raw)
      (hn : s.allOf[i]? = some node) : Hints run d node raw
  | part {s raw node} {i : Nat} (h : Hints run d (.schema s) raw) (hn : s.allOf[i]? = some node) :
      Hints run d node (Naming.compose [raw, "Part", (i + 1).repr])
  | branch {s raw node} {i : Nat} (h : Hints run d (.schema s) raw)
      (hn : s.branches[i]? = some node) :
      Hints run d node (Naming.compose [raw, "Variant", (i + 1).repr])
  | named {s raw name location} {b : Schema} {i : Nat} (h : Hints run d (.schema s) raw)
      (hn : s.branches[i]? = some (.schema b))
      (hname : Gen.branchName run (s.discriminator.map Discriminator.propertyName) b raw (i + 1)
        location = .ok name) :
      Hints run d (.schema b) name
  | request {path item method o name entry body owner mediaType located word}
      (ho : d.HasOperation run.filter path item method o name) (h : o.requestBody = some entry)
      (hbody : Gen.locate run RequestBody.record.decode
        (Pointer.child (Pointer.descend "#/paths" [path, method.name]) "requestBody") entry =
          .ok (body, owner))
      (hlocated : MediaType.located? body.content owner = some (mediaType, located))
      (hword : word ∈ ["FormData", "Request"]) :
      Hints run d located.node (Naming.compose [name, word])
  | parameter {path item method o name} {merged : List Gen.LocatedParameter} {p node}
      (ho : d.HasOperation run.filter path item method o name)
      (h : Gen.allParameters run item o path (Pointer.descend "#/paths" [path, method.name]) =
        .ok merged)
      (hp : p ∈ merged) (hn : p.parameter.schema = some node) :
      Hints run d node
        (Naming.compose [Naming.compose [name, "Params"], p.parameter.name])
  | response {path item method o name} {bodies : List (String × LocatedNode)} {status located}
      (several : Bool) (ho : d.HasOperation run.filter path item method o name)
      (h : Gen.responseBodies run
        (Pointer.child (Pointer.descend "#/paths" [path, method.name]) "responses") o.responses =
          .ok bodies)
      (hb : (status, located) ∈ bodies) :
      Hints run d located.node (Gen.responseName name status several)

/-- The raw names of a run on a document: those of nodes, those of the parameters and of the results
of operations, and that of the interface of operations. -/
inductive Setting.Raw (run : Setting) (d : Document) : String → Prop
  | node {node raw} (h : run.Hints d node raw) : Raw run d raw
  | operation {path item method o name word}
      (ho : d.HasOperation run.filter path item method o name) (hword : word ∈ ["Params", "Result"]) :
      Raw run d (Naming.compose [name, word])
  | interface : Raw run d Gen.operationsInterface

/-! ### Computations that take names -/

/-- All names that are taken are given out for the raw names of a run. -/
def Progress.Drawn (run : Setting) (d : Document) (p : Progress) : Prop :=
  ∀ name ∈ p.registry.taken, run.config.naming.GivesFor (run.Raw d) name

/-- A computation that takes no names but those that are given out for the raw names of a run,
whatever its outcome. -/
def Gen.Draws (run : Setting) (d : Document) {α : Type} (m : Gen α) : Prop :=
  ∀ p : Progress, p.Drawn run d → (m.run.run p).2.Drawn run d

namespace Gen

variable {run : Setting} {d : Document} {α β : Type}

namespace Draws

theorem pure (x : α) : Draws run d (Pure.pure x : Gen α) := fun _ hp => hp

theorem bind {m : Gen α} {f : α → Gen β} (hm : Draws run d m) (hf : ∀ x, Draws run d (f x)) :
    Draws run d (m >>= f) := by
  intro p hp
  have hq := hm p hp
  rw [run_bind]
  rcases hrun : m.run.run p with ⟨failure | x, q⟩ <;> rw [hrun] at hq
  · exact hq
  · exact hf x q hq

theorem ofExcept_bind {e : Except Failure α} {f : α → Gen β}
    (h : ∀ x, e = .ok x → Draws run d (f x)) : Draws run d (ofExcept e >>= f) := by
  cases e with
  | error failure => exact fun _ hp => hp
  | ok x => exact h x rfl

theorem map {m : Gen α} (hm : Draws run d m) (f : α → β) : Draws run d (f <$> m) := by
  rw [map_eq_pure_bind]
  exact hm.bind fun x => .pure (f x)

theorem mapM {f : α → Gen β} :
    (l : List α) → (∀ a ∈ l, Draws run d (f a)) → Draws run d (l.mapM f)
  | [], _ => .pure []
  | a :: l, h => by
      obtain ⟨ha, hl⟩ := List.forall_mem_cons.mp h
      rw [List.mapM_cons]
      exact ha.bind fun x => (mapM l hl).bind fun xs => .pure (x :: xs)

/-- A name is looked up without taking one. -/
theorem named {pointer : String} {m : Gen String} (hm : Draws run d m) :
    Draws run d
      (do
        match ← nameOf? pointer with
        | some name => Pure.pure name
        | none => m) := by
  intro p hp
  rw [run_bind, run_nameOf?]
  cases p.name? pointer with
  | some name => exact hp
  | none => exact hm p hp

end Draws

theorem drawn_take {r : Registry} {name : String}
    (hname : run.config.naming.GivesFor (run.Raw d) name)
    (hr : ∀ n ∈ r.taken, run.config.naming.GivesFor (run.Raw d) n) :
    ∀ n ∈ (r.take name).taken, run.config.naming.GivesFor (run.Raw d) n := by
  intro n hn
  rcases Registry.mem_taken_take.mp hn with rfl | hn
  · exact hname
  · exact hr n hn

/-- A declaration is put into the place of a name that is given out, which is taken at most then. -/
theorem drawn_fulfill {r : Registry} {name : String} (declaration : Declaration)
    (hname : run.config.naming.GivesFor (run.Raw d) name)
    (hr : ∀ n ∈ r.taken, run.config.naming.GivesFor (run.Raw d) n) :
    ∀ n ∈ (r.fulfill name declaration).taken, run.config.naming.GivesFor (run.Raw d) n := by
  unfold Registry.fulfill
  split
  · exact hr
  · exact drawn_take hname hr

/-- A raw name of the run is reserved under a name that is given out for it. -/
theorem drawn_reserve {r s : Registry} {raw name : String} (hraw : run.Raw d raw)
    (hr : ∀ n ∈ r.taken, run.config.naming.GivesFor (run.Raw d) n)
    (h : r.reserve (run.config.naming.typeName raw) = .ok (name, s)) :
    run.config.naming.GivesFor (run.Raw d) name ∧
      ∀ n ∈ s.taken, run.config.naming.GivesFor (run.Raw d) n := by
  obtain ⟨hunique, rfl⟩ := Registry.reserve_eq_ok_iff.mp h
  have hname := Registry.gives_uniqueName (.converted hraw) hunique
  exact ⟨hname, drawn_take hname hr⟩

theorem draws_claimExport {base : String} (hbase : run.config.naming.GivesFor (run.Raw d) base) :
    Draws run d (claim fun r => r.claimExport base) := by
  intro p hp
  rw [run_claim]
  split
  · next name s hclaim =>
    obtain ⟨hunique, rfl⟩ := Registry.claimExport_eq_ok_iff.mp hclaim
    exact drawn_take (Registry.gives_uniqueName hbase hunique) hp
  · exact hp

/-- The declaration of a pointer for a raw name of the run. -/
theorem draws_declaring {pointer raw : String} {make : String → Gen Declaration}
    (hraw : run.Raw d raw)
    (h : ∀ name, run.config.naming.GivesFor (run.Raw d) name → Draws run d (make name)) :
    Draws run d
      (do
        let name ← begin run pointer raw
        let declaration ← make name
        finish pointer name declaration
        pure name) := by
  intro p hp
  rw [run_bind, run_begin]
  cases hreserve : p.registry.reserve (run.config.naming.typeName raw) with
  | error e => exact hp
  | ok reserved =>
    obtain ⟨name, registry⟩ := reserved
    obtain ⟨hname, hregistry⟩ := drawn_reserve hraw hp hreserve
    have hfinish (declaration : Declaration) : Draws run d (finish pointer name declaration) :=
      fun q hq => drawn_fulfill _ hname hq
    exact ((h name hname).bind fun declaration => (hfinish declaration).bind fun _ => .pure name)
      (p.begun registry pointer name) hregistry

theorem draws_declare {raw : String} (hraw : run.Raw d raw) (make : String → Declaration) :
    Draws run d (declare run raw make) := by
  intro p hp
  rw [run_declare]
  split
  · next name registry hreserve =>
    obtain ⟨hname, hregistry⟩ := drawn_reserve hraw hp hreserve
    exact drawn_fulfill _ hname hregistry
  · exact hp

/-! ### Answers -/

/-- References that a run can come to are used without other names. -/
def FollowsRaw (run : Setting) (d : Document) (refer : Refer) : Prop :=
  ∀ {reference raw}, run.Hints d (.reference reference) raw →
    ∀ location, Draws run d (refer reference location)

/-- The answers of a schema take no names but those for its raw name. -/
structure AnswersDraw (run : Setting) (d : Document) (s : Schema) (answers : Answers) : Prop where
  use : ∀ {hint}, run.Hints d (.schema s) hint →
    ∀ location, Draws run d (answers.use location hint)
  declare : ∀ {raw}, run.Hints d (.schema s) raw →
    ∀ pointer, Draws run d (answers.declare pointer raw)
  collect : ∀ {owner}, run.Hints d (.schema s) owner →
    ∀ location body, Draws run d (answers.collect location owner body)

/-- The answers in the part of a node take no other names. -/
abbrev PartDraws (run : Setting) (d : Document) : SchemaNode → Part → Prop :=
  NodeAnswers (AnswersDraw run d)

/-- The answers in all parts of a schema take no other names. -/
abbrev PartsDraw (run : Setting) (d : Document) : Schema → Parts → Prop :=
  PartsAnswers (AnswersDraw run d)

section Makers

variable {refer : Refer} {s : Schema} {node : SchemaNode} {part : Part} {parts : Parts}
  {location raw : String}

theorem draws_partUse (hf : FollowsRaw run d refer) (h : PartDraws run d node part)
    (hn : run.Hints d node raw) (location : String) :
    Draws run d (part.use refer location raw) := by
  cases h with
  | reference pointer => exact hf hn location
  | boolean allowed => exact .pure _
  | schema h => exact h.use hn location

/-! ### Bodies -/

theorem draws_field {owner name : String} (hf : FollowsRaw run d refer)
    (h : PartDraws run d node part) (hn : run.Hints d node (Naming.compose [owner, name]))
    (required : Bool) (location : String) :
    Draws run d (field run refer owner name part required location) :=
  (draws_partUse hf h hn location).bind fun _ => .pure _

theorem draws_collectFields (hf : FollowsRaw run d refer) (s : Schema) (location owner : String) :
    {properties : List (String × SchemaNode)} → {parts : List (String × Part)} →
      List.Forall₂ (fun e part => e.1 = part.1 ∧ PartDraws run d e.2 part.2) properties parts →
      (∀ e ∈ properties, run.Hints d e.2 (Naming.compose [owner, e.1])) → (body : Body) →
      Draws run d (collectFields run refer s location owner parts body)
  | [], [], .nil, _, body => .pure body
  | (name, node) :: _, (_, _) :: _, .cons h hrest, hn, body => by
      obtain ⟨rfl, hpart⟩ := h
      obtain ⟨hnode, hnodes⟩ := List.forall_mem_cons.mp hn
      exact (draws_field hf hpart hnode _ _).bind fun f =>
        draws_collectFields hf s location owner hrest hnodes _

theorem draws_additionalUse (hf : FollowsRaw run d refer) (hs : run.Hints d (.schema s) raw)
    (h : PartsDraw run d s parts) (location : String) :
    Draws run d (additionalUse refer parts location raw) := by
  unfold additionalUse
  split
  · exact .pure _
  · exact .pure _
  · next part _ hp =>
    obtain ⟨node, hn, hpart⟩ := h.exists_additional hp
    exact (draws_partUse hf hpart (.additional hs hn) _).map some

theorem draws_collect (hf : FollowsRaw run d refer) (hs : run.Hints d (.schema s) raw)
    (h : PartsDraw run d s parts) (location : String) (body : Body) :
    Draws run d (collect run refer s parts location raw body) := by
  refine (draws_collectFields hf s _ raw h.properties (fun e he => .property hs he) body).bind
    fun body' => ?_
  refine (draws_additionalUse hf hs h location).bind fun index => ?_
  split <;> exact .pure _

theorem draws_record (hf : FollowsRaw run d refer) (hs : run.Hints d (.schema s) raw)
    (h : PartsDraw run d s parts) (location : String) :
    Draws run d (record refer parts location raw) := by
  unfold record
  split
  · exact .pure _
  · exact (draws_additionalUse hf hs h location).bind fun _ => .pure _

theorem draws_inlineObject (hf : FollowsRaw run d refer) (hs : run.Hints d (.schema s) raw)
    (h : PartsDraw run d s parts) (location : String) :
    Draws run d (inlineObject run refer s parts location raw) := by
  unfold inlineObject
  split
  · exact draws_record hf hs h location
  · exact (draws_collect hf hs h location {}).bind fun _ => .pure _

/-! ### Intersections -/

/-- An entry of an intersection is merged under the raw name of the intersection, or named after its
position. -/
theorem draws_composeEntry {i : Nat} (hf : FollowsRaw run d refer)
    (hs : run.Hints d (.schema s) raw) (hn : s.allOf[i]? = some node)
    (h : PartDraws run d node part) (location : String) (c : Composition) :
    Draws run d (composeEntry run refer raw location i part c) := by
  unfold composeEntry
  cases h with
  | reference reference =>
    refine .ofExcept_bind fun pointer _ => .ofExcept_bind fun objectLike _ => ?_
    refine (hf (.merged hs hn) _).bind fun base => ?_
    split <;> exact .pure _
  | boolean allowed => cases allowed <;> exact .pure _
  | schema h =>
    dsimp only
    split
    · exact (h.collect (.merged hs hn) _ c.body).bind fun _ => .pure _
    · exact (h.use (.part hs hn) _).bind fun _ => .pure _

theorem draws_composeEntries (hf : FollowsRaw run d refer) (hs : run.Hints d (.schema s) raw)
    (location : String) :
    {nodes : List SchemaNode} → {parts : List Part} → List.Forall₂ (PartDraws run d) nodes parts →
      (i : Nat) → EachFrom (fun j node => s.allOf[j]? = some node) i nodes →
      (c : Composition) → Draws run d (composeEntries run refer raw location i parts c)
  | [], [], .nil, _, _, c => .pure c
  | _ :: _, _ :: _, .cons h hrest, i, hn, c =>
      (draws_composeEntry hf hs hn.head h location c).bind fun c' =>
        draws_composeEntries hf hs location hrest (i + 1) hn.tail c'

theorem draws_objectDeclaration (hf : FollowsRaw run d refer) (hs : run.Hints d (.schema s) raw)
    (h : PartsDraw run d s parts) (pointer name : String) :
    Draws run d (objectDeclaration run refer s parts pointer name raw) := by
  unfold objectDeclaration
  dsimp only
  split
  · exact (draws_record hf hs h pointer).bind fun _ => .pure _
  · refine (draws_composeEntries hf hs _ h.allOf 0 (.of_zero fun _ _ => id) {}).bind fun c => ?_
    refine (draws_collect hf hs h pointer c.body).bind fun body => ?_
    split <;> exact .pure _

/-! ### Scalars, arrays and literals -/

theorem draws_plainUse (hf : FollowsRaw run d refer) (hs : run.Hints d (.schema s) raw)
    (h : PartsDraw run d s parts) (location : String) :
    Draws run d (plainUse run refer s parts location raw) := by
  unfold plainUse
  split
  · split
    · next part hp =>
      obtain ⟨node, hn, hpart⟩ := h.exists_items hp
      exact (draws_partUse hf hpart (.items hs hn) _).bind fun _ => .pure _
    · exact .pure _
  all_goals exact .pure _

/-! ### Unions -/

/-- A branch of a union is named after what tells it apart, or after its position. -/
theorem draws_branchUse {i : Nat} (hf : FollowsRaw run d refer) (hs : run.Hints d (.schema s) raw)
    (hn : s.branches[i]? = some node) (h : PartDraws run d node part) (location : String) :
    Draws run d (branchUse run refer (s.discriminator.map Discriminator.propertyName) raw location i
      part) := by
  unfold branchUse
  cases h with
  | reference reference => exact hf (.branch hs hn) location
  | boolean allowed => exact .pure _
  | schema h =>
    dsimp only
    split
    · refine .ofExcept_bind fun name hname => ?_
      exact (h.declare (.named hs hn hname) location).bind fun _ => .pure _
    · exact h.use (.branch hs hn) location

theorem draws_addBranches (hf : FollowsRaw run d refer) (hs : run.Hints d (.schema s) raw)
    (location : String) :
    {nodes : List SchemaNode} → {parts : List Part} → List.Forall₂ (PartDraws run d) nodes parts →
      (i : Nat) → EachFrom (fun j node => s.branches[j]? = some node) i nodes →
      (m : Members) →
      Draws run d (addBranches run refer (s.discriminator.map Discriminator.propertyName) raw
        location i parts m)
  | [], [], .nil, _, _, m => .pure m
  | _ :: _, _ :: _, .cons h hrest, i, hn, m =>
      (draws_branchUse hf hs hn.head h _).bind fun use =>
        draws_addBranches hf hs location hrest (i + 1) hn.tail (m.add use)

theorem draws_unionUse (hf : FollowsRaw run d refer) (hs : run.Hints d (.schema s) raw)
    (h : PartsDraw run d s parts) (location : String) :
    Draws run d (unionUse run refer s parts location raw) :=
  (draws_addBranches hf hs _ h.branches 0 (.of_zero fun _ _ => id) _).bind fun _ => .pure _

/-! ### Declarations and uses -/

/-- The union of the values of an enumeration is named after the enumeration. -/
theorem draws_enumerationDeclaration (s : Schema) (pointer : String) {name : String}
    (hname : run.config.naming.GivesFor (run.Raw d) name) :
    Draws run d (enumerationDeclaration run s pointer name) := by
  unfold enumerationDeclaration
  dsimp only
  split
  · exact (draws_claimExport (.companion hname)).bind fun _ => .pure _
  · exact .pure _

theorem draws_makeDeclaration (hf : FollowsRaw run d refer) (hs : run.Hints d (.schema s) raw)
    (h : PartsDraw run d s parts) (pointer : String) {name : String}
    (hname : run.config.naming.GivesFor (run.Raw d) name) :
    Draws run d (makeDeclaration run refer s parts pointer name raw) := by
  unfold makeDeclaration
  split
  · exact draws_objectDeclaration hf hs h pointer name
  · exact (draws_unionUse hf hs h pointer).bind fun _ => .pure _
  · exact draws_enumerationDeclaration s pointer hname
  · exact (draws_plainUse hf hs h pointer).bind fun _ => .pure _

theorem draws_declareSchema (hf : FollowsRaw run d refer) (hs : run.Hints d (.schema s) raw)
    (h : PartsDraw run d s parts) (pointer : String) :
    Draws run d (declareSchema run refer s parts pointer raw) :=
  .named (draws_declaring (.node hs) fun _ hname => draws_makeDeclaration hf hs h pointer hname)

theorem draws_useSchema (hf : FollowsRaw run d refer) (hs : run.Hints d (.schema s) raw)
    (h : PartsDraw run d s parts) (location : String) :
    Draws run d (useSchema run refer s parts location raw) := by
  unfold useSchema
  split
  · next reference hplacement =>
    have hreference : run.Hints d (.reference reference) raw :=
      .merged (i := 0) hs (Schema.allOf_of_wrapped hplacement)
    exact (hf hreference _).bind fun _ => .pure _
  · refine Draws.bind ?_ fun _ => .pure _
    unfold inPlaceUse
    split
    · exact draws_unionUse hf hs h location
    · exact draws_inlineObject hf hs h location
    · exact draws_plainUse hf hs h location
  · exact (draws_declareSchema hf hs h location).bind fun _ => .pure _

theorem answers_draw (hf : FollowsRaw run d refer) (h : PartsDraw run d s parts) :
    AnswersDraw run d s (answers run refer s parts) where
  use hs location := draws_useSchema hf hs h location
  declare hs pointer := draws_declareSchema hf hs h pointer
  collect hs location body := draws_collect hf hs h location body

theorem part_draws (hf : FollowsRaw run d refer) (node : SchemaNode) :
    PartDraws run d node (node.part run refer) :=
  .of_parts (answers_draw hf) node

theorem parts_draw (hf : FollowsRaw run d refer) (s : Schema) :
    PartsDraw run d s (s.parts run refer) :=
  .of_parts (answers_draw hf) s

end Makers

/-! ### References -/

section References

variable {refer : Refer} {reference from_ : String}

theorem draws_declareAlias {pointer raw : String} (hraw : run.Raw d raw) {use : Gen TypeUse}
    (h : Draws run d use) : Draws run d (declareAlias run pointer raw use) := by
  have hmake : declareAlias run pointer raw use = (do
      let name ← begin run pointer raw
      let declaration ← (aliasDeclaration "" name · pointer) <$> use
      finish pointer name declaration
      pure name) := by
    simp only [declareAlias, bind_map_left]
  rw [hmake]
  exact draws_declaring hraw fun name _ => h.map _

/-- What a pointer leads to is declared there under its raw name. -/
theorem draws_declareFound (hf : FollowsRaw run d refer) (pointer : String) {raw : String} :
    (node : SchemaNode) → run.Hints d node raw →
      Draws run d (declareFound run refer pointer raw node)
  | .reference target, hn => by
      refine draws_declareAlias (.node hn) (.ofExcept_bind fun s _ => ?_)
      split
      · exact .pure _
      · exact hf hn pointer
  | .boolean allowed, hn => draws_declareAlias (.node hn) (.pure _)
  | .schema s, hn => draws_declareSchema hf hn (parts_draw hf s) pointer

theorem draws_ensureNamedWith (hf : FollowsRaw run d refer)
    (h : ∀ {node}, run.origin reference from_ = .ok node →
      run.Hints d node (Naming.compose [Pointer.last reference])) :
    Draws run d (ensureNamedWith run refer reference from_) := by
  rw [ensureNamedWith_eq]
  refine .ofExcept_bind fun pointer hpointer => ?_
  obtain rfl := DocumentTree.canonicalize_eq hpointer
  exact .named (.ofExcept_bind fun node hnode => draws_declareFound hf pointer node (h hnode))

theorem follows_referenceWith (hf : FollowsRaw run d refer) :
    FollowsRaw run d (referenceWith run refer) := by
  intro reference raw h location
  refine .ofExcept_bind fun pointer hpointer => ?_
  obtain rfl := DocumentTree.canonicalize_eq hpointer
  split
  · exact .pure _
  · next hx =>
    refine (draws_ensureNamedWith hf fun hnode => ?_).bind fun name =>
      .ofExcept_bind fun null _ => .pure _
    exact .target h (Bool.eq_false_iff.mpr hx) hnode

/-- However deep references nest, no other names are taken. -/
theorem draws_referAt : (bound : Nat) → FollowsRaw run d (referAt run bound)
  | 0 => fun _ _ => .pure _
  | bound + 1 => follows_referenceWith (draws_referAt bound)

theorem draws_refer : FollowsRaw run d (Gen.refer run) := draws_referAt run.tree.bound

end References

/-! ### Operations -/

section Operations

variable {path name : String} {item : PathItem} {method : Method} {o : Operation}

theorem draws_bodyUse {body : LocatedNode} {raw : String} (hn : run.Hints d body.node raw) :
    Draws run d (bodyUse run body raw) := by
  obtain ⟨node, location⟩ := body
  unfold bodyUse
  cases node with
  | reference reference => exact draws_refer hn location
  | boolean allowed => exact .pure _
  | schema s =>
    exact (draws_declareSchema draws_refer hn (parts_draw draws_refer s) location).bind fun _ =>
      .pure _

theorem draws_requestUse (ho : d.HasOperation run.filter path item method o name) :
    Draws run d (requestUse run o (Pointer.descend "#/paths" [path, method.name]) name) := by
  unfold requestUse
  split
  · exact .pure _
  · next entry hentry =>
    refine .ofExcept_bind fun located hlocated => ?_
    obtain ⟨body, owner⟩ := located
    dsimp only
    split
    · exact .pure _
    · next mediaType located hmedia =>
      refine (draws_bodyUse (.request ho hentry hlocated hmedia ?_)).bind fun _ => .pure _
      split
      · exact List.mem_cons_self
      · exact List.mem_cons_of_mem _ List.mem_cons_self

theorem draws_parameterField {raw : String} {p : LocatedParameter}
    (hn : ∀ {node}, p.parameter.schema = some node →
      run.Hints d node (Naming.compose [raw, p.parameter.name])) :
    Draws run d (parameterField run raw p) := by
  unfold parameterField
  dsimp only
  split
  · next node hnode =>
    exact (draws_field draws_refer (part_draws draws_refer node) (hn hnode) _ _).bind fun _ =>
      .pure _
  · exact .pure _

theorem draws_parametersName (ho : d.HasOperation run.filter path item method o name) :
    Draws run d
      (parametersName run item o path (Pointer.descend "#/paths" [path, method.name]) name) := by
  refine .ofExcept_bind fun parameters hparameters => ?_
  split
  · exact .pure _
  · refine (Draws.mapM parameters fun p hp => draws_parameterField fun hn =>
      .parameter ho hparameters hp hn).bind fun fields => ?_
    exact (draws_declare (.operation ho List.mem_cons_self) _).map some

theorem draws_responseTexts (several : Bool) :
    (bodies : List (String × LocatedNode)) →
      (∀ b ∈ bodies, run.Hints d b.2.node (responseName name b.1 several)) →
      (texts mentions : List String) →
      Draws run d (responseTexts run name several bodies texts mentions)
  | [], _, _, _ => .pure _
  | (_, _) :: rest, h, _, _ => by
      obtain ⟨hbody, hrest⟩ := List.forall_mem_cons.mp h
      exact (draws_bodyUse hbody).bind fun use => draws_responseTexts several rest hrest _ _

theorem draws_responseUse (ho : d.HasOperation run.filter path item method o name) :
    Draws run d (responseUse run o (Pointer.descend "#/paths" [path, method.name]) name) := by
  refine .ofExcept_bind fun bodies hbodies => ?_
  refine (draws_responseTexts _ bodies (fun b hb => .response _ ho hbodies hb) [] []).bind
    fun result => ?_
  obtain ⟨texts, mentions⟩ := result
  dsimp only
  split
  · exact .pure _
  · exact .pure _
  · exact (draws_declare (.operation ho (List.mem_cons_of_mem _ List.mem_cons_self)) _).bind
      fun _ => .pure _

theorem draws_operationTypes
    (ho : d.HasOperation run.filter path item method o
      (Naming.operationName o.operationId method.name path)) :
    Draws run d (operationTypes run path item method o) :=
  (draws_requestUse ho).bind fun _ => (draws_parametersName ho).bind fun _ =>
    (draws_responseUse ho).bind fun _ => .pure _

theorem draws_pathOperations :
    (operations : List (Method × Operation)) →
      (∀ e ∈ operations, Draws run d (operationTypes run path item e.1 e.2)) →
      Draws run d (pathOperations run path item operations)
  | [], _ => .pure _
  | (_, _) :: rest, h => by
      obtain ⟨ho, hrest⟩ := List.forall_mem_cons.mp h
      exact ho.bind fun _ => (draws_pathOperations rest hrest).bind fun _ => .pure _

theorem draws_paths :
    (items : List (String × PathItem)) → (∀ e ∈ items, e ∈ d.paths) → Draws run d (paths run items)
  | [], _ => .pure _
  | (path, item) :: rest, h => by
      obtain ⟨hitem, hrest⟩ := List.forall_mem_cons.mp h
      have hlater := draws_paths rest hrest
      unfold paths
      dsimp only
      split
      · next hadmits =>
        refine (draws_pathOperations _ fun e he => ?_).bind fun _ => hlater.bind fun _ => .pure _
        exact draws_operationTypes ⟨hitem, hadmits, he, rfl⟩
      · exact hlater.bind fun _ => .pure _

theorem draws_components :
    (schemas : List (String × SchemaNode)) → (∀ e ∈ schemas, e ∈ d.schemas) →
      Draws run d (components run schemas)
  | [], _ => .pure _
  | (name, node) :: rest, h => by
      obtain ⟨hmem, hrest⟩ := List.forall_mem_cons.mp h
      have hlater := draws_components rest hrest
      unfold components
      dsimp only
      split
      · next hadmits =>
        refine (draws_ensureNamedWith draws_refer fun hnode => ?_).bind fun _ => hlater
        rw [Pointer.last_child]
        exact .component hmem hadmits hnode
      · exact hlater

/-- A run on a document takes no names but those that are given out for its raw names. -/
theorem draws_document : Draws run d (document run d) := by
  refine (draws_components d.schemas fun _ => id).bind fun _ => ?_
  refine (draws_paths d.paths fun _ => id).bind fun operations => ?_
  split
  · exact (draws_claimExport (.converted .interface)).bind fun _ => .pure _
  · exact .pure _

end Operations

end Gen

/-- All exported names are given out for raw names of the run on the document. -/
theorem Output.raw_of_mem_exports {d : Document} {config : Config} {out : Output}
    (h : generate d config = .ok out) :
    ∃ filter, Filter.compile config.filter = .ok filter ∧
      ∀ name ∈ out.exports,
        config.naming.GivesFor (Setting.Raw ⟨.of d.tree, config, filter⟩ d) name := by
  obtain ⟨filter, p, hfilter, hrun, -, htaken, -⟩ := Output.exports_run h
  have hdraws : Gen.Draws ⟨.of d.tree, config, filter⟩ d (Gen.document _ d) := Gen.draws_document
  have hdrawn := hdraws {} nofun
  rw [hrun] at hdrawn
  exact ⟨filter, hfilter, fun name hname => hdrawn name (htaken name hname)⟩

end OpenApiTs
