import OpenApiTs.Proofs.Agreement
import OpenApiTs.Proofs.Operations

/-!
# Failures to find what references lead to

A run fails with a reference that leads to no value, and says where the reference stands. It looks
values up at many points: when a target is declared, when a chain of references is followed to a
schema, when it asks whether uses add null, whether an entry of an intersection can be extended, or
what tells the branches of a union apart. A law of reports says where nodes stand and which failures
a single look-up can have, given that its reference stands where the run has it. Then these are the
only failures of this kind that a whole run can have.

## Main definitions

* `Misses`: what is said of a result that is a failure to find a value.
* `ReportLaw`: a law of reports.
* `ReportLaw.Ends`, `ReportLaw.Obeys`: computations that fail by the law.
* `ReportLaw.Answered`, `ReportLaw.NodeAnswered`, `ReportLaw.PartsAnswered`: answers that obey a
  law.

## Main results

* `ReportLaw.obeys_makeDeclaration`, `ReportLaw.obeys_useSchema`: the makers of declarations and of
  types.
* `ReportLaw.follows_referAt`, `ReportLaw.obeys_operationTypes`: references, and the types of
  operations.
* `ReportLaw.obeys_document`: a run on a document.
-/

namespace OpenApiTs

/-! ### Failures of look-ups -/

/-- If a result is a failure to find a value, then `R` holds of the pointer and of the place that
the failure is reported for. -/
def Misses {α : Type} (R : String → String → Prop) (e : Except Failure α) : Prop :=
  ∀ pointer from_, e = .error (.unresolved pointer from_) → R pointer from_

namespace Misses

variable {α β : Type} {R : String → String → Prop}

theorem ok {x : α} : Misses R (.ok x) := nofun

theorem bind {e : Except Failure α} {f : α → Except Failure β} (h : Misses R e)
    (hf : ∀ x, e = .ok x → Misses R (f x)) : Misses R (e >>= f) := by
  cases e with
  | error failure =>
    intro pointer from_ heq
    cases heq
    exact h pointer from_ rfl
  | ok x => exact hf x rfl

theorem canonicalize {reference from_ : String} :
    Misses R (DocumentTree.canonicalize reference from_) := by
  intro pointer place h
  unfold DocumentTree.canonicalize at h
  split at h <;> cases h

end Misses

/-! ### Laws -/

/-- A reference stands at a place, or something stands at its target. -/
def Leads (At : SchemaNode → String → Prop) (reference from_ : String) : Prop :=
  At (.reference reference) from_ ∨ ∃ node, At node reference

/-- Where nodes stand, and which failures to find a value can be reported. Parts of a node and what
references find stand in their places. A look-up reports by the law if it follows a reference from
the place at which the reference stands, or starts at a pointer at which something stands. -/
structure ReportLaw (run : Setting) where
  At : SchemaNode → String → Prop
  Reports : String → String → Prop
  at_part : ∀ {s location node place}, At (.schema s) location → s.HasPart location node place →
    At node place
  at_origin : ∀ {reference from_ node}, Leads At reference from_ →
    run.origin reference from_ = .ok node → At node reference
  origin : ∀ {reference from_}, Leads At reference from_ →
    Misses Reports (run.origin reference from_)
  resolve : ∀ {reference from_}, Leads At reference from_ →
    Misses Reports (run.tree.resolve reference from_)
  null : ∀ {node pointer}, At node pointer → Misses Reports (Gen.needsNullAtUse run pointer)
  extendable : ∀ {reference location} {i : Nat},
    At (.reference reference) (Pointer.child (Pointer.child location "allOf") i.repr) →
    Misses Reports (run.isExtendable reference)

namespace ReportLaw

variable {run : Setting} (law : ReportLaw run)

/-- Something stands at every pointer that has a name. -/
def Named (p : Progress) : Prop :=
  ∀ pointer name, p.name? pointer = some name → ∃ node, law.At node pointer

/-- From a state whose names are those of nodes, a computation ends in such a state and gives a
value with `Q`, or it fails. If it fails to find a value, it reports so by the law. -/
def Ends {α : Type} (Q : α → Prop) (m : Gen α) : Prop :=
  ∀ p, law.Named p → Misses law.Reports (m.run.run p).1 ∧
    ∀ x q, m.run.run p = (.ok x, q) → law.Named q ∧ Q x

/-- A computation ends by the law, with any value. -/
abbrev Obeys {α : Type} (m : Gen α) : Prop := law.Ends (fun _ => True) m

variable {law} {α β : Type} {Q : α → Prop} {Q' : β → Prop}

/-! ### Rules -/

namespace Ends

theorem pure {x : α} (h : Q x) : law.Ends Q (Pure.pure x) := fun p hp =>
  ⟨nofun, fun y q heq => by cases heq; exact ⟨hp, h⟩⟩

theorem weaken {Q₂ : α → Prop} {m : Gen α} (h : law.Ends Q m) (hQ : ∀ x, Q x → Q₂ x) :
    law.Ends Q₂ m :=
  fun p hp => ⟨(h p hp).1, fun x q hq => ((h p hp).2 x q hq).imp_right (hQ x)⟩

theorem ofExcept_bind {e : Except Failure α} {f : α → Gen β} (he : Misses law.Reports e)
    (h : ∀ x, e = .ok x → law.Ends Q' (f x)) : law.Ends Q' (Gen.ofExcept e >>= f) := by
  cases e with
  | error failure =>
    refine fun p _ => ⟨fun pointer from_ heq => ?_, nofun⟩
    cases heq
    exact he pointer from_ rfl
  | ok x => exact h x rfl

theorem bind {m : Gen α} {f : α → Gen β} (hm : law.Ends Q m) (hf : ∀ x, Q x → law.Ends Q' (f x)) :
    law.Ends Q' (m >>= f) := by
  intro p hp
  obtain ⟨hfails, hends⟩ := hm p hp
  rw [Gen.run_bind]
  rcases hrun : m.run.run p with ⟨failure | x, q⟩
  · refine ⟨fun pointer from_ heq => ?_, nofun⟩
    cases heq
    exact hfails pointer from_ (by rw [hrun])
  · obtain ⟨hq, hx⟩ := hends x q hrun
    exact hf x hx q hq

theorem map {m : Gen α} (hm : law.Obeys m) (f : α → β) : law.Obeys (f <$> m) := by
  rw [map_eq_pure_bind]
  exact hm.bind fun _ _ => .pure trivial

theorem mapM {f : α → Gen β} :
    (l : List α) → (∀ a ∈ l, law.Obeys (f a)) → law.Obeys (l.mapM f)
  | [], _ => .pure trivial
  | a :: l, h => by
      obtain ⟨ha, hl⟩ := List.forall_mem_cons.mp h
      rw [List.mapM_cons]
      exact ha.bind fun _ _ => (mapM l hl).bind fun _ _ => .pure trivial

end Ends

theorem named_empty : law.Named {} := fun _ _ h => nomatch h

theorem obeys_claim (f : Registry → Except NameExhausted (String × Registry)) :
    law.Obeys (Gen.claim f) := by
  intro p hp
  rw [Gen.run_claim]
  split
  · exact ⟨nofun, fun x q heq => by cases heq; exact ⟨hp, trivial⟩⟩
  · exact ⟨nofun, nofun⟩

theorem obeys_declare {raw : String} (make : String → Declaration) :
    law.Obeys (Gen.declare run raw make) := by
  intro p hp
  rw [Gen.run_declare]
  split
  · exact ⟨nofun, fun x q heq => by cases heq; exact ⟨hp, trivial⟩⟩
  · exact ⟨nofun, nofun⟩

/-- A pointer at which something stands gets a name and a declaration. -/
theorem obeys_declaring {node : SchemaNode} {pointer raw : String} (hat : law.At node pointer)
    {make : String → Gen Declaration} (h : ∀ name, law.Obeys (make name)) :
    law.Obeys
      (do
        let name ← Gen.begin run pointer raw
        let d ← make name
        Gen.finish pointer name d
        Pure.pure name) := by
  have hbegin : law.Obeys (Gen.begin run pointer raw) := by
    intro p hp
    rw [Gen.run_begin]
    split
    · refine ⟨nofun, fun x q heq => ?_⟩
      cases heq
      refine ⟨fun P n hn => ?_, trivial⟩
      rw [Progress.name?_begun] at hn
      split at hn
      · next heq => exact ⟨node, heq ▸ hat⟩
      · exact hp P n hn
    · exact ⟨nofun, nofun⟩
  have hfinish (name : String) (d : Declaration) : law.Obeys (Gen.finish pointer name d) :=
    fun p hp => ⟨nofun, fun x q heq => by cases heq; exact ⟨hp, trivial⟩⟩
  exact hbegin.bind fun name _ => (h name).bind fun d _ => (hfinish name d).bind fun _ _ =>
    .pure trivial

/-- What has a name stands at its pointer; what gets one has to. -/
theorem ends_named {pointer : String} {m : Gen String}
    (hm : law.Ends (fun _ => ∃ node, law.At node pointer) m) :
    law.Ends (fun _ => ∃ node, law.At node pointer)
      (do
        match ← Gen.nameOf? pointer with
        | some name => Pure.pure name
        | none => m) := by
  intro p hp
  rw [Gen.run_bind, Gen.run_nameOf?]
  cases hname : p.name? pointer with
  | some name => exact ⟨nofun, fun x q heq => by cases heq; exact ⟨hp, hp pointer name hname⟩⟩
  | none => exact hm p hp

/-! ### Answers -/

variable (law) in
/-- Uses of references that stand somewhere obey the law. -/
def Follows (refer : Refer) : Prop :=
  ∀ {reference location}, law.At (.reference reference) location →
    law.Obeys (refer reference location)

variable (law) in
/-- The answers of a schema obey the law wherever the schema stands. -/
structure Answered (s : Schema) (answers : Answers) : Prop where
  use : ∀ {location}, law.At (.schema s) location → ∀ hint, law.Obeys (answers.use location hint)
  declare : ∀ {location}, law.At (.schema s) location →
    ∀ raw, law.Obeys (answers.declare location raw)
  collect : ∀ {location}, law.At (.schema s) location →
    ∀ owner body, law.Obeys (answers.collect location owner body)

variable (law) in
/-- The answers in the part of a node obey the law. -/
abbrev NodeAnswered : SchemaNode → Part → Prop := NodeAnswers law.Answered

variable (law) in
/-- The answers in all parts of a schema obey the law. -/
abbrev PartsAnswered : Schema → Parts → Prop := PartsAnswers law.Answered

section Makers

variable {refer : Refer} {s : Schema} {node : SchemaNode} {part : Part} {parts : Parts}
  {location : String}

theorem obeys_partUse (hf : law.Follows refer) (h : law.NodeAnswered node part)
    (hn : law.At node location) (hint : String) : law.Obeys (part.use refer location hint) := by
  cases h with
  | reference pointer => exact hf hn
  | boolean allowed => exact .pure trivial
  | schema h => exact h.use hn hint

/-! ### Bodies -/

theorem obeys_field (hf : law.Follows refer) (h : law.NodeAnswered node part)
    (hn : law.At node location) (owner name : String) (required : Bool) :
    law.Obeys (Gen.field run refer owner name part required location) :=
  (obeys_partUse hf h hn _).bind fun _ _ => .pure trivial

theorem obeys_collectFields (hf : law.Follows refer) (s : Schema) (location owner : String) :
    {properties : List (String × SchemaNode)} → {parts : List (String × Part)} →
      List.Forall₂ (fun e part => e.1 = part.1 ∧ law.NodeAnswered e.2 part.2) properties parts →
      (∀ e ∈ properties, law.At e.2 (Pointer.child location e.1)) → (body : Body) →
      law.Obeys (Gen.collectFields run refer s location owner parts body)
  | [], [], .nil, _, _ => .pure trivial
  | (name, _) :: _, (_, _) :: _, .cons h hrest, hn, body => by
      obtain ⟨rfl, hpart⟩ := h
      obtain ⟨hnode, hnodes⟩ := List.forall_mem_cons.mp hn
      exact (obeys_field hf hpart hnode owner name _).bind fun f _ =>
        obeys_collectFields hf s location owner hrest hnodes _

theorem obeys_additionalUse (hf : law.Follows refer) (hs : law.At (.schema s) location)
    (h : law.PartsAnswered s parts) (owner : String) :
    law.Obeys (Gen.additionalUse refer parts location owner) := by
  unfold Gen.additionalUse
  split
  · exact .pure trivial
  · exact .pure trivial
  · next part _ hp =>
    obtain ⟨node, hn, hpart⟩ := h.exists_additional hp
    exact (obeys_partUse hf hpart (law.at_part hs (.additional hn)) _).map some

theorem obeys_collect (hf : law.Follows refer) (hs : law.At (.schema s) location)
    (h : law.PartsAnswered s parts) (owner : String) (body : Body) :
    law.Obeys (Gen.collect run refer s parts location owner body) := by
  refine (obeys_collectFields hf s _ owner h.properties
    (fun e he => law.at_part hs (.property he)) body).bind fun body' _ => ?_
  refine (obeys_additionalUse hf hs h owner).bind fun index _ => ?_
  split <;> exact .pure trivial

theorem obeys_record (hf : law.Follows refer) (hs : law.At (.schema s) location)
    (h : law.PartsAnswered s parts) (owner : String) :
    law.Obeys (Gen.record refer parts location owner) := by
  unfold Gen.record
  split
  · exact .pure trivial
  · exact (obeys_additionalUse hf hs h owner).bind fun _ _ => .pure trivial

theorem obeys_inlineObject (hf : law.Follows refer) (hs : law.At (.schema s) location)
    (h : law.PartsAnswered s parts) (hint : String) :
    law.Obeys (Gen.inlineObject run refer s parts location hint) := by
  unfold Gen.inlineObject
  split
  · exact obeys_record hf hs h hint
  · exact (obeys_collect hf hs h hint {}).bind fun _ _ => .pure trivial

/-! ### Intersections -/

/-- A reference in an intersection is examined before it is used. -/
theorem obeys_composeEntry {i : Nat} (hf : law.Follows refer) (h : law.NodeAnswered node part)
    (hn : law.At node (Pointer.child (Pointer.child location "allOf") i.repr)) (raw : String)
    (c : Gen.Composition) :
    law.Obeys (Gen.composeEntry run refer raw (Pointer.child location "allOf") i part c) := by
  unfold Gen.composeEntry
  cases h with
  | reference reference =>
    refine .ofExcept_bind .canonicalize fun pointer hpointer => ?_
    obtain rfl := DocumentTree.canonicalize_eq hpointer
    refine .ofExcept_bind (law.extendable hn) fun objectLike _ => ?_
    refine (hf hn).bind fun base _ => ?_
    split <;> exact .pure trivial
  | boolean allowed => cases allowed <;> exact .pure trivial
  | schema h =>
    dsimp only
    split
    · exact (h.collect hn raw c.body).bind fun _ _ => .pure trivial
    · exact (h.use hn _).bind fun _ _ => .pure trivial

theorem obeys_composeEntries (hf : law.Follows refer) (raw location : String) :
    {nodes : List SchemaNode} → {parts : List Part} →
      List.Forall₂ law.NodeAnswered nodes parts → (i : Nat) →
      EachFrom (fun j node =>
        law.At node (Pointer.child (Pointer.child location "allOf") j.repr)) i nodes →
      (c : Gen.Composition) →
      law.Obeys (Gen.composeEntries run refer raw (Pointer.child location "allOf") i parts c)
  | [], [], .nil, _, _, _ => .pure trivial
  | _ :: _, _ :: _, .cons h hrest, i, hn, c =>
      (obeys_composeEntry hf h hn.head raw c).bind fun c' _ =>
        obeys_composeEntries hf raw location hrest (i + 1) hn.tail c'

theorem obeys_objectDeclaration (hf : law.Follows refer) (hs : law.At (.schema s) location)
    (h : law.PartsAnswered s parts) (name raw : String) :
    law.Obeys (Gen.objectDeclaration run refer s parts location name raw) := by
  unfold Gen.objectDeclaration
  dsimp only
  split
  · exact (obeys_record hf hs h raw).bind fun _ _ => .pure trivial
  · have hat := EachFrom.of_zero fun j node hj => law.at_part hs (.allOf (i := j) hj)
    refine (obeys_composeEntries hf raw location h.allOf 0 hat {}).bind fun c _ => ?_
    refine (obeys_collect hf hs h raw c.body).bind fun body _ => ?_
    split <;> exact .pure trivial

/-! ### Scalars, arrays and literals -/

theorem obeys_plainUse (hf : law.Follows refer) (hs : law.At (.schema s) location)
    (h : law.PartsAnswered s parts) (hint : String) :
    law.Obeys (Gen.plainUse run refer s parts location hint) := by
  unfold Gen.plainUse
  split
  · split
    · next part hp =>
      obtain ⟨node, hn, hpart⟩ := h.exists_items hp
      exact (obeys_partUse hf hpart (law.at_part hs (.items hn)) _).bind fun _ _ => .pure trivial
    · exact .pure trivial
  all_goals exact .pure trivial

theorem obeys_enumerationDeclaration (s : Schema) (pointer name : String) :
    law.Obeys (Gen.enumerationDeclaration run s pointer name) := by
  unfold Gen.enumerationDeclaration
  dsimp only
  split
  · exact (obeys_claim _).bind fun _ _ => .pure trivial
  · exact .pure trivial

/-! ### Unions -/

/-- What tells a branch apart is looked up from the properties of the branch. -/
theorem misses_firstLiteral? (location : String) :
    (properties : List (String × SchemaNode)) →
      (∀ e ∈ properties, law.At e.2 (Pointer.child location e.1)) →
      Misses law.Reports (Gen.firstLiteral? run location properties)
  | [], _ => .ok
  | (name, node) :: rest, h => by
      obtain ⟨hnode, hrest⟩ := List.forall_mem_cons.mp h
      have hschema : Misses law.Reports
          (run.tree.schemaOf node (Pointer.child location name)) := by
        cases node with
        | reference pointer => exact law.resolve (.inl hnode)
        | boolean _ | schema _ => exact .ok
      refine hschema.bind fun property _ => ?_
      split
      · exact .ok
      · exact misses_firstLiteral? location rest hrest

theorem misses_branchName (hs : law.At (.schema s) location) (discriminator : Option String)
    (unionName : String) (position : Nat) :
    Misses law.Reports (Gen.branchName run discriminator s unionName position location) := by
  have hproperties : ∀ e ∈ s.properties,
      law.At e.2 (Pointer.child (Pointer.child location "properties") e.1) :=
    fun e he => law.at_part hs (.property he)
  refine Misses.bind (misses_firstLiteral? _ _ fun e he => ?_) fun literal _ => ?_
  · split at he
    · obtain ⟨node, hnode, rfl⟩ := Option.map_eq_some_iff.mp (Option.mem_toList.mp he)
      exact hproperties _ (Entries.mem_of_get? hnode)
    · exact hproperties e he
  · split
    · exact .ok
    · split <;> exact .ok

theorem obeys_branchUse (hf : law.Follows refer) (h : law.NodeAnswered node part)
    (hn : law.At node location) (discriminator : Option String) (unionName : String) (i : Nat) :
    law.Obeys (Gen.branchUse run refer discriminator unionName location i part) := by
  unfold Gen.branchUse
  cases h with
  | reference reference => exact hf hn
  | boolean allowed => exact .pure trivial
  | schema h =>
    dsimp only
    split
    · refine .ofExcept_bind (misses_branchName hn discriminator unionName _) fun raw _ => ?_
      exact (h.declare hn raw).bind fun _ _ => .pure trivial
    · exact h.use hn _

theorem obeys_addBranches (hf : law.Follows refer) (discriminator : Option String)
    (unionName location : String) :
    {nodes : List SchemaNode} → {parts : List Part} →
      List.Forall₂ law.NodeAnswered nodes parts → (i : Nat) →
      EachFrom (fun j node => law.At node (Pointer.child location j.repr)) i nodes →
      (m : Gen.Members) →
      law.Obeys (Gen.addBranches run refer discriminator unionName location i parts m)
  | [], [], .nil, _, _, _ => .pure trivial
  | _ :: _, _ :: _, .cons h hrest, i, hn, m =>
      (obeys_branchUse hf h hn.head discriminator unionName i).bind fun use _ =>
        obeys_addBranches hf discriminator unionName location hrest (i + 1) hn.tail (m.add use)

theorem obeys_unionUse (hf : law.Follows refer) (hs : law.At (.schema s) location)
    (h : law.PartsAnswered s parts) (unionName : String) :
    law.Obeys (Gen.unionUse run refer s parts location unionName) := by
  have hat := EachFrom.of_zero fun j node hj => law.at_part hs (Schema.hasPart_branch (i := j) hj)
  exact (obeys_addBranches hf _ unionName _ h.branches 0 hat _).bind fun _ _ => .pure trivial

/-! ### Declarations and uses -/

theorem obeys_makeDeclaration (hf : law.Follows refer) (hs : law.At (.schema s) location)
    (h : law.PartsAnswered s parts) (name raw : String) :
    law.Obeys (Gen.makeDeclaration run refer s parts location name raw) := by
  unfold Gen.makeDeclaration
  split
  · exact obeys_objectDeclaration hf hs h name raw
  · exact (obeys_unionUse hf hs h raw).bind fun _ _ => .pure trivial
  · exact obeys_enumerationDeclaration s location name
  · exact (obeys_plainUse hf hs h raw).bind fun _ _ => .pure trivial

theorem ends_declareSchema (hf : law.Follows refer) (hs : law.At (.schema s) location)
    (h : law.PartsAnswered s parts) (raw : String) :
    law.Ends (fun _ => ∃ node, law.At node location)
      (Gen.declareSchema run refer s parts location raw) :=
  ends_named ((obeys_declaring hs fun name => obeys_makeDeclaration hf hs h name raw).weaken
    fun _ _ => ⟨_, hs⟩)

theorem obeys_useSchema (hf : law.Follows refer) (hs : law.At (.schema s) location)
    (h : law.PartsAnswered s parts) (hint : String) :
    law.Obeys (Gen.useSchema run refer s parts location hint) := by
  unfold Gen.useSchema
  split
  · next reference hplacement =>
    have hpart : law.At (.reference reference) (Pointer.descend location ["allOf", "0"]) :=
      law.at_part hs (.allOf (i := 0) (Schema.allOf_of_wrapped hplacement))
    exact (hf hpart).bind fun _ _ => .pure trivial
  · refine Ends.bind (Q := fun _ => True) ?_ fun _ _ => .pure trivial
    unfold Gen.inPlaceUse
    split
    · exact obeys_unionUse hf hs h hint
    · exact obeys_inlineObject hf hs h hint
    · exact obeys_plainUse hf hs h hint
  · exact (ends_declareSchema hf hs h hint).bind fun _ _ => .pure trivial

theorem answers_answered (hf : law.Follows refer) (h : law.PartsAnswered s parts) :
    law.Answered s (Gen.answers run refer s parts) where
  use hs hint := obeys_useSchema hf hs h hint
  declare hs raw := (ends_declareSchema hf hs h raw).weaken fun _ _ => trivial
  collect hs owner body := obeys_collect hf hs h owner body

theorem part_answered (hf : law.Follows refer) (node : SchemaNode) :
    law.NodeAnswered node (node.part run refer) :=
  .of_parts (answers_answered hf) node

theorem parts_answered (hf : law.Follows refer) (s : Schema) :
    law.PartsAnswered s (s.parts run refer) :=
  .of_parts (answers_answered hf) s

end Makers

/-! ### References -/

section References

variable {refer : Refer} {reference target pointer from_ : String} {node : SchemaNode}

theorem obeys_declareAlias (hat : law.At node pointer) {use : Gen TypeUse} (h : law.Obeys use)
    (raw : String) :
    law.Ends (fun _ => ∃ node, law.At node pointer) (Gen.declareAlias run pointer raw use) := by
  have hmake : Gen.declareAlias run pointer raw use = (do
      let name ← Gen.begin run pointer raw
      let d ← (Gen.aliasDeclaration "" name · pointer) <$> use
      Gen.finish pointer name d
      Pure.pure name) := by
    simp only [Gen.declareAlias, bind_map_left]
  rw [hmake]
  exact (obeys_declaring hat fun name => h.map _).weaken fun _ _ => ⟨node, hat⟩

/-- What stands at a pointer is declared there. -/
theorem ends_declareFound (hf : law.Follows refer) (raw : String) :
    (node : SchemaNode) → law.At node pointer →
      law.Ends (fun _ => ∃ node, law.At node pointer)
        (Gen.declareFound run refer pointer raw node)
  | .reference target, h => by
      refine obeys_declareAlias h ?_ raw
      refine .ofExcept_bind (law.resolve (.inr ⟨_, h⟩)) fun s _ => ?_
      split
      · exact .pure trivial
      · exact hf h
  | .boolean allowed, h => obeys_declareAlias h (.pure trivial) raw
  | .schema s, h => ends_declareSchema hf h (parts_answered hf s) raw

theorem ends_ensureNamedWith (hf : law.Follows refer) (h : Leads law.At reference from_) :
    law.Ends (fun _ => ∃ node, law.At node reference)
      (Gen.ensureNamedWith run refer reference from_) := by
  rw [Gen.ensureNamedWith_eq]
  refine .ofExcept_bind .canonicalize fun pointer hpointer => ?_
  obtain rfl := DocumentTree.canonicalize_eq hpointer
  refine ends_named (.ofExcept_bind (law.origin h) fun node hnode => ?_)
  exact ends_declareFound hf _ node (law.at_origin h hnode)

theorem follows_referenceWith (hf : law.Follows refer) :
    law.Follows (Gen.referenceWith run refer) := by
  intro reference location h
  refine .ofExcept_bind .canonicalize fun pointer hpointer => ?_
  obtain rfl := DocumentTree.canonicalize_eq hpointer
  split
  · exact .pure trivial
  · -- Only now is it known that something stands at the target.
    refine (ends_ensureNamedWith hf (.inl h)).bind fun name ⟨node, hnode⟩ => ?_
    exact .ofExcept_bind (law.null hnode) fun null _ => .pure trivial

/-- However deep references nest, their uses obey the law. -/
theorem follows_referAt : (bound : Nat) → law.Follows (Gen.referAt run bound)
  | 0 => fun _ => .pure trivial
  | bound + 1 => follows_referenceWith (follows_referAt bound)

theorem follows_refer : law.Follows (Gen.refer run) := follows_referAt _

end References

/-! ### Operations -/

variable (law) in
/-- The nodes in an operation stand in their places, and its entries are looked up by the law. -/
structure CoversOperation (item : PathItem) (o : Operation) (path pointer : String) : Prop where
  part : ∀ {node location}, o.HasPart run item path pointer node location → law.At node location
  body : ∀ entry ∈ o.requestBody, Misses law.Reports
    (Gen.locate run RequestBody.record.decode (Pointer.child pointer "requestBody") entry)
  parameters : Misses law.Reports (Gen.allParameters run item o path pointer)
  responses : Misses law.Reports
    (Gen.responseBodies run (Pointer.child pointer "responses") o.responses)

variable (law) in
/-- Something stands at the pointers of the component schemas of a document, and the law covers the
operations. -/
structure Covers (d : Document) : Prop where
  components : ∀ {name node}, (name, node) ∈ d.schemas →
    ∃ node, law.At node (Pointer.child Setting.componentSchemas name)
  operations : ∀ {path item method o}, (path, item) ∈ d.paths → (method, o) ∈ item.operations →
    law.CoversOperation item o path (Pointer.descend "#/paths" [path, method.name])

section Operations

variable {item : PathItem} {o : Operation} {path pointer : String}

theorem obeys_bodyUse {body : LocatedNode} (ha : law.At body.node body.location) (raw : String) :
    law.Obeys (Gen.bodyUse run body raw) := by
  obtain ⟨node, location⟩ := body
  unfold Gen.bodyUse
  cases node with
  | reference reference => exact follows_refer ha
  | boolean allowed => exact .pure trivial
  | schema s =>
    exact (ends_declareSchema follows_refer ha (parts_answered follows_refer s) raw).bind fun _ _ =>
      .pure trivial

theorem obeys_requestUse (h : law.CoversOperation item o path pointer) (name : String) :
    law.Obeys (Gen.requestUse run o pointer name) := by
  unfold Gen.requestUse
  split
  · exact .pure trivial
  · next entry hentry =>
    refine .ofExcept_bind (h.body entry hentry) fun located hlocated => ?_
    obtain ⟨body, owner⟩ := located
    dsimp only
    split
    · exact .pure trivial
    · next mediaType located hmedia =>
      exact (obeys_bodyUse (h.part (.request hentry hlocated hmedia)) _).bind fun _ _ =>
        .pure trivial

theorem obeys_parameterField {p : Gen.LocatedParameter}
    (ha : ∀ {node}, p.parameter.schema = some node →
      law.At node (Pointer.child p.pointer "schema")) (raw : String) :
    law.Obeys (Gen.parameterField run raw p) := by
  unfold Gen.parameterField
  dsimp only
  split
  · next node hnode =>
    exact (obeys_field follows_refer (part_answered follows_refer node) (ha hnode) raw _ _).bind
      fun _ _ => .pure trivial
  · exact .pure trivial

theorem obeys_parametersName (h : law.CoversOperation item o path pointer) (name : String) :
    law.Obeys (Gen.parametersName run item o path pointer name) := by
  refine .ofExcept_bind h.parameters fun parameters hparameters => ?_
  split
  · exact .pure trivial
  · refine (Ends.mapM parameters fun p hp =>
      obeys_parameterField (fun hn => h.part (.parameter hparameters hp hn)) _).bind
        fun fields _ => ?_
    exact (obeys_declare _).map some

theorem obeys_responseTexts (name : String) (several : Bool) :
    (bodies : List (String × LocatedNode)) →
      (∀ b ∈ bodies, law.At b.2.node b.2.location) → (texts mentions : List String) →
      law.Obeys (Gen.responseTexts run name several bodies texts mentions)
  | [], _, _, _ => .pure trivial
  | (status, body) :: rest, h, texts, mentions => by
      obtain ⟨hbody, hrest⟩ := List.forall_mem_cons.mp h
      exact (obeys_bodyUse hbody _).bind fun use _ =>
        obeys_responseTexts name several rest hrest _ _

theorem obeys_responseUse (h : law.CoversOperation item o path pointer) (name : String) :
    law.Obeys (Gen.responseUse run o pointer name) := by
  refine .ofExcept_bind h.responses fun bodies hbodies => ?_
  refine (obeys_responseTexts name _ bodies (fun b hb => h.part (.response hbodies hb)) [] []).bind
    fun result _ => ?_
  obtain ⟨texts, mentions⟩ := result
  dsimp only
  split
  · exact .pure trivial
  · exact .pure trivial
  · exact (obeys_declare _).bind fun _ _ => .pure trivial

theorem obeys_operationTypes {method : Method}
    (h : law.CoversOperation item o path (Pointer.descend "#/paths" [path, method.name])) :
    law.Obeys (Gen.operationTypes run path item method o) :=
  (obeys_requestUse h _).bind fun _ _ => (obeys_parametersName h _).bind fun _ _ =>
    (obeys_responseUse h _).bind fun _ _ => .pure trivial

theorem obeys_pathOperations :
    (operations : List (Method × Operation)) →
      (∀ e ∈ operations,
        law.CoversOperation item e.2 path (Pointer.descend "#/paths" [path, e.1.name])) →
      law.Obeys (Gen.pathOperations run path item operations)
  | [], _ => .pure trivial
  | (method, o) :: rest, h => by
      obtain ⟨ho, hrest⟩ := List.forall_mem_cons.mp h
      exact (obeys_operationTypes ho).bind fun _ _ => (obeys_pathOperations rest hrest).bind
        fun _ _ => .pure trivial

theorem obeys_paths :
    (items : List (String × PathItem)) →
      (∀ e ∈ items, ∀ m ∈ e.2.operations,
        law.CoversOperation e.2 m.2 e.1 (Pointer.descend "#/paths" [e.1, m.1.name])) →
      law.Obeys (Gen.paths run items)
  | [], _ => .pure trivial
  | (path, item) :: rest, h => by
      obtain ⟨hitem, hrest⟩ := List.forall_mem_cons.mp h
      have hlater := obeys_paths rest hrest
      unfold Gen.paths
      dsimp only
      split
      · exact (obeys_pathOperations _ hitem).bind fun _ _ => hlater.bind fun _ _ => .pure trivial
      · exact hlater.bind fun _ _ => .pure trivial

theorem obeys_components :
    (schemas : List (String × SchemaNode)) →
      (∀ e ∈ schemas, ∃ node, law.At node (Pointer.child Setting.componentSchemas e.1)) →
      law.Obeys (Gen.components run schemas)
  | [], _ => .pure trivial
  | (name, _) :: rest, h => by
      obtain ⟨hname, hrest⟩ := List.forall_mem_cons.mp h
      have hlater := obeys_components rest hrest
      unfold Gen.components
      dsimp only
      split
      · exact (ends_ensureNamedWith follows_refer (.inr hname)).bind fun _ _ => hlater
      · exact hlater

/-- A run on a document that the law covers fails by the law. -/
theorem obeys_document {d : Document} (h : law.Covers d) : law.Obeys (Gen.document run d) := by
  refine (obeys_components d.schemas fun _ => h.components).bind fun _ _ => ?_
  refine (obeys_paths d.paths fun e he m hm => h.operations he hm).bind fun operations _ => ?_
  split
  · exact (obeys_claim _).bind fun _ _ => .pure trivial
  · exact .pure trivial

end Operations

end ReportLaw

end OpenApiTs
