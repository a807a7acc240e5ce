import OpenApiTs.Proofs.Likeness
import OpenApiTs.Proofs.Output
import OpenApiTs.Proofs.Precedence

/-!
# Components that are added

A run declares the component schemas in their order before anything else, so a schema that is added
after the others is declared when they have been, and what they are declared as is the same as
without it: the tree is the same wherever a reference in them leads, unless it leads to all
component schemas at once. Names that are given are kept, and so is the order of emission, since the
declarations before depend on no later ones.

## Main definitions

* `Json.withComponent`: a document tree with one more component schema.

## Main results

* `Json.alike_withComponent`: where references lead, the tree is as before.
* `Gen.document_append`: the component schemas of a document can be declared one part at a time.
* `UseLaw.Sound.closed_declarations`: at the end of a run, declarations depend on one another only.
* `generate_prefix`: what is emitted without the schema is emitted first with it.
-/

namespace OpenApiTs

/-! ### Trees with one more component -/

namespace Json

/-- A table with one more member after the others. -/
def withMember (table : Json) (name : String) (value : Json) : Json :=
  match table with
  | .object members => .object (members ++ [(name, value)])
  | _ => table

/-- Components with one more schema after the others, which is the first if there is no table of
schemas yet. -/
def withSchema (components : Json) (name : String) (schema : Json) : Json :=
  match components with
  | .object members =>
    .object (Entries.put "schemas"
      (((Entries.get? "schemas" members).getD (.object [])).withMember name schema) members)
  | .array elements =>
    .array ((elements.headD (.object [])).withMember name schema :: elements.tail)
  | _ => components

/-- A document tree with one more component schema after the others, which is the first if there are
no components yet. -/
def withComponent (tree : Json) (name : String) (schema : Json) : Json :=
  match tree with
  | .object members =>
    .object (Entries.put "components"
      (((Entries.get? "components" members).getD (.object [])).withSchema name schema) members)
  | _ => tree

section WithComponent

variable {members components schemas : List (String × Json)} {name : String} {schema : Json}

theorem withComponent_object
    (hcomponents : Entries.get? "components" members = some (.object components))
    (hschemas : Entries.get? "schemas" components = some (.object schemas)) :
    (object members).withComponent name schema =
      .object (Entries.put "components" (.object (Entries.put "schemas"
        (.object (schemas ++ [(name, schema)])) components)) members) := by
  rw [withComponent, hcomponents, Option.getD_some, withSchema, hschemas, Option.getD_some,
    withMember]

/-- Where a reference leads that does not lead to all component schemas, the tree has what it has
without the added one, or it had nothing. -/
theorem alike_withComponent
    (hcomponents : Entries.get? "components" members = some (.object components))
    (hschemas : Entries.get? "schemas" components = some (.object schemas)) {pointer : String}
    (hcanonical : Pointer.canonicalize pointer = .ok pointer)
    (hne : pointer ≠ Setting.componentSchemas) :
    Alike False (.object members) ((object members).withComponent name schema) pointer := by
  have hnames : (Pointer.segments pointer).map Pointer.unescape ≠ ["components", "schemas"] :=
    fun hnames => hne (Pointer.eq_of_segments hcanonical (by rfl) (by decide +kernel) hnames)
  rw [withComponent_object hcomponents hschemas]
  refine AlikeBehind.put (by decide) nofun fun {rest old} hrest hold => ?_
  cases hcomponents.symm.trans hold
  refine AlikeBehind.put (by decide) nofun fun {rest' old'} hrest' hold' => ?_
  cases hschemas.symm.trans hold'
  cases rest' with
  | nil => exact absurd (hrest' ▸ hrest) hnames
  | cons first after =>
    cases hfirst : Entries.get? first schemas with
    | none => exact .inr ⟨id, by rw [List.foldlM_cons, Pointer.step?, hfirst]; rfl⟩
    | some value =>
      have happend := Entries.get?_append_of_some [(name, schema)] hfirst
      exact .inl (by
        rw [List.foldlM_cons, List.foldlM_cons, Pointer.step?, Pointer.step?, hfirst, happend])

end WithComponent

end Json

/-! ### Documents with one more component -/

/-- The component schemas of a document are what its table of them decodes to. -/
theorem Document.table_schemas {members components : List (String × Json)} {schemas : Json}
    {tree : Json} {d : Document} (hmembers : (Entries.keys members).Nodup)
    (hnodup : (Entries.keys components).Nodup)
    (hcomponents : Entries.get? "components" members = some (.object components))
    (hschemas : Entries.get? "schemas" components = some schemas)
    (hd : (record tree).decode .json (.object members) = .ok d) :
    Decode.table SchemaNode.decode schemas = .ok d.schemas :=
  hasField_schemas.of_get? hnodup hschemas
    ((hasField_components tree).of_get? hmembers hcomponents hd)

/-- If a component is found where a reference to it leads, the components are an object with an
object of schemas. -/
theorem Document.exists_tables {tree value : Json} {name : String} {d : Document}
    (hkeys : tree.distinctKeys = true) (hd : ofTree tree = .ok d)
    (hvalue : Pointer.lookup? tree (Pointer.child Setting.componentSchemas name) = some value) :
    ∃ members components schemas, tree = .object members ∧
      Entries.get? "components" members = some (.object components) ∧
      Entries.get? "schemas" components = some (.object schemas) := by
  obtain ⟨⟨members, rfl⟩, hdecode⟩ := decode_of_ofTree hd
  have hroot : Pointer.lookup? (.object members) "#" = some (.object members) := by
    rfl
  rw [show Setting.componentSchemas = Pointer.child (Pointer.child "#" "components") "schemas" by
    decide, Pointer.lookup?_child, Pointer.lookup?_child, Pointer.lookup?_child, hroot] at hvalue
  obtain ⟨schemas, hschemas, -⟩ := Option.bind_eq_some_iff.mp hvalue
  obtain ⟨components, hcomponents, hschemas⟩ := Option.bind_eq_some_iff.mp hschemas
  replace hcomponents : Entries.get? "components" members = some components := hcomponents
  cases components with
  | array elements => cases hschemas
  | null | bool _ | number _ | string _ => cases hschemas
  | object components =>
    have htable := table_schemas (Json.nodup_of_distinctKeys hkeys)
      (Json.nodup_of_distinctKeys (Json.distinctKeys_of_step? hkeys hcomponents)) hcomponents
      hschemas hdecode
    cases schemas with
    | object schemas => exact ⟨members, components, schemas, rfl, hcomponents, hschemas⟩
    | null | bool _ | number _ | string _ | array _ => cases htable

/-- The document of a tree with one more component has that component after the others. -/
theorem Document.schemas_withComponent {members components schemas : List (String × Json)}
    {name : String} {schema : Json} {d d' : Document}
    (hkeys : (Json.object members).distinctKeys = true)
    (hcomponents : Entries.get? "components" members = some (.object components))
    (hschemas : Entries.get? "schemas" components = some (.object schemas))
    (hd : ofTree (.object members) = .ok d) (hnew : name ∉ Entries.keys d.schemas)
    (hd' : ofTree ((Json.object members).withComponent name schema) = .ok d') :
    ∃ node, d'.schemas = d.schemas ++ [(name, node)] := by
  have hmembers := Json.nodup_of_distinctKeys hkeys
  have hnodup : (Entries.keys components).Nodup :=
    Json.nodup_of_distinctKeys (Json.distinctKeys_of_step? hkeys hcomponents)
  have htable := table_schemas hmembers hnodup hcomponents hschemas (decode_of_ofTree hd).2
  have hdecode' := (decode_of_ofTree hd').2
  rw [Json.withComponent_object hcomponents hschemas] at hdecode'
  have htable' := table_schemas (Entries.nodup_keys_put hmembers) (Entries.nodup_keys_put hnodup)
    (by rw [Entries.get?_put, if_pos rfl]) (by rw [Entries.get?_put, if_pos rfl]) hdecode'
  rw [Decode.table, List.foldlM_append] at htable'
  obtain ⟨table, hfirst, hlast⟩ := bind_eq_ok_iff.mp htable'
  cases htable.symm.trans hfirst
  rw [List.foldlM_cons] at hlast
  obtain ⟨table', hput, hlast⟩ := bind_eq_ok_iff.mp hlast
  obtain ⟨node, -, hput⟩ := bind_eq_ok_iff.mp hput
  cases hput
  exact ⟨node, (Except.ok.inj hlast).symm.trans (Entries.put_of_not_mem hnew)⟩

/-! ### Runs -/

namespace Gen

variable {run : Setting} {d : Document}

/-- The declaration of components one part after the other. -/
theorem components_append (more : List (String × SchemaNode)) :
    (first : List (String × SchemaNode)) →
      components run (first ++ more) = components run first >>= fun _ => components run more := by
  intro first
  induction first with
  | nil => exact (pure_bind _ _).symm
  | cons entry rest ih =>
    rw [List.cons_append, components, components]
    split
    · rw [bind_assoc]
      exact congrArg _ (funext fun _ => ih)
    · exact ih

/-- A run on a document first declares the first components. -/
theorem document_append {first more : List (String × SchemaNode)} (h : d.schemas = first ++ more) :
    document run d = components run first >>= fun _ => document run { d with schemas := more } := by
  rw [document, h, components_append, bind_assoc]
  rfl

theorem paths_of_no_operations :
    (items : List (String × PathItem)) → (∀ e ∈ items, e.2.operations = []) →
      paths run items = pure []
  | [], _ => rfl
  | (path, item) :: rest, h => by
      obtain ⟨hitem, hrest⟩ := List.forall_mem_cons.mp h
      rw [paths, show item.operations = [] from hitem, pathOperations, ite_self, pure_bind]
      dsimp only
      rw [paths_of_no_operations rest hrest, pure_bind, List.nil_append]

/-- A run on a document without operations declares the components. -/
theorem document_of_no_operations (h : d.operationCount = 0) :
    document run d = components run d.schemas >>= fun _ => pure ([], none) := by
  have hitems : ∀ e ∈ d.paths, e.2.operations = [] := by
    rw [Document.operationCount, List.length_eq_zero_iff, List.flatMap_eq_nil_iff] at h
    exact h
  rw [document, paths_of_no_operations d.paths hitems]
  refine congrArg _ (funext fun _ => ?_)
  rw [pure_bind, List.isEmpty_nil, Bool.not_true, Bool.and_false, if_neg Bool.false_ne_true]

theorem components_of_not_admitted :
    (schemas : List (String × SchemaNode)) →
      (∀ e ∈ schemas, ¬run.filter.admitsSchema e.1 = true) → components run schemas = pure ()
  | [], _ => rfl
  | (name, _) :: rest, h => by
      obtain ⟨hname, hrest⟩ := List.forall_mem_cons.mp h
      rw [components, if_neg hname]
      exact components_of_not_admitted rest hrest

/-- If components are declared at all, the tree has one of them. -/
theorem exists_lookup_of_components {p : Progress} :
    (schemas : List (String × SchemaNode)) → (components run schemas).run.run {} = (.ok (), p) →
      (∃ e ∈ schemas, run.filter.admitsSchema e.1 = true) →
      ∃ name value, Pointer.lookup? run.tree.root (Pointer.child Setting.componentSchemas name) =
        some value
  | [], _, h => by
      obtain ⟨e, he, -⟩ := h
      cases he
  | (name, _) :: rest, hrun, h => by
      rw [components] at hrun
      split at hrun
      · obtain ⟨_, _, hfirst, -⟩ := run_bind_eq_ok_iff.mp hrun
        rw [ensureNamed, ensureNamedWith_eq] at hfirst
        obtain ⟨pointer, hpointer, hfirst⟩ := run_ofExcept_bind_eq_ok_iff.mp hfirst
        obtain rfl := DocumentTree.canonicalize_eq hpointer
        rw [run_bind, run_nameOf?] at hfirst
        obtain ⟨node, hnode, -⟩ := run_ofExcept_bind_eq_ok_iff.mp hfirst
        obtain ⟨value, hlookup, -⟩ := bind_eq_ok_iff.mp hnode
        exact ⟨name, value, (DocumentTree.lookup?_of_lookup hlookup).2⟩
      · next hnot =>
        obtain ⟨e, he, hadmits⟩ := h
        rcases List.mem_cons.mp he with rfl | he
        · exact absurd hadmits hnot
        · exact exists_lookup_of_components rest hrun ⟨e, he, hadmits⟩

end Gen

/-- Without open visits, the finished declarations depend on one another only. -/
theorem UseLaw.Sound.closed_declarations {run : Setting} {p : Progress}
    (h : (UseLaw.mentions run).Sound p) (hv : p.visiting = []) :
    Emission.Closed p.registry.declarations := by
  have hp := h.orderly
  intro t ht name hname
  have hmade := h.made (hp.coherent.mem_declarations_iff.mp ht) p (le_refl p)
  obtain ⟨pointer, hpointer⟩ := hmade.knows name hname
  obtain ⟨u, hu⟩ := hp.exists_lookup? hv hpointer
  obtain rfl := hp.coherent.name_eq_of_lookup? hu
  exact ⟨u, hp.coherent.mem_declarations_iff.mpr hu, .inr rfl⟩

/-! ### Outputs -/

/-- On a tree with one more component, components are declared as without it. -/
theorem Gen.agree_components_withComponent {members components schemas : List (String × Json)}
    {name : String} {schema : Json} (run : Setting) (tree' : DocumentTree)
    (hcomponents : Entries.get? "components" members = some (.object components))
    (hschemas : Entries.get? "schemas" components = some (.object schemas))
    (hroot : run.tree.root = .object members)
    (hroot' : tree'.root = (Json.object members).withComponent name schema)
    (hkeys : run.tree.root.distinctKeys = true)
    (hwhole : ¬run.tree.root.Refers .schema Setting.componentSchemas)
    (entries : List (String × SchemaNode)) :
    Agree False (fun _ => True) (fun _ => True) (Gen.components run entries)
      (Gen.components (run.on tree') entries) := by
  have hmatches : run.tree.Matches False
      (fun r => run.tree.root.Follows r ∧ r ≠ Setting.componentSchemas) tree' :=
    { alike := fun hT hcanonical => by
        rw [hroot, hroot']
        exact Json.alike_withComponent hcomponents hschemas hcanonical hT.2
      closed := fun hT hcanonical hvalue hnode r hr => by
        have hrefers := hT.1.references hkeys hcanonical hvalue hnode r hr
        exact ⟨.inl hrefers, fun heq => hwhole (heq ▸ hrefers)⟩ }
  exact agree_components hmatches.sameFor entries fun e _ =>
    ⟨.inr ⟨e.1, rfl⟩, Pointer.child_ne_self _ e.1⟩

/-- What is emitted for a document without operations is emitted first, in the same order, if one
more component schema stands after the others, as long as no reference to a schema leads to all
component schemas. -/
theorem generate_prefix {tree schema : Json} {name : String} {d d' : Document} {config : Config}
    {out out' : Output} (hd : Document.ofTree tree = .ok d) (hkeys : tree.distinctKeys = true)
    (hnone : d.operationCount = 0) (hwhole : ¬tree.Refers .schema Setting.componentSchemas)
    (hnew : name ∉ Entries.keys d.schemas)
    (hd' : Document.ofTree (tree.withComponent name schema) = .ok d')
    (h : generate d config = .ok out) (h' : generate d' config = .ok out') :
    out.types <+: out'.types := by
  obtain ⟨filter, p, hfilter, hrun, htypes⟩ := exists_run_of_generate h
  obtain ⟨filter', q, hfilter', hrun', htypes'⟩ := exists_run_of_generate h'
  cases hfilter.symm.trans hfilter'
  rw [htypes, htypes']
  rw [Gen.document_of_no_operations hnone] at hrun
  obtain ⟨⟨⟩, p', hcomponents, hend⟩ := Gen.run_bind_eq_ok_iff.mp hrun
  obtain rfl : p = p' := (congrArg Prod.snd hend).symm
  by_cases hadmits : ∃ e ∈ d.schemas, filter.admitsSchema e.1 = true
  · -- The tables are there, since a component is found in them.
    obtain rfl := Document.tree_of_ofTree hd
    obtain ⟨_, value, hvalue⟩ := Gen.exists_lookup_of_components d.schemas hcomponents hadmits
    obtain ⟨members, components, schemas, hroot, hcs, hss⟩ :=
      Document.exists_tables hkeys hd hvalue
    have hsame := Gen.agree_components_withComponent ⟨.of d.tree, config, filter⟩
      (.of d'.tree) hcs hss hroot
      ((Document.tree_of_ofTree hd').trans (by rw [hroot])) hkeys hwhole d.schemas
    have hcomponents' : (Gen.components ⟨.of d'.tree, config, filter⟩ d.schemas).run.run {} =
        (.ok (), p) := ((hsame {} trivial).1 (.inr ⟨_, _, hcomponents⟩)).symm.trans hcomponents
    rw [hroot] at hd hkeys hd'
    obtain ⟨node, hschemas⟩ := Document.schemas_withComponent hkeys hcs hss hd hnew hd'
    let law := UseLaw.mentions ⟨.of d'.tree, config, filter⟩
    obtain ⟨hp, -, hv, -⟩ :=
      (law.keeps_components d.schemas (fun _ _ => trivial) {} law.sound_empty.ready).of_ok
        hcomponents'
    rw [Gen.document_append hschemas, Gen.run_bind, hcomponents'] at hrun'
    obtain ⟨hq, hle, -⟩ :=
      (law.keeps_document (UseLaw.mentions_covers _) p hp).of_ok hrun'
    obtain ⟨more, hmore⟩ := hp.orderly.declarations_prefix hv hq.orderly hle
    rw [← hmore]
    exact Emission.order_append (hp.toSound.closed_declarations hv) more
  · rw [Gen.components_of_not_admitted d.schemas fun e he hx => hadmits ⟨e, he, hx⟩] at hcomponents
    cases hcomponents
    exact List.nil_prefix

/-- A document with an object whose enumeration gets the name `PetKind`. -/
def kindTree : Json :=
  .object [
    ("openapi", .string "3.0.0"),
    ("paths", .object []),
    ("components", .object [
      ("schemas", .object [
        ("Pet", .object [
          ("properties", .object [
            ("kind", .object [("enum", .array [.string "cat", .string "dog"])])])])])])]

/-- The document with a component of that name. -/
def kindTree' : Json :=
  kindTree.withComponent "PetKind" (.object [("$ref", .string "#/components/schemas/Pet")])

/-- The component is declared under another name, after all that is declared without it. -/
theorem generate_prefix_kindTree :
    ∃ d d' out out', Document.ofTree kindTree = .ok d ∧ Document.ofTree kindTree' = .ok d' ∧
      kindTree.distinctKeys = true ∧ d.operationCount = 0 ∧
      ¬kindTree.Refers .schema Setting.componentSchemas ∧ "PetKind" ∉ Entries.keys d.schemas ∧
      generate d {} = .ok out ∧ generate d' {} = .ok out' ∧
      out'.types.map Declaration.name = ["PetKind", "Pet", "PetKind2"] ∧
      out.types <+: out'.types := by
  have hrun : ((Document.ofTree kindTree).toOption.bind fun d => (generate d {}).toOption).any
      (fun _ => true) = true := by
    decide +kernel
  have hrun' : ((Document.ofTree kindTree').toOption.bind fun d => (generate d {}).toOption).any
      (fun out => out.types.map Declaration.name == ["PetKind", "Pet", "PetKind2"]) = true := by
    decide +kernel
  have hdocument : (Document.ofTree kindTree).toOption.any
      (fun d => d.operationCount == 0 && !(Entries.keys d.schemas).contains "PetKind") = true := by
    decide +kernel
  have hkeys : kindTree.distinctKeys = true := by decide +kernel
  have hwhole : ¬kindTree.Refers .schema Setting.componentSchemas := by
    intro hrefers
    have hother := hrefers.of_check (· != Setting.componentSchemas) (n := 12) (by decide +kernel)
    exact bne_iff_ne.mp hother rfl
  obtain ⟨d, out, hd, hout, -⟩ := exists_output_of_any hrun
  obtain ⟨d', out', hd', hout', hnames⟩ := exists_output_of_any hrun'
  rw [hd] at hdocument
  obtain ⟨hnone, hnew⟩ := Bool.and_eq_true_iff.mp hdocument
  rw [Bool.not_eq_true', List.contains_eq_mem, decide_eq_false_iff_not] at hnew
  exact ⟨d, d', out, out', hd, hd', hkeys, beq_iff_eq.mp hnone, hwhole, hnew, hout, hout',
    beq_iff_eq.mp hnames,
    generate_prefix hd hkeys (beq_iff_eq.mp hnone) hwhole hnew hd' hout hout'⟩

/-- A document with a reference to all component schemas, which is written as an array. -/
def wholeTree : Json :=
  .object [
    ("openapi", .string "3.0.0"),
    ("paths", .object []),
    ("components", .object [
      ("schemas", .object [
        ("A", .object [
          ("properties", .object [("x", .array [.string "#/components/schemas"])])])])])]

/-- The document with a component that becomes the properties of the target of this reference. -/
def wholeTree' : Json :=
  wholeTree.withComponent "properties" (.object [("b", .object [("type", .string "string")])])

/-- A reference that is not written as a member `$ref` can lead to all component schemas too, and
what is declared for it changes if a component is added. -/
theorem not_prefix_wholeTree :
    ∃ d d' out out', Document.ofTree wholeTree = .ok d ∧ Document.ofTree wholeTree' = .ok d' ∧
      d.operationCount = 0 ∧ "properties" ∉ Entries.keys d.schemas ∧
      Setting.componentSchemas ∉ wholeTree.refTexts ∧
      generate d {} = .ok out ∧ generate d' {} = .ok out' ∧ ¬out.types <+: out'.types := by
  have hrun : ((Document.ofTree wholeTree).toOption.bind fun d => (generate d {}).toOption).any
      (fun out => out.types.head?.map Declaration.content ==
        some "export type Schemas = unknown;") = true := by
    decide +kernel
  have hrun' : ((Document.ofTree wholeTree').toOption.bind fun d => (generate d {}).toOption).any
      (fun out => out.types.head?.map Declaration.content ==
        some "export interface Schemas \x7b\n  b?: string;\n\x7d") = true := by
    decide +kernel
  have hdocument : (Document.ofTree wholeTree).toOption.any
      (fun d => d.operationCount == 0 && !(Entries.keys d.schemas).contains "properties") =
        true := by
    decide +kernel
  obtain ⟨d, out, hd, hout, hfirst⟩ := exists_output_of_any hrun
  obtain ⟨d', out', hd', hout', hfirst'⟩ := exists_output_of_any hrun'
  rw [hd] at hdocument
  obtain ⟨hnone, hnew⟩ := Bool.and_eq_true_iff.mp hdocument
  rw [Bool.not_eq_true', List.contains_eq_mem, decide_eq_false_iff_not] at hnew
  refine ⟨d, d', out, out', hd, hd', beq_iff_eq.mp hnone, hnew, by decide +kernel, hout, hout', ?_⟩
  rintro ⟨more, hmore⟩
  rw [← hmore] at hfirst'
  cases htypes : out.types with
  | nil =>
    rw [htypes] at hfirst
    cases hfirst
  | cons first rest =>
    rw [htypes] at hfirst hfirst'
    have hcontents := (beq_iff_eq.mp hfirst).symm.trans (beq_iff_eq.mp hfirst')
    exact absurd hcontents (by decide)

end OpenApiTs
