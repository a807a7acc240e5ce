import OpenApiTs.Proofs.Aliases
import OpenApiTs.Proofs.Calls

/-!
# Where an intersection is an interface

The declaration of an intersection examines the references among its entries one by one, each with
nothing seen before. An examination of the intersection itself goes through the same entries with
one list of pointers seen, and takes whatever it meets again for good. Both decide membership in the
greatest set of pointers that suit it. So the examination says beforehand whether the declaration
will be an interface, also where intersections share their bases or extend one another in a circle.

## Main definitions

* `Setting.Intersects`: an intersection that does not admit null stands at a pointer.

## Main results

* `Makes.kind_eq_interface_iff`: the declaration of an intersection.
* `Setting.Intersects.isExtendable_iff_kind`: the examination and the declaration agree.
-/

namespace OpenApiTs

/-! ### Declarations of intersections -/

section Rules

variable {run : Setting} {p : Progress} {U : UseRelation} {location pointer name : String} {i : Nat}
  {nodes : List SchemaNode} {c c' : Gen.Composition} {s : Schema} {d : Declaration}

/-- Where nothing is left that only an alias can intersect, all entries are of object types. -/
theorem Composes.fits (h : Composes run p U location i nodes c c') (ho : c'.others = []) :
    c.others = [] ∧ ∀ node ∈ nodes, node.Fits run.Extendable := by
  induction h with
  | nil => exact ⟨ho, List.forall_mem_nil _⟩
  | base _ hx _ ih =>
    obtain ⟨hc, hrest⟩ := ih ho
    exact ⟨hc, List.forall_mem_cons.mpr ⟨Setting.isExtendable_eq_true_iff.mp hx, hrest⟩⟩
  | anything _ ih =>
    obtain ⟨hc, hrest⟩ := ih ho
    exact ⟨hc, List.forall_mem_cons.mpr ⟨rfl, hrest⟩⟩
  | merged hs _ _ ih =>
    obtain ⟨hc, hrest⟩ := ih ho
    exact ⟨hc, List.forall_mem_cons.mpr ⟨hs, hrest⟩⟩
  | other _ _ _ ih | nothing _ ih | part _ _ _ ih =>
    exact absurd (ih ho).1 (List.append_ne_nil_of_right_ne_nil _ (List.cons_ne_nil _ _))

/-- A schema of the shape of an intersection has entries. -/
theorem Schema.allOf_ne_nil (h : s.shape = .intersection) : s.allOf ≠ [] := by
  unfold shape at h
  split_ifs at h with _ hallOf
  · simpa using hallOf
  · rcases s.scalarShape_cases with hshape | ⟨types, hshape, -⟩
    · rw [hshape] at h
      cases h
    · rw [hshape] at h
      cases h

/-- The declaration of an intersection is an interface exactly if all entries are of object
types. -/
theorem Makes.kind_eq_interface_iff (h : Makes run p U pointer name (.schema s) d)
    (hs : s.shape = .intersection) :
    d.kind = .interface ↔ ∀ node ∈ s.allOf, node.Fits run.Extendable := by
  have hallOf : (s.properties.isEmpty && s.allOf.isEmpty) = false := by
    rw [List.isEmpty_eq_false_iff.mpr (Schema.allOf_ne_nil hs), Bool.and_false]
  cases h with
  | record _ hempty => cases hallOf.symm.trans hempty
  | interface _ _ hc _ ho =>
    exact iff_of_true rfl (hc.fits (List.isEmpty_iff.mp ho)).2
  | intersection _ _ hc _ ho =>
    refine iff_of_false nofun fun hfits => ?_
    rw [hc.others_eq hfits] at ho
    cases ho
  | union hshape | enumeration hshape | literals hshape => cases hs.symm.trans hshape
  | plain hmaker =>
    rw [hs] at hmaker
    cases hmaker

end Rules

namespace Setting

variable {run : Setting} {p q : Progress} {pointer from_ place name : String}
  {node node' : SchemaNode} {s : Schema}

/-- What a reference finds does not depend on where the reference stands. -/
theorem origin_unique (h : run.origin pointer from_ = .ok node)
    (h' : run.origin pointer place = .ok node') : node = node' := by
  obtain ⟨value, hvalue, h⟩ := bind_eq_ok_iff.mp h
  obtain ⟨value', hvalue', h'⟩ := bind_eq_ok_iff.mp h'
  cases (DocumentTree.lookup?_of_lookup hvalue).2.symm.trans
    (DocumentTree.lookup?_of_lookup hvalue').2
  split at h
  · next href =>
    rw [href] at h'
    exact Except.ok.inj (h.symm.trans h')
  · next href hbool =>
    rw [href, hbool] at h'
    exact Except.ok.inj (h.symm.trans h')
  · next href hbool =>
    rw [href, hbool] at h'
    obtain ⟨s, hs, h⟩ := bind_eq_ok_iff.mp h
    obtain ⟨s', hs', h'⟩ := bind_eq_ok_iff.mp h'
    cases hs'.symm.trans (DocumentTree.resolve_of_links hs .refl place)
    exact Except.ok.inj (h.symm.trans h')

/-- A reference finds at a pointer that is not excluded no further reference, but an intersection
that does not admit null. -/
structure Intersects (run : Setting) (pointer : String) (s : Schema) : Prop where
  admitted : run.excludes pointer = false
  found : run.origin pointer pointer = .ok (.schema s)
  shape : s.shape = .intersection
  notNull : s.isNullable = false

namespace Intersects

theorem resolve (h : run.Intersects pointer s) : run.tree.resolve pointer pointer = .ok s := by
  obtain ⟨value, -, hfound⟩ := bind_eq_ok_iff.mp h.found
  split at hfound
  · cases hfound
  · cases hfound
  · obtain ⟨s', hs, hfound⟩ := bind_eq_ok_iff.mp hfound
    cases hfound
    exact hs

/-- An intersection is in the greatest set exactly if its entries fit the set. -/
theorem extendable_iff (h : run.Intersects pointer s) :
    run.Extendable pointer ↔ ∀ node ∈ s.allOf, node.Fits run.Extendable := by
  constructor
  · intro hpointer
    obtain ⟨-, s', hs', hsuits⟩ := hpointer.admits
    cases h.resolve.symm.trans hs'
    exact hsuits.fits
  · intro hfits
    -- the greatest set and the pointer are together another such set
    refine ⟨fun P => run.Extendable P ∨ P = pointer, .inr rfl, ?_⟩
    have hmono : ∀ P, run.Extendable P → run.Extendable P ∨ P = pointer := fun _ => .inl
    rintro P (hP | rfl)
    · exact hP.admits.mono hmono
    · exact ⟨h.admitted, s, h.resolve, h.notNull,
        .inr ⟨h.shape, fun node hn => (hfits node hn).mono hmono⟩⟩

/-- A declaration that was made for the intersection is an interface exactly if the examination of
the pointer finds it good. -/
theorem isExtendable_iff_of_makes {U : UseRelation} {d : Declaration}
    (h : run.Intersects pointer s) (hmakes : Makes run p U pointer name (.schema s) d) :
    run.isExtendable pointer = .ok true ↔ d.kind = .interface := by
  rw [isExtendable_eq_true_iff, h.extendable_iff, hmakes.kind_eq_interface_iff h.shape]

/-- Naming the pointer for the first time is declaring the intersection. -/
theorem run_ensureNamed (h : run.Intersects pointer s) (hnew : p.name? pointer = none)
    (hrun : (Gen.ensureNamed run pointer from_).run.run p = (.ok name, q)) :
    (Gen.generateNamed run s pointer (Naming.compose [Pointer.last pointer])).run.run p =
      (.ok name, q) := by
  rw [Gen.ensureNamed, Gen.ensureNamedWith_eq] at hrun
  obtain ⟨P, hP, hrun⟩ := Gen.run_ofExcept_bind_eq_ok_iff.mp hrun
  cases DocumentTree.canonicalize_eq hP
  rw [Gen.run_bind, Gen.run_nameOf?, hnew] at hrun
  obtain ⟨node, hnode, hrun⟩ := Gen.run_ofExcept_bind_eq_ok_iff.mp hrun
  cases origin_unique hnode h.found
  exact hrun

/-- The declaration that naming the pointer makes. -/
theorem kind_of_ensureNamed (h : run.Intersects pointer s) (hp : run.Reaches p)
    (hnew : p.name? pointer = none)
    (hrun : (Gen.ensureNamed run pointer from_).run.run p = (.ok name, q)) :
    ∃ d, q.registry.lookup? name = some d ∧ d.source = pointer ∧
      (run.isExtendable pointer = .ok true ↔ d.kind = .interface) := by
  have hsound : (UseLaw.mentions run).Sound p := hp.sound fun _ _ => trivial
  obtain ⟨r, d, -, -, hmakes, rfl⟩ :=
    hsound.declared_of_generateNamed trivial hnew (h.run_ensureNamed hnew hrun)
  have hlookup := r.lookup?_finished pointer name d
  have hiff := h.isExtendable_iff_of_makes hmakes
  exact ⟨_, hlookup, hmakes.source_eq, hiff⟩

/-- The declaration of a pointer that has a name at the end of a run, if no reference stands
there. -/
theorem kind_of_named {hkeys : run.tree.root.distinctKeys = true} {out : Output}
    (h : run.Intersects pointer s) (hlink : ∀ next, ¬run.tree.Link pointer next)
    (hp : (UseLaw.placed run hkeys).Sound p) (hv : p.visiting = [])
    (hperm : out.types.Perm p.registry.declarations) (hname : p.name? pointer = some name) :
    ∃ t ∈ out.types, t.source = pointer ∧
      (run.isExtendable pointer = .ok true ↔ t.kind = .interface) := by
  obtain ⟨t, ht, rfl, hlookup⟩ := hp.orderly.exists_emitted hv hperm hname
  obtain ⟨node, d, hnode, hmakes, hd⟩ := hp.made_at hname hlookup p (le_refl p)
  refine ⟨t, ht, ?_⟩
  rw [hd]
  rcases hnode.cases h.resolve with rfl | ⟨next, -, hnext⟩ | rfl
  · have hiff := h.isExtendable_iff_of_makes hmakes
    exact ⟨hmakes.source_eq, hiff⟩
  · exact absurd hnext (hlink next)
  · cases h.shape

end Intersects

end Setting

/-- An examination of a pointer at which an intersection stands predicts whether the declaration of
the intersection is an interface: whenever the pointer is named for the first time in a state that a
run reaches, and in the output for a document of which the intersection is a component. No object in
the document may have a key twice, as no object that a reader gives has, and the component must not
be an array that reads as a reference. -/
theorem Setting.Intersects.isExtendable_iff_kind {tree : Json} {config : Config} {filter : Filter}
    {pointer : String} {s : Schema} (h : Setting.Intersects ⟨.of tree, config, filter⟩ pointer s) :
    (∀ p from_ name q, Setting.Reaches ⟨.of tree, config, filter⟩ p → p.name? pointer = none →
      (Gen.ensureNamed ⟨.of tree, config, filter⟩ pointer from_).run.run p = (.ok name, q) →
      ∃ d, q.registry.lookup? name = some d ∧ d.source = pointer ∧
        (Setting.isExtendable ⟨.of tree, config, filter⟩ pointer = .ok true ↔
          d.kind = .interface)) ∧
    (∀ d out name, Document.ofTree tree = .ok d → tree.distinctKeys = true →
      Filter.compile config.filter = .ok filter → generate d config = .ok out →
      name ∈ Entries.keys d.schemas → pointer = Pointer.child Setting.componentSchemas name →
      (∀ next, ¬(DocumentTree.of tree).Link pointer next) →
      ∃ t ∈ out.types, t.source = pointer ∧
        (Setting.isExtendable ⟨.of tree, config, filter⟩ pointer = .ok true ↔
          t.kind = .interface)) := by
  refine ⟨fun p from_ name q => h.kind_of_ensureNamed, fun d out name hd hkeys hfilter hout hmem
    hpointer hlink => ?_⟩
  obtain rfl := Document.tree_of_ofTree hd
  subst hpointer
  obtain ⟨filter', p, hfilter', hrun, hperm⟩ := generate_eq_ok hout
  cases hfilter.symm.trans hfilter'
  have hcovers : (UseLaw.placed ⟨.of d.tree, config, filter⟩ hkeys).Covers d :=
    UseLaw.placed_covers hd
  obtain ⟨hp, hv, -, -⟩ := (UseLaw.placed _ hkeys).sound_document hcovers hrun
  obtain ⟨⟨name, component⟩, hcomponent, rfl⟩ := List.mem_map.mp hmem
  have hadmits : filter.admitsSchema name = true := by
    have hadmitted := h.admitted
    rw [Setting.excludes_component, Bool.not_eq_false'] at hadmitted
    exact hadmitted
  obtain ⟨n, hn⟩ := Option.isSome_iff_exists.mp
    ((UseLaw.placed _ hkeys).named_document hcovers hrun _ hcomponent hadmits)
  exact h.kind_of_named hlink hp hv hperm hn

/-- A reference to a component. -/
private def componentReference (name : String) : Json :=
  .object [("$ref", .string ("#/components/schemas/" ++ name))]

/-- A document with two intersections that share a base, one of which extends the other in a circle,
and with two that have an entry which is no object type, at once or through a base. -/
def sharedTree : Json :=
  .object [
    ("openapi", .string "3.0.0"),
    ("paths", .object []),
    ("components", .object [
      ("schemas", .object [
        ("A", .object [("allOf", .array [componentReference "B", componentReference "C"])]),
        ("B", .object [("allOf", .array [componentReference "D"])]),
        ("C", .object [("allOf", .array [componentReference "D", componentReference "A"])]),
        ("D", .object [("properties", .object [("x", .object [("type", .string "string")])])]),
        ("E", .object [("allOf", .array [componentReference "A", componentReference "F"])]),
        ("F", .object [("allOf", .array [
          componentReference "C", .object [("type", .string "string")]])])])])]

/-- A run on this document. -/
def sharedRun : Setting := ⟨.of sharedTree, {}, {}⟩

theorem generate_sharedTree :
    ∃ d out, Document.ofTree sharedTree = .ok d ∧ generate d {} = .ok out ∧
      Entries.keys d.schemas = ["A", "B", "C", "D", "E", "F"] ∧
      out.types.map Declaration.content =
        ["export interface D \x7b\n  x?: string;\n\x7d", "export interface B extends D \x7b\x7d",
          "export interface C extends D, A \x7b\x7d", "export interface A extends B, C \x7b\x7d",
          "export type F = C & string;", "export type E = A & F;"] := by
  have hrun : ((Document.ofTree sharedTree).toOption.bind fun d =>
      (generate d {}).toOption).any (fun out => out.types.map Declaration.content ==
        ["export interface D \x7b\n  x?: string;\n\x7d", "export interface B extends D \x7b\x7d",
          "export interface C extends D, A \x7b\x7d", "export interface A extends B, C \x7b\x7d",
          "export type F = C & string;", "export type E = A & F;"]) = true := by
    decide +kernel
  have hnames : (Document.ofTree sharedTree).toOption.any
      (fun d => Entries.keys d.schemas == ["A", "B", "C", "D", "E", "F"]) = true := by
    decide +kernel
  obtain ⟨d, out, hd, hout, hcontents⟩ := exists_output_of_any hrun
  rw [hd] at hnames
  exact ⟨d, out, hd, hout, beq_iff_eq.mp hnames, beq_iff_eq.mp hcontents⟩

/-- The intersection of two components. -/
private def pairSchema (name name' : String) : Schema :=
  { allOf := [.reference ("#/components/schemas/" ++ name),
      .reference ("#/components/schemas/" ++ name')] }

/-- The examination finds that one of the intersections in the circle is an interface, and that the
one with an entry that is no object type is none. -/
theorem isExtendable_iff_kind_sharedTree :
    ∃ d out, Document.ofTree sharedTree = .ok d ∧ sharedTree.distinctKeys = true ∧
      generate d {} = .ok out ∧
      sharedRun.Intersects "#/components/schemas/A" (pairSchema "B" "C") ∧
      sharedRun.Intersects "#/components/schemas/E" (pairSchema "A" "F") ∧
      (∃ t ∈ out.types, t.source = "#/components/schemas/A" ∧ t.kind = .interface) ∧
      (∃ t ∈ out.types, t.source = "#/components/schemas/E" ∧ t.kind ≠ .interface) ∧
      ∃ q t, (Gen.ensureNamed sharedRun "#/components/schemas/A" "#/test").run.run {} =
          (.ok "A", q) ∧
        q.registry.lookup? "A" = some t ∧ t.kind = .interface := by
  obtain ⟨d, out, hd, hout, hnames, -⟩ := generate_sharedTree
  have hkeys : sharedTree.distinctKeys = true := by decide +kernel
  have hA : sharedRun.Intersects "#/components/schemas/A" (pairSchema "B" "C") :=
    ⟨by decide +kernel, by rfl, by decide, by decide⟩
  have hE : sharedRun.Intersects "#/components/schemas/E" (pairSchema "A" "F") :=
    ⟨by decide +kernel, by rfl, by decide, by decide⟩
  have hstopA : sharedRun.tree.Stops "#/components/schemas/A" "" (.ok (pairSchema "B" "C")) :=
    .schema (by rfl) (by rfl)
  have hstopE : sharedRun.tree.Stops "#/components/schemas/E" "" (.ok (pairSchema "A" "F")) :=
    .schema (by rfl) (by rfl)
  have hgood : sharedRun.isExtendable "#/components/schemas/A" = .ok true :=
    eq_ok_of_toOption (by decide +kernel)
  have hbad : sharedRun.isExtendable "#/components/schemas/E" = .ok false :=
    eq_ok_of_toOption (by decide +kernel)
  have hname : ((Gen.ensureNamed sharedRun "#/components/schemas/A" "#/test").run.run {}).1 =
      .ok "A" :=
    eq_ok_of_toOption (by decide +kernel)
  rcases hrun : (Gen.ensureNamed sharedRun "#/components/schemas/A" "#/test").run.run {} with
    ⟨result, q⟩
  rw [hrun] at hname
  obtain rfl : result = .ok "A" := hname
  obtain ⟨hfirst, hcomponentA⟩ := hA.isExtendable_iff_kind
  obtain ⟨-, hcomponentE⟩ := hE.isExtendable_iff_kind
  obtain ⟨t, ht, hsource, hkind⟩ := hcomponentA d out "A" hd hkeys rfl hout
    (by rw [hnames]; decide) (by decide) fun _ => hstopA.not_link
  obtain ⟨u, hu, husource, hukind⟩ := hcomponentE d out "E" hd hkeys rfl hout
    (by rw [hnames]; decide) (by decide) fun _ => hstopE.not_link
  obtain ⟨v, hv, -, hvkind⟩ := hfirst {} "#/test" "A" q .start rfl hrun
  refine ⟨d, out, hd, hkeys, hout, hA, hE, ⟨t, ht, hsource, hkind.mp hgood⟩,
    ⟨u, hu, husource, fun hu => ?_⟩, q, v, rfl, hv, hvkind.mp hgood⟩
  cases hbad.symm.trans (hukind.mpr hu)

end OpenApiTs
