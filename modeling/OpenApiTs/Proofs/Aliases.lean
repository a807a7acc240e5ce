import OpenApiTs.Proofs.Extends
import OpenApiTs.Proofs.Hiding
import OpenApiTs.Proofs.Sources

/-!
# Aliases of references

A component that is a reference is declared as an alias of the use of its target. Where the chain of
references ends at a schema with content, further aliases lead from it to one of the use of the
declaration that was made for the end. Where the chain ends at a boolean, or at a schema without
content, the component is an alias of the type of every value right away, so that a boolean which
admits nothing is not told apart.

## Main definitions

* `DocumentTree.Refers`: an object with a reference stands at a pointer.

## Main results

* `UseLaw.Sound.alias_of_refers`: the declaration of a pointer at which a reference stands.
* `generate_alias`: the declarations of components that are references.
-/

namespace OpenApiTs

open Relation (ReflTransGen TransGen)

namespace DocumentTree

variable {tree : DocumentTree} {pointer next last : String} {s : Schema}

/-- An object stands at a pointer whose reference leads to the next pointer. -/
def Refers (tree : DocumentTree) (pointer next : String) : Prop :=
  ∃ value reference, Pointer.lookup? tree.root pointer = some value ∧
    (value.member? "$ref").bind Json.string? = some reference ∧
    Pointer.canonicalize reference = .ok next

theorem Refers.link (h : tree.Refers pointer next) : tree.Link pointer next := by
  obtain ⟨value, reference, hvalue, href, hnext⟩ := h
  exact ⟨value, reference, hvalue, decode_of_member? href, hnext⟩

theorem links_of_refers (h : TransGen tree.Refers pointer last) :
    ReflTransGen tree.Link pointer last :=
  ReflTransGen.mono (fun _ _ => Refers.link) _ _ h.to_reflTransGen

/-- What the pointers of a chain stand for is what stands at its end. -/
theorem eq_of_refers {result : Schema} (hs : tree.resolve pointer pointer = .ok s)
    (hchain : TransGen tree.Refers pointer last) (hstop : tree.Stops last last (.ok result)) :
    s = result := by
  have hcanonical : Pointer.canonicalize last = .ok last := by
    obtain ⟨_, -, hlast⟩ := TransGen.tail'_iff.mp hchain
    exact hlast.link.canonical
  have hresolve := resolve_of_links hs (links_of_refers hchain) last
  rw [resolve_of_stops hcanonical hstop] at hresolve
  exact (Except.ok.inj hresolve).symm

end DocumentTree

/-- Uses of the declaration of a schema add null if the schema asks for it, unless what stands at
the pointer has a key for references. -/
theorem Gen.needsNullAtUse_of_schema {run : Setting} {pointer : String} {value : Json} {s : Schema}
    {null : Bool} (h : Gen.needsNullAtUse run pointer = .ok null)
    (hvalue : Pointer.lookup? run.tree.root pointer = some value)
    (hnode : SchemaNode.decode value = .ok (.schema s)) :
    null = (s.needsNullAtUse && (value.member? "$ref").isNone) := by
  obtain ⟨value', hlookup, h⟩ := bind_eq_ok_iff.mp h
  obtain ⟨hcanonical, hvalue'⟩ := DocumentTree.lookup?_of_lookup hlookup
  cases hvalue.symm.trans hvalue'
  cases hmember : value.member? "$ref" with
  | some _ =>
    rw [hmember] at h
    cases h
    rw [Option.isNone_some, Bool.and_false]
  | none =>
    rw [hmember] at h
    obtain ⟨s', hs', h⟩ := bind_eq_ok_iff.mp h
    cases hs'.symm.trans (DocumentTree.resolve_of_stops hcanonical (.schema hvalue hnode))
    cases h
    rw [Option.isNone_none, Bool.and_true]

/-- Uses of an alias of a reference do not add null. -/
theorem Gen.needsNullAtUse_of_refers {run : Setting} {pointer next : String} {null : Bool}
    (h : Gen.needsNullAtUse run pointer = .ok null) (hrefers : run.tree.Refers pointer next) :
    null = false := by
  obtain ⟨value, reference, hvalue, href, -⟩ := hrefers
  obtain ⟨value', hlookup, h⟩ := bind_eq_ok_iff.mp h
  cases hvalue.symm.trans (DocumentTree.lookup?_of_lookup hlookup).2
  obtain ⟨member, hmember, -⟩ := Option.bind_eq_some_iff.mp href
  rw [hmember] at h
  cases h
  rfl

section Chains

variable {run : Setting} {hkeys : run.tree.root.distinctKeys = true} {p : Progress} {out : Output}
  {pointer next last name : String} {t : Declaration} {s : Schema}

/-- The declaration of a pointer at which a reference stands: an alias of the type of every value if
the reference stands for a schema without content, and else of the use of the reference. -/
theorem UseLaw.Sound.alias_of_refers (hp : (UseLaw.placed run hkeys).Sound p)
    (hname : p.name? pointer = some name) (ht : p.registry.lookup? name = some t)
    (hrefers : run.tree.Refers pointer next) :
    ∃ s, run.tree.resolve pointer pointer = .ok s ∧
      (s.isBlank = true → t.IsAlias "unknown") ∧
      (s.isBlank = false → ∃ use, ReferenceUse run p next use ∧ t.IsAlias use.text) := by
  obtain ⟨node, d, hnode, hmakes, rfl⟩ := hp.made_at hname ht p (le_refl p)
  obtain ⟨value, reference, hvalue, href, hnext⟩ := hrefers
  obtain rfl : node = .reference reference := by
    have hdecode := DocumentTree.decode_of_member? href
    rcases hnode value hvalue with hnode | ⟨_, _, rfl, -⟩
    · exact Except.ok.inj (hnode.symm.trans hdecode)
    · cases href
  obtain rfl := Pointer.canonicalize_eq hnext
  obtain @⟨_, use, huse⟩ := hmakes
  cases huse with
  | endless hs hblank =>
    exact ⟨_, hs, fun _ => ⟨rfl, "", .inl rfl, rfl⟩, fun h => nomatch hblank.symm.trans h⟩
  | follows hs hblank huse =>
    exact ⟨_, hs, fun h => (nomatch hblank.symm.trans h), fun _ =>
      ⟨use, huse, rfl, "", .inl rfl, rfl⟩⟩

/-- The use of the declaration of a reference's target that has a name. -/
theorem ReferenceUse.exists_named {reference : String} {use : TypeUse}
    (h : ReferenceUse run p reference use) (hx : run.excludes reference = false) :
    ∃ name null, p.name? reference = some name ∧
      Gen.needsNullAtUse run reference = .ok null ∧ use = (TypeUse.named name).orNullIf null := by
  cases h with
  | excluded _ hx' => cases hx.symm.trans hx'
  | named _ _ hn hnull => exact ⟨_, _, hn, hnull, rfl⟩

/-- Aliases lead along the chain of a reference to one of the use of the declaration that was made
for the end of the chain, if a schema with content stands there. -/
theorem UseLaw.Sound.alias_of_chain {value : Json} (hp : (UseLaw.placed run hkeys).Sound p)
    (hv : p.visiting = []) (hperm : out.types.Perm p.registry.declarations)
    (hx : ∀ pointer, run.excludes pointer = false)
    (hvalue : Pointer.lookup? run.tree.root last = some value)
    (hnode : SchemaNode.decode value = .ok (.schema s)) (hblank : s.isBlank = false)
    (hchain : TransGen run.tree.Refers pointer last) (hname : p.name? pointer = some name) :
    ∃ t ∈ out.types, p.registry.lookup? name = some t ∧ t.name = name ∧
      ∃ u, ReflTransGen out.Renames t u ∧ ∃ e ∈ out.types, e.source = last ∧
        u.IsAlias ((TypeUse.named e.name).orNullIf
          (s.needsNullAtUse && (value.member? "$ref").isNone)).text := by
  have hstop : run.tree.Stops last last (.ok s) := .schema hvalue hnode
  induction hchain using TransGen.head_induction_on generalizing name with
  | single hrefers =>
    obtain ⟨t, ht, rfl, hlookup⟩ := hp.orderly.exists_emitted hv hperm hname
    obtain ⟨s', hs', -, halias⟩ := hp.alias_of_refers hname hlookup hrefers
    obtain rfl := DocumentTree.eq_of_refers hs' (.single hrefers) hstop
    obtain ⟨use, huse, htext⟩ := halias hblank
    obtain ⟨next, null, hnext, hnull, rfl⟩ := huse.exists_named (hx _)
    obtain ⟨e, he, rfl, helookup⟩ := hp.orderly.exists_emitted hv hperm hnext
    obtain ⟨e', he', hsource⟩ := hp.exists_source_eq hv hnext
    obtain rfl := Option.some.inj (helookup.symm.trans he')
    rw [Gen.needsNullAtUse_of_schema hnull hvalue hnode] at htext
    exact ⟨t, ht, hlookup, rfl, t, .refl, e, he, hsource, htext⟩
  | head hrefers hrest ih =>
    obtain ⟨t, ht, rfl, hlookup⟩ := hp.orderly.exists_emitted hv hperm hname
    obtain ⟨s', hs', -, halias⟩ := hp.alias_of_refers hname hlookup hrefers
    obtain rfl := DocumentTree.eq_of_refers hs' (.head hrefers hrest) hstop
    obtain ⟨use, huse, htext⟩ := halias hblank
    obtain ⟨next, null, hnext, hnull, rfl⟩ := huse.exists_named (hx _)
    obtain ⟨_, hrefers', -⟩ := TransGen.head'_iff.mp hrest
    rw [Gen.needsNullAtUse_of_refers hnull hrefers'] at htext
    obtain ⟨v, hv', -, rfl, u, hrenames, hend⟩ := ih hnext
    exact ⟨t, ht, hlookup, rfl, u, .head ⟨ht, hv', htext⟩ hrenames, hend⟩

end Chains

/-- A filter without patterns excludes nothing. -/
theorem Setting.excludes_of_no_rules {config : Config} {filter : Filter} {tree : DocumentTree}
    (hfilter : Filter.compile {} = .ok filter) (pointer : String) :
    Setting.excludes ⟨tree, config, filter⟩ pointer = false := by
  cases hfilter
  unfold excludes
  split <;> rfl

/-- The declaration of a component that is a reference, on a run without a filter. Where the chain
of references ends at a schema with content, aliases of names lead from the declaration to an alias
of the use of the declaration that was made for the end. Where it ends at a boolean, or at a schema
without content, the declaration is an alias of the type of every value. -/
theorem generate_alias {tree : Json} {d : Document} {config : Config} {out : Output}
    {name last : String} {value : Json} {node : SchemaNode}
    (hd : Document.ofTree tree = .ok d) (hkeys : tree.distinctKeys = true)
    (hrules : config.filter = {}) (h : generate d config = .ok out)
    (hname : name ∈ Entries.keys d.schemas)
    (hchain : TransGen (DocumentTree.of tree).Refers
      (Pointer.child Setting.componentSchemas name) last)
    (hvalue : Pointer.lookup? tree last = some value)
    (hnode : SchemaNode.decode value = .ok node) :
    ∃ t ∈ out.types, t.source = Pointer.child Setting.componentSchemas name ∧
      (∀ s, node = .schema s → s.isBlank = false →
        ∃ u, ReflTransGen out.Renames t u ∧ ∃ e ∈ out.types, e.source = last ∧
          u.IsAlias ((TypeUse.named e.name).orNullIf
            (s.needsNullAtUse && (value.member? "$ref").isNone)).text) ∧
      ((∃ s, node = .schema s ∧ s.isBlank = true) ∨ (∃ allowed, node = .boolean allowed) →
        t.IsAlias "unknown") := by
  obtain rfl := Document.tree_of_ofTree hd
  obtain ⟨filter, p, hfilter, hrun, hperm⟩ := generate_eq_ok h
  rw [hrules] at hfilter
  have hcovers : (UseLaw.placed ⟨.of d.tree, config, filter⟩ hkeys).Covers d :=
    UseLaw.placed_covers hd
  obtain ⟨hp, hv, -, -⟩ := (UseLaw.placed _ hkeys).sound_document hcovers hrun
  have hx (pointer : String) : Setting.excludes ⟨.of d.tree, config, filter⟩ pointer = false :=
    Setting.excludes_of_no_rules hfilter pointer
  obtain ⟨⟨name, component⟩, hmem, rfl⟩ := List.mem_map.mp hname
  have hadmits : filter.admitsSchema name = true := by
    have hcomponent := hx (Pointer.child Setting.componentSchemas name)
    rw [Setting.excludes_component, Bool.not_eq_false'] at hcomponent
    exact hcomponent
  obtain ⟨n, hn⟩ := Option.isSome_iff_exists.mp
    ((UseLaw.placed _ hkeys).named_document hcovers hrun _ hmem hadmits)
  obtain ⟨t, ht, -, hlookup⟩ := hp.orderly.exists_emitted hv hperm hn
  obtain ⟨t', ht', hsource⟩ := hp.exists_source_eq hv hn
  obtain rfl := Option.some.inj (hlookup.symm.trans ht')
  refine ⟨t, ht, hsource, ?_, fun hempty => ?_⟩
  · rintro s rfl hblank
    obtain ⟨t', ht', hlookup', -, hu⟩ :=
      hp.alias_of_chain hv hperm hx hvalue hnode hblank hchain hn
    obtain rfl := Option.some.inj (hlookup.symm.trans hlookup')
    exact hu
  · obtain ⟨_, hrefers, -⟩ := TransGen.head'_iff.mp hchain
    obtain ⟨s, hs, halias, -⟩ := hp.alias_of_refers hn hlookup hrefers
    refine halias ?_
    rcases hempty with ⟨s', rfl, hblank⟩ | ⟨allowed, rfl⟩
    · rw [DocumentTree.eq_of_refers hs hchain (.schema hvalue hnode)]
      exact hblank
    · rw [DocumentTree.eq_of_refers hs hchain (.boolean hvalue hnode)]
      rfl

/-- An object that may be null. -/
def nullableObject : Json :=
  .object [
    ("properties", .object [("x", .object [("type", .string "string")])]),
    ("nullable", .bool true)]

theorem decode_nullableObject :
    ∃ s, SchemaNode.decode nullableObject = .ok (.schema s) ∧ s.isBlank = false ∧
      s.needsNullAtUse = true := by
  have hend : (SchemaNode.decode nullableObject).toOption.any (fun node =>
      node.schema?.any fun s => !s.isBlank && s.needsNullAtUse) = true := by
    decide +kernel
  rcases hnode : SchemaNode.decode nullableObject with error | node <;> rw [hnode] at hend
  · cases hend
  · cases node with
    | schema s =>
      obtain ⟨hblank, hnull⟩ := Bool.and_eq_true_iff.mp hend
      exact ⟨s, rfl, (Bool.not_eq_true' _).mp hblank, hnull⟩
    | reference _ | boolean _ => cases hend

/-- A document with a chain of two references to an object that may be null, and with a reference to
the boolean that admits nothing. -/
def chainTree : Json :=
  .object [
    ("openapi", .string "3.0.0"),
    ("paths", .object []),
    ("components", .object [
      ("schemas", .object [
        ("A", .object [("$ref", .string "#/components/schemas/B")]),
        ("B", .object [("$ref", .string "#/components/schemas/C")]),
        ("C", nullableObject),
        ("Nothing", .object [("$ref", .string "#/components/schemas/Never")]),
        ("Never", .bool false)])])]

theorem generate_chainTree :
    ∃ d out, Document.ofTree chainTree = .ok d ∧ generate d {} = .ok out ∧
      Entries.keys d.schemas = ["A", "B", "C", "Nothing", "Never"] ∧
      out.types.map (fun t => (t.name, t.content)) =
        [("C", "export interface C \x7b\n  x?: string;\n\x7d"),
          ("B", "export type B = C | null;"), ("A", "export type A = B;"),
          ("Nothing", "export type Nothing = unknown;"),
          ("Never", "export type Never = never;")] := by
  have hrun : ((Document.ofTree chainTree).toOption.bind fun d =>
      (generate d {}).toOption).any (fun out =>
        out.types.map (fun t => (t.name, t.content)) ==
          [("C", "export interface C \x7b\n  x?: string;\n\x7d"),
            ("B", "export type B = C | null;"), ("A", "export type A = B;"),
            ("Nothing", "export type Nothing = unknown;"),
            ("Never", "export type Never = never;")]) = true := by
    decide +kernel
  have hkeys : (Document.ofTree chainTree).toOption.any
      (fun d => Entries.keys d.schemas == ["A", "B", "C", "Nothing", "Never"]) = true := by
    decide +kernel
  obtain ⟨d, out, hd, hout, htypes⟩ := exists_output_of_any hrun
  rw [hd] at hkeys
  exact ⟨d, out, hd, hout, beq_iff_eq.mp hkeys, beq_iff_eq.mp htypes⟩

/-- Two aliases lead to the object, the second of which adds null, whereas the alias of the boolean
that admits nothing is that of the type of every value. -/
theorem generate_alias_chainTree :
    ∃ d out, Document.ofTree chainTree = .ok d ∧ chainTree.distinctKeys = true ∧
      generate d {} = .ok out ∧ Entries.keys d.schemas = ["A", "B", "C", "Nothing", "Never"] ∧
      TransGen (DocumentTree.of chainTree).Refers "#/components/schemas/A"
        "#/components/schemas/C" ∧
      TransGen (DocumentTree.of chainTree).Refers "#/components/schemas/Nothing"
        "#/components/schemas/Never" ∧
      (∃ t ∈ out.types, t.source = "#/components/schemas/A" ∧
        ∃ u, ReflTransGen out.Renames t u ∧ ∃ e ∈ out.types, e.source = "#/components/schemas/C" ∧
          u.IsAlias ((TypeUse.named e.name).orNullIf true).text) ∧
      ∃ t ∈ out.types, t.source = "#/components/schemas/Nothing" ∧ t.IsAlias "unknown" := by
  obtain ⟨d, out, hd, hout, hnames, -⟩ := generate_chainTree
  have hkeys : chainTree.distinctKeys = true := by decide +kernel
  have hlong : TransGen (DocumentTree.of chainTree).Refers "#/components/schemas/A"
      "#/components/schemas/C" :=
    .head ⟨.object [("$ref", .string "#/components/schemas/B")], _, rfl, rfl,
      (by decide : Pointer.canonicalize "#/components/schemas/B" = .ok "#/components/schemas/B")⟩
      (.single ⟨.object [("$ref", .string "#/components/schemas/C")], _, rfl, rfl,
      (by decide : Pointer.canonicalize "#/components/schemas/C" = .ok "#/components/schemas/C")⟩)
  have hshort : TransGen (DocumentTree.of chainTree).Refers "#/components/schemas/Nothing"
      "#/components/schemas/Never" :=
    .single ⟨.object [("$ref", .string "#/components/schemas/Never")], _, rfl, rfl,
      (by decide : Pointer.canonicalize "#/components/schemas/Never" =
        .ok "#/components/schemas/Never")⟩
  have hobject : Pointer.lookup? chainTree "#/components/schemas/C" = some nullableObject := by rfl
  have hnever : Pointer.lookup? chainTree "#/components/schemas/Never" = some (.bool false) := by
    rfl
  obtain ⟨s, hnode, hblank, hnull⟩ := decode_nullableObject
  have hA : Pointer.child Setting.componentSchemas "A" = "#/components/schemas/A" := by decide
  have hNothing :
      Pointer.child Setting.componentSchemas "Nothing" = "#/components/schemas/Nothing" := by
    decide
  refine ⟨d, out, hd, hkeys, hout, hnames, hlong, hshort, ?_, ?_⟩
  · have hmem : "A" ∈ Entries.keys d.schemas := by rw [hnames]; decide
    obtain ⟨t, ht, hsource, hschema, -⟩ :=
      generate_alias hd hkeys rfl hout hmem (hA ▸ hlong) hobject hnode
    obtain ⟨u, hrenames, e, he, hend, halias⟩ := hschema s rfl hblank
    rw [hnull] at halias
    exact ⟨t, ht, hsource.trans hA, u, hrenames, e, he, hend, halias⟩
  · have hmem : "Nothing" ∈ Entries.keys d.schemas := by rw [hnames]; decide
    obtain ⟨t, ht, hsource, -, hboolean⟩ :=
      generate_alias hd hkeys rfl hout hmem (hNothing ▸ hshort) hnever rfl
    exact ⟨t, ht, hsource.trans hNothing, hboolean (.inr ⟨false, rfl⟩)⟩

end OpenApiTs
