import OpenApiTs.Proofs.Bases
import OpenApiTs.Proofs.Output
import OpenApiTs.Proofs.Places
import OpenApiTs.Proofs.Unguarded

/-!
# Interfaces extend object types

A base is chosen for the schema at the end of its chain of references, whereas declarations are made
for the links of the chain one by one. The two agree along the chain: each base is the name of an
emitted declaration, and aliases of further names lead from it to an interface or to a record. Only
where the filter excludes a pointer further on in the chain do they end before, at an alias of the
type of every value.

## Main definitions

* `Declaration.IsAlias`, `Declaration.IsRecord`: aliases of a text, and of a record.
* `Output.Renames`: one emitted declaration is an alias of the name of another.
* `Declaration.MadeFor`: a declaration was made for a schema at its source.
* `Setting.Cuts`: the filter excludes the next pointer of a chain.
* `UseLaw.placed`: the law that nodes stand where the document has them.

## Main results

* `generate_extends_sound`: what the bases of emitted interfaces are.
-/

namespace OpenApiTs

open Relation (ReflTransGen)

/-! ### Schemas of object types -/

namespace Schema

variable {s : Schema} {good : String → Prop}

theorem Suits.fits (h : s.Suits good) : ∀ node ∈ s.allOf, node.Fits good := by
  rcases h.2 with hobject | ⟨-, hfits⟩
  · have hallOf : s.allOf = [] := by
      unfold shape at hobject
      split at hobject
      · cases hobject
      · split at hobject
        · cases hobject
        · next hallOf => simpa using hallOf
    rw [hallOf]
    exact List.forall_mem_nil _
  · exact hfits

theorem shape_of_isBlank (h : s.isBlank = true) : s.shape = .unknown := by
  simp only [isBlank, Bool.and_eq_true, Option.isNone_iff_eq_none, List.isEmpty_iff] at h
  simp [shape, declares, typeNames, scalarShape, scalars?, h]

/-- A schema that states nothing is no object type. -/
theorem Suits.isBlank (h : s.Suits good) : s.isBlank = false := by
  rw [Bool.eq_false_iff]
  intro hblank
  rcases h.2 with hshape | ⟨hshape, -⟩ <;>
    cases hshape.symm.trans (shape_of_isBlank hblank)

theorem Suits.maker (h : s.Suits good) : s.shape.maker = .object := by
  rcases h.2 with hshape | ⟨hshape, -⟩ <;> rw [hshape] <;> rfl

end Schema

/-! ### Compositions of object types -/

section Rules

variable {run : Setting} {p : Progress} {U : UseRelation} {location reference : String} {i : Nat}
  {nodes : List SchemaNode} {c c' : Gen.Composition} {use : TypeUse} {s : Schema}

/-- The bases are the types of references that can be extended. -/
theorem Composes.exists_of_mem_bases (h : Composes run p U location i nodes c c') :
    ∀ base ∈ c'.bases, base ∈ c.bases ∨ ∃ reference use, ReferenceUse run p reference use ∧
      run.isExtendable reference = .ok true ∧ use.text = base := by
  induction h with
  | nil => exact fun _ => .inl
  | base hr hx _ ih =>
    intro base hbase
    rcases ih base hbase with hmem | hmade
    · rcases List.mem_append.mp hmem with hmem | hmem
      · exact .inl hmem
      · exact .inr ⟨_, _, hr, hx, (List.mem_singleton.mp hmem).symm⟩
    · exact .inr hmade
  | other _ _ _ ih | anything _ ih | nothing _ ih | merged _ _ _ ih | part _ _ _ ih => exact ih

/-- Where all entries are of object types, nothing is left that only an alias can intersect. -/
theorem Composes.others_eq (h : Composes run p U location i nodes c c')
    (hfits : ∀ node ∈ nodes, node.Fits run.Extendable) : c'.others = c.others := by
  induction h with
  | nil => rfl
  | base _ _ _ ih | anything _ ih | merged _ _ _ ih =>
    exact ih (List.forall_mem_cons.mp hfits).2
  | other _ hx _ ih => cases (Setting.isExtendable_iff hx).mpr (List.forall_mem_cons.mp hfits).1
  | nothing _ ih => cases (List.forall_mem_cons.mp hfits).1
  | part hs _ _ ih => cases hs.symm.trans (List.forall_mem_cons.mp hfits).1

/-- The declaration of a schema of an object type is an interface, or a record if the schema has
neither properties nor entries. -/
theorem Makes.isObject {pointer name : String} {d : Declaration}
    (h : Makes run p U pointer name (.schema s) d) (hs : s.Suits run.Extendable) :
    d.kind = .interface ∨ (s.properties.isEmpty && s.allOf.isEmpty) = true ∧
      ∃ use : TypeUse, d = Gen.aliasDeclaration (run.docs s [] "") name use.record pointer := by
  cases h with
  | record _ he h =>
    refine .inr ⟨he, ?_⟩
    cases h with
    | forbidden => exact ⟨_, rfl⟩
    | allowed => exact ⟨_, rfl⟩
  | interface => exact .inl rfl
  | intersection _ _ hc _ ho =>
    rw [hc.others_eq hs.fits] at ho
    cases ho
  | union hshape | enumeration hshape | literals hshape =>
    have hmaker := hs.maker
    rw [hshape] at hmaker
    cases hmaker
  | plain hmaker => cases hs.maker.symm.trans hmaker

/-- A declaration of an object type leaves null to nobody. -/
theorem Gen.needsNullAtUse_eq_false {null : Bool}
    (h : Gen.needsNullAtUse run reference = .ok null)
    (hs : run.tree.resolve reference reference = .ok s) (hnull : s.isNullable = false) :
    null = false := by
  obtain ⟨value, -, h⟩ := bind_eq_ok_iff.mp h
  split at h
  · cases h
    rfl
  · obtain ⟨s', hs', h⟩ := bind_eq_ok_iff.mp h
    cases hs.symm.trans hs'
    cases h
    rw [Schema.needsNullAtUse, hnull, Bool.false_and]

/-- The type of a reference that is not excluded and admits no null is the name of the target. -/
theorem ReferenceUse.name?_eq (h : ReferenceUse run p reference use)
    (hx : run.excludes reference = false) (hs : run.tree.resolve reference reference = .ok s)
    (hnull : s.isNullable = false) : p.name? reference = some use.text := by
  cases h with
  | excluded _ hx' => cases hx.symm.trans hx'
  | named _ _ hn hneeds =>
    rw [Gen.needsNullAtUse_eq_false hneeds hs hnull]
    exact hn

end Rules

/-! ### Declarations of object types -/

namespace Declaration

/-- A declaration is an alias of a text. -/
def IsAlias (d : Declaration) (text : String) : Prop :=
  d.kind = .union ∧ ∃ docs, IsDocs docs ∧ d.content = Gen.aliasText docs d.name text

/-- A declaration is an alias of a record. -/
def IsRecord (d : Declaration) : Prop := ∃ values : TypeUse, d.IsAlias values.record.text

end Declaration

/-- A declaration was made for a schema that stands at its source. -/
structure Declaration.MadeFor (t : Declaration) (run : Setting) (p : Progress) (s : Schema) :
    Prop where
  named : p.name? t.source = some t.name
  hosts : run.tree.HostsNode (.schema s) t.source
  makes : ∃ d, Makes run p (fun _ _ _ => True) t.source t.name (.schema s) d ∧
    t = (d.dropDependency t.name).rename t.name

/-- What is made for a schema of an object type is an interface or a record. -/
theorem Declaration.MadeFor.isObject {t : Declaration} {run : Setting} {p : Progress} {s : Schema}
    (h : t.MadeFor run p s) (hs : s.Suits run.Extendable) : t.kind = .interface ∨ t.IsRecord := by
  obtain ⟨d, hmakes, ht⟩ := h.makes
  rcases hmakes.isObject hs with hkind | ⟨-, use, rfl⟩
  · rw [ht]
    exact .inl hkind
  · rw [ht]
    exact .inr ⟨use, rfl, _, Declaration.isDocs_comment run _, rfl⟩

/-- The filter excludes the target of the reference at a pointer. -/
def Setting.Cuts (run : Setting) (pointer : String) : Prop :=
  ∃ target, run.tree.Link pointer target ∧ run.excludes target = true

namespace UseLaw

/-- The law that nodes stand where the document has them. -/
def placed (run : Setting) (hkeys : run.tree.root.distinctKeys = true) : UseLaw run where
  At := run.tree.HostsNode
  at_part := DocumentTree.hostsNode_part hkeys
  at_origin _ _ := DocumentTree.hostsNode_origin
  Holds _ _ _ _ := True
  holds_of_use _ _ := trivial

variable {run : Setting} {hkeys : run.tree.root.distinctKeys = true} {d : Document}

theorem placed_covers (hd : Document.ofTree run.tree.root = .ok d) :
    (placed run hkeys).Covers d where
  components _ := trivial
  operations hi ho _ _ h := (Operation.hosts_part hkeys (Document.hosts_path hkeys hd hi)
    (PathItem.hosts_operation hkeys (Document.hosts_path hkeys hd hi) ho) h).hostsNode

variable {p : Progress} {pointer name : String} {s : Schema} {t : Declaration}

/-- The declaration of a pointer that stands for an object type: one made for the schema, or an
alias for the next pointer of the chain. -/
theorem Sound.made_or_link (hp : (placed run hkeys).Sound p) (hname : p.name? pointer = some name)
    (ht : p.registry.lookup? name = some t) (hs : run.tree.resolve pointer pointer = .ok s)
    (hsuits : s.Suits run.Extendable) :
    t.source = pointer ∧ (t.MadeFor run p s ∨
      ∃ target, run.tree.Link pointer target ∧
        (run.excludes target = true ∧ t.IsAlias "unknown" ∨
          run.excludes target = false ∧ ∃ next, p.name? target = some next ∧ t.IsAlias next)) := by
  obtain ⟨node, d, hnode, hmakes, rfl⟩ := hp.made_at hname ht p (le_refl p)
  refine ⟨hmakes.source_eq, ?_⟩
  rcases hnode.cases hs with rfl | ⟨target, rfl, hlink⟩ | rfl
  · obtain rfl := hmakes.source_eq
    exact .inl ⟨hname, hnode, d, hmakes, rfl⟩
  · obtain @⟨_, use, huse⟩ := hmakes
    refine .inr ⟨target, hlink, ?_⟩
    cases huse with
    | endless hs' hblank =>
      cases hs.symm.trans hs'
      cases hsuits.isBlank.symm.trans hblank
    | follows _ _ huse =>
      by_cases hx : run.excludes target = true
      · cases huse with
        | excluded => exact .inl ⟨hx, rfl, "", .inl rfl, rfl⟩
        | named _ hx' => cases hx.symm.trans hx'
      · have hx := Bool.eq_false_iff.mpr hx
        have hs' := DocumentTree.resolve_of_links hs (.single hlink) target
        exact .inr ⟨hx, _, huse.name?_eq hx hs' hsuits.1, rfl, "", .inl rfl, rfl⟩
  · cases hsuits.isBlank

end UseLaw

/-- An emitted interface has bases, each of which is the type of a reference that can be
extended. -/
theorem UseLaw.Sound.exists_bases {run : Setting} {law : UseLaw run} {p : Progress}
    {t : Declaration} (hp : law.Sound p) (ht : p.registry.lookup? t.name = some t)
    (hk : t.kind = .interface) :
    ∃ bases, t.Extends bases ∧ ∀ base ∈ bases, ∃ reference use,
      ReferenceUse run p reference use ∧ run.isExtendable reference = .ok true ∧
        use.text = base := by
  generalize hname : t.name = name at ht
  cases hp.made ht p (le_refl p) with
  | node _ _ hmakes =>
    cases hmakes with
    | @interface _ c _ _ _ hc =>
      refine ⟨c.bases, Declaration.extends_interfaceText (Declaration.isDocs_comment run _) rfl rfl,
        fun base hbase => ?_⟩
      exact (hc.exists_of_mem_bases base hbase).resolve_left List.not_mem_nil
    | link | boolean | record | intersection | union | enumeration | literals | plain => cases hk
  | synthesized h =>
    cases h with
    | @parameters fields _ _ =>
      have hcontent : "export interface " ++ name ++ " \x7b\n" ++
          String.join (fields.map ObjectField.line) ++ "\x7d" =
          "" ++ "export interface " ++ name ++ "" ++ " " ++ String.ofList
            ('\x7b' :: ("\n" ++ String.join (fields.map ObjectField.line) ++ "\x7d").toList) := by
        rw [← String.toList_inj]
        simp
      exact ⟨[], ⟨rfl, "", _, .inl rfl, hcontent⟩, List.forall_mem_nil _⟩
    | responses => cases hk

/-! ### Bases in the output -/

namespace Output

/-- One emitted declaration is an alias of the name of another. -/
def Renames (out : Output) (u v : Declaration) : Prop :=
  u ∈ out.types ∧ v ∈ out.types ∧ u.IsAlias v.name

end Output

/-- A reference that stands for a schema with content has an end in its chain. -/
theorem DocumentTree.exists_stop {tree : DocumentTree} {pointer from_ : String} {s : Schema}
    (hs : tree.resolve pointer from_ = .ok s) (hblank : s.isBlank = false) :
    ∃ last place, ReflTransGen tree.Link pointer last ∧ tree.Stops last place (.ok s) := by
  have hresolves := hs ▸ tree.resolves_resolve pointer from_
  cases hresolves with
  | stopped hpasses hstop => exact ⟨_, _, hpasses.links (canonical_of_resolve hs), hstop⟩
  | repeated => cases hblank

section Output

variable {run : Setting} {hkeys : run.tree.root.distinctKeys = true} {p : Progress} {out : Output}
  {pointer last place name : String} {s : Schema}

/-- The name of a pointer at the end of a run is that of an emitted declaration. -/
theorem Progress.Orderly.exists_emitted (hp : p.Orderly) (hv : p.visiting = [])
    (hperm : out.types.Perm p.registry.declarations) (hname : p.name? pointer = some name) :
    ∃ t ∈ out.types, t.name = name ∧ p.registry.lookup? name = some t := by
  obtain ⟨t, ht⟩ := hp.exists_lookup? hv hname
  obtain rfl := hp.coherent.name_eq_of_lookup? ht
  exact ⟨t, hperm.mem_iff.mpr (hp.coherent.mem_declarations_iff.mpr ht), rfl, ht⟩

/-- Aliases follow the chain of a pointer that stands for an object type to a declaration that was
made for the schema, or to where the filter cuts the chain. -/
theorem exists_made_of_links (hp : (UseLaw.placed run hkeys).Sound p) (hv : p.visiting = [])
    (hperm : out.types.Perm p.registry.declarations) (hsuits : s.Suits run.Extendable)
    (hstop : run.tree.Stops last place (.ok s)) (hlinks : ReflTransGen run.tree.Link pointer last)
    (hs : run.tree.resolve pointer pointer = .ok s) (hname : p.name? pointer = some name) :
    ∃ u ∈ out.types, u.name = name ∧ ∃ v ∈ out.types, ReflTransGen out.Renames u v ∧
      ReflTransGen run.tree.Link pointer v.source ∧
        (v.MadeFor run p s ∨ v.IsAlias "unknown" ∧ run.Cuts v.source) := by
  induction hlinks using ReflTransGen.head_induction_on generalizing name with
  | refl =>
    obtain ⟨u, hu, huname, hlookup⟩ := hp.orderly.exists_emitted hv hperm hname
    obtain ⟨rfl, hmade | ⟨_, hlink, -⟩⟩ := hp.made_or_link hname hlookup hs hsuits
    · exact ⟨u, hu, huname, u, hu, .refl, .refl, .inl hmade⟩
    · exact absurd hlink hstop.not_link
  | head hlink _ ih =>
    obtain ⟨u, hu, huname, hlookup⟩ := hp.orderly.exists_emitted hv hperm hname
    refine ⟨u, hu, huname, ?_⟩
    obtain ⟨rfl, hmade | ⟨target, hlink', hdeclared⟩⟩ := hp.made_or_link hname hlookup hs hsuits
    · exact ⟨u, hu, .refl, .refl, .inl hmade⟩
    · obtain rfl := DocumentTree.link_unique hlink hlink'
      rcases hdeclared with ⟨hx, halias⟩ | ⟨-, next, hnext, halias⟩
      · exact ⟨u, hu, .refl, .refl, .inr ⟨halias, _, hlink, hx⟩⟩
      · obtain ⟨w, hw, rfl, v, hv', hrenames, hlinks, hmade⟩ :=
          ih (DocumentTree.resolve_of_links hs (.single hlink) _) hnext
        exact ⟨v, hv', .head ⟨hu, hw, halias⟩ hrenames, .head hlink hlinks, hmade⟩

/-- Every base of an emitted interface is the name of an emitted declaration, from which aliases of
further names lead to an interface or a record, or to where the filter cuts the chain of references
that the base stands for: there they end at an alias of the type of every value. The bases are what
can be read between `extends` and the brace, if their names are plain words. No object in the tree
may have a key twice, as no object that a reader gives has. -/
theorem generate_extends_sound {tree : Json} {d : Document} {config : Config}
    (hd : Document.ofTree tree = .ok d) (hkeys : tree.distinctKeys = true)
    (h : generate d config = .ok out) :
    ∃ filter, Filter.compile config.filter = .ok filter ∧
      ∀ t ∈ out.types, t.kind = .interface → ∃ bases, t.Extends bases ∧
        ((∀ base ∈ bases, Naming.IsPlain base) → ∀ name, t.Unguarded name ↔ name ∈ bases) ∧
        ∀ base ∈ bases, ∃ u ∈ out.types, u.name = base ∧ ∃ v ∈ out.types,
          ReflTransGen out.Renames u v ∧
            (v.kind = .interface ∨ v.IsRecord ∨
              v.IsAlias "unknown" ∧ Setting.Cuts ⟨.of tree, config, filter⟩ v.source) := by
  obtain rfl := Document.tree_of_ofTree hd
  obtain ⟨filter, p, hfilter, hrun, hperm⟩ := generate_eq_ok h
  obtain ⟨hp, hv, -, -⟩ :=
    (UseLaw.placed ⟨.of d.tree, config, filter⟩ hkeys).sound_document (UseLaw.placed_covers hd) hrun
  refine ⟨filter, hfilter, fun t ht hkind => ?_⟩
  have hlookup := hp.orderly.coherent.mem_declarations_iff.mp (hperm.mem_iff.mp ht)
  obtain ⟨bases, hextends, hbases⟩ := hp.exists_bases hlookup hkind
  refine ⟨bases, hextends, fun hplain name => hextends.unguarded_iff hplain, fun base hbase => ?_⟩
  obtain ⟨reference, use, huse, hx, rfl⟩ := hbases base hbase
  obtain ⟨hadmitted, s, hs, hsuits⟩ := ((Setting.isExtendable_iff hx).mp rfl).admits
  obtain ⟨last, place, hlinks, hstop⟩ := DocumentTree.exists_stop hs hsuits.isBlank
  obtain ⟨u, hu, huname, v, hv', hrenames, -, hmade⟩ := exists_made_of_links hp hv hperm hsuits
    hstop hlinks hs (huse.name?_eq hadmitted hs hsuits.1)
  refine ⟨u, hu, huname, v, hv', hrenames, ?_⟩
  rcases hmade with hmade | hcut
  · exact or_assoc.mp (.inl (hmade.isObject hsuits))
  · exact .inr (.inr hcut)

/-- A document with an interface that extends an alias, the target of which is an object. -/
def cutTree : Json :=
  .object [
    ("openapi", .string "3.0.0"),
    ("paths", .object []),
    ("components", .object [
      ("schemas", .object [
        ("A", .object [
          ("allOf", .array [
            .object [("$ref", .string "#/components/schemas/B")],
            .object [("properties", .object [("x", .object [("type", .string "string")])])]])]),
        ("B", .object [("$ref", .string "#/components/schemas/C")]),
        ("C", .object [("properties", .object [("y", .object [("type", .string "string")])])])])])]

/-- A configuration that excludes the object. -/
def cutConfig : Config := { filter := { excludeSchemas := ["C"] } }

/-- The interface extends the alias although the alias is that of every value. -/
theorem generate_cutTree :
    ∃ d out, Document.ofTree cutTree = .ok d ∧ generate d cutConfig = .ok out ∧
      out.types.map (fun t => (t.name, t.kind, t.content)) =
        [("B", .union, "export type B = unknown;"),
          ("A", .interface, "export interface A extends B \x7b\n  x?: string;\n\x7d")] := by
  have hrun : ((Document.ofTree cutTree).toOption.bind fun d =>
      (generate d cutConfig).toOption).any (fun out =>
        out.types.map (fun t => (t.name, t.kind, t.content)) ==
          [("B", .union, "export type B = unknown;"),
            ("A", .interface, "export interface A extends B \x7b\n  x?: string;\n\x7d")]) =
        true := by
    decide +kernel
  obtain ⟨d, out, hd, hout, htypes⟩ := exists_output_of_any hrun
  exact ⟨d, out, hd, hout, beq_iff_eq.mp htypes⟩

theorem generate_extends_sound_cutTree :
    ∃ d out, Document.ofTree cutTree = .ok d ∧ cutTree.distinctKeys = true ∧
      generate d cutConfig = .ok out ∧
      out.types.map (fun t => (t.name, t.kind, t.content)) =
        [("B", .union, "export type B = unknown;"),
          ("A", .interface, "export interface A extends B \x7b\n  x?: string;\n\x7d")] ∧
      ∃ filter, Filter.compile cutConfig.filter = .ok filter ∧
        ∀ t ∈ out.types, t.kind = .interface → ∃ bases, t.Extends bases ∧
          ((∀ base ∈ bases, Naming.IsPlain base) → ∀ name, t.Unguarded name ↔ name ∈ bases) ∧
          ∀ base ∈ bases, ∃ u ∈ out.types, u.name = base ∧ ∃ v ∈ out.types,
            ReflTransGen out.Renames u v ∧
              (v.kind = .interface ∨ v.IsRecord ∨
                v.IsAlias "unknown" ∧ Setting.Cuts ⟨.of cutTree, cutConfig, filter⟩ v.source) := by
  obtain ⟨d, out, hd, hout, htypes⟩ := generate_cutTree
  have hkeys : cutTree.distinctKeys = true := by decide +kernel
  exact ⟨d, out, hd, hkeys, hout, htypes, generate_extends_sound hd hkeys hout⟩

end Output

end OpenApiTs
