import OpenApiTs.Proofs.Aliases
import OpenApiTs.Proofs.Keys

/-!
# What interfaces inherit

An interface with an index signature for anything but every value has no field of its own. But it
extends the references of an intersection, and whatever these stand for has fields and extends
further references. So the members that an interface inherits are those of the schemas above its
own, and the signature says nothing of them.

Chains of references are followed one by one, and the filter can exclude a pointer further on, after
which nothing is inherited. A reference that is written as an array is passed without asking the
filter for its target; apart from these the two bounds on what is inherited are the same.

## Main definitions

* `Setting.Extends`: a schema has an entry for a base that stands for another schema, and no pointer
  to which given steps lead from the entry is excluded.
* `Interface`, `Declaration.IsInterface`: the bases and the body of an interface.
* `Setting.Reads`, `Setting.ReadsAll`: bases and body for a schema, and for all that is emitted.
* `Output.Offers`, `Output.Inherits`: the keys that a declaration has, and those that it has from
  its bases.

## Main results

* `bound_of_offers`, `offers_of_extends`: keys come from the schemas above, and conversely.
* `generate_index_inherits`: what the interfaces with index signatures have and inherit.
-/

namespace OpenApiTs

open Relation (ReflTransGen TransGen)

/-- An entry of an intersection is a base that stands for another schema, and no pointer to which
steps lead from the entry is excluded. -/
def Setting.Extends (run : Setting) (step : String → String → Prop) (s s' : Schema) : Prop :=
  ∃ reference, .reference reference ∈ s.allOf ∧ run.Extendable reference ∧
    run.tree.resolve reference reference = .ok s' ∧
    ∀ pointer, ReflTransGen step reference pointer → run.excludes pointer = false

/-! ### Texts of interfaces and aliases -/

/-- What an interface is written with. -/
structure Interface where
  bases : List String := []
  body : Body := {}

instance : Inhabited Interface := ⟨{}⟩

namespace Declaration

/-- The declaration of an interface with its bases and its body. -/
def IsInterface (t : Declaration) (i : Interface) : Prop :=
  t.kind = .interface ∧ ∃ docs braces, IsDocs docs ∧
    (braces = i.body.block ∨ i.body.isEmpty = true ∧ braces = "\x7b\x7d") ∧
    t.content = docs ++ "export interface " ++ t.name ++
      (if i.bases.isEmpty then "" else " extends " ++ ", ".intercalate i.bases) ++ " " ++ braces

theorem isInterface_interfaceText {t : Declaration} {docs : String} {bases : List String}
    {body : Body} (hdocs : IsDocs docs) (hk : t.kind = .interface)
    (hc : t.content = Gen.interfaceText docs t.name bases body) :
    t.IsInterface ⟨bases, body⟩ := by
  refine ⟨hk, docs, if body.isEmpty then "\x7b\x7d" else body.block, hdocs, ?_, hc⟩
  split
  · next hempty => exact .inr ⟨hempty, rfl⟩
  · exact .inl rfl

/-- An alias is one of a single text. -/
theorem IsAlias.text_unique {t : Declaration} {a b : String} (ha : t.IsAlias a) (hb : t.IsAlias b) :
    a = b := by
  have hcode {text : String} (h : t.IsAlias text) :
      t.code = ("export type " ++ t.name ++ " = ").toList ++ (text.toList ++ [';']) := by
    obtain ⟨-, docs, hdocs, hc⟩ := h
    refine code_eq hdocs ?_ (by simp)
    rw [hc, Gen.aliasText]
    simp
  have h := List.append_cancel_right (List.append_cancel_left ((hcode ha).symm.trans (hcode hb)))
  exact String.toList_inj.mp h

end Declaration

/-- Beside fields an index signature is one for every value. -/
theorem Body.fields_eq_nil_of_indexText {b : Body} {values : String}
    (h : b.indexText? = some ("[key: string]: " ++ values)) (hne : values ≠ "unknown") :
    b.fields = [] := by
  obtain ⟨use, -, htext⟩ := Option.map_eq_some_iff.mp h
  split at htext
  · next hempty => exact List.isEmpty_iff.mp hempty
  · have hlist := congrArg String.toList htext
    rw [String.toList_append, String.toList_append] at hlist
    exact absurd (String.toList_inj.mp (List.append_cancel_left hlist)).symm hne

/-! ### Bases and bodies for schemas -/

/-- Bases and body are those of the interface for a schema: the bases are the names of the
references that can be extended, and the body has a field for each name. -/
structure Setting.Reads (run : Setting) (p : Progress) (s : Schema) (i : Interface) : Prop where
  exists_reference : ∀ base ∈ i.bases, ∃ reference, .reference reference ∈ s.allOf ∧
    run.Extendable reference ∧ p.name? reference = some base
  exists_base : ∀ reference, .reference reference ∈ s.allOf → run.Extendable reference →
    ∃ base ∈ i.bases, p.name? reference = some base
  keyed : i.body.Keyed run.config.naming s.fieldNames

section Rules

variable {run : Setting} {p : Progress} {U : UseRelation} {location : String} {i : Nat}
  {nodes : List SchemaNode} {c c' : Gen.Composition}

/-- The type of a reference that can be extended is the name of its target. -/
theorem ReferenceUse.name?_of_extendable {reference : String} {use : TypeUse}
    (h : ReferenceUse run p reference use) (hx : run.Extendable reference) :
    p.name? reference = some use.text := by
  obtain ⟨hadmitted, s, hs, hsuits⟩ := hx.admits
  exact h.name?_eq hadmitted hs hsuits.1

/-- The bases that entries add are the names of their references that can be extended. -/
theorem Composes.mem_bases_iff (h : Composes run p U location i nodes c c') {base : String} :
    base ∈ c'.bases ↔ base ∈ c.bases ∨ ∃ reference, .reference reference ∈ nodes ∧
      run.Extendable reference ∧ p.name? reference = some base := by
  induction h with
  | nil => simp
  | base hr hx _ ih =>
    have hgood := (Setting.isExtendable_iff hx).mp rfl
    rw [ih, List.mem_append, List.mem_singleton]
    simp [hgood, hr.name?_of_extendable hgood, or_and_right, exists_or, or_assoc, eq_comm]
  | other _ hx _ ih =>
    have hbad := mt (Setting.isExtendable_iff hx).mpr Bool.false_ne_true
    rw [ih]
    simp [hbad, or_and_right, exists_or]
  | anything _ ih => simpa using ih
  | nothing _ ih => simpa using ih
  | merged _ _ _ ih => simpa using ih
  | part _ _ _ ih => simpa using ih

/-- A reference that can be extended gives a base. -/
theorem Composes.exists_base (h : Composes run p U location i nodes c c') {reference : String}
    (hmem : .reference reference ∈ nodes) (hx : run.Extendable reference) :
    ∃ base ∈ c'.bases, p.name? reference = some base := by
  induction h with
  | nil => cases hmem
  | base hr _ hrest ih =>
    rcases List.mem_cons.mp hmem with heq | hmem
    · cases heq
      refine ⟨_, hrest.mem_bases_iff.mpr (.inl ?_), hr.name?_of_extendable hx⟩
      exact List.mem_append_right _ (List.mem_singleton_self _)
    · exact ih hmem
  | other _ hbad _ ih =>
    rcases List.mem_cons.mp hmem with heq | hmem
    · cases heq
      cases (Setting.isExtendable_iff hbad).mpr hx
    · exact ih hmem
  | anything _ ih | nothing _ ih | merged _ _ _ ih | part _ _ _ ih =>
    exact ih ((List.mem_cons.mp hmem).resolve_left nofun)

namespace Declaration.MadeFor

variable {t : Declaration} {s s' : Schema}

/-- The interface that is made for a schema has its bases and its body. -/
theorem exists_reads (h : t.MadeFor run p s) (hk : t.kind = .interface) :
    ∃ i, t.IsInterface i ∧ run.Reads p s i := by
  obtain ⟨d, hmakes, ht⟩ := h.makes
  have hkind : d.kind = .interface := by
    rw [ht] at hk
    exact hk
  generalize t.source = pointer at hmakes
  generalize hname : t.name = name at hmakes ht
  cases hmakes with
  | @interface _ c body _ _ hc hb =>
    refine ⟨⟨c.bases, body⟩, ?_, fun base hbase => ?_, fun reference hmem hx => ?_,
      hb.keyed (hc.keyed (.empty _))⟩
    · refine isInterface_interfaceText (isDocs_comment run (Setting.docTexts s ++ [])) hk ?_
      rw [ht]
      rfl
    · exact (hc.mem_bases_iff.mp hbase).resolve_left List.not_mem_nil
    · exact hc.exists_base hmem hx
  | record | intersection | union | enumeration | literals | plain => cases hkind

/-- The schema that a declaration was made for is what its source stands for. -/
theorem eq_of_resolve (h : t.MadeFor run p s)
    (hs : run.tree.resolve t.source t.source = .ok s') (hblank : s'.isBlank = false) : s = s' := by
  rcases h.hosts.cases hs with heq | ⟨_, heq, -⟩ | rfl
  · cases heq
    rfl
  · cases heq
  · cases hblank

/-- No reference stands where a declaration was made for a schema. -/
theorem not_refers (h : t.MadeFor run p s) (pointer : String) :
    ¬run.tree.Refers t.source pointer := by
  rintro ⟨value, reference, hvalue, href, -⟩
  rcases h.hosts value hvalue with hnode | ⟨_, _, rfl, -⟩
  · rw [DocumentTree.decode_of_member? href] at hnode
    cases hnode
  · cases href

/-- What is made for a schema of an object type is an interface if the schema has properties or
entries. -/
theorem kind_eq (h : t.MadeFor run p s) (hs : s.Suits run.Extendable)
    (hne : (s.properties.isEmpty && s.allOf.isEmpty) = false) : t.kind = .interface := by
  obtain ⟨d, hmakes, ht⟩ := h.makes
  rcases hmakes.isObject hs with hkind | ⟨hempty, -⟩
  · rw [ht]
    exact hkind
  · cases hne.symm.trans hempty

end Declaration.MadeFor

end Rules

section Made

variable {run : Setting} {p : Progress} {t : Declaration}

/-- An interface that is declared for a pointer was made for a schema there. -/
theorem UseLaw.Sound.madeFor_of_interface {hkeys : run.tree.root.distinctKeys = true}
    (hp : (UseLaw.placed run hkeys).Sound p) {pointer : String}
    (hname : p.name? pointer = some t.name) (ht : p.registry.lookup? t.name = some t)
    (hk : t.kind = .interface) : ∃ s, t.MadeFor run p s := by
  obtain ⟨node, d, hnode, hmakes, htd⟩ := hp.made_at hname ht p (le_refl p)
  have hkind : d.kind = .interface := by
    rw [htd] at hk
    exact hk
  have hsource : t.source = pointer := by
    rw [htd]
    exact hmakes.source_eq
  obtain ⟨s, rfl⟩ : ∃ s, node = .schema s := by
    cases hmakes with
    | link | boolean => cases hkind
    | _ => exact ⟨_, rfl⟩
  exact ⟨s, hsource ▸ hname, hsource ▸ hnode, d, hsource ▸ hmakes, htd⟩

/-- An interface that is declared for no pointer is one of parameters. -/
theorem UseLaw.Sound.isInterface_of_unnamed {law : UseLaw run} (hp : law.Sound p)
    (hnamed : ∀ pointer, p.name? pointer ≠ some t.name) (ht : p.registry.lookup? t.name = some t)
    (hk : t.kind = .interface) :
    t.OfOperation "parameters" ∧
      ∃ i : Interface, t.IsInterface i ∧ i.bases = [] ∧ i.body.index = none := by
  generalize hname : t.name = name at hnamed ht
  cases hp.made ht p (le_refl p) with
  | node hpointer => exact absurd hpointer (hnamed _)
  | synthesized h =>
    cases h with
    | @parameters fields _ _ =>
      refine ⟨⟨_, _, rfl⟩, ⟨[], ⟨fields.map fun f => ("", f), none⟩⟩,
        ⟨rfl, "", _, .inl rfl, .inl rfl, ?_⟩, rfl, rfl⟩
      change "export interface " ++ name ++ " \x7b\n" ++
        String.join (fields.map ObjectField.line) ++ "\x7d" = _
      rw [← String.toList_inj]
      simp [Body.block, Body.lines, Body.indexText?, Function.comp_def]
    | responses => cases hk

end Made

/-! ### Keys of declarations -/

namespace Output

/-- The keys that a declaration has, given the bases and the body of each interface: those of its
own fields, those of its bases, and those of what it is an alias of. -/
inductive Offers (out : Output) (read : Declaration → Interface) :
    Declaration → String → Prop
  | own {t e} (ht : t ∈ out.types) (hk : t.kind = .interface) (he : e ∈ (read t).body.fields) :
      Offers out read t e.2.key
  | base {t u key} (ht : t ∈ out.types) (hk : t.kind = .interface) (hbase : u.name ∈ (read t).bases)
      (h : Offers out read u key) : Offers out read t key
  | renames {t u key} (hr : out.Renames t u) (h : Offers out read u key) : Offers out read t key

/-- The keys that an interface has from its bases. -/
def Inherits (out : Output) (read : Declaration → Interface) (t : Declaration)
    (key : String) : Prop :=
  ∃ u, u.name ∈ (read t).bases ∧ out.Offers read u key

/-- What an alias leads to has keys for it. -/
theorem Offers.of_renames {out : Output} {read : Declaration → Interface}
    {t u : Declaration} {key : String} (hr : ReflTransGen out.Renames t u)
    (h : out.Offers read u key) : out.Offers read t key := by
  induction hr using ReflTransGen.head_induction_on with
  | refl => exact h
  | head hstep _ ih => exact .renames hstep ih

end Output

/-- Bases and body of each emitted interface are those of the schema that it was made for. An
interface that was made for no pointer is one of parameters and has neither bases nor an index
signature. -/
structure Setting.ReadsAll (run : Setting) (p : Progress) (out : Output)
    (read : Declaration → Interface) : Prop where
  isInterface : ∀ t ∈ out.types, t.kind = .interface → t.IsInterface (read t)
  reads : ∀ t ∈ out.types, t.kind = .interface →
    (∃ s, t.MadeFor run p s ∧ run.Reads p s (read t)) ∨
      (∀ pointer, p.name? pointer ≠ some t.name) ∧ t.OfOperation "parameters" ∧
        (read t).bases = [] ∧ (read t).body.index = none

section Output

variable {run : Setting} {hkeys : run.tree.root.distinctKeys = true} {p : Progress} {out : Output}
  {read : Declaration → Interface}

/-- Every interface that a run emits has bases and a body. -/
theorem UseLaw.Sound.exists_readsAll (hp : (UseLaw.placed run hkeys).Sound p)
    (hperm : out.types.Perm p.registry.declarations) : ∃ read, run.ReadsAll p out read := by
  have hread : ∀ t, t ∈ out.types → t.kind = .interface → ∃ i : Interface, t.IsInterface i ∧
      ((∃ s, t.MadeFor run p s ∧ run.Reads p s i) ∨
        (∀ pointer, p.name? pointer ≠ some t.name) ∧ t.OfOperation "parameters" ∧
          i.bases = [] ∧ i.body.index = none) := by
    intro t ht hk
    have hlookup := hp.orderly.coherent.mem_declarations_iff.mp (hperm.mem_iff.mp ht)
    by_cases hnamed : ∃ pointer, p.name? pointer = some t.name
    · obtain ⟨pointer, hname⟩ := hnamed
      obtain ⟨s, hmade⟩ := hp.madeFor_of_interface hname hlookup hk
      obtain ⟨i, hi, hreads⟩ := hmade.exists_reads hk
      exact ⟨i, hi, .inl ⟨s, hmade, hreads⟩⟩
    · obtain ⟨hsource, i, hi, hplain⟩ :=
        hp.isInterface_of_unnamed (not_exists.mp hnamed) hlookup hk
      exact ⟨i, hi, .inr ⟨not_exists.mp hnamed, hsource, hplain⟩⟩
  choose! read hread using hread
  exact ⟨read, fun t ht hk => (hread t ht hk).1, fun t ht hk => (hread t ht hk).2⟩

variable {pointer : String} {s s' : Schema} {t u : Declaration} {key : String}

theorem lookup?_of_mem_types (hp : p.Orderly) (hperm : out.types.Perm p.registry.declarations)
    (ht : t ∈ out.types) : p.registry.lookup? t.name = some t :=
  hp.coherent.mem_declarations_iff.mp (hperm.mem_iff.mp ht)

/-- No declaration has the name of the type of every value. -/
theorem UseLaw.Sound.ne_unknown (hp : (UseLaw.placed run hkeys).Sound p)
    (hperm : out.types.Perm p.registry.declarations) (ht : t ∈ out.types) : t.name ≠ "unknown" := by
  intro hname
  have hslot := hp.orderly.coherent.lookup?_eq_some_iff.mp
    (lookup?_of_mem_types hp.orderly hperm ht)
  refine hp.unreserved t.name (List.mem_map_of_mem hslot) ?_
  rw [hname]
  decide

/-- The interface for a schema that a pointer stands for is read as that of the schema. -/
theorem Setting.ReadsAll.of_madeFor (hr : run.ReadsAll p out read) (ht : t ∈ out.types)
    (hk : t.kind = .interface) (hmade : t.MadeFor run p s)
    (hs : run.tree.resolve t.source t.source = .ok s) (hblank : s.isBlank = false) :
    run.Reads p s (read t) := by
  rcases hr.reads t ht hk with ⟨s', hmade', hreads⟩ | ⟨hnamed, -⟩
  · exact hmade'.eq_of_resolve hs hblank ▸ hreads
  · exact absurd hmade.named (hnamed _)

/-- An interface of a pointer that can be extended was made for its schema, at the end of the
chain. -/
theorem Setting.ReadsAll.of_interface (hr : run.ReadsAll p out read)
    (hp : (UseLaw.placed run hkeys).Sound p) (hperm : out.types.Perm p.registry.declarations)
    (ht : t ∈ out.types) (hk : t.kind = .interface) (hname : p.name? pointer = some t.name)
    (hs : run.tree.resolve pointer pointer = .ok s) (hsuits : s.Suits run.Extendable)
    (hx : run.excludes pointer = false) :
    run.Reads p s (read t) ∧
      ∀ next, ReflTransGen run.tree.Refers pointer next → run.excludes next = false := by
  obtain ⟨rfl, hmade | ⟨_, -, ⟨-, halias⟩ | ⟨-, _, -, halias⟩⟩⟩ :=
    hp.made_or_link hname (lookup?_of_mem_types hp.orderly hperm ht) hs hsuits
  · refine ⟨hr.of_madeFor ht hk hmade hs hsuits.isBlank, fun next hnext => ?_⟩
    rcases ReflTransGen.cases_head hnext with rfl | ⟨_, hstep, -⟩
    · exact hx
    · exact absurd hstep (hmade.not_refers _)
  · cases hk.symm.trans halias.1
  · cases hk.symm.trans halias.1

/-- The keys of the declaration of a pointer that can be extended are names of fields of its schema
or of one above, and the filter excludes no pointer in the chain. -/
theorem bound_of_offers (hp : (UseLaw.placed run hkeys).Sound p)
    (hperm : out.types.Perm p.registry.declarations) (hr : run.ReadsAll p out read)
    (hnames : ∀ t ∈ out.types, '<' ∉ t.name.toList) (h : out.Offers read t key)
    (hname : p.name? pointer = some t.name) (hs : run.tree.resolve pointer pointer = .ok s)
    (hsuits : s.Suits run.Extendable) (hx : run.excludes pointer = false) :
    (∀ next, ReflTransGen run.tree.Refers pointer next → run.excludes next = false) ∧
      ∃ s' n, ReflTransGen (run.Extends run.tree.Refers) s s' ∧ n ∈ s'.fieldNames ∧
        key = run.config.naming.fieldName n := by
  induction h generalizing pointer s with
  | @own t e ht hk he =>
    obtain ⟨hreads, hchain⟩ := hr.of_interface hp hperm ht hk hname hs hsuits hx
    refine ⟨hchain, s, e.1, .refl, ?_, hreads.keyed.key_eq e he⟩
    rw [← hreads.keyed.names_eq]
    exact List.mem_map_of_mem he
  | @base t u key ht hk hbase hoffers ih =>
    obtain ⟨hreads, hchain⟩ := hr.of_interface hp hperm ht hk hname hs hsuits hx
    obtain ⟨reference, hmem, hextendable, hreference⟩ := hreads.exists_reference _ hbase
    obtain ⟨hx', s₁, hs₁, hsuits₁⟩ := hextendable.admits
    obtain ⟨hchain₁, s', n, habove, hn, hkey⟩ := ih hreference hs₁ hsuits₁ hx'
    exact ⟨hchain, s', n, .head ⟨reference, hmem, hextendable, hs₁, hchain₁⟩ habove, hn, hkey⟩
  | @renames t u key hrenames hoffers ih =>
    obtain ⟨ht, hu, halias⟩ := hrenames
    obtain ⟨rfl, hmade | ⟨target, hlink, ⟨-, hcut⟩ | ⟨hx', next, hnext, halias'⟩⟩⟩ :=
      hp.made_or_link hname (lookup?_of_mem_types hp.orderly hperm ht) hs hsuits
    · rcases hmade.isObject hsuits with hk | ⟨values, hrecord⟩
      · cases hk.symm.trans halias.1
      · refine absurd ?_ (hnames u hu)
        rw [halias.text_unique hrecord, Reads.toList_record]
        exact List.mem_append_right _ List.mem_cons_self
    · exact absurd (halias.text_unique hcut) (hp.ne_unknown hperm hu)
    · obtain rfl := halias.text_unique halias'
      obtain ⟨hchain, hbound⟩ :=
        ih hnext (DocumentTree.resolve_of_links hs (.single hlink) target) hsuits hx'
      refine ⟨fun next hnext => ?_, hbound⟩
      rcases ReflTransGen.cases_head hnext with rfl | ⟨second, hstep, hrest⟩
      · exact hx
      · obtain rfl := DocumentTree.link_unique hlink hstep.link
        exact hchain next hrest

/-- Aliases lead from the declaration of a pointer to the interface for its schema, if the filter
excludes no pointer in the chain and the schema is no record. -/
theorem exists_interface_of_links (hp : (UseLaw.placed run hkeys).Sound p) (hv : p.visiting = [])
    (hperm : out.types.Perm p.registry.declarations) (hr : run.ReadsAll p out read) {name : String}
    (hname : p.name? pointer = some name) (hs : run.tree.resolve pointer pointer = .ok s)
    (hsuits : s.Suits run.Extendable)
    (hchain : ∀ next, ReflTransGen run.tree.Link pointer next → run.excludes next = false)
    (hne : (s.properties.isEmpty && s.allOf.isEmpty) = false) :
    ∃ u ∈ out.types, u.name = name ∧ ∃ v ∈ out.types, ReflTransGen out.Renames u v ∧
      v.kind = .interface ∧ run.Reads p s (read v) := by
  obtain ⟨last, place, hlinks, hstop⟩ := DocumentTree.exists_stop hs hsuits.isBlank
  obtain ⟨u, hu, huname, v, hv', hrenames, hplace, hmade | ⟨-, target, hlink, hx⟩⟩ :=
    exists_made_of_links hp hv hperm hsuits hstop hlinks hs hname
  · have hk := hmade.kind_eq hsuits hne
    have hsv := DocumentTree.resolve_of_links hs hplace v.source
    exact ⟨u, hu, huname, v, hv', hrenames, hk, hr.of_madeFor hv' hk hmade hsv hsuits.isBlank⟩
  · cases (hchain target (hplace.tail hlink)).symm.trans hx

/-- The declaration of a pointer that can be extended has the names of all fields of its schema and
of those above as keys, as far as the filter excludes no pointer in the chains. -/
theorem offers_of_extends (hp : (UseLaw.placed run hkeys).Sound p) (hv : p.visiting = [])
    (hperm : out.types.Perm p.registry.declarations) (hr : run.ReadsAll p out read)
    (habove : ReflTransGen (run.Extends run.tree.Link) s s') {n : String} (hn : n ∈ s'.fieldNames)
    {name : String} (hname : p.name? pointer = some name)
    (hs : run.tree.resolve pointer pointer = .ok s) (hsuits : s.Suits run.Extendable)
    (hchain : ∀ next, ReflTransGen run.tree.Link pointer next → run.excludes next = false) :
    ∃ u, u.name = name ∧ out.Offers read u (run.config.naming.fieldName n) := by
  induction habove using ReflTransGen.head_induction_on generalizing pointer name with
  | refl =>
    have hne : (s'.properties.isEmpty && s'.allOf.isEmpty) = false := s'.not_empty_of_fieldNames hn
    obtain ⟨u, -, huname, v, hv', hrenames, hk, hreads⟩ :=
      exists_interface_of_links hp hv hperm hr hname hs hsuits hchain hne
    rw [← hreads.keyed.names_eq] at hn
    obtain ⟨e, he, rfl⟩ := List.mem_map.mp hn
    rw [← hreads.keyed.key_eq e he]
    exact ⟨u, huname, .of_renames hrenames (.own hv' hk he)⟩
  | @head s s₁ hstep _ ih =>
    obtain ⟨reference, hmem, hextendable, hs₁, hchain₁⟩ := hstep
    have hne : (s.properties.isEmpty && s.allOf.isEmpty) = false := by
      rw [Bool.and_eq_false_iff]
      exact .inr (List.isEmpty_eq_false_iff.mpr (List.ne_nil_of_mem hmem))
    obtain ⟨u, -, huname, v, hv', hrenames, hk, hreads⟩ :=
      exists_interface_of_links hp hv hperm hr hname hs hsuits hchain hne
    obtain ⟨base, hbase, hreference⟩ := hreads.exists_base reference hmem hextendable
    obtain ⟨-, s₂, hs₂, hsuits₁⟩ := hextendable.admits
    cases hs₁.symm.trans hs₂
    obtain ⟨w, rfl, hw⟩ := ih hreference hs₁ hsuits₁ hchain₁
    exact ⟨u, huname, .of_renames hrenames (.base hv' hk hbase hw)⟩

end Output

/-- Emitted interfaces have bases and bodies such that one with an index signature for anything but
every value has no field of its own. An interface of parameters has no bases. The field keys of any
other are those of the names of its schema; what it inherits are names of fields of the schemas
above, past chains of references in which the filter excludes nothing, and all of these. No object
in the tree may have a key twice, as no object that a reader gives has, and no name may look like
the text of a record. -/
theorem generate_index_inherits {tree : Json} {d : Document} {config : Config} {out : Output}
    (hd : Document.ofTree tree = .ok d) (hkeys : tree.distinctKeys = true)
    (hnames : ∀ t ∈ out.types, '<' ∉ t.name.toList) (h : generate d config = .ok out) :
    ∃ filter read, Filter.compile config.filter = .ok filter ∧
      ∀ t ∈ out.types, t.kind = .interface → t.IsInterface (read t) ∧
        (∀ values, (read t).body.indexText? = some ("[key: string]: " ++ values) →
          values ≠ "unknown" → (read t).body.fields = []) ∧
        (t.OfOperation "parameters" ∧ (read t).bases = [] ∧ (read t).body.index = none ∨
          ∃ s, (DocumentTree.of tree).HostsNode (.schema s) t.source ∧
            (read t).body.keys = s.fieldNames.map config.naming.fieldName ∧
            (∀ key, out.Inherits read t key →
              ∃ s' n, TransGen (Setting.Extends ⟨.of tree, config, filter⟩
                (DocumentTree.of tree).Refers) s s' ∧ n ∈ s'.fieldNames ∧
                key = config.naming.fieldName n) ∧
            ∀ s' n, TransGen (Setting.Extends ⟨.of tree, config, filter⟩
              (DocumentTree.of tree).Link) s s' → n ∈ s'.fieldNames →
              out.Inherits read t (config.naming.fieldName n)) := by
  obtain rfl := Document.tree_of_ofTree hd
  obtain ⟨filter, p, hfilter, hrun, hperm⟩ := generate_eq_ok h
  obtain ⟨hp, hv, -, -⟩ :=
    (UseLaw.placed ⟨.of d.tree, config, filter⟩ hkeys).sound_document (UseLaw.placed_covers hd) hrun
  obtain ⟨read, hr⟩ := hp.exists_readsAll hperm
  refine ⟨filter, read, hfilter, fun t ht hk => ⟨hr.isInterface t ht hk,
    fun values => Body.fields_eq_nil_of_indexText, ?_⟩⟩
  rcases hr.reads t ht hk with ⟨s, hmade, hreads⟩ | ⟨-, hplain⟩
  · refine .inr ⟨s, hmade.hosts, hreads.keyed.keys_eq, ?_, ?_⟩
    · rintro key ⟨u, hbase, hoffers⟩
      obtain ⟨reference, hmem, hextendable, hname⟩ := hreads.exists_reference _ hbase
      obtain ⟨hx, s₁, hs₁, hsuits⟩ := hextendable.admits
      obtain ⟨hchain, s', n, habove, hn, hkey⟩ :=
        bound_of_offers hp hperm hr hnames hoffers hname hs₁ hsuits hx
      exact ⟨s', n, .head' ⟨reference, hmem, hextendable, hs₁, hchain⟩ habove, hn, hkey⟩
    · intro s' n habove hn
      obtain ⟨s₁, ⟨reference, hmem, hextendable, hs₁, hchain⟩, habove⟩ :=
        TransGen.head'_iff.mp habove
      obtain ⟨base, hbase, hname⟩ := hreads.exists_base reference hmem hextendable
      obtain ⟨-, s₂, hs₂, hsuits⟩ := hextendable.admits
      cases hs₁.symm.trans hs₂
      obtain ⟨u, rfl, hoffers⟩ :=
        offers_of_extends hp hv hperm hr habove hn hname hs₁ hsuits hchain
      exact ⟨u, hbase, hoffers⟩
  · exact .inl hplain

/-- An object with a number. -/
def numberedObject : Json :=
  .object [("properties", .object [("id", .object [("type", .string "integer")])])]

/-- An intersection with this object that allows further members, all of them texts. -/
def openIntersection : Json :=
  .object [
    ("allOf", .array [.object [("$ref", .string "#/components/schemas/Base")]]),
    ("additionalProperties", .object [("type", .string "string")])]

/-- A document with the object and the intersection. -/
def openTree : Json :=
  .object [
    ("openapi", .string "3.0.0"),
    ("paths", .object []),
    ("components", .object [
      ("schemas", .object [("Base", numberedObject), ("A", openIntersection)])])]

/-- The schema of the object. -/
def numberedSchema : Schema :=
  { properties := [("id", .schema { types := some (.one "integer") })] }

/-- The schema of the intersection. -/
def openSchema : Schema :=
  { allOf := [.reference "#/components/schemas/Base"]
    additional := some (.schema { types := some (.one "string") }) }

/-- Without a filter, the schema of the intersection extends that of the object. -/
theorem extends_openTree {filter : Filter} (hfilter : Filter.compile {} = .ok filter) :
    Setting.Extends ⟨.of openTree, {}, filter⟩ (DocumentTree.of openTree).Link openSchema
      numberedSchema := by
  have hx (pointer : String) : Setting.excludes ⟨.of openTree, {}, filter⟩ pointer = false :=
    Setting.excludes_of_no_rules hfilter pointer
  have hvalue : Pointer.lookup? openTree "#/components/schemas/Base" = some numberedObject := by rfl
  have hnode : SchemaNode.decode numberedObject = .ok (.schema numberedSchema) := by rfl
  have hbase : (DocumentTree.of openTree).resolve "#/components/schemas/Base"
      "#/components/schemas/Base" = .ok numberedSchema :=
    DocumentTree.resolve_of_stops (by decide) (.schema hvalue hnode)
  refine ⟨_, List.mem_singleton_self _, ?_, hbase, fun pointer _ => hx pointer⟩
  refine ⟨(· = "#/components/schemas/Base"), rfl, ?_⟩
  rintro pointer rfl
  exact ⟨hx _, numberedSchema, hbase, by decide, .inl (by decide)⟩

theorem generate_openTree :
    ∃ d out, Document.ofTree openTree = .ok d ∧ generate d {} = .ok out ∧
      out.types.map (fun t => (t.name, t.content)) =
        [("Base", "export interface Base \x7b\n  id?: number;\n\x7d"),
          ("A", "export interface A extends Base \x7b\n  [key: string]: string;\n\x7d")] ∧
      out.types.map Declaration.source = ["#/components/schemas/Base", "#/components/schemas/A"] ∧
      out.types.map Declaration.kind = [.interface, .interface] := by
  have hrun : ((Document.ofTree openTree).toOption.bind fun d => (generate d {}).toOption).any
      (fun out => out.types.map (fun t => (t.name, t.content)) ==
        [("Base", "export interface Base \x7b\n  id?: number;\n\x7d"),
          ("A", "export interface A extends Base \x7b\n  [key: string]: string;\n\x7d")] &&
        (out.types.map Declaration.source ==
            ["#/components/schemas/Base", "#/components/schemas/A"] &&
          out.types.map Declaration.kind == [.interface, .interface])) = true := by
    decide +kernel
  obtain ⟨d, out, hd, hout, htest⟩ := exists_output_of_any hrun
  rw [Bool.and_eq_true, Bool.and_eq_true, beq_iff_eq, beq_iff_eq, beq_iff_eq] at htest
  exact ⟨d, out, hd, hout, htest⟩

/-- The intersection extends the object, whose field does not agree with the index signature. -/
theorem generate_index_inherits_openTree :
    ∃ d out, Document.ofTree openTree = .ok d ∧ openTree.distinctKeys = true ∧
      generate d {} = .ok out ∧ (∀ t ∈ out.types, '<' ∉ t.name.toList) ∧
      ∃ read, ∃ t ∈ out.types,
        t.content = "export interface A extends Base \x7b\n  [key: string]: string;\n\x7d" ∧
        t.IsInterface (read t) ∧ (read t).body.keys = [] ∧ out.Inherits read t "id" := by
  have hkeys : openTree.distinctKeys = true := by decide +kernel
  obtain ⟨d, out, hd, hout, hcontents, hsources, hkinds⟩ := generate_openTree
  obtain ⟨b, rest, htypes, hb, hrest⟩ := List.map_eq_cons_iff.mp hcontents
  obtain ⟨t, more, rfl, ht, hmore⟩ := List.map_eq_cons_iff.mp hrest
  obtain rfl := List.map_eq_nil_iff.mp hmore
  rw [htypes] at hsources hkinds
  have hnames : ∀ t ∈ out.types, '<' ∉ t.name.toList := by
    rw [htypes, List.forall_mem_cons, List.forall_mem_singleton, (Prod.mk.inj hb).1,
      (Prod.mk.inj ht).1]
    decide
  have hmem : t ∈ out.types := by
    rw [htypes]
    exact List.mem_cons_of_mem _ List.mem_cons_self
  simp only [List.map_cons, List.map_nil, List.cons.injEq, and_true] at hsources hkinds
  obtain ⟨filter, read, hfilter, hread⟩ := generate_index_inherits hd hkeys hnames hout
  obtain ⟨hinterface, -, ⟨⟨path, method, hsource⟩, -⟩ | ⟨s, hhosts, hbody, -, hinherits⟩⟩ :=
    hread t hmem hkinds.2
  · have hpointer : Pointer.child Setting.componentSchemas "A" = "#/components/schemas/A" := by
      decide
    rw [hsources.2, ← hpointer] at hsource
    exact absurd hsource (Setting.component_ne_operation "A" path "parameters" method)
  · rw [hsources.2] at hhosts
    rcases hhosts openIntersection (by rfl) with hnode | ⟨_, _, harray, -⟩
    · have hdecode : SchemaNode.decode openIntersection = .ok (.schema openSchema) := by rfl
      cases hdecode.symm.trans hnode
      exact ⟨d, out, hd, hkeys, hout, hnames, read, t, hmem, (Prod.mk.inj ht).2, hinterface, hbody,
        hinherits numberedSchema "id" (.single (extends_openTree hfilter)) (by decide)⟩
    · cases harray

end OpenApiTs
