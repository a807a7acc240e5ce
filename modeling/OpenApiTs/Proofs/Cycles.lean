import OpenApiTs.Proofs.Output
import OpenApiTs.Proofs.Unguarded

/-!
# Unguarded cycles

A declaration is made for a node that stands somewhere in the document, and mentions unguarded the
declarations of the pointers to which the node unfolds. So the unguarded mentions of the output are
the openings of the document, and have a cycle exactly if those have one: only a chain of references
that comes back to its start is cut.

## Main definitions

* `Document.Site`: nodes of a document with the pointers at which they stand.
* `UseLaw.openings`: the law of names outside of brackets.
* `Output.Unguards`: unguarded mentions of one emitted declaration in another.
* `Output.Opens`: openings from what one declaration was made for to what another was made for.

## Main results

* `generate_acyclic_iff`: unguarded mentions have no cycle exactly if openings have none.
* `generate_acyclic_iff_loopTree`: a union with itself among its branches makes a cycle of both.
-/

namespace OpenApiTs

open Relation (TransGen)

/-! ### Where nodes stand -/

/-- The nodes that declarations are made for, with their pointers: what a reference finds, the parts
of a schema, and the nodes in operations. -/
inductive Document.Site (run : Setting) (d : Document) : SchemaNode → String → Prop
  | origin {pointer from_ node} (h : run.origin pointer from_ = .ok node) : Site run d node pointer
  | part {s location node place} (h : Site run d (.schema s) location)
      (hp : s.HasPart location node place) : Site run d node place
  | operation {path item method o node location} (hi : (path, item) ∈ d.paths)
      (ho : (method, o) ∈ item.operations)
      (h : o.HasPart run item path (Pointer.descend "#/paths" [path, method.name]) node location) :
      Site run d node location

namespace UseLaw

variable {run : Setting} {d : Document} {p : Progress} {N : String → Prop}

/-- The law of names outside of brackets: nodes stand in the document, and the type of a node has
the names of the pointers that the node shows. -/
def openings (run : Setting) (d : Document) : UseLaw run where
  At := d.Site run
  at_part := .part
  at_origin _ _ := .origin
  Holds p node location use :=
    ∀ N, Legible run N p → Reads N false use.text (p.Calls (Shows run node location))
  holds_of_use _ h N hl := h.reads hl fun hu => hu N hl

theorem openings_covers : (openings run d).Covers d :=
  ⟨fun _ => trivial, fun hi ho _ _ => .operation hi ho⟩

end UseLaw

/-- A declaration was made for a node at its source, and mentions unguarded what the node unfolds
to, or it was made for an operation, has the name of no pointer, and mentions names of pointers. -/
theorem UseLaw.Sound.traced {run : Setting} {d : Document} {p : Progress} {N : String → Prop}
    (hp : (openings run d).Sound p) (hl : Legible run N p) {t : Declaration}
    (ht : p.registry.lookup? t.name = some t) :
    (∃ node, d.Site run node t.source ∧ p.name? t.source = some t.name ∧
      ∀ n, N n → (t.Unguarded n ↔ p.Calls (Unfolds run t.source node) n)) ∨
    (∀ pointer, p.name? pointer ≠ some t.name) ∧
      ∀ n, N n → t.Unguarded n → ∃ pointer, p.name? pointer = some n := by
  by_cases hnamed : ∃ pointer, p.name? pointer = some t.name
  · obtain ⟨pointer, hpointer⟩ := hnamed
    obtain ⟨node, d', hsite, hmakes, heq⟩ := hp.made_at hpointer ht p (le_refl p)
    have hsource : t.source = pointer := by
      rw [heq]
      exact hmakes.source_eq
    subst hsource
    refine .inl ⟨node, hsite, hpointer, fun n hn => ?_⟩
    have hiff := hmakes.unguarded_iff hl (fun hu => hu N hl) hn
    rw [← heq] at hiff
    exact hiff
  · rw [not_exists] at hnamed
    refine .inr ⟨hnamed, fun n hn hu => ?_⟩
    generalize hname : t.name = name at ht hnamed
    cases hp.made ht p (le_refl p) with
    | node hpointer => exact absurd hpointer (hnamed _)
    | synthesized h => exact h.exists_of_unguarded hl hn hu

/-! ### Cycles of the output -/

namespace Output

/-- One emitted declaration mentions another unguarded. -/
def Unguards (out : Output) (x y : Declaration) : Prop :=
  x ∈ out.types ∧ y ∈ out.types ∧ x.Unguarded y.name

/-- The node that one emitted declaration was made for unfolds to the source of another. -/
def Opens (out : Output) (run : Setting) (nodes : Declaration → Option SchemaNode)
    (x y : Declaration) : Prop :=
  x ∈ out.types ∧ y ∈ out.types ∧ (nodes y).isSome = true ∧
    ∃ node ∈ nodes x, Unfolds run x.source node y.source

end Output

/-! ### What the output was made for -/

/-- The nodes that the emitted declarations were made for, with the names of their sources; the
others have the names of no pointers. -/
private structure Output.Traces (out : Output) (run : Setting) (d : Document) (p : Progress)
    (nodes : Declaration → Option SchemaNode) : Prop where
  site : ∀ {t node}, t ∈ out.types → node ∈ nodes t → d.Site run node t.source
  named : ∀ {t node}, t ∈ out.types → node ∈ nodes t → p.name? t.source = some t.name
  unnamed : ∀ {t}, t ∈ out.types → nodes t = none → ∀ pointer, p.name? pointer ≠ some t.name
  unguarded_iff : ∀ {t node y}, t ∈ out.types → node ∈ nodes t → y ∈ out.types →
    (t.Unguarded y.name ↔ p.Calls (Unfolds run t.source node) y.name)
  mentions : ∀ {t y}, t ∈ out.types → y ∈ out.types → t.Unguarded y.name →
    ∃ pointer, p.name? pointer = some y.name

section Traces

variable {d : Document} {config : Config} {out : Output} {run : Setting} {p : Progress}
  {nodes : Declaration → Option SchemaNode} {x y : Declaration}

/-- What is mentioned unguarded was made for a node. -/
private theorem Output.Traces.isSome_of_unguards (ht : out.Traces run d p nodes)
    (h : out.Unguards x y) : (nodes y).isSome = true := by
  obtain ⟨hx, hy, hu⟩ := h
  obtain ⟨pointer, hpointer⟩ := ht.mentions hx hy hu
  exact Option.isSome_iff_ne_none.mpr fun hnone => ht.unnamed hy hnone pointer hpointer

/-- What was made for a node mentions unguarded what the node unfolds to. Pointers of one name are
equal, so the name tells the source. -/
private theorem Output.Traces.unguards_iff (ht : out.Traces run d p nodes) (hp : p.Orderly)
    (hsome : (nodes x).isSome = true) : out.Unguards x y ↔ out.Opens run nodes x y := by
  obtain ⟨node, hnode⟩ := Option.isSome_iff_exists.mp hsome
  constructor
  · intro h
    have htarget := ht.isSome_of_unguards h
    obtain ⟨hx, hy, hu⟩ := h
    obtain ⟨node', hnode'⟩ := Option.isSome_iff_exists.mp htarget
    obtain ⟨pointer, hunfolds, hpointer⟩ := (ht.unguarded_iff hx hnode hy).mp hu
    rw [hp.injective hpointer (ht.named hy hnode')] at hunfolds
    exact ⟨hx, hy, htarget, node, hnode, hunfolds⟩
  · rintro ⟨hx, hy, htarget, node, hnode, hunfolds⟩
    obtain ⟨node', hnode'⟩ := Option.isSome_iff_exists.mp htarget
    exact ⟨hx, hy, (ht.unguarded_iff hx hnode hy).mpr ⟨_, hunfolds, ht.named hy hnode'⟩⟩

/-- Each emitted declaration was made for a node or for an operation. -/
private theorem exists_traces (hp : (UseLaw.openings run d).Sound p)
    (hl : Legible run (fun name => ∃ t ∈ out.types, t.name = name) p)
    (hperm : out.types.Perm p.registry.declarations) : ∃ nodes, out.Traces run d p nodes := by
  have htraced : ∀ t, ∃ o : Option SchemaNode, t ∈ out.types →
      (∀ node ∈ o, d.Site run node t.source ∧ p.name? t.source = some t.name ∧
        ∀ y ∈ out.types, (t.Unguarded y.name ↔ p.Calls (Unfolds run t.source node) y.name)) ∧
      (o = none → (∀ pointer, p.name? pointer ≠ some t.name) ∧
        ∀ y ∈ out.types, t.Unguarded y.name → ∃ pointer, p.name? pointer = some y.name) := by
    intro t
    by_cases ht : t ∈ out.types
    · have hlookup := hp.orderly.coherent.mem_declarations_iff.mp (hperm.mem_iff.mp ht)
      rcases hp.traced hl hlookup with ⟨node, hsite, hname, hiff⟩ | ⟨hnone, hmentions⟩
      · refine ⟨some node, fun _ => ⟨?_, nofun⟩⟩
        rintro _ ⟨⟩
        exact ⟨hsite, hname, fun y hy => hiff y.name ⟨y, hy, rfl⟩⟩
      · exact ⟨none, fun _ => ⟨nofun, fun _ =>
          ⟨hnone, fun y hy => hmentions y.name ⟨y, hy, rfl⟩⟩⟩⟩
    · exact ⟨none, fun h => absurd h ht⟩
  choose nodes hnodes using htraced
  refine ⟨nodes, fun ht hn => ((hnodes _ ht).1 _ hn).1, fun ht hn => ((hnodes _ ht).1 _ hn).2.1,
    fun ht hnone => ((hnodes _ ht).2 hnone).1,
    fun ht hn hy => ((hnodes _ ht).1 _ hn).2.2 _ hy, fun {t y} ht hy hu => ?_⟩
  cases hnode : nodes t with
  | none => exact ((hnodes t ht).2 hnode).2 y hy hu
  | some node =>
    obtain ⟨pointer, -, hpointer⟩ := (((hnodes t ht).1 node hnode).2.2 y hy).mp hu
    exact ⟨pointer, hpointer⟩

end Traces

/-- Relations that agree wherever the first one leads, and the second one starts, have cycles
together. -/
private theorem acyclic_congr {α : Type} {R S : α → α → Prop} {A : α → Prop}
    (hR : ∀ {x y}, R x y → A y) (hS : ∀ {x y}, S x y → A x)
    (h : ∀ {x y}, A x → (R x y ↔ S x y)) :
    (∀ x, ¬TransGen R x x) ↔ ∀ x, ¬TransGen S x x := by
  have hend : ∀ {x y}, TransGen R x y → A y := by
    intro x y hxy
    cases hxy with
    | single hstep => exact hR hstep
    | tail _ hstep => exact hR hstep
  have hchain : ∀ {x y}, A x → TransGen R x y → TransGen S x y := by
    intro x y hx hxy
    induction hxy with
    | single hstep => exact .single ((h hx).mp hstep)
    | tail hxy hstep ih => exact ih.tail ((h (hend hxy)).mp hstep)
  constructor
  · intro hacyclic x hcycle
    exact hacyclic x (TransGen.mono (fun a b hstep => (h (hS hstep)).mpr hstep) x x hcycle)
  · exact fun hacyclic x hcycle => hacyclic x (hchain (hend hcycle) hcycle)

section Output

variable {d : Document} {config : Config} {out : Output} {run : Setting} {p : Progress}

/-- Names and custom targets of the output can be told from one another. -/
private theorem legible_of_output (hp : (UseLaw.openings run d).Sound p) (hv : p.visiting = [])
    (hperm : out.types.Perm p.registry.declarations)
    (hnames : ∀ t ∈ out.types, Naming.IsPlain t.name ∧ t.name ∉ Naming.words)
    (htargets : ∀ m ∈ run.config.mappings,
      Closed false m.target.toList ∧ ∀ t ∈ out.types, ¬Operand m.target.toList t.name.toList) :
    Legible run (fun name => ∃ t ∈ out.types, t.name = name) p := by
  have hlookup {t : Declaration} (ht : t ∈ out.types) : p.registry.lookup? t.name = some t :=
    hp.orderly.coherent.mem_declarations_iff.mp (hperm.mem_iff.mp ht)
  constructor
  · rintro _ ⟨t, ht, rfl⟩
    obtain ⟨hplain, hword⟩ := hnames t ht
    refine ⟨hplain, hp.unreserved _ ?_, hword⟩
    exact List.mem_map_of_mem (hp.orderly.coherent.lookup?_eq_some_iff.mp (hlookup ht))
  · intro pointer name hpointer
    obtain ⟨t, ht⟩ := hp.orderly.exists_lookup? hv hpointer
    obtain rfl := hp.orderly.coherent.name_eq_of_lookup? ht
    exact ⟨t, hperm.mem_iff.mpr (hp.orderly.coherent.mem_declarations_iff.mpr ht), rfl⟩
  · intro m hm
    obtain ⟨hclosed, hnone⟩ := htargets m hm
    refine ⟨hclosed, ?_⟩
    rintro _ ⟨t, ht, rfl⟩
    exact iff_of_false (hnone t ht) id

/-- Unguarded mentions between the emitted declarations have no cycle exactly if the openings of the
document have none. Apart from the declarations of operations, which nothing mentions unguarded,
each declaration was made for a node of the document, and mentions unguarded those declarations to
whose sources the node unfolds. The names of declarations have to be words that are not among the
words of other types, and no custom target has one of them as an operand. -/
theorem generate_acyclic_iff (h : generate d config = .ok out)
    (hnames : ∀ t ∈ out.types, Naming.IsPlain t.name ∧ t.name ∉ Naming.words)
    (htargets : ∀ m ∈ config.mappings,
      Closed false m.target.toList ∧ ∀ t ∈ out.types, ¬Operand m.target.toList t.name.toList) :
    ∃ filter nodes, Filter.compile config.filter = .ok filter ∧
      (∀ t ∈ out.types, ∀ node ∈ nodes t, d.Site ⟨.of d.tree, config, filter⟩ node t.source) ∧
      (∀ x y, out.Unguards x y → (nodes y).isSome = true) ∧
      (∀ x y, (nodes x).isSome = true →
        (out.Unguards x y ↔ out.Opens ⟨.of d.tree, config, filter⟩ nodes x y)) ∧
      ((∀ t, ¬TransGen out.Unguards t t) ↔
        ∀ t, ¬TransGen (out.Opens ⟨.of d.tree, config, filter⟩ nodes) t t) := by
  obtain ⟨filter, p, hfilter, hrun, hperm⟩ := generate_eq_ok h
  obtain ⟨hp, hv, -, -⟩ := (UseLaw.openings _ d).sound_document UseLaw.openings_covers hrun
  have hl := legible_of_output hp hv hperm hnames htargets
  obtain ⟨nodes, ht⟩ := exists_traces hp hl hperm
  have hedge := fun {x y} => ht.unguards_iff hp.orderly (x := x) (y := y)
  refine ⟨filter, nodes, hfilter, fun t hmem node => ht.site hmem, fun _ _ => ht.isSome_of_unguards,
    fun _ _ => hedge, acyclic_congr ht.isSome_of_unguards (fun hopens => ?_) hedge⟩
  obtain ⟨-, -, -, node, hnode, -⟩ := hopens
  exact Option.isSome_of_mem hnode

/-- A document with a union that has itself among its branches. -/
def loopTree : Json :=
  .object [
    ("openapi", .string "3.0.0"),
    ("paths", .object []),
    ("components", .object [
      ("schemas", .object [
        ("A", .object [
          ("oneOf", .array [
            .object [("$ref", .string "#/components/schemas/A")],
            .object [("type", .string "string")]])])])])]

/-- The document is accepted, and its union is declared as an alias of itself. -/
theorem generate_loopTree :
    ∃ d out, Document.ofTree loopTree = .ok d ∧ generate d {} = .ok out ∧
      out.types.map (fun t => (t.name, t.kind, t.content)) =
        [("A", .union, "export type A = A | string;")] := by
  have hrun : ((Document.ofTree loopTree).toOption.bind fun d => (generate d {}).toOption).any
      (fun out => out.types.map (fun t => (t.name, t.kind, t.content)) ==
        [("A", .union, "export type A = A | string;")]) = true := by
    decide +kernel
  obtain ⟨d, out, hd, hout, htypes⟩ := exists_output_of_any hrun
  exact ⟨d, out, hd, hout, beq_iff_eq.mp htypes⟩

/-- An alias of itself is a cycle. -/
theorem Output.exists_cycle_of_loop
    (h : out.types.map (fun t => (t.name, t.kind, t.content)) =
      [("A", .union, "export type A = A | string;")]) : ∃ t, TransGen out.Unguards t t := by
  obtain ⟨t, rest, htypes, ht, -⟩ := List.map_eq_cons_iff.mp h
  have hmem : t ∈ out.types := htypes ▸ List.mem_cons_self
  simp only [Prod.mk.injEq] at ht
  obtain ⟨hname, hkind, hcontent⟩ := ht
  have hcode : t.code =
      ("export type " ++ t.name ++ " = ").toList ++ ("A | string".toList ++ [';']) := by
    rw [Declaration.code, hcontent, hname]
    decide
  refine ⟨t, .single ⟨hmem, hmem, .operand hkind hcode (.own ?_)⟩⟩
  rw [hname]
  decide

/-- The mentions and the openings of the document have a cycle. -/
theorem generate_acyclic_iff_loopTree :
    ∃ d out filter nodes, Document.ofTree loopTree = .ok d ∧ generate d {} = .ok out ∧
      Filter.compile {} = .ok filter ∧ (∃ t, TransGen out.Unguards t t) ∧
      ∃ t, TransGen (out.Opens ⟨.of d.tree, {}, filter⟩ nodes) t t := by
  obtain ⟨d, out, hd, hout, htypes⟩ := generate_loopTree
  have hplain : ∀ t ∈ out.types, Naming.IsPlain t.name ∧ t.name ∉ Naming.words := fun t ht => by
    have hmem := List.mem_map_of_mem (f := fun t => (t.name, t.kind, t.content)) ht
    rw [htypes, List.mem_singleton] at hmem
    have hname : t.name = "A" := congrArg Prod.fst hmem
    rw [hname]
    exact ⟨Naming.isPlain_of_isIdentifier (by decide), by decide⟩
  obtain ⟨filter, nodes, hfilter, -, -, -, hiff⟩ := generate_acyclic_iff hout hplain nofun
  obtain ⟨t, hcycle⟩ := Output.exists_cycle_of_loop htypes
  refine ⟨d, out, filter, nodes, hd, hout, hfilter, ⟨t, hcycle⟩, ?_⟩
  by_contra hnone
  exact hiff.mpr (not_exists.mp hnone) t hcycle

end Output

end OpenApiTs
