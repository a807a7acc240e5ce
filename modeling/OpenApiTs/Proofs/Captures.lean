import OpenApiTs.Proofs.Appending
import OpenApiTs.Proofs.RawNames

/-!
# Names of built-in types

The naming rules keep declarations from the names of built-in types that are reserved. But type
texts are also written with names of built-in types that are not reserved. If a raw name of the
document converts to one of these, then the declaration that is named after it can capture the
built-in type; nothing else can. The first component that the filter admits does so for certain,
because no name is taken before its own.

## Main results

* `Gen.name_of_ensureNamedWith`: a pointer gets its converted name if that is free.
* `UseLaw.name_of_first`: the name of the first component.
* `generate_captures`: which names of built-in types can be exported, and one that has to be.
-/

namespace OpenApiTs

theorem Registry.uniqueName_of_not_mem {r : Registry} {base : String} (h : base ∉ r.taken) :
    r.uniqueName base = .ok base := by
  rw [uniqueName, if_neg (mt List.contains_iff_mem.mp h)]

/-! ### Free names -/

namespace Gen

variable {run : Setting} {refer : Refer} {p q : Progress} {pointer raw name : String}

theorem name_of_begin (hfree : run.config.naming.typeName raw ∉ p.registry.taken)
    (h : (begin run pointer raw).run.run p = (.ok name, q)) :
    name = run.config.naming.typeName raw := by
  rw [run_begin, Registry.reserve, Registry.uniqueName_of_not_mem hfree] at h
  cases h
  rfl

/-- What is declared at a pointer without a name gets its converted name if that is free. -/
theorem name_of_declareFound (hnew : p.name? pointer = none)
    (hfree : run.config.naming.typeName raw ∉ p.registry.taken) :
    (node : SchemaNode) → (declareFound run refer pointer raw node).run.run p = (.ok name, q) →
      name = run.config.naming.typeName raw
  | .reference _, h | .boolean _, h => by
      obtain ⟨_, _, hbegin, h⟩ := run_bind_eq_ok_iff.mp h
      obtain ⟨_, _, -, h⟩ := run_bind_eq_ok_iff.mp h
      cases h
      exact name_of_begin hfree hbegin
  | .schema _, h => by
      unfold declareFound declareSchema at h
      rw [run_bind, run_nameOf?, hnew] at h
      obtain ⟨_, _, hbegin, h⟩ := run_bind_eq_ok_iff.mp h
      obtain ⟨_, _, -, h⟩ := run_bind_eq_ok_iff.mp h
      cases h
      exact name_of_begin hfree hbegin

/-- A pointer without a name gets its converted name if that is free. -/
theorem name_of_ensureNamedWith {reference from_ : String} (hnew : p.name? reference = none)
    (hfree : run.config.naming.typeName (Naming.compose [Pointer.last reference]) ∉
      p.registry.taken)
    (h : (ensureNamedWith run refer reference from_).run.run p = (.ok name, q)) :
    name = run.config.naming.typeName (Naming.compose [Pointer.last reference]) := by
  rw [ensureNamedWith_eq] at h
  obtain ⟨pointer, hpointer, hrun⟩ := run_ofExcept_bind_eq_ok_iff.mp h
  obtain rfl := DocumentTree.canonicalize_eq hpointer
  rw [run_bind, run_nameOf?, hnew] at hrun
  obtain ⟨node, -, hfound⟩ := run_ofExcept_bind_eq_ok_iff.mp hrun
  exact name_of_declareFound hnew hfree node hfound

end Gen

/-! ### The first component -/

namespace UseLaw

open Gen (Keeps KeepsFrom)

variable {run : Setting} (law : UseLaw run) {key : String} {entry : SchemaNode}
  {rest : List (String × SchemaNode)}

/-- The first component that the filter admits gets its converted name. -/
theorem keeps_first :
    (schemas : List (String × SchemaNode)) →
      (∀ e ∈ schemas, law.Refers (Pointer.child Setting.componentSchemas e.1)) →
      (schemas.filter fun e => run.filter.admitsSchema e.1) = (key, entry) :: rest →
      KeepsFrom (law.Ready run.tree.bound) {} (Gen.components run schemas) fun _ p =>
        p.name? (Pointer.child Setting.componentSchemas key) =
          some (run.config.naming.typeName (Naming.compose [key]))
  | [], _, hfirst => nomatch hfirst
  | (name, node) :: later, hr, hfirst => by
      obtain ⟨hname, hlater⟩ := List.forall_mem_cons.mp hr
      rw [List.filter_cons] at hfirst
      unfold Gen.components
      dsimp only
      split
      · next hadmits =>
        rw [if_pos hadmits] at hfirst
        cases hfirst
        have hx : run.excludes (Pointer.child Setting.componentSchemas key) = false := by
          rw [Setting.excludes_component, hadmits]
          rfl
        refine ((law.keeps_ensureNamed (law.at_origin hname hx) {} law.sound_empty.ready).and_of_ok
          (Gen.name_of_ensureNamedWith rfl List.not_mem_nil)).bind fun found q hq _ hfound => ?_
        refine (law.keeps_components later hlater q hq).later.weaken (fun _ => id) ?_
        rintro _ r ⟨hr, -⟩
        obtain ⟨rfl, h⟩ := hfound r hr
        rwa [Pointer.last_child] at h
      · next hadmits =>
        rw [if_neg hadmits] at hfirst
        exact keeps_first later hlater hfirst

/-- At the end of a run on a document, the first component that the filter admits has its converted
name. -/
theorem name_of_first {d : Document} (hcovers : law.Covers d)
    (hfirst : (d.schemas.filter fun e => run.filter.admitsSchema e.1) = (key, entry) :: rest)
    {result : List OperationTypes × Option String} {p : Progress}
    (h : (Gen.document run d).run.run {} = (.ok result, p)) :
    p.name? (Pointer.child Setting.componentSchemas key) =
      some (run.config.naming.typeName (Naming.compose [key])) := by
  have hoperations : law.Covers { d with schemas := [] } := ⟨nofun, hcovers.operations⟩
  rw [Gen.document_append d.schemas.append_nil.symm] at h
  have hcomponents := law.keeps_first d.schemas (fun _ => hcovers.components) hfirst
  obtain ⟨-, -, -, hname⟩ := (hcomponents.bind fun _ q hq _ hname =>
    (law.keeps_document hoperations q hq).later.weaken (fun _ => id) fun _ r ⟨hr, _⟩ =>
      hname r hr).of_ok h
  exact hname p (le_refl p)

end UseLaw

/-! ### Exported names of built-in types -/

/-- No exported name is reserved for a built-in type. The name of a built-in type that type texts are
written with without its being reserved is exported only if a raw name of the document converts to
it; and the first component that the filter admits is exported under its converted name, whatever
that is. -/
theorem generate_captures {d : Document} {config : Config} {out : Output}
    (h : generate d config = .ok out) :
    ∃ filter, Filter.compile config.filter = .ok filter ∧
      (∀ name ∈ out.exports, name ∉ Naming.reserved ∧
        (name ∈ Naming.written → ∃ raw, Setting.Raw ⟨.of d.tree, config, filter⟩ d raw ∧
          config.naming.typeName raw = name)) ∧
      ∀ key entry rest,
        (d.schemas.filter fun e => filter.admitsSchema e.1) = (key, entry) :: rest →
        config.naming.typeName (Naming.compose [key]) ∈ out.exports := by
  obtain ⟨filter, hfilter, hraw⟩ := Output.raw_of_mem_exports h
  obtain ⟨filter', p, hfilter', hrun, -, -, hnamed⟩ := Output.exports_run h
  obtain rfl : filter = filter' := Except.ok.inj (hfilter.symm.trans hfilter')
  refine ⟨filter, hfilter, fun name hname => ⟨(hraw name hname).not_reserved, fun hwritten => ?_⟩,
    fun key entry rest hfirst => ?_⟩
  · exact (hraw name hname).exists_raw (List.mem_append_right _ hwritten)
  · have hname := (UseLaw.mentions _).name_of_first (UseLaw.mentions_covers d) hfirst hrun
    exact hnamed _ _ hname

/-- A document with a component that has the name of a built-in type, and with an object without
properties. -/
def recordTree : Json :=
  .object [
    ("openapi", .string "3.0.0"),
    ("paths", .object []),
    ("components", .object [
      ("schemas", .object [
        ("Record", .object [
          ("properties", .object [("x", .object [("type", .string "string")])])]),
        ("Meta", .object [("type", .string "object")])])])]

/-- The component is exported under its name, which the text of the other declaration is written
with. -/
theorem generate_recordTree :
    ∃ d out, Document.ofTree recordTree = .ok d ∧ generate d {} = .ok out ∧
      out.exports = ["Record", "Meta"] ∧
      out.types.map Declaration.content =
        ["export interface Record \x7b\n  x?: string;\n\x7d",
          "export type Meta = Record<string, unknown>;"] := by
  have hrun : ((Document.ofTree recordTree).toOption.bind fun d =>
      (generate d {}).toOption).any (fun out => out.exports == ["Record", "Meta"] &&
        out.types.map Declaration.content ==
          ["export interface Record \x7b\n  x?: string;\n\x7d",
            "export type Meta = Record<string, unknown>;"]) = true := by
    decide +kernel
  obtain ⟨d, out, hd, hout, htest⟩ := exists_output_of_any hrun
  rw [Bool.and_eq_true, beq_iff_eq, beq_iff_eq] at htest
  exact ⟨d, out, hd, hout, htest⟩

theorem generate_captures_recordTree :
    ∃ d out filter, Document.ofTree recordTree = .ok d ∧ generate d {} = .ok out ∧
      Filter.compile {} = .ok filter ∧
      "Record" ∈ out.exports ∧ "Record" ∉ Naming.reserved ∧
      ∃ raw, Setting.Raw ⟨.of d.tree, {}, filter⟩ d raw ∧
        ({} : NamingRules).typeName raw = "Record" := by
  obtain ⟨d, out, hd, hout, -⟩ := generate_recordTree
  obtain ⟨filter, hfilter, hexports, hfirst⟩ := generate_captures hout
  obtain rfl : ({} : Filter) = filter := Except.ok.inj hfilter
  have hkeys : (Document.ofTree recordTree).toOption.any (fun d =>
      (d.schemas.filter fun e => ({} : Filter).admitsSchema e.1).map Prod.fst ==
        ["Record", "Meta"]) = true := by decide +kernel
  rw [hd] at hkeys
  obtain ⟨⟨key, entry⟩, rest, hschemas, hkey, -⟩ := List.map_eq_cons_iff.mp (beq_iff_eq.mp hkeys)
  obtain rfl : key = "Record" := hkey
  have hname : ({} : NamingRules).typeName (Naming.compose ["Record"]) = "Record" := by
    decide +kernel
  have hmem := hfirst "Record" entry rest hschemas
  rw [show ({} : Config).naming = {} from rfl, hname] at hmem
  obtain ⟨hreserved, hraw⟩ := hexports "Record" hmem
  exact ⟨d, out, {}, hd, hout, rfl, hmem, hreserved, hraw (by decide)⟩

end OpenApiTs
