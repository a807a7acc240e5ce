import OpenApiTs.Document.Load
import OpenApiTs.Proofs.Emission
import OpenApiTs.Proofs.Mentions

/-!
# Names in the output

When a run has succeeded, no visit is open, so every name that it gave to a pointer is that of a
finished declaration. Hence the output is closed: its declarations depend on one another only, and
the types of operations are names of declarations or stand for themselves. No name is exported
twice.

## Main definitions

* `Output.IsBody`: a type text of a request or a response.
* `Output.exports`: all names that the output exports.

## Main results

* `exists_run_of_generate`, `Progress.Orderly.declarations_prefix`: the run behind an output, and
  the declarations of a run that goes on.
* `generate_closed`: the output refers to its own declarations only.
* `Output.exports_run`: names at the end of the run and names that are exported.
* `generate_exports_nodup`: names are unique, and a declaration exports its own name first.
-/

namespace OpenApiTs

/-! ### The end of a run -/

namespace Registry.Coherent

variable {r : Registry} {d : Declaration}

theorem mem_declarations_iff (hr : r.Coherent) :
    d ∈ r.declarations ↔ r.lookup? d.name = some d := by
  rw [hr.lookup?_eq_some_iff, declarations, List.mem_filterMap]
  constructor
  · rintro ⟨⟨name, slot⟩, hmem, hslot⟩
    obtain rfl : slot = some d := hslot
    rw [(hr.presents name d hmem).name_eq]
    exact hmem
  · exact fun hmem => ⟨_, hmem, rfl⟩

theorem name_eq_of_lookup? (hr : r.Coherent) {name : String} (h : r.lookup? name = some d) :
    d.name = name :=
  (hr.presents name d (hr.lookup?_eq_some_iff.mp h)).name_eq

/-- Finished declarations have distinct names. -/
theorem nodup_declarations (hr : r.Coherent) : r.declarations.Nodup := by
  have hsublist : (r.declarations.map Declaration.name).Sublist (Entries.keys r.slots) := by
    have hpresents := hr.presents
    rw [declarations]
    generalize r.slots = slots at hpresents
    induction slots with
    | nil => exact .slnil
    | cons e rest ih =>
      have hrest := ih fun name d hmem => hpresents name d (List.mem_cons_of_mem e hmem)
      obtain ⟨name, slot⟩ := e
      cases slot with
      | none => exact hrest.cons name
      | some d =>
        rw [List.filterMap_cons, List.map_cons, (hpresents name d List.mem_cons_self).name_eq]
        exact hrest.cons_cons name
  exact .of_map Declaration.name (hsublist.nodup hr.keys_nodup)

/-- Where every place is filled, the declarations export all that is exported. -/
theorem exports_declarations (hfilled : ∀ e ∈ r.slots, e.2 ≠ none) :
    r.declarations.flatMap Declaration.exports = r.exported := by
  rw [declarations, exported]
  generalize r.slots = slots at hfilled
  induction slots with
  | nil => rfl
  | cons e rest ih =>
    obtain ⟨hne, hrest⟩ := List.forall_mem_cons.mp hfilled
    obtain ⟨name, slot⟩ := e
    cases slot with
    | none => exact absurd rfl hne
    | some d => exact congrArg (d.exports ++ ·) (ih hrest)

end Registry.Coherent

namespace Progress.Orderly

variable {p : Progress}

/-- Without open visits, every place is filled. -/
theorem filled (hp : p.Orderly) (hv : p.visiting = []) : ∀ e ∈ p.registry.slots, e.2 ≠ none := by
  rintro ⟨name, slot⟩ hmem rfl
  obtain ⟨P, hP, -⟩ := hp.pending_iff.mp
    ((Entries.get?_eq_some_iff hp.coherent.keys_nodup).mpr hmem)
  rw [hv] at hP
  cases hP

/-- Without open visits, the name of a pointer is that of a finished declaration. -/
theorem exists_lookup? (hp : p.Orderly) (hv : p.visiting = []) {pointer name : String}
    (h : p.name? pointer = some name) : ∃ d, p.registry.lookup? name = some d := by
  have hplaced := hp.placed h
  rw [← Entries.get?_isSome_iff] at hplaced
  obtain ⟨slot, hslot⟩ := Option.isSome_iff_exists.mp hplaced
  cases slot with
  | none =>
    obtain ⟨P, hP, -⟩ := hp.pending_iff.mp hslot
    rw [hv] at hP
    cases hP
  | some d => exact ⟨d, by rw [Registry.lookup?, hslot]; rfl⟩

/-- Without open visits, the finished declarations of later states start with those of this one. -/
theorem declarations_prefix (hp : p.Orderly) (hv : p.visiting = []) {q : Progress} (hq : q.Orderly)
    (h : p ≤ q) : p.registry.declarations <+: q.registry.declarations := by
  refine List.IsPrefix.filterMap _ (Entries.prefix_of_keys hq.coherent.keys_nodup h.places ?_)
  rintro ⟨name, slot⟩ he
  cases slot with
  | none => exact absurd rfl (hp.filled hv _ he)
  | some d =>
    have hd : p.registry.lookup? name = some d := by
      rw [Registry.lookup?, (Entries.get?_eq_some_iff hp.coherent.keys_nodup).mpr he]
      rfl
    exact Option.join_eq_some_iff.mp (h.lookup hd)

end Progress.Orderly

/-! ### Outputs -/

namespace Output

/-- A type text of a request or a response: of every value, of no value, or the name of a
declaration, with or without null. -/
def IsBody (out : Output) (text : String) : Prop :=
  text = "unknown" ∨ text = "never" ∨
    ∃ t ∈ out.types, text = t.name ∨ text = t.name ++ " | null"

/-- All names that the output exports. -/
def exports (out : Output) : List String :=
  out.types.flatMap Declaration.exports ++ out.operationsInterface.toList

end Output

variable {d : Document} {config : Config} {out : Output}

/-- A run that succeeds ends in a state whose finished declarations are those of the output, in
emission order. -/
theorem exists_run_of_generate (h : generate d config = .ok out) :
    ∃ filter p, Filter.compile config.filter = .ok filter ∧
      (Gen.document ⟨.of d.tree, config, filter⟩ d).run.run {} =
        (.ok (out.operations, out.operationsInterface), p) ∧
      out.types = Emission.order p.registry.declarations := by
  unfold generate at h
  split at h
  · cases h
  · next filter hfilter =>
    dsimp only at h
    split at h
    · next operations interface p hrun =>
      cases h
      exact ⟨filter, p, hfilter, hrun, rfl⟩
    · cases h

/-- The finished declarations at the end of a run are those of the output. -/
theorem generate_eq_ok (h : generate d config = .ok out) :
    ∃ filter p, Filter.compile config.filter = .ok filter ∧
      (Gen.document ⟨.of d.tree, config, filter⟩ d).run.run {} =
        (.ok (out.operations, out.operationsInterface), p) ∧
      out.types.Perm p.registry.declarations := by
  obtain ⟨filter, p, hfilter, hrun, htypes⟩ := exists_run_of_generate h
  exact ⟨filter, p, hfilter, hrun, htypes ▸ Emission.order_perm _⟩

/-- The text of a body is the name of an emitted declaration, or names none. -/
theorem isBody_of_bodyText {run : Setting} {p : Progress} (hp : p.Orderly) (hv : p.visiting = [])
    (hperm : out.types.Perm p.registry.declarations) {text : String} (h : BodyText run p text) :
    out.IsBody text := by
  have hnamed {pointer name : String} (hname : p.name? pointer = some name) (null : Bool) :
      out.IsBody ((TypeUse.named name).orNullIf null).text := by
    obtain ⟨t, ht⟩ := hp.exists_lookup? hv hname
    obtain rfl := hp.coherent.name_eq_of_lookup? ht
    refine .inr (.inr ⟨t, hperm.mem_iff.mpr (hp.coherent.mem_declarations_iff.mpr ht), ?_⟩)
    unfold TypeUse.orNullIf TypeUse.orNull
    split
    · split
      · exact .inl rfl
      · exact .inr rfl
    · exact .inl rfl
  obtain ⟨node, location, use, huse, rfl⟩ := h
  cases huse with
  | reference h =>
    cases h with
    | excluded => exact .inl rfl
    | named _ _ hn _ => exact hnamed hn _
  | boolean allowed =>
    cases allowed with
    | true => exact .inl rfl
    | false => exact .inr (.inl rfl)
  | schema hn => exact hnamed hn _

/-- The output refers to its own declarations only: a declaration depends on others that are
emitted, the bodies of operations are names of emitted declarations or name none, and their
parameters are emitted interfaces. -/
theorem generate_closed (h : generate d config = .ok out) :
    (∀ t ∈ out.types, ∀ name ∈ t.dependencies, name ≠ t.name ∧ ∃ u ∈ out.types, u.name = name) ∧
      ∀ o ∈ out.operations,
        (∀ text, o.request = some text → out.IsBody text) ∧
        (∀ text, o.response = some text → out.IsBody text) ∧
        ∀ name, o.params = some name → ∃ t ∈ out.types, t.name = name ∧ t.kind = .interface := by
  obtain ⟨filter, p, -, hrun, hperm⟩ := generate_eq_ok h
  obtain ⟨hsound, hv, hoperations, -⟩ :=
    (UseLaw.mentions _).sound_document (UseLaw.mentions_covers d) hrun
  have hp := hsound.orderly
  have hemitted {name : String} {t : Declaration} (ht : p.registry.lookup? name = some t) :
      t ∈ out.types ∧ t.name = name := by
    have hname := hp.coherent.name_eq_of_lookup? ht
    subst hname
    exact ⟨hperm.mem_iff.mpr (hp.coherent.mem_declarations_iff.mpr ht), rfl⟩
  refine ⟨fun t ht name hname => ?_, fun o ho => ⟨fun text htext => ?_, fun text htext => ?_,
    fun name hname => ?_⟩⟩
  · have hlookup := hp.coherent.mem_declarations_iff.mp (hperm.mem_iff.mp ht)
    have hmade := hsound.made hlookup p (le_refl p)
    obtain ⟨pointer, hpointer⟩ := hmade.knows name hname
    obtain ⟨u, hu⟩ := hp.exists_lookup? hv hpointer
    exact ⟨hmade.ne_name hname, u, hemitted hu⟩
  · exact isBody_of_bodyText hp hv hperm ((hoperations o ho).request htext)
  · rcases (hoperations o ho).response htext with hbody | ⟨t, ht⟩
    · exact isBody_of_bodyText hp hv hperm hbody
    · obtain ⟨hmem, rfl⟩ := hemitted ht
      exact .inr (.inr ⟨t, hmem, .inl rfl⟩)
  · obtain ⟨t, ht, hkind⟩ := (hoperations o ho).params hname
    exact ⟨t, (hemitted ht).1, (hemitted ht).2, hkind⟩

/-- A document is accepted, and a run on it succeeds with an output that a test finds. -/
theorem exists_output_of_any {tree : Json} {test : Output → Bool}
    (h : ((Document.ofTree tree).toOption.bind fun d => (generate d config).toOption).any test =
      true) :
    ∃ d out, Document.ofTree tree = .ok d ∧ generate d config = .ok out ∧ test out = true := by
  cases hd : Document.ofTree tree with
  | error fault =>
    rw [hd] at h
    cases h
  | ok d =>
    rw [hd] at h
    cases hout : generate d config with
    | error failure => simp [Except.toOption, hout] at h
    | ok out =>
      simp only [Except.toOption, Option.bind_some, hout, Option.any_some] at h
      exact ⟨d, out, rfl, hout, h⟩

/-- A document with an object, an enumeration, and an operation with a parameter and a response. -/
def petTree : Json :=
  .object [
    ("openapi", .string "3.0.0"),
    ("paths", .object [
      ("/pets", .object [
        ("get", .object [
          ("operationId", .string "listPets"),
          ("parameters", .array [
            .object [("name", .string "limit"), ("in", .string "query")]]),
          ("responses", .object [
            ("200", .object [
              ("content", .object [
                ("application/json", .object [
                  ("schema", .object [("$ref", .string "#/components/schemas/Pet")])])])])])])])]),
    ("components", .object [
      ("schemas", .object [
        ("Pet", .object [
          ("properties", .object [
            ("kind", .object [("$ref", .string "#/components/schemas/Kind")])])]),
        ("Kind", .object [("enum", .array [.string "cat", .string "dog"])])])])]

/-- The document is accepted, and a run on it declares two components and the parameters. -/
theorem generate_petTree :
    ∃ d out, Document.ofTree petTree = .ok d ∧ generate d {} = .ok out ∧
      out.types.map Declaration.name = ["Kind", "Pet", "ListPetsParams"] := by
  have hrun : ((Document.ofTree petTree).toOption.bind fun d => (generate d {}).toOption).any
      (fun out => out.types.map Declaration.name == ["Kind", "Pet", "ListPetsParams"]) = true := by
    decide +kernel
  obtain ⟨d, out, hd, hout, hnames⟩ := exists_output_of_any hrun
  exact ⟨d, out, hd, hout, beq_iff_eq.mp hnames⟩

theorem generate_closed_petTree :
    ∃ d out, Document.ofTree petTree = .ok d ∧ generate d {} = .ok out ∧
      out.types.map Declaration.name = ["Kind", "Pet", "ListPetsParams"] ∧
      (∀ t ∈ out.types, ∀ name ∈ t.dependencies, name ≠ t.name ∧ ∃ u ∈ out.types, u.name = name) ∧
      ∀ o ∈ out.operations,
        (∀ text, o.request = some text → out.IsBody text) ∧
        (∀ text, o.response = some text → out.IsBody text) ∧
        ∀ name, o.params = some name →
          ∃ t ∈ out.types, t.name = name ∧ t.kind = .interface := by
  obtain ⟨d, out, hd, hout, hnames⟩ := generate_petTree
  exact ⟨d, out, hd, hout, hnames, generate_closed hout⟩

/-- What the output exports are the names that the registry exports at the end, and the name of the
interface of operations, which is taken and none of them. -/
private theorem exports_perm (h : generate d config = .ok out) :
    ∃ filter p, Filter.compile config.filter = .ok filter ∧
      (Gen.document ⟨.of d.tree, config, filter⟩ d).run.run {} =
        (.ok (out.operations, out.operationsInterface), p) ∧
      (UseLaw.mentions ⟨.of d.tree, config, filter⟩).Sound p ∧
      (out.types.flatMap Declaration.exports).Perm p.registry.exported ∧
      (∀ t ∈ out.types, p.registry.lookup? t.name = some t) ∧
      ∀ name, out.operationsInterface = some name →
        name ∈ p.registry.taken ∧ name ∉ p.registry.exported := by
  obtain ⟨filter, p, hfilter, hrun, hperm⟩ := generate_eq_ok h
  obtain ⟨hsound, hv, -, hinterface⟩ :=
    (UseLaw.mentions _).sound_document (UseLaw.mentions_covers d) hrun
  have hp := hsound.orderly
  refine ⟨filter, p, hfilter, hrun, hsound, ?_, fun t ht => ?_, hinterface⟩
  · rw [← Registry.Coherent.exports_declarations (hp.filled hv)]
    exact hperm.flatMap_right _
  · exact hp.coherent.mem_declarations_iff.mp (hperm.mem_iff.mp ht)

/-- No name is exported twice, and each declaration exports its own name first, followed by the
union of its values if it is an enumeration. -/
theorem generate_exports_nodup (h : generate d config = .ok out) :
    out.exports.Nodup ∧
      ∀ t ∈ out.types, ∃ companions, t.exports = t.name :: companions ∧
        companions.length = if t.kind = .enumeration then 1 else 0 := by
  obtain ⟨filter, p, -, -, hsound, hexports, hlookup, hinterface⟩ := exports_perm h
  have hp := hsound.orderly
  refine ⟨?_, fun t ht => ?_⟩
  · refine (hexports.nodup_iff.mpr hp.coherent.exported_nodup).append ?_ ?_
    · cases out.operationsInterface with
      | none => exact List.nodup_nil
      | some name => exact List.nodup_singleton name
    · intro name hname hname'
      exact (hinterface name (Option.mem_toList.mp hname')).2 (hexports.mem_iff.mp hname)
  · obtain ⟨companions, hcompanions, hlength⟩ :=
      (hp.coherent.presents _ t (hp.coherent.lookup?_eq_some_iff.mp (hlookup t ht))).exports_eq
    refine ⟨companions, hcompanions, hlength.trans ?_⟩
    cases t.kind <;> rfl

/-- At the end of the run behind an output, all exported names are taken, and the names of pointers
are exported. -/
theorem Output.exports_run (h : generate d config = .ok out) :
    ∃ filter p, Filter.compile config.filter = .ok filter ∧
      (Gen.document ⟨.of d.tree, config, filter⟩ d).run.run {} =
        (.ok (out.operations, out.operationsInterface), p) ∧
      (UseLaw.mentions ⟨.of d.tree, config, filter⟩).Sound p ∧
      (∀ name ∈ out.exports, name ∈ p.registry.taken) ∧
      ∀ pointer name, p.name? pointer = some name → name ∈ out.exports := by
  obtain ⟨filter, p, hfilter, hrun, hsound, hexports, -, hinterface⟩ := exports_perm h
  have hp := hsound.orderly
  refine ⟨filter, p, hfilter, hrun, hsound, fun name hname => ?_, fun pointer name hname => ?_⟩
  · rcases List.mem_append.mp hname with hname | hname
    · exact hp.coherent.exported_taken name (hexports.mem_iff.mp hname)
    · exact (hinterface name (Option.mem_toList.mp hname)).1
  · have hexported := hp.coherent.key_mem_exported (hp.placed hname)
    exact List.mem_append_left _ (hexports.mem_iff.mpr hexported)

/-- All exported names are given by the naming rules. -/
theorem Output.gives_of_mem_exports (h : generate d config = .ok out) :
    ∀ name ∈ out.exports, config.naming.Gives name := by
  obtain ⟨filter, p, -, -, hsound, htaken, -⟩ := Output.exports_run h
  exact fun name hname => hsound.given name (htaken name hname)

theorem generate_exports_nodup_petTree :
    ∃ d out, Document.ofTree petTree = .ok d ∧ generate d {} = .ok out ∧
      out.types.map Declaration.name = ["Kind", "Pet", "ListPetsParams"] ∧ out.exports.Nodup ∧
      ∀ t ∈ out.types, ∃ companions, t.exports = t.name :: companions ∧
        companions.length = if t.kind = .enumeration then 1 else 0 := by
  obtain ⟨d, out, hd, hout, hnames⟩ := generate_petTree
  exact ⟨d, out, hd, hout, hnames, generate_exports_nodup hout⟩

end OpenApiTs
