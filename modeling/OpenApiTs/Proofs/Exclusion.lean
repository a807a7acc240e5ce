import OpenApiTs.Proofs.Regions
import OpenApiTs.Proofs.Sources

/-!
# Excluded schemas in the output

A run asks the filter at every reference to a schema, and it comes to the parts of a schema only
after the schema itself. So nothing is declared at a hidden pointer on the way through schemas, as
long as no reference leads to all component schemas at once. References to parameters, to request
bodies and to responses are followed without asking the filter: what such a reference borrows from
an excluded schema, and reads as a part of its own kind, is declared at a hidden pointer.

## Main definitions

* `Json.Borrows`: pointers below the targets of references to parameters, bodies and responses.
* `Setting.Opens`: the locations at which a run declares.
* `UseLaw.exclusion`: the law of open locations.

## Main results

* `Setting.region_opens`: the parts of what is at an open location are at open locations.
* `Gen.run_refer_of_hides`: a reference into an excluded schema.
* `generate_exclusion`: what is declared at a hidden pointer is borrowed.
-/

namespace OpenApiTs

/-- The pointer is that of the target of a reference to a parameter, a body or a response, or is
below it. -/
def Json.Borrows (root : Json) (pointer : String) : Prop :=
  ∃ role ∈ [Role.parameter, .body, .response], ∃ reference names,
    root.Refers role reference ∧ pointer = Pointer.descend reference names

theorem Json.Borrows.child {root : Json} {pointer : String} (h : root.Borrows pointer)
    (segment : String) : root.Borrows (Pointer.child pointer segment) := by
  obtain ⟨role, hrole, reference, names, hrefers, rfl⟩ := h
  exact ⟨role, hrole, reference, names ++ [segment], hrefers, Pointer.child_descend ..⟩

/-! ### Open locations -/

namespace Setting

variable {run : Setting} {location keyword segment : String}

/-- A location at which a run can declare: a borrowed one, or one that is neither hidden nor that of
all component schemas. -/
def Opens (run : Setting) (location : String) : Prop :=
  run.tree.root.Borrows location ∨
    location ≠ componentSchemas ∧ ¬run.filter.Hides location

theorem componentSchemas_eq : componentSchemas = Pointer.child "#/components" "schemas" := by
  decide

namespace Opens

theorem child (h : run.Opens location) (hne : Pointer.child location segment ≠ componentSchemas) :
    run.Opens (Pointer.child location segment) := by
  refine h.imp (fun h => h.child segment) fun ⟨hlocation, hhides⟩ => ⟨hne, fun h => ?_⟩
  exact h.of_child.elim hhides hlocation

/-- A field of a part at an open location is at an open location. -/
theorem field (h : run.Opens location) (hkeyword : keyword ≠ "schemas") :
    run.Opens (Pointer.child location keyword) :=
  h.child fun heq => hkeyword (Pointer.child_inj (heq.trans componentSchemas_eq)).2

/-- An entry in a field of a part at an open location is at an open location. -/
theorem entry (h : run.Opens location) (hkeyword : keyword ∉ ["schemas", "components"])
    (segment : String) : run.Opens (Pointer.child (Pointer.child location keyword) segment) := by
  refine (h.field fun heq => hkeyword (heq ▸ List.mem_cons_self)).child fun heq => hkeyword ?_
  have hparent := (Pointer.child_inj (heq.trans componentSchemas_eq)).1
  rw [show "#/components" = Pointer.child "#" "components" by decide] at hparent
  exact (Pointer.child_inj hparent).2 ▸ List.mem_cons_of_mem _ List.mem_cons_self

end Opens

/-- What is below a path is open. -/
theorem opens_path (run : Setting) (path : String) (names : List String) :
    run.Opens (Pointer.descend "#/paths" (path :: names)) := by
  refine .inr ⟨fun heq => ?_, Filter.Hides.not_path path names⟩
  have hsegments := Pointer.segments_descend "#/paths" (path :: names)
  rw [heq, show Pointer.segments componentSchemas = ["components", "schemas"] by decide,
    show Pointer.segments "#/paths" = ["paths"] by decide] at hsegments
  exact absurd (List.cons.inj hsegments).1 (by decide)

end Setting

/-- Open locations are left only through references to schemas. -/
theorem Setting.region_opens (run : Setting) : run.tree.root.Region run.Opens where
  path := run.opens_path
  borrowed hrole hrefers := .inl ⟨_, hrole, _, [], hrefers, rfl⟩
  field h hkeyword := h.field fun heq => hkeyword (heq ▸ List.mem_cons_self)
  entry h hkeyword := h.entry hkeyword

/-! ### The law -/

namespace UseLaw

variable {run : Setting}

/-- A schema that a reference is followed to is open if it is not excluded and no reference leads to
all component schemas. -/
theorem opens_of_follows (hwhole : ¬run.tree.root.Refers .schema Setting.componentSchemas)
    {reference : String} (h : run.tree.root.Follows reference)
    (hexcludes : run.excludes reference = false) : run.Opens reference := by
  refine .inr ⟨?_, fun hhides => ?_⟩
  · rintro rfl
    rcases h with hrefers | ⟨name, hname⟩
    · exact hwhole hrefers
    · exact Pointer.child_ne_self _ name hname.symm
  · rw [Setting.excludes_iff.mpr hhides] at hexcludes
    cases hexcludes

/-- The law of open locations: nodes stand at open locations. -/
def exclusion (run : Setting) (hkeys : run.tree.root.distinctKeys = true)
    (hwhole : ¬run.tree.root.Refers .schema Setting.componentSchemas) : UseLaw run :=
  within hkeys run.region_opens (opens_of_follows hwhole)

theorem exclusion_covers (hkeys : run.tree.root.distinctKeys = true)
    (hwhole : ¬run.tree.root.Refers .schema Setting.componentSchemas) {d : Document}
    (hd : Document.ofTree run.tree.root = .ok d) : (exclusion run hkeys hwhole).Covers d :=
  within_covers hkeys run.region_opens (opens_of_follows hwhole) hd

end UseLaw

/-! ### Runs -/

/-- A reference into an excluded schema is the type of every value, and leaves the state as it
was. -/
theorem Gen.run_refer_of_hides {run : Setting} {reference pointer : String}
    (hcanonical : Pointer.canonicalize reference = .ok pointer) (h : run.filter.Hides pointer)
    (location : String) (p : Progress) :
    (refer run reference location).run.run p = (.ok .unknown, p) := by
  change (referenceWith run (referAt run (run.tree.texts + 1)) reference location).run.run p = _
  unfold referenceWith DocumentTree.canonicalize
  rw [hcanonical]
  change (if run.excludes pointer then pure .unknown else _ : Gen TypeUse).run.run p = _
  rw [if_pos (Setting.excludes_iff.mpr h)]
  rfl

/-- Excluded schemas do not reach the output through references to schemas: unless such a reference
leads to all component schemas, each emitted declaration whose source is in an excluded schema has
it below the target of a reference to a parameter, a body or a response. A reference to a schema
that leads into an excluded one is the type of every value, and nothing is declared for it. -/
theorem generate_exclusion {tree : Json} {d : Document} {config : Config} {out : Output}
    (hd : Document.ofTree tree = .ok d) (hkeys : tree.distinctKeys = true)
    (hwhole : ¬tree.Refers .schema Setting.componentSchemas) (h : generate d config = .ok out) :
    ∃ filter, Filter.compile config.filter = .ok filter ∧
      (∀ t ∈ out.types, filter.Hides t.source → tree.Borrows t.source) ∧
      ∀ reference pointer location p, Pointer.canonicalize reference = .ok pointer →
        filter.Hides pointer →
        (Gen.refer ⟨.of d.tree, config, filter⟩ reference location).run.run p =
          (.ok ⟨"unknown", []⟩, p) := by
  obtain ⟨filter, p, hfilter, hrun, hperm⟩ := generate_eq_ok h
  obtain rfl := Document.tree_of_ofTree hd
  refine ⟨filter, hfilter, fun t ht hhides => ?_, fun _ _ location q hcanonical hhides =>
    Gen.run_refer_of_hides hcanonical hhides location q⟩
  let run : Setting := ⟨.of d.tree, config, filter⟩
  have hcovers : (UseLaw.exclusion run hkeys hwhole).Covers d :=
    UseLaw.exclusion_covers hkeys hwhole hd
  obtain ⟨hsound, -⟩ := (UseLaw.exclusion run hkeys hwhole).sound_document hcovers hrun
  have hlookup := hsound.orderly.coherent.mem_declarations_iff.mp (hperm.mem_iff.mp ht)
  rcases hsound.name?_source hlookup with hname | ⟨path, part, method, hsource⟩
  · obtain ⟨node, ⟨hopens, -⟩⟩ := hsound.stands hname
    exact hopens.resolve_right fun hclosed => hclosed.2 hhides
  · rw [hsource] at hhides
    exact absurd hhides (Filter.Hides.not_path path _)

/-- A document in which a request body is a reference to a component schema. Another schema refers
to the same component and to a schema inside it. -/
def secretTree : Json :=
  .object [
    ("openapi", .string "3.0.0"),
    ("paths", .object [
      ("/x", .object [
        ("post", .object [
          ("operationId", .string "op"),
          ("requestBody", .object [("$ref", .string "#/components/schemas/Secret")]),
          ("responses", .object [])])])]),
    ("components", .object [
      ("schemas", .object [
        ("Secret", .object [
          ("content", .object [
            ("application/json", .object [
              ("schema", .object [
                ("properties", .object [("x", .object [("type", .string "string")])])])])])]),
        ("Open", .object [
          ("properties", .object [
            ("whole", .object [("$ref", .string "#/components/schemas/Secret")]),
            ("part", .object [
              ("$ref", .string
                "#/components/schemas/Secret/content/application~1json/schema")])])])])])]

/-- The rules that exclude the component. -/
def secretRules : FilterRules := { excludeSchemas := ["Secret"] }

/-- The run on the document succeeds, although a schema in the excluded component is declared for
the request body: it is borrowed. For the references in the other schema nothing is declared. -/
theorem generate_exclusion_secretTree :
    ∃ d out filter, Document.ofTree secretTree = .ok d ∧
      generate d { filter := secretRules } = .ok out ∧
      Filter.compile secretRules = .ok filter ∧ secretTree.distinctKeys = true ∧
      ¬secretTree.Refers .schema Setting.componentSchemas ∧
      (∃ t ∈ out.types, filter.Hides t.source ∧ secretTree.Borrows t.source) ∧
      ∀ p, (Gen.refer ⟨.of d.tree, { filter := secretRules }, filter⟩
        "#/components/schemas/Secret" "#").run.run p = (.ok ⟨"unknown", []⟩, p) := by
  have hrun : ((Document.ofTree secretTree).toOption.bind fun d =>
      (generate d { filter := secretRules }).toOption).any (fun out => out.types.any fun t =>
        t.source == "#/components/schemas/Secret/content/application~1json/schema") = true := by
    decide +kernel
  have hkeys : secretTree.distinctKeys = true := by decide +kernel
  have hwhole : ¬secretTree.Refers .schema Setting.componentSchemas := by
    intro hrefers
    have hother := hrefers.of_check (· != Setting.componentSchemas) (n := 12) (by decide +kernel)
    exact bne_iff_ne.mp hother rfl
  obtain ⟨d, out, hd, hout, htest⟩ := exists_output_of_any hrun
  obtain ⟨t, ht, hsource⟩ := List.any_eq_true.mp htest
  obtain ⟨filter, hfilter, hborrows, hrefer⟩ := generate_exclusion hd hkeys hwhole hout
  have hadmits : filter.admitsSchema "Secret" = false := by
    have hcompiled : (Filter.compile secretRules).toOption.all (!·.admitsSchema "Secret") =
        true := by
      decide +kernel
    rw [show Filter.compile secretRules = .ok filter from hfilter] at hcompiled
    exact Bool.not_eq_true' _ ▸ hcompiled
  have hwholeHides : filter.Hides "#/components/schemas/Secret" :=
    ⟨"Secret", [], by decide, (show Pointer.unescape "Secret" = "Secret" by decide) ▸ hadmits⟩
  have hpartHides : filter.Hides t.source := by
    rw [beq_iff_eq.mp hsource]
    exact ⟨"Secret", ["content", "application~1json", "schema"], by decide,
      (show Pointer.unescape "Secret" = "Secret" by decide) ▸ hadmits⟩
  exact ⟨d, out, filter, hd, hout, hfilter, hkeys, hwhole,
    ⟨t, ht, hpartHides, hborrows t ht hpartHides⟩,
    fun p => hrefer _ _ _ p (by rfl) hwholeHides⟩

end OpenApiTs
