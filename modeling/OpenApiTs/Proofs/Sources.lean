import OpenApiTs.Proofs.Output
import OpenApiTs.Proofs.Places

/-!
# Every component and every operation once

A declaration has the pointer that it was made for as its source, or a part of an operation. A
pointer that has a name has one declaration in the end, so each component schema that the filter
admits is the source of exactly one emitted declaration. The types of operations are listed in the
order of paths and methods, and the paths of a document are distinct.

## Main definitions

* `Declaration.OfOperation`: the source of a declaration is a part of an operation.
* `PathItem.methods`: the methods of a path that have operations.
* `Document.endpoints`: the paths that a filter admits with their methods.

## Main results

* `UseLaw.Sound.count_source`: a pointer with a name is the source of one declaration.
* `Document.nodup_endpoints`: no endpoint of a document is listed twice.
* `generate_complete`: the output has each admitted component once, and each endpoint once.
-/

namespace OpenApiTs

/-! ### Sources -/

/-- The source of a declaration is a part of an operation: its parameters or its responses. -/
def Declaration.OfOperation (t : Declaration) (part : String) : Prop :=
  ∃ path, ∃ method : Method, t.source = Pointer.descend "#/paths" [path, method.name, part]

namespace UseLaw.Sound

variable {run : Setting} {law : UseLaw run} {p : Progress} {pointer name : String}

/-- A declaration has the name of its source, unless it is one of an operation. -/
theorem name?_source (hp : law.Sound p) {t : Declaration}
    (ht : p.registry.lookup? t.name = some t) :
    p.name? t.source = some t.name ∨ ∃ path part, ∃ method : Method,
      t.source = Pointer.descend "#/paths" [path, method.name, part] := by
  generalize hname : t.name = name at ht ⊢
  cases hp.made ht p (le_refl p) with
  | node hpointer _ h => exact .inl (h.source_eq.symm ▸ hpointer)
  | synthesized h => exact .inr h.source_eq

/-- Without open visits, a pointer with a name is the source of the declaration of that name. -/
theorem exists_source_eq (hp : law.Sound p) (hv : p.visiting = [])
    (hname : p.name? pointer = some name) :
    ∃ t, p.registry.lookup? name = some t ∧ t.source = pointer := by
  obtain ⟨t, ht⟩ := hp.orderly.exists_lookup? hv hname
  obtain ⟨node, d, -, hmakes, rfl⟩ := hp.made_at hname ht p (le_refl p)
  exact ⟨_, ht, hmakes.source_eq⟩

/-- Without open visits, a pointer with a name is the source of exactly one declaration, unless it
is that of a part of an operation. -/
theorem count_source (hp : law.Sound p) (hv : p.visiting = []) {types : List Declaration}
    (hperm : types.Perm p.registry.declarations) (hname : p.name? pointer = some name)
    (hpart : ∀ path part, ∀ method : Method,
      pointer ≠ Pointer.descend "#/paths" [path, method.name, part]) :
    (types.map Declaration.source).count pointer = 1 := by
  have hcoherent := hp.orderly.coherent
  obtain ⟨t, ht, hsource⟩ := hp.exists_source_eq hv hname
  have htname := hcoherent.name_eq_of_lookup? ht
  have hmem : t ∈ types :=
    hperm.mem_iff.mpr (hcoherent.mem_declarations_iff.mpr (htname.symm ▸ ht))
  have hunique : ∀ u ∈ types, u.source = pointer → u = t := by
    intro u hu husource
    have hlookup := hcoherent.mem_declarations_iff.mp (hperm.mem_iff.mp hu)
    rcases hp.name?_source hlookup with huname | ⟨path, part, method, hoperation⟩
    · rw [husource, hname] at huname
      rw [← Option.some.inj huname, ht] at hlookup
      exact (Option.some.inj hlookup).symm
    · exact absurd (husource.symm.trans hoperation) (hpart path part method)
  calc (types.map Declaration.source).count pointer
      = types.countP (· == t) := by
        rw [List.count, List.countP_map]
        refine List.countP_congr fun u hu => ?_
        rw [Function.comp_apply, beq_iff_eq, beq_iff_eq]
        exact ⟨hunique u hu, fun h => h ▸ hsource⟩
    _ = 1 := List.count_eq_one_of_mem (hperm.nodup_iff.mpr hcoherent.nodup_declarations) hmem

end UseLaw.Sound

/-- The pointer of a component schema is no part of an operation. -/
theorem Setting.component_ne_operation (name path part : String) (method : Method) :
    Pointer.child Setting.componentSchemas name ≠
      Pointer.descend "#/paths" [path, method.name, part] := by
  intro h
  have hsegments := congrArg Pointer.segments h
  rw [Pointer.segments_child, Pointer.segments_descend,
    show Pointer.segments Setting.componentSchemas = ["components", "schemas"] by decide,
    show Pointer.segments "#/paths" = ["paths"] by decide] at hsegments
  exact absurd (List.cons.inj hsegments).1 (by decide)

/-! ### Endpoints -/

/-- The methods of a path that have operations, each with the field that holds its operation, in
the order in which operations are visited. -/
def PathItem.methods (item : PathItem) : List Method :=
  ([(.get, item.get), (.put, item.put), (.post, item.post), (.delete, item.delete),
    (.options, item.options), (.head, item.head), (.patch, item.patch),
    (.trace, item.trace)].filter fun (field : Method × Option Operation) =>
      field.2.isSome).map Prod.fst

/-- The endpoints of a document: the paths that a filter admits, each with its methods. -/
def Document.endpoints (d : Document) (filter : Filter) : List (String × Method) :=
  (d.paths.filter fun e => filter.admitsPath e.1).flatMap fun e =>
    e.2.methods.map fun method => (e.1, method)

/-- The path and the method that types were made for. -/
def OperationTypes.endpoint (o : OperationTypes) : String × Method := (o.path, o.method)

theorem PathItem.map_fst_operations (item : PathItem) :
    item.operations.map Prod.fst = item.methods := by
  have hfields : item.methods = ((Method.all.map fun method =>
      (method, item.operation? method)).filter fun field => field.2.isSome).map Prod.fst := rfl
  rw [hfields, operations]
  induction Method.all with
  | nil => rfl
  | cons method rest ih =>
    rw [List.filterMap_cons, List.map_cons, List.filter_cons]
    cases item.operation? method with
    | none => exact ih
    | some o => exact congrArg (method :: ·) ih

namespace Gen

variable {run : Setting} {p q : Progress}

theorem endpoint_of_operationTypes {path : String} {item : PathItem} {method : Method}
    {o : Operation} {types : OperationTypes}
    (h : (operationTypes run path item method o).run.run p = (.ok types, q)) :
    types.endpoint = (path, method) := by
  obtain ⟨request, _, -, h⟩ := run_bind_eq_ok_iff.mp h
  obtain ⟨params, _, -, h⟩ := run_bind_eq_ok_iff.mp h
  obtain ⟨response, _, -, h⟩ := run_bind_eq_ok_iff.mp h
  cases h
  rfl

theorem endpoints_of_pathOperations {path : String} {item : PathItem} :
    {operations : List (Method × Operation)} → {p : Progress} → {types : List OperationTypes} →
      (pathOperations run path item operations).run.run p = (.ok types, q) →
      types.map OperationTypes.endpoint = operations.map fun m => (path, m.1)
  | [], _, _, h => by
      cases h
      rfl
  | (method, o) :: rest, _, _, h => by
      obtain ⟨first, _, hfirst, h⟩ := run_bind_eq_ok_iff.mp h
      obtain ⟨more, _, hmore, h⟩ := run_bind_eq_ok_iff.mp h
      cases h
      rw [List.map_cons, List.map_cons, endpoint_of_operationTypes hfirst,
        endpoints_of_pathOperations hmore]

theorem endpoints_of_paths :
    {items : List (String × PathItem)} → {p : Progress} → {types : List OperationTypes} →
      (paths run items).run.run p = (.ok types, q) →
      types.map OperationTypes.endpoint =
        (items.filter fun e => run.filter.admitsPath e.1).flatMap fun e =>
          e.2.methods.map fun method => (e.1, method)
  | [], _, _, h => by
      cases h
      rfl
  | (path, item) :: rest, _, _, h => by
      unfold paths at h
      dsimp only at h
      split at h
      · next hadmits =>
        obtain ⟨first, _, hfirst, h⟩ := run_bind_eq_ok_iff.mp h
        obtain ⟨more, _, hmore, h⟩ := run_bind_eq_ok_iff.mp h
        cases h
        rw [List.map_append, endpoints_of_pathOperations hfirst, endpoints_of_paths hmore,
          List.filter_cons, if_pos hadmits, List.flatMap_cons, ← item.map_fst_operations,
          List.map_map]
        rfl
      · next hadmits =>
        rw [pure_bind] at h
        obtain ⟨more, _, hmore, h⟩ := run_bind_eq_ok_iff.mp h
        cases h
        rw [List.filter_cons, if_neg hadmits]
        exact endpoints_of_paths hmore

end Gen

/-! ### Distinct paths -/

/-- The paths of a document are distinct. -/
theorem Document.nodup_paths {tree : Json} {d : Document} (hd : Document.ofTree tree = .ok d) :
    (Entries.keys d.paths).Nodup := by
  obtain ⟨⟨members, rfl⟩, hdecode⟩ := Document.decode_of_ofTree hd
  refine (Document.hasField_paths (.object members)).of_decode
    (Q := fun paths => (Entries.keys paths).Nodup) (fun value paths hpaths => ?_) List.nodup_nil
    hdecode
  cases value with
  | object entries => exact nodup_keys_of_table hpaths
  | array _ | null | bool _ | number _ | string _ => cases hpaths

theorem PathItem.nodup_methods (item : PathItem) : item.methods.Nodup := by
  refine (List.filter_sublist.map Prod.fst).nodup ?_
  change [Method.get, .put, .post, .delete, .options, .head, .patch, .trace].Nodup
  decide

/-- No endpoint of a document is listed twice. -/
theorem Document.nodup_endpoints {tree : Json} {d : Document} (hd : Document.ofTree tree = .ok d)
    (filter : Filter) : (d.endpoints filter).Nodup := by
  refine List.nodup_flatMap.mpr ⟨fun e _ => ?_, ?_⟩
  · exact e.2.nodup_methods.map fun _ _ h => (Prod.mk.inj h).2
  · have hpaths : d.paths.Pairwise fun a b => a.1 ≠ b.1 :=
      List.pairwise_map.mp (Document.nodup_paths hd)
    refine (hpaths.filter _).imp fun hne => List.disjoint_left.mpr fun x hx hx' => ?_
    obtain ⟨_, -, rfl⟩ := List.mem_map.mp hx
    obtain ⟨_, -, heq⟩ := List.mem_map.mp hx'
    exact hne (Prod.mk.inj heq).1.symm

/-! ### Outputs -/

variable {d : Document} {config : Config} {out : Output}

/-- Each component schema that the filter admits is the source of exactly one emitted declaration,
whatever characters its name has, and the operations are those of the admitted paths, each once, in
the order of paths and then of methods. -/
theorem generate_complete {tree : Json} (hd : Document.ofTree tree = .ok d)
    (h : generate d config = .ok out) :
    ∃ filter, Filter.compile config.filter = .ok filter ∧
      (∀ name ∈ Entries.keys d.schemas, filter.admitsSchema name = true →
        (out.types.map Declaration.source).count
          (Pointer.child Setting.componentSchemas name) = 1) ∧
      out.operations.map OperationTypes.endpoint = d.endpoints filter ∧
      (d.endpoints filter).Nodup := by
  obtain ⟨filter, p, hfilter, hrun, hperm⟩ := generate_eq_ok h
  let run : Setting := ⟨.of d.tree, config, filter⟩
  have hcovers : (UseLaw.mentions run).Covers d := UseLaw.mentions_covers d
  obtain ⟨hsound, hv, -, -⟩ := (UseLaw.mentions _).sound_document hcovers hrun
  have hnamed := (UseLaw.mentions _).named_document hcovers hrun
  refine ⟨filter, hfilter, fun name hname hadmits => ?_, ?_, Document.nodup_endpoints hd filter⟩
  · obtain ⟨⟨_, node⟩, hmem, rfl⟩ := List.mem_map.mp hname
    obtain ⟨typeName, htypeName⟩ := Option.isSome_iff_exists.mp (hnamed _ hmem hadmits)
    exact hsound.count_source hv hperm htypeName (Setting.component_ne_operation _)
  · obtain ⟨q, r, -, hpaths, -⟩ := Gen.steps_of_document hrun
    exact Gen.endpoints_of_paths hpaths

/-- A document with a component whose name has a slash and a tilde, which is a boolean and is used
before its turn, with a component that refers to itself, and with two operations on one path and one
on another. -/
def slashTree : Json :=
  .object [
    ("openapi", .string "3.0.0"),
    ("paths", .object [
      ("/a", .object [
        ("post", .object [("responses", .object [])]),
        ("get", .object [("responses", .object [])])]),
      ("/b", .object [("get", .object [("responses", .object [])])])]),
    ("components", .object [
      ("schemas", .object [
        ("List", .object [
          ("properties", .object [
            ("next", .object [("$ref", .string "#/components/schemas/List")]),
            ("item", .object [("$ref", .string "#/components/schemas/a~1b~0c")])])]),
        ("a/b~c", .bool true)])])]

/-- The rules that leave out one path of the document. -/
def slashRules : FilterRules := { excludePaths := ["/b"] }

/-- The document is accepted with both of its components, and a run on it that leaves out one path
lists the operations of the other one. -/
theorem generate_slashTree :
    ∃ d out, Document.ofTree slashTree = .ok d ∧ generate d { filter := slashRules } = .ok out ∧
      Entries.keys d.schemas = ["List", "a/b~c"] ∧
      out.operations.map OperationTypes.endpoint = [("/a", .get), ("/a", .post)] := by
  have hrun : ((Document.ofTree slashTree).toOption.bind fun d =>
      (generate d { filter := slashRules }).toOption).any (fun out =>
        out.operations.map OperationTypes.endpoint == [("/a", .get), ("/a", .post)]) = true := by
    decide +kernel
  have hkeys : (Document.ofTree slashTree).toOption.any
      (fun d => Entries.keys d.schemas == ["List", "a/b~c"]) = true := by
    decide +kernel
  obtain ⟨d, out, hd, hout, hlisted⟩ := exists_output_of_any hrun
  rw [hd] at hkeys
  exact ⟨d, out, hd, hout, beq_iff_eq.mp hkeys, beq_iff_eq.mp hlisted⟩

/-- Both components have one declaration each, and the operations of the path that is not left out
are listed. -/
theorem generate_complete_slashTree :
    ∃ d out filter, Document.ofTree slashTree = .ok d ∧
      generate d { filter := slashRules } = .ok out ∧
      Filter.compile slashRules = .ok filter ∧ filter.admitsSchema "a/b~c" = true ∧
      (out.types.map Declaration.source).count "#/components/schemas/a~1b~0c" = 1 ∧
      d.endpoints filter = [("/a", .get), ("/a", .post)] ∧
      out.operations.map OperationTypes.endpoint = [("/a", .get), ("/a", .post)] := by
  obtain ⟨d, out, hd, hout, hkeys, hlisted⟩ := generate_slashTree
  obtain ⟨filter, hfilter, hcount, hendpoints, -⟩ := generate_complete hd hout
  have hadmits : filter.admitsSchema "a/b~c" = true := by
    have hcompiled : (Filter.compile slashRules).toOption.all (·.admitsSchema "a/b~c") = true := by
      decide +kernel
    rw [show Filter.compile slashRules = .ok filter from hfilter] at hcompiled
    exact hcompiled
  have hname : "a/b~c" ∈ Entries.keys d.schemas := by
    rw [hkeys]
    decide
  exact ⟨d, out, filter, hd, hout, hfilter, hadmits, hcount "a/b~c" hname hadmits,
    hendpoints.symm.trans hlisted, hlisted⟩

end OpenApiTs
