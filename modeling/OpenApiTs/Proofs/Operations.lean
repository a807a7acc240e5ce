import OpenApiTs.Generate
import OpenApiTs.Proofs.Hiding
import OpenApiTs.Proofs.Traversal

/-!
# A run on a document obeys every law

The types of operations are made from bodies and parameters, which are used like the parts of a
schema, and the declarations of operations are put into their places at once. So what a law says of
the state holds at the end of a run on a whole document.

## Main definitions

* `Operation.HasPart`: the nodes in an operation with their locations.
* `OperationUses`: the types of an operation, as the rules make them.
* `ParametersDeclared`: where the interface of the parameters of an operation comes from.
* `UseLaw.Covers`: the law says where the nodes of a document stand.

## Main results

* `UseLaw.keeps_operationTypes`: the types of an operation.
* `UseLaw.sound_document`, `UseLaw.named_document`: the state at the end of a run on a document.
-/

namespace OpenApiTs

open Gen (Keeps KeepsFrom)

/-! ### Parts and types of operations -/

/-- The nodes in an operation at a pointer: those of the chosen media types of its request and its
responses, and those of its parameters. -/
inductive Operation.HasPart (run : Setting) (item : PathItem) (o : Operation)
    (path pointer : String) : SchemaNode → String → Prop
  | request {entry body owner mediaType located} (h : o.requestBody = some entry)
      (hbody : Gen.locate run RequestBody.record.decode (Pointer.child pointer "requestBody")
        entry = .ok (body, owner))
      (hlocated : MediaType.located? body.content owner = some (mediaType, located)) :
      HasPart run item o path pointer located.node located.location
  | parameter {merged : List Gen.LocatedParameter} {p node}
      (h : Gen.allParameters run item o path pointer = .ok merged) (hp : p ∈ merged)
      (hn : p.parameter.schema = some node) :
      HasPart run item o path pointer node (Pointer.child p.pointer "schema")
  | response {bodies : List (String × LocatedNode)} {status located}
      (h : Gen.responseBodies run (Pointer.child pointer "responses") o.responses = .ok bodies)
      (hb : (status, located) ∈ bodies) :
      HasPart run item o path pointer located.node located.location

/-- A text is that of the type of some body. -/
def BodyText (run : Setting) (p : Progress) (text : String) : Prop :=
  ∃ node location use, BodyUse run p node location use ∧ use.text = text

/-- The types of an operation: a body, the interface of parameters, and a body or the union of
responses. -/
structure OperationUses (run : Setting) (p : Progress) (o : OperationTypes) : Prop where
  request : ∀ {text}, o.request = some text → BodyText run p text
  params : ∀ {name}, o.params = some name →
    ∃ d, p.registry.lookup? name = some d ∧ d.kind = .interface
  response : ∀ {text}, o.response = some text →
    BodyText run p text ∨ ∃ d, p.registry.lookup? text = some d

/-- The interface of parameters has a field for each merged parameter, with the key of its name. -/
def ParametersDeclared (run : Setting) (item : PathItem) (o : Operation) (path pointer : String)
    (p : Progress) (name : String) : Prop :=
  ∃ (parameters : List Gen.LocatedParameter) (fields : List ObjectField),
    Gen.allParameters run item o path pointer = .ok parameters ∧
    fields.map ObjectField.key =
      parameters.map (fun parameter => run.config.naming.fieldName parameter.parameter.name) ∧
    p.registry.lookup? name =
      some (((Gen.parametersDeclaration fields (Pointer.child pointer "parameters")
        name).dropDependency name).rename name)

/-- What stands on the right of related lists is related to something on the left. -/
theorem exists_of_mem_right {α β : Type} {R : α → β → Prop} {b : β} {l : List α}
    {l' : List β} (h : List.Forall₂ R l l') (hb : b ∈ l') : ∃ a, R a b := by
  induction h with
  | nil => cases hb
  | cons hab _ ih =>
    rcases List.mem_cons.mp hb with rfl | hb
    · exact ⟨_, hab⟩
    · exact ih hb

/-- A run on a document that succeeds declares the components, makes the types of the operations,
and claims the name of their interface if it has one. -/
theorem Gen.steps_of_document {run : Setting} {d : Document} {p : Progress}
    {operations : List OperationTypes} {interface : Option String}
    (h : (document run d).run.run {} = (.ok (operations, interface), p)) :
    ∃ q r, (components run d.schemas).run.run {} = (.ok (), q) ∧
      (paths run d.paths).run.run q = (.ok operations, r) ∧
      ∀ name, interface = some name →
        r.registry.claimExport (run.config.naming.typeName operationsInterface) =
          .ok (name, p.registry) := by
  obtain ⟨⟨⟩, q, hcomponents, h⟩ := run_bind_eq_ok_iff.mp h
  obtain ⟨types, r, hpaths, h⟩ := run_bind_eq_ok_iff.mp h
  split at h
  · rw [run_bind, run_claim] at h
    cases hclaim : r.registry.claimExport (run.config.naming.typeName operationsInterface) with
    | error e =>
      rw [hclaim] at h
      cases h
    | ok claimed =>
      rw [hclaim] at h
      cases h
      exact ⟨q, _, hcomponents, hpaths, fun _ hname => Option.some.inj hname ▸ hclaim⟩
  · cases h
    exact ⟨q, _, hcomponents, hpaths, nofun⟩

namespace UseLaw

variable {run : Setting} (law : UseLaw run)

/-- Component schemas are followed like references, and the law says where the nodes in the
operations of a document stand. -/
structure Covers (d : Document) : Prop where
  components : ∀ {name node}, (name, node) ∈ d.schemas →
    law.Refers (Pointer.child Setting.componentSchemas name)
  operations : ∀ {path item method o}, (path, item) ∈ d.paths → (method, o) ∈ item.operations →
    ∀ {node location},
      o.HasPart run item path (Pointer.descend "#/paths" [path, method.name]) node location →
      law.At node location

variable {item : PathItem} {o : Operation} {path pointer : String}

/-! ### Requests -/

theorem keeps_bodyUse {body : LocatedNode} (ha : law.At body.node body.location) (raw : String) :
    Keeps (law.Ready run.tree.bound) (Gen.bodyUse run body raw) fun use p =>
      BodyUse run p body.node body.location use := by
  obtain ⟨node, location⟩ := body
  unfold Gen.bodyUse
  cases node with
  | reference reference =>
    exact (law.keeps_refer (law.refers_of_at ha) location).weaken fun use p => .reference
  | boolean allowed => exact .pure fun p => .boolean allowed location
  | schema s =>
    exact (law.keeps_generateNamed ha raw).bind fun name => .pure fun p => .schema

theorem keeps_requestUse
    (ha : ∀ {node location}, o.HasPart run item path pointer node location → law.At node location)
    (name : String) :
    Keeps (law.Ready run.tree.bound) (Gen.requestUse run o pointer name) fun result p =>
      ∀ {text}, result = some text → BodyText run p text := by
  unfold Gen.requestUse
  split
  · exact .pure fun p => nofun
  · next entry hentry =>
    intro p hp
    refine KeepsFrom.ofExcept_bind hp fun located hlocated => ?_
    obtain ⟨body, owner⟩ := located
    dsimp only
    split
    · exact .pure hp fun q _ => nofun
    · next mediaType located hmedia =>
      refine (Keeps.bind (law.keeps_bodyUse (ha (.request hentry hlocated hmedia)) _)
        fun use => .pure fun q huse text htext => ?_) p hp
      cases htext
      exact ⟨_, _, use, huse, rfl⟩

/-! ### Parameters -/

theorem keeps_parameterField {p : Gen.LocatedParameter}
    (ha : ∀ {node}, p.parameter.schema = some node →
      law.At node (Pointer.child p.pointer "schema")) (raw : String) :
    Keeps (law.Ready run.tree.bound) (Gen.parameterField run raw p) fun f q =>
      ParameterField run (law.Holds q) f := by
  have hdocs {q : Progress} {f : ObjectField} (hf : ParameterField run (law.Holds q) f)
      (texts : List String) : ParameterField run (law.Holds q)
        (if texts.isEmpty then f else { f with docs := run.comment texts "  " }) := by
    split
    · exact hf
    · exact ⟨hf.key, hf.use, .inr ⟨texts, rfl⟩⟩
  unfold Gen.parameterField
  dsimp only
  split
  · next node hnode =>
    refine (keeps_field law.follows_refer (part_answered law.follows_refer node) (ha hnode) raw
      _ _).bind fun f => .pure fun q ⟨use, huse, hf⟩ => hdocs ?_ _
    rw [hf]
    exact ⟨⟨_, rfl⟩, .inr ⟨node, _, huse⟩, .inl ⟨node, rfl⟩⟩
  · exact .pure fun q => hdocs ⟨⟨_, rfl⟩, .inl rfl, .inl ⟨.boolean true, rfl⟩⟩ _

/-- The key of a parameter's field is that of its name. -/
theorem key_of_parameterField {raw : String} {parameter : Gen.LocatedParameter} {f : ObjectField}
    {p q : Progress} (h : (Gen.parameterField run raw parameter).run.run p = (.ok f, q)) :
    f.key = run.config.naming.fieldName parameter.parameter.name := by
  have hdocs (g : ObjectField) (texts : List String) :
      (if texts.isEmpty then g else { g with docs := run.comment texts "  " }).key = g.key := by
    split <;> rfl
  unfold Gen.parameterField at h
  dsimp only at h
  split at h
  · obtain ⟨g, r, hg, hpure⟩ := Gen.run_bind_eq_ok_iff.mp h
    obtain ⟨use, r', -, hfield⟩ := Gen.run_bind_eq_ok_iff.mp hg
    cases hfield
    cases hpure
    exact hdocs _ _
  · cases h
    exact hdocs _ _

theorem keeps_parametersName {method : Method}
    (ha : ∀ {node location},
      o.HasPart run item path (Pointer.descend "#/paths" [path, method.name]) node location →
      law.At node location) (name : String) :
    Keeps (law.Ready run.tree.bound)
      (Gen.parametersName run item o path (Pointer.descend "#/paths" [path, method.name]) name)
      fun result p => ∀ {name}, result = some name →
        ParametersDeclared run item o path (Pointer.descend "#/paths" [path, method.name]) p
          name := by
  intro p hp
  refine KeepsFrom.ofExcept_bind hp fun parameters hparameters => ?_
  split
  · exact .pure hp fun q _ => nofun
  · refine (Keeps.mapM parameters (fun parameter hmem =>
      (law.keeps_parameterField (fun hn => ha (.parameter hparameters hmem hn)) _).and_of_ok
        key_of_parameterField) p hp).bind fun fields q hq _ hfields => ?_
    rw [map_eq_pure_bind]
    refine (hq.declare fun name r hr => .parameters fun f hf => ?_).bind
      fun name r hr _ hlookup => .pure hr fun t ht n hn => ?_
    · obtain ⟨parameter, -, huse⟩ := exists_of_mem_right (hfields r hr) hf
      exact huse
    · cases hn
      refine ⟨parameters, fields, hparameters, ?_, hlookup t ht⟩
      rw [← List.forall₂_eq_eq_eq, List.forall₂_map_left_iff, List.forall₂_map_right_iff]
      exact ((hfields q (le_refl q)).imp fun _ _ h => h.1).flip

/-! ### Responses -/

theorem mem_texts_of_uses {text : String} :
    {uses : List TypeUse} → {texts : List String} →
      text ∈ uses.foldl (fun texts use => Names.add texts use.text) texts →
      text ∈ texts ∨ ∃ use ∈ uses, use.text = text
  | [], _, h => .inl h
  | use :: uses, texts, h => by
      rw [List.foldl_cons] at h
      rcases mem_texts_of_uses h with h | ⟨use', hmem, h⟩
      · rcases Names.mem_add.mp h with h | rfl
        · exact .inl h
        · exact .inr ⟨use, List.mem_cons_self, rfl⟩
      · exact .inr ⟨use', List.mem_cons_of_mem _ hmem, h⟩

theorem keeps_responseTexts (name : String) (several : Bool) :
    (bodies : List (String × LocatedNode)) →
      (∀ b ∈ bodies, law.At b.2.node b.2.location) → (texts mentions : List String) →
      Keeps (law.Ready run.tree.bound) (Gen.responseTexts run name several bodies texts mentions)
        fun result p => ∃ uses : List TypeUse,
          (∀ use ∈ uses, ∃ node location, BodyUse run p node location use) ∧
            result = (uses.foldl (fun texts use => Names.add texts use.text) texts,
              uses.foldl (fun names use => Names.union names use.mentions) mentions)
  | [], _, _, _ => .pure fun _ => ⟨[], (fun _ h => nomatch h), rfl⟩
  | (status, body) :: rest, ha, texts, mentions => by
      refine (law.keeps_bodyUse (ha _ List.mem_cons_self) _).bind fun use => ?_
      refine (keeps_responseTexts name several rest (fun b hb => ha b (List.mem_cons_of_mem _ hb))
        _ _).weaken ?_
      rintro result p ⟨uses, huses, rfl⟩ huse
      exact ⟨use :: uses, List.forall_mem_cons.mpr ⟨⟨_, _, huse⟩, huses⟩, rfl⟩

theorem keeps_responseUse {method : Method}
    (ha : ∀ {node location},
      o.HasPart run item path (Pointer.descend "#/paths" [path, method.name]) node location →
      law.At node location) (name : String) :
    Keeps (law.Ready run.tree.bound)
      (Gen.responseUse run o (Pointer.descend "#/paths" [path, method.name]) name)
      fun result p => ∀ {text}, result = some text →
        BodyText run p text ∨ ∃ d, p.registry.lookup? text = some d := by
  intro p hp
  refine KeepsFrom.ofExcept_bind hp fun bodies hbodies => ?_
  refine ((law.keeps_responseTexts name _ bodies (fun b hb => ha (.response hbodies hb)) [] [])
    p hp).bind fun result q hq _ hresult => ?_
  obtain ⟨texts, mentions⟩ := result
  dsimp only
  split
  · exact .pure hq fun r _ => nofun
  · next text =>
    refine .pure hq fun r hr t ht => .inl ?_
    cases ht
    obtain ⟨uses, huses, heq⟩ := hresult r hr
    have hmem : text ∈ uses.foldl (fun texts use => Names.add texts use.text) [] := by
      rw [← (Prod.mk.inj heq).1]
      exact List.mem_singleton_self text
    obtain ⟨use, hin, rfl⟩ := (mem_texts_of_uses hmem).resolve_left List.not_mem_nil
    obtain ⟨node, location, huse⟩ := huses use hin
    exact ⟨node, location, use, huse, rfl⟩
  · refine (hq.declare fun name r hr => ?_).bind fun name r hr _ hlookup =>
      .pure hr fun t ht n hn => ?_
    · obtain ⟨uses, huses, heq⟩ := hresult r hr
      obtain ⟨rfl, rfl⟩ := Prod.mk.inj heq
      exact .responses huses
    · cases hn
      exact .inr ⟨_, hlookup t ht⟩

/-! ### Operations and paths -/

/-- The types of an operation are made by the rules, and say for which path and method they are. -/
theorem keeps_operationTypes {method : Method}
    (ha : ∀ {node location},
      o.HasPart run item path (Pointer.descend "#/paths" [path, method.name]) node location →
      law.At node location) :
    Keeps (law.Ready run.tree.bound) (Gen.operationTypes run path item method o) fun types p =>
      (types.path = path ∧ types.method = method) ∧ OperationUses run p types ∧
        ∀ {name}, types.params = some name → ParametersDeclared run item o path
          (Pointer.descend "#/paths" [path, method.name]) p name := by
  refine (law.keeps_requestUse ha _).bind fun request => ?_
  refine (law.keeps_parametersName ha _).bind fun params => ?_
  refine (law.keeps_responseUse ha _).bind fun response => ?_
  refine .pure fun p hresponse hparams hrequest => ⟨⟨rfl, rfl⟩, ⟨hrequest, ?_, hresponse⟩, hparams⟩
  intro name hname
  obtain ⟨parameters, fields, -, -, hlookup⟩ := hparams hname
  exact ⟨_, hlookup, rfl⟩

/-- What is kept of the types of each operation on a path is kept of all of them. -/
theorem keeps_pathOperations {R : OperationTypes → Progress → Prop} :
    (operations : List (Method × Operation)) →
      (∀ e ∈ operations,
        Keeps (law.Ready run.tree.bound) (Gen.operationTypes run path item e.1 e.2) R) →
      Keeps (law.Ready run.tree.bound) (Gen.pathOperations run path item operations) fun types p =>
        ∀ o ∈ types, R o p
  | [], _ => .pure fun _ _ h => nomatch h
  | (method, o) :: rest, hR => by
      refine (hR (method, o) List.mem_cons_self).bind fun types => ?_
      refine (keeps_pathOperations rest fun e he => hR e (List.mem_cons_of_mem _ he)).bind
        fun more => .pure fun p hmore htypes => ?_
      exact List.forall_mem_cons.mpr ⟨htypes, hmore⟩

/-- What is kept of the types of each operation is kept of those on all paths. -/
theorem keeps_paths {R : OperationTypes → Progress → Prop} :
    (items : List (String × PathItem)) →
      (∀ e ∈ items, ∀ m ∈ e.2.operations,
        Keeps (law.Ready run.tree.bound) (Gen.operationTypes run e.1 e.2 m.1 m.2) R) →
      Keeps (law.Ready run.tree.bound) (Gen.paths run items) fun types p => ∀ o ∈ types, R o p
  | [], _ => .pure fun _ _ h => nomatch h
  | (path, item) :: rest, hR => by
      have hrest := keeps_paths rest fun e he => hR e (List.mem_cons_of_mem _ he)
      unfold Gen.paths
      dsimp only
      split
      · refine (law.keeps_pathOperations _ (hR (path, item) List.mem_cons_self)).bind
          fun types => hrest.bind fun more => .pure fun p hmore htypes o ho => ?_
        exact (List.mem_append.mp ho).elim (htypes o) (hmore o)
      · exact hrest.bind fun more => .pure fun p hmore => hmore

/-- The component schemas that the filter admits get names. -/
theorem keeps_components :
    (schemas : List (String × SchemaNode)) →
      (∀ e ∈ schemas, law.Refers (Pointer.child Setting.componentSchemas e.1)) →
      Keeps (law.Ready run.tree.bound) (Gen.components run schemas) fun _ p =>
        ∀ e ∈ schemas, run.filter.admitsSchema e.1 = true →
          (p.name? (Pointer.child Setting.componentSchemas e.1)).isSome
  | [], _ => .pure fun _ _ h => nomatch h
  | (name, _) :: rest, hr => by
      have hrest := keeps_components rest fun e he => hr e (List.mem_cons_of_mem _ he)
      unfold Gen.components
      dsimp only
      split
      · next hadmits =>
        have hx : run.excludes (Pointer.child Setting.componentSchemas name) = false := by
          rw [Setting.excludes_component, hadmits]
          rfl
        refine (law.keeps_ensureNamed fun {node} =>
          law.at_origin (hr _ List.mem_cons_self) hx).bind fun _ => ?_
        exact hrest.weaken fun _ p hp hname =>
          List.forall_mem_cons.mpr ⟨fun _ => Option.isSome_of_mem hname, hp⟩
      · next hadmits =>
        exact hrest.weaken fun _ p hp =>
          List.forall_mem_cons.mpr ⟨fun h => absurd h hadmits, hp⟩

/-! ### Documents -/

/-- A run on a document names the component schemas that the filter admits, and what is kept of the
types of each operation holds of all of them in the end. -/
theorem keeps_document_of {d : Document} (hcovers : law.Covers d)
    {R : OperationTypes → Progress → Prop}
    (hR : ∀ e ∈ d.paths, ∀ m ∈ e.2.operations,
      Keeps (law.Ready run.tree.bound) (Gen.operationTypes run e.1 e.2 m.1 m.2) R) :
    Keeps (law.Ready run.tree.bound) (Gen.document run d) fun result p =>
      (∀ e ∈ d.schemas, run.filter.admitsSchema e.1 = true →
        (p.name? (Pointer.child Setting.componentSchemas e.1)).isSome) ∧
      ∀ o ∈ result.1, R o p := by
  refine (law.keeps_components d.schemas fun _ => hcovers.components).bind fun _ => ?_
  refine (law.keeps_paths d.paths hR).bind fun types => ?_
  split
  · exact (keeps_claim (.converted trivial)).bind fun name =>
      .pure fun p _ htypes hnamed => ⟨hnamed, htypes⟩
  · exact .pure fun p htypes hnamed => ⟨hnamed, htypes⟩

/-- A run on a document names the component schemas that the filter admits and makes the types of
operations by the rules. -/
theorem keeps_document {d : Document} (hcovers : law.Covers d) :
    Keeps (law.Ready run.tree.bound) (Gen.document run d) fun result p =>
      (∀ e ∈ d.schemas, run.filter.admitsSchema e.1 = true →
        (p.name? (Pointer.child Setting.componentSchemas e.1)).isSome) ∧
      ∀ o ∈ result.1, OperationUses run p o :=
  law.keeps_document_of hcovers fun _ he _ hm =>
    (law.keeps_operationTypes (hcovers.operations he hm)).weaken fun _ _ h => h.2.1

/-- The state that a run on a document leaves, whether it succeeds or not, is sound. -/
theorem sound_of_run {d : Document} (hcovers : law.Covers d)
    {result : Except Failure (List OperationTypes × Option String)} {p : Progress}
    (h : (Gen.document run d).run.run {} = (result, p)) : law.Sound p := by
  have hend := law.keeps_document hcovers {} law.sound_empty.ready
  unfold KeepsFrom at hend
  rw [h] at hend
  cases result with
  | ok _ => exact hend.1.toSound
  | error _ => exact hend.1.toSound

/-- A run on a document that succeeds ends in a sound state in which the component schemas that the
filter admits have names. -/
theorem named_document {d : Document} (hcovers : law.Covers d) {p : Progress}
    {operations : List OperationTypes} {interface : Option String}
    (h : (Gen.document run d).run.run {} = (.ok (operations, interface), p)) :
    ∀ e ∈ d.schemas, run.filter.admitsSchema e.1 = true →
      (p.name? (Pointer.child Setting.componentSchemas e.1)).isSome :=
  (((law.keeps_document hcovers {} law.sound_empty.ready).of_ok h).2.2.2 p (le_refl p)).1

/-- The state at the end of a run on a document: sound, without open visits, with the types of all
operations made by the rules, and with a name of the interface of operations that is taken and that
nobody else exports. -/
theorem sound_document {d : Document} (hcovers : law.Covers d) {p : Progress}
    {operations : List OperationTypes} {interface : Option String}
    (h : (Gen.document run d).run.run {} = (.ok (operations, interface), p)) :
    law.Sound p ∧ p.visiting = [] ∧ (∀ o ∈ operations, OperationUses run p o) ∧
      ∀ name, interface = some name →
        name ∈ p.registry.taken ∧ name ∉ p.registry.exported := by
  obtain ⟨hp, -, hvisiting, hresult⟩ :=
    (law.keeps_document hcovers {} law.sound_empty.ready).of_ok h
  refine ⟨hp.toSound, hvisiting, (hresult p (le_refl p)).2, fun name hname => ?_⟩
  obtain ⟨q, r, hcomponents, hpaths, hclaim⟩ := Gen.steps_of_document h
  obtain ⟨hq, -⟩ := (law.keeps_components d.schemas (fun _ => hcovers.components) {}
    law.sound_empty.ready).of_ok hcomponents
  obtain ⟨hr, -⟩ :=
    (law.keeps_paths d.paths (fun e he m hm =>
      (law.keeps_operationTypes (hcovers.operations he hm)).weaken fun _ _ _ => trivial)
      q hq).of_ok hpaths
  exact hr.orderly.coherent.claimExport_fresh (hclaim name hname)

end UseLaw

end OpenApiTs
