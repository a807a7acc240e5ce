import OpenApiTs.Proofs.Likeness
import OpenApiTs.Proofs.Output

/-!
# Paths that are left out

A path that the filter does not admit has a say in a run only through the document tree, in which
references can lead to it. As long as none does, the run on the document without the path is the
same step by step: it finds the same for every reference, gives the same names, and fails in the
same way if it fails.

## Main definitions

* `Pointer.ReachesPath`: a pointer leads to all paths, to a path or below it.
* `Json.withoutPath`: a document tree without a path.
* `Operation.Matches`: another tree has what an operation refers to.

## Main results

* `Gen.agree_operationTypes`: the types of an operation on trees that match.
* `Document.ofTree_withoutPath`: the document without a path.
* `Json.alike_withoutPath`: where references lead, the tree is as before.
* `generate_withoutPath`: the run on the document without the path.
-/

namespace OpenApiTs

/-! ### Operations on trees that match -/

/-- Where a reference leads, another tree has the same. -/
def DocumentTree.Shares (strict : Prop) (tree tree' : DocumentTree) (reference : String) : Prop :=
  Pointer.canonicalize reference = .ok reference →
    Json.Alike strict tree.root tree'.root reference

/-- What an operation refers to, another tree has too: the targets of references to parameters, to a
body and to responses, and those of the references in its nodes. -/
structure Operation.Matches (strict : Prop) (T : String → Prop) (run : Setting)
    (tree' : DocumentTree) (item : PathItem) (o : Operation) (path pointer : String) : Prop where
  ofPath : ∀ {r}, .reference r ∈ item.parameters → run.tree.Shares strict tree' r
  parameters : ∀ {r}, .reference r ∈ o.parameters → run.tree.Shares strict tree' r
  body : ∀ {r}, o.requestBody = some (.reference r) → run.tree.Shares strict tree' r
  responses : ∀ {status r}, (status, .reference r) ∈ o.responses → run.tree.Shares strict tree' r
  nodes : ∀ {node location}, o.HasPart run item path pointer node location →
    ∀ r ∈ node.references, T r

namespace Gen

section Located

variable {strict : Prop} {run : Setting} {tree' : DocumentTree} {pointer : String}

theorem same_locate {α : Type} {r : Record Json α}
    (hr : ∀ f ∈ r.fields, Json.isContainer f.key = false) {entry : Referable α}
    (hentry : ∀ {reference}, entry = .reference reference →
      run.tree.Shares strict tree' reference) :
    Same strict (locate run (r.decode .json) pointer entry)
      (locate (run.on tree') (r.decode .json) pointer entry) := by
  cases entry with
  | item part => exact .rfl
  | reference reference =>
    exact (DocumentTree.same_part hr (hentry rfl)).bind fun part _ => .rfl

theorem same_mergeParameters :
    (entries : List (Referable Parameter)) → {i : Nat} → {merged : List LocatedParameter} →
      (∀ {r}, .reference r ∈ entries → run.tree.Shares strict tree' r) →
      Same strict (mergeParameters run pointer i entries merged)
        (mergeParameters (run.on tree') pointer i entries merged)
  | [], _, _, _ => .rfl
  | entry :: rest, i, merged, h => by
      have hentry : ∀ {r}, entry = .reference r → run.tree.Shares strict tree' r := by
        rintro r rfl
        exact h List.mem_cons_self
      refine (same_locate (by decide) hentry).bind fun located _ => ?_
      dsimp only
      split
      · exact same_mergeParameters rest fun hr => h (List.mem_cons_of_mem _ hr)
      · exact same_mergeParameters rest fun hr => h (List.mem_cons_of_mem _ hr)

theorem same_responseBodies :
    (responses : List (String × Referable Response)) →
      (∀ {status r}, (status, .reference r) ∈ responses → run.tree.Shares strict tree' r) →
      Same strict (responseBodies run pointer responses)
        (responseBodies (run.on tree') pointer responses)
  | [], _ => .rfl
  | (status, entry) :: rest, h => by
      have hentry : ∀ {r}, entry = .reference r → run.tree.Shares strict tree' r := by
        rintro r rfl
        exact h List.mem_cons_self
      refine (same_locate (by decide) hentry).bind fun located _ => ?_
      refine (same_responseBodies rest fun hr => h (List.mem_cons_of_mem _ hr)).bind
        fun bodies _ => ?_
      split <;> exact .rfl

end Located

section Operations

variable {strict : Prop} {T : String → Prop} {run : Setting} {tree' : DocumentTree}
  {item : PathItem} {o : Operation} {path pointer : String} (hsame : run.SameFor strict T tree')
include hsame

theorem agree_bodyUse {body : LocatedNode} (hbody : ∀ r ∈ body.node.references, T r)
    (raw : String) :
    Agree strict (fun _ => True) (fun _ => True) (bodyUse run body raw)
      (bodyUse (run.on tree') body raw) := by
  obtain ⟨node, location⟩ := body
  unfold bodyUse
  cases node with
  | reference reference => exact agree_refer hsame reference (hbody _ List.mem_cons_self) location
  | boolean allowed => exact .pure _
  | schema s =>
    refine Agree.bind ?_ fun name => .pure _
    exact agree_declareSchema hsame (agree_refer hsame) (fun _ _ _ _ => trivial)
      (fun _ _ _ _ => trivial) (fun _ => id) (fun _ => id)
      (agree_parts hsame (agree_refer hsame) (fun _ _ _ _ => trivial) s hbody) s raw

variable (h : o.Matches strict T run tree' item path pointer)
include h

theorem agree_requestUse (name : String) :
    Agree strict (fun _ => True) (fun _ => True) (requestUse run o pointer name)
      (requestUse (run.on tree') o pointer name) := by
  unfold requestUse
  cases hentry : o.requestBody with
  | none => exact .pure none
  | some entry =>
    refine Agree.ofExcept_bind (same_locate (by decide) fun heq => h.body (heq ▸ hentry))
      fun located hlocated => ?_
    obtain ⟨body, owner⟩ := located
    dsimp only
    split
    · exact .pure none
    · next mediaType node hnode =>
      exact (agree_bodyUse hsame (h.nodes (.request hentry hlocated hnode)) _).bind
        fun use => .pure _

omit hsame in
theorem same_allParameters :
    Same strict (allParameters run item o path pointer)
      (allParameters (run.on tree') item o path pointer) :=
  (same_mergeParameters item.parameters h.ofPath).bind fun _ _ =>
    same_mergeParameters o.parameters h.parameters

theorem agree_parametersName (name : String) :
    Agree strict (fun _ => True) (fun _ => True) (parametersName run item o path pointer name)
      (parametersName (run.on tree') item o path pointer name) := by
  refine Agree.ofExcept_bind (same_allParameters h) fun merged hmerged => ?_
  split
  · exact .pure none
  · refine Agree.bind (.mapM merged fun p hp => ?_) fun fields => Agree.rfl.map some
    -- Only the schema of a parameter depends on the tree.
    unfold parameterField
    dsimp only
    split
    · next node hnode =>
      have hreferences := h.nodes (.parameter hmerged hp hnode)
      exact (agree_field (agree_refer hsame)
        (agree_part hsame (agree_refer hsame) (fun _ _ _ _ => trivial) node hreferences)
        _ _ _ _).bind fun f => .pure _
    · exact .rfl

omit h in
theorem agree_responseTexts (name : String) (several : Bool) :
    (bodies : List (String × LocatedNode)) →
      (∀ b ∈ bodies, ∀ r ∈ b.2.node.references, T r) → (texts mentions : List String) →
      Agree strict (fun _ => True) (fun _ => True)
        (responseTexts run name several bodies texts mentions)
        (responseTexts (run.on tree') name several bodies texts mentions)
  | [], _, _, _ => .pure _
  | (status, body) :: rest, hT, texts, mentions => by
      obtain ⟨hbody, hrest⟩ := List.forall_mem_cons.mp hT
      exact (agree_bodyUse hsame hbody _).bind fun use =>
        agree_responseTexts name several rest hrest _ _

theorem agree_responseUse (name : String) :
    Agree strict (fun _ => True) (fun _ => True) (responseUse run o pointer name)
      (responseUse (run.on tree') o pointer name) := by
  refine Agree.ofExcept_bind (same_responseBodies o.responses h.responses) fun bodies hbodies => ?_
  refine Agree.bind (agree_responseTexts hsame _ _ bodies
    (fun b hb => h.nodes (.response hbodies hb)) [] []) fun texts => ?_
  exact .rfl

theorem agree_operationTypes (method : Method)
    (hpointer : pointer = Pointer.descend "#/paths" [path, method.name]) :
    Agree strict (fun _ => True) (fun _ => True) (operationTypes run path item method o)
      (operationTypes (run.on tree') path item method o) := by
  subst hpointer
  exact (agree_requestUse hsame h _).bind fun request =>
    (agree_parametersName hsame h _).bind fun params =>
      (agree_responseUse hsame h _).bind fun response => .pure _

end Operations

section Paths

variable {strict : Prop} {T : String → Prop} {run : Setting} {tree' : DocumentTree}
  (hsame : run.SameFor strict T tree')
include hsame

theorem agree_pathOperations {path : String} {item : PathItem} :
    (operations : List (Method × Operation)) →
      (∀ e ∈ operations, e.2.Matches strict T run tree' item path
        (Pointer.descend "#/paths" [path, e.1.name])) →
      Agree strict (fun _ => True) (fun _ => True) (pathOperations run path item operations)
        (pathOperations (run.on tree') path item operations)
  | [], _ => .pure []
  | (method, o) :: rest, h => by
      obtain ⟨ho, hrest⟩ := List.forall_mem_cons.mp h
      exact (agree_operationTypes hsame ho method rfl).bind fun types =>
        (agree_pathOperations rest hrest).bind fun more => .pure _

theorem agree_paths :
    (items : List (String × PathItem)) →
      (∀ e ∈ items, ∀ m ∈ e.2.operations, m.2.Matches strict T run tree' e.2 e.1
        (Pointer.descend "#/paths" [e.1, m.1.name])) →
      Agree strict (fun _ => True) (fun _ => True) (paths run items) (paths (run.on tree') items)
  | [], _ => .pure []
  | (path, item) :: rest, h => by
      obtain ⟨hitem, hrest⟩ := List.forall_mem_cons.mp h
      rw [paths, paths, show (run.on tree').filter = run.filter from Eq.refl _]
      split
      · exact (agree_pathOperations hsame item.operations hitem).bind fun types =>
          (agree_paths rest hrest).bind fun more => .pure _
      · exact (Agree.pure []).bind fun types => (agree_paths rest hrest).bind fun more => .pure _

/-- A run on a document does the same on another tree that has all that is referred to. -/
theorem agree_document {d : Document}
    (hcomponents : ∀ e ∈ d.schemas, T (Pointer.child Setting.componentSchemas e.1))
    (hpaths : ∀ e ∈ d.paths, ∀ m ∈ e.2.operations, m.2.Matches strict T run tree' e.2 e.1
      (Pointer.descend "#/paths" [e.1, m.1.name])) :
    Agree strict (fun _ => True) (fun _ => True) (document run d) (document (run.on tree') d) :=
  (agree_components hsame d.schemas hcomponents).bind fun _ =>
    (agree_paths hsame d.paths hpaths).bind fun _ => .rfl

end Paths

/-- The types of operations do not depend on a path that the filter does not admit. -/
theorem paths_filter {run : Setting} {path : String} (hpath : run.filter.admitsPath path = false) :
    (items : List (String × PathItem)) →
      paths run (items.filter fun e => e.1 != path) = paths run items
  | [] => rfl
  | (other, item) :: rest => by
      by_cases heq : other = path
      · subst heq
        rw [List.filter_cons_of_neg (by simp), paths, hpath, if_neg Bool.false_ne_true, pure_bind,
          paths_filter hpath rest]
        exact (bind_pure _).symm
      · rw [List.filter_cons_of_pos (by simpa using heq), paths, paths, paths_filter hpath rest]

end Gen

/-! ### Trees without a path -/

/-- The pointer is that of all paths, or it leads to the path or into it, however its segments are
written. -/
def Pointer.ReachesPath (path pointer : String) : Prop :=
  pointer = "#/paths" ∨ ["paths", path] <+: (segments pointer).map unescape

instance (path pointer : String) : Decidable (Pointer.ReachesPath path pointer) :=
  inferInstanceAs (Decidable (_ ∨ _))

theorem Pointer.not_reachesPath_component (path name : String) :
    ¬ReachesPath path (child Setting.componentSchemas name) := by
  have hsegments : segments (child Setting.componentSchemas name) =
      ["components", "schemas", escape name] := by
    rw [segments_child]
    exact congrArg (· ++ [escape name])
      (show segments Setting.componentSchemas = ["components", "schemas"] by decide)
  rintro (heq | hprefix)
  · rw [heq, show segments "#/paths" = ["paths"] by decide] at hsegments
    exact absurd (List.cons.inj hsegments).1 (by decide)
  · rw [hsegments] at hprefix
    exact absurd (List.cons_prefix_cons.mp hprefix).1 (by decide)

namespace Json

/-- A document tree without a path. -/
def withoutPath (tree : Json) (path : String) : Json :=
  match tree with
  | .object members =>
    match Entries.get? "paths" members with
    | some (.object paths) =>
      .object (Entries.put "paths" (.object (paths.filter fun m => m.1 != path)) members)
    | _ => tree
  | _ => tree

section WithoutPath

variable {members paths : List (String × Json)} {path : String}

theorem withoutPath_object (hpaths : Entries.get? "paths" members = some (.object paths)) :
    (object members).withoutPath path =
      object (Entries.put "paths" (.object (paths.filter fun m => m.1 != path)) members) := by
  rw [withoutPath, hpaths]

/-- Where a reference leads that does not reach the path, the tree has what it has with the path. -/
theorem alike_withoutPath (strict : Prop)
    (hpaths : Entries.get? "paths" members = some (.object paths)) {pointer : String}
    (hcanonical : Pointer.canonicalize pointer = .ok pointer)
    (hnot : ¬Pointer.ReachesPath path pointer) :
    Alike strict (.object members) ((object members).withoutPath path) pointer := by
  rw [withoutPath_object hpaths]
  refine AlikeBehind.put (by decide) (fun _ => by rw [hpaths]; rfl) fun {rest old} hrest hold => ?_
  cases hpaths.symm.trans hold
  cases rest with
  | nil =>
    refine absurd (.inl ?_) hnot
    exact Pointer.eq_of_segments hcanonical (by rfl) (by decide +kernel) hrest
  | cons first after =>
    have hne : (first != path) = true := by
      refine bne_iff_ne.mpr fun heq => hnot (.inr ?_)
      rw [hrest, heq]
      exact ⟨after, rfl⟩
    have hget := Entries.get?_filter (fun key => key != path) hne paths
    exact .inl (by rw [List.foldlM_cons, List.foldlM_cons, Pointer.step?, Pointer.step?, hget])

end WithoutPath

end Json

/-! ### Documents without a path -/

namespace Document

variable {tree : Json} {d : Document}

/-- The document without a path. -/
def withoutPath (d : Document) (path : String) : Document :=
  { d with
    paths := d.paths.filter fun e => e.1 != path
    tree := d.tree.withoutPath path }

/-- The paths of a document are an object in an object. -/
theorem exists_paths (hd : ofTree tree = .ok d) :
    ∃ members paths, tree = .object members ∧
      Entries.get? "paths" members = some (.object paths) := by
  obtain ⟨_, hcheck, -⟩ := bind_eq_ok_iff.mp hd
  cases tree with
  | object members =>
    refine ⟨members, ?_⟩
    unfold checkTree at hcheck
    dsimp only at hcheck
    split at hcheck
    · split at hcheck
      · cases hcheck
      · split at hcheck
        · next paths hget => exact ⟨paths, rfl, hget⟩
        · cases hcheck
    · cases hcheck
    · cases hcheck
  | array _ | null | bool _ | number _ | string _ => cases hcheck

theorem checkTree_put {members paths paths' : List (String × Json)}
    (hpaths : Entries.get? "paths" members = some (.object paths)) :
    checkTree (.object (Entries.put "paths" (.object paths') members)) =
      checkTree (.object members) := by
  have hopenapi : ¬"paths" = "openapi" := by decide
  unfold checkTree
  simp only [Entries.get?_put, if_neg hopenapi, if_true, hpaths]

/-- The document without a path, as it is decoded from another tree. -/
def dropPath (tree' : Json) (path : String) (d : Document) : Document :=
  { d with
    paths := d.paths.filter fun e => e.1 != path
    tree := tree' }

/-- A field other than the paths is read as before. -/
theorem read_dropPath_of_ne (tree tree' : Json) (path : String) :
    ∀ f ∈ (record tree).fields, f.key ≠ "paths" → ∀ {v x y}, f.read v x = .ok y →
      f.read v (x.dropPath tree' path) = .ok (y.dropPath tree' path) := by
  simp only [record, List.forall_mem_cons]
  exact ⟨fun _ _ _ _ => Field.read_change (by exact fun _ _ => rfl),
    fun _ _ _ _ => Field.read_change (by exact fun _ _ => rfl), fun hne => absurd rfl hne,
    fun _ _ _ _ => Field.read_change (by exact fun _ _ => rfl),
    fun _ hmem => absurd hmem List.not_mem_nil⟩

/-- The paths that are read without one of them are those that are read with it, but for this
one. -/
theorem read_dropPath (tree tree' : Json) (path : String) {paths : List (String × Json)} :
    ∀ f ∈ (record tree).fields, f.key = "paths" → ∀ {x y}, f.read (.object paths) x = .ok y →
      f.read (.object (paths.filter fun m => m.1 != path)) (x.dropPath tree' path) =
        .ok (y.dropPath tree' path) := by
  simp only [record, List.forall_mem_cons]
  refine ⟨fun heq => absurd heq (by decide), fun heq => absurd heq (by decide),
    fun _ x y hread => ?_, fun heq => absurd heq (by decide),
    fun _ hmem => absurd hmem List.not_mem_nil⟩
  obtain ⟨table, htable, hy⟩ := bind_eq_ok_iff.mp hread
  cases hy
  exact bind_eq_ok_iff.mpr ⟨_, table_filter (fun key => key != path) htable, rfl⟩

/-- The document without a path is the one of the tree without it. -/
theorem ofTree_withoutPath (hkeys : tree.distinctKeys = true) (hd : ofTree tree = .ok d)
    (path : String) : ofTree (tree.withoutPath path) = .ok (d.withoutPath path) := by
  obtain ⟨members, paths, rfl, hpaths⟩ := exists_paths hd
  obtain ⟨_, hcheck, -⟩ := bind_eq_ok_iff.mp hd
  let tree' := (Json.object members).withoutPath path
  have htree : tree' =
      .object (Entries.put "paths" (.object (paths.filter fun m => m.1 != path)) members) :=
    Json.withoutPath_object hpaths
  have hcheck' : checkTree tree' = .ok () := by
    rw [htree, checkTree_put hpaths, hcheck]
  have hdropped : d.dropPath tree' path = d.withoutPath path := by
    rw [dropPath, withoutPath, tree_of_ofTree hd]
  have hfields : (record tree').fields = (record (.object members)).fields := rfl
  have hdecode : (record tree').decode .json
      (.object (Entries.put "paths" (.object (paths.filter fun m => m.1 != path)) members)) =
        .ok (d.dropPath tree' path) :=
    Record.ofMembers_put hfields (read_dropPath_of_ne _ tree' path) (read_dropPath _ tree' path)
      (Json.nodup_of_distinctKeys hkeys) hpaths rfl (decode_of_ofTree hd).2
  rw [← htree, hdropped] at hdecode
  exact bind_eq_ok_iff.mpr ⟨(), hcheck', by rw [hdecode]; rfl⟩

end Document

/-! ### Runs on documents without a path -/

/-- What an operation refers to is in the tree without a path that no reference reaches. -/
theorem Operation.matches_withoutPath {run : Setting} {tree' : DocumentTree} {item : PathItem}
    {o : Operation} {method : Method} {path : String} {T : String → Prop}
    (hkeys : run.tree.root.distinctKeys = true)
    (hshares : ∀ role r, run.tree.root.Refers role r → run.tree.Shares True tree' r)
    (hT : ∀ r, run.tree.root.Refers .schema r → T r)
    (hitem : (Json.Placement.anywhere run.tree.root).Stands .pathItem PathItem.record.decode
      (Pointer.child "#/paths" path) item)
    (ho : (Json.Placement.anywhere run.tree.root).Stands .operation Operation.record.decode
      (Pointer.descend "#/paths" [path, method.name]) o) :
    o.Matches True T run tree' item path (Pointer.descend "#/paths" [path, method.name]) := by
  obtain ⟨hparameters, hrequest, hresponses⟩ := Operation.hasFields
  exact
    { ofPath := fun hmem => by
        obtain ⟨j, hj⟩ := List.mem_iff_getElem?.mp hmem
        have hentries := hitem.field rfl List.mem_cons_self PathItem.hasField_parameters
          (List.ne_nil_of_mem hmem)
        exact hshares _ _ (hentries.list hj).refers
      parameters := fun hmem => by
        obtain ⟨j, hj⟩ := List.mem_iff_getElem?.mp hmem
        have hentries := ho.field rfl List.mem_cons_self hparameters (List.ne_nil_of_mem hmem)
        exact hshares _ _ (hentries.list hj).refers
      body := fun heq => by
        have hfield : (Json.Placement.anywhere _).Holds .single (.entry .body) _ _ o.requestBody :=
          ho.field rfl (by decide) hrequest (by rw [heq]; nofun)
        rw [heq] at hfield
        exact hshares _ _ hfield.optional.refers
      responses := fun hmem => by
        have hfield : (Json.Placement.anywhere _).Holds .table (.entry .response) _ _ o.responses :=
          ho.field rfl (by decide) hresponses (List.ne_nil_of_mem hmem)
        exact hshares _ _ (hfield.table hmem).refers
      nodes := fun hpart r hr => by
        have hbears : (Json.Placement.anywhere run.tree.root).Bears _ _ :=
          .inl (Operation.stands_part hkeys hitem ho hpart)
        exact hT r (hbears.references r hr) }

/-- A path that the filter does not admit, and that no reference reaches, contributes nothing: the
document without it is accepted, and the run on it has the same output or fails in the same way. -/
theorem generate_withoutPath {tree : Json} {path : String} {d : Document} {config : Config}
    {filter : Filter} (hd : Document.ofTree tree = .ok d) (hkeys : tree.distinctKeys = true)
    (hfilter : Filter.compile config.filter = .ok filter) (hpath : filter.admitsPath path = false)
    (hreaches : ∀ role reference, tree.Refers role reference →
      ¬Pointer.ReachesPath path reference) :
    ∃ d', Document.ofTree (tree.withoutPath path) = .ok d' ∧
      generate d' config = generate d config := by
  refine ⟨d.withoutPath path, Document.ofTree_withoutPath hkeys hd path, ?_⟩
  obtain ⟨members, paths, hroot, hpaths⟩ := Document.exists_paths hd
  obtain rfl := Document.tree_of_ofTree hd
  let run : Setting := ⟨.of d.tree, config, filter⟩
  let tree' : DocumentTree := .of (d.tree.withoutPath path)
  let T : String → Prop := fun r => d.tree.Follows r ∧ ¬Pointer.ReachesPath path r
  have hT : ∀ r, d.tree.Refers .schema r → T r := fun r hr => ⟨.inl hr, hreaches _ r hr⟩
  have halike : ∀ {r}, ¬Pointer.ReachesPath path r → run.tree.Shares True tree' r :=
    fun hnot hcanonical => by
      change Json.Alike True d.tree (d.tree.withoutPath path) _
      rw [hroot]
      exact Json.alike_withoutPath True hpaths hcanonical hnot
  have hmatches : run.tree.Matches True T tree' :=
    { alike := fun hr hcanonical => halike hr.2 hcanonical
      closed := fun hr hcanonical hvalue hnode r hmem =>
        hT r (hr.1.references hkeys hcanonical hvalue hnode r hmem) }
  have hsame := Gen.agree_document (d := d) hmatches.sameFor
    (fun e _ => ⟨.inr ⟨e.1, rfl⟩, Pointer.not_reachesPath_component path e.1⟩)
    fun e he m hm => by
      have hitem := Document.stands_path (Json.Placement.anywhere _) hkeys hd he
      exact Operation.matches_withoutPath hkeys (fun role r hr => halike (hreaches role r hr)) hT
        hitem (PathItem.stands_operation hitem hm)
  have hdocument : Gen.document (run.on tree') (d.withoutPath path) =
      Gen.document (run.on tree') d := by
    rw [Gen.document, Gen.document]
    change (Gen.components _ d.schemas >>= fun _ => Gen.paths _ (d.paths.filter _) >>= _) = _
    rw [Gen.paths_filter hpath]
  have hrun : (Gen.document (run.on tree') (d.withoutPath path)).run.run {} =
      (Gen.document run d).run.run {} := by
    rw [hdocument]
    exact ((hsame {} trivial).1 (.inl trivial)).symm
  unfold generate
  rw [hfilter]
  dsimp only
  have hon : (⟨.of (d.withoutPath path).tree, config, filter⟩ : Setting) = run.on tree' := rfl
  rw [hon, hrun]

/-- A document with two paths. Only the second one has a reference that leads nowhere. -/
def omissionTree : Json :=
  .object [
    ("openapi", .string "3.0.0"),
    ("paths", .object [
      ("/a", .object [
        ("get", .object [
          ("operationId", .string "getA"),
          ("responses", .object [
            ("200", .object [
              ("content", .object [
                ("application/json", .object [
                  ("schema", .object [("$ref", .string "#/components/schemas/Pet")])])])])])])]),
      ("/b", .object [
        ("post", .object [
          ("operationId", .string "pet"),
          ("requestBody", .object [
            ("content", .object [
              ("application/json", .object [
                ("schema", .object [
                  ("properties", .object [
                    ("x", .object [("$ref", .string "#/components/schemas/Gone")])])])])])]),
          ("responses", .object [])])])]),
    ("components", .object [
      ("schemas", .object [
        ("Pet", .object [
          ("properties", .object [("name", .object [("type", .string "string")])])])])])]

/-- The rules that leave out the second path of a document. -/
def omissionRules : FilterRules := { excludePaths := ["/b"] }

theorem omissionRules_filter :
    ∃ filter, Filter.compile omissionRules = .ok filter ∧ filter.admitsPath "/b" = false := by
  have hcompiled : (Filter.compile omissionRules).toOption.any (!·.admitsPath "/b") = true := by
    decide +kernel
  cases hfilter : Filter.compile omissionRules with
  | error fault =>
    rw [hfilter] at hcompiled
    cases hcompiled
  | ok filter =>
    rw [hfilter] at hcompiled
    exact ⟨filter, rfl, (Bool.not_eq_true' _).mp hcompiled⟩

/-- The run succeeds, and it gives the same without the path that is left out. -/
theorem generate_withoutPath_omissionTree :
    ∃ d d' filter out, Document.ofTree omissionTree = .ok d ∧ omissionTree.distinctKeys = true ∧
      Filter.compile omissionRules = .ok filter ∧ filter.admitsPath "/b" = false ∧
      (∀ role reference, omissionTree.Refers role reference →
        ¬Pointer.ReachesPath "/b" reference) ∧
      Document.ofTree (omissionTree.withoutPath "/b") = .ok d' ∧
      generate d { filter := omissionRules } = .ok out ∧
      out.types.map Declaration.name = ["Pet"] ∧
      generate d' { filter := omissionRules } = .ok out := by
  have hrun : ((Document.ofTree omissionTree).toOption.bind fun d =>
      (generate d { filter := omissionRules }).toOption).any
        (fun out => out.types.map Declaration.name == ["Pet"]) = true := by
    decide +kernel
  have hkeys : omissionTree.distinctKeys = true := by decide +kernel
  have hreaches : ∀ role reference, omissionTree.Refers role reference →
      ¬Pointer.ReachesPath "/b" reference := by
    intro role reference hrefers
    have hother := hrefers.of_check (fun r => !decide (Pointer.ReachesPath "/b" r)) (n := 12)
      (by decide +kernel)
    exact of_decide_eq_false ((Bool.not_eq_true' _).mp hother)
  obtain ⟨d, out, hd, hout, hnames⟩ := exists_output_of_any hrun
  obtain ⟨filter, hfilter, hpath⟩ := omissionRules_filter
  obtain ⟨d', hd', hsame⟩ : ∃ d', Document.ofTree (omissionTree.withoutPath "/b") = .ok d' ∧
      generate d' { filter := omissionRules } = generate d { filter := omissionRules } :=
    generate_withoutPath hd hkeys hfilter hpath hreaches
  exact ⟨d, d', filter, out, hd, hkeys, hfilter, hpath, hreaches, hd', hout, beq_iff_eq.mp hnames,
    hsame.trans hout⟩

/-- A document in which a reference that is written as an array leads into its second path. -/
def reachedTree : Json :=
  .object [
    ("openapi", .string "3.0.0"),
    ("paths", .object [
      ("/a", .object [
        ("get", .object [
          ("operationId", .string "get"),
          ("responses", .object [
            ("200", .object [
              ("content", .object [
                ("application/json", .object [
                  ("schema", .array [
                    .string
                      "#/paths/~1b/post/requestBody/content/application~1json/schema"])])])])])])]),
      ("/b", .object [
        ("post", .object [
          ("requestBody", .object [
            ("content", .object [
              ("application/json", .object [
                ("schema", .object [
                  ("properties", .object [("x", .object [("type", .string "string")])])])])])]),
          ("responses", .object [])])])])]

/-- A reference that is not written as a member `$ref` can lead into a path that is left out too, so
that the run succeeds only with that path. -/
theorem generate_withoutPath_ne_reachedTree :
    ∃ d d' filter out failure, Document.ofTree reachedTree = .ok d ∧
      Filter.compile omissionRules = .ok filter ∧ filter.admitsPath "/b" = false ∧
      (∀ reference ∈ reachedTree.refTexts, ¬Pointer.ReachesPath "/b" reference) ∧
      Document.ofTree (reachedTree.withoutPath "/b") = .ok d' ∧
      generate d { filter := omissionRules } = .ok out ∧
      generate d' { filter := omissionRules } = .error failure := by
  have hrun : ((Document.ofTree reachedTree).toOption.bind fun d =>
      (generate d { filter := omissionRules }).toOption).any (fun _ => true) = true := by
    decide +kernel
  have hrun' : (Document.ofTree (reachedTree.withoutPath "/b")).toOption.any (fun d =>
      (generate d { filter := omissionRules }).toOption.isNone) = true := by
    decide +kernel
  obtain ⟨d, out, hd, hout, -⟩ := exists_output_of_any hrun
  obtain ⟨filter, hfilter, hpath⟩ := omissionRules_filter
  cases hd' : Document.ofTree (reachedTree.withoutPath "/b") with
  | error fault =>
    rw [hd'] at hrun'
    cases hrun'
  | ok d' =>
    rw [hd'] at hrun'
    cases hout' : generate d' { filter := omissionRules } with
    | ok out' => simp [Except.toOption, hout'] at hrun'
    | error failure =>
      exact ⟨d, d', filter, out, failure, hd, hfilter, hpath, by decide +kernel, rfl, hout, hout'⟩

end OpenApiTs
