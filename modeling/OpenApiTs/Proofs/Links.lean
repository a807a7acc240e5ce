import OpenApiTs.Proofs.Output

/-!
# References to references

A reference to a request body, a response or a parameter is followed once. If it finds a reference
again, that is read as the part itself, whose key `$ref` names no field: a body or a response
without content, which no type is made of, and no parameter at all. What the chain of references
ends in does not matter.

## Main definitions

* `DocumentTree.isLink`: whether a reference leads to a reference and nothing else.
* `Operation.dropLinks`: an operation without the bodies whose references lead to references.

## Main results

* `DocumentTree.part_eq_of_isLink`, `DocumentTree.part_parameter_of_isLink`: what a reference to a
  reference stands for.
* `Gen.operationTypes_links`: the types of an operation are those that it has without such bodies,
  and it has none with such a parameter.
-/

namespace OpenApiTs

/-! ### Records without a member for a field -/

private theorem find?_congr_of_mem {α : Type} {p q : α → Bool} :
    {l : List α} → (∀ a ∈ l, p a = q a) → l.find? p = l.find? q
  | [], _ => rfl
  | a :: l, h => by
      obtain ⟨ha, hl⟩ := List.forall_mem_cons.mp h
      rw [List.find?_cons, List.find?_cons, ha, find?_congr_of_mem hl]

namespace Record

variable {ι α : Type} {r : Record ι α}

/-- A member that names no field is passed over. -/
theorem storeMembers_cons_of_forall_ne {key : String} (h : ∀ f ∈ r.fields, f.key ≠ key)
    (value : ι) (rest : List (String × ι)) (x : α) :
    r.storeMembers ((key, value) :: rest) x = r.storeMembers rest x := by
  have hnone : r.fields.find? (fun f => f.key == key) = none :=
    List.find?_eq_none.mpr fun f hf => mt beq_iff_eq.mp (h f hf)
  rw [storeMembers, hnone]

/-- A record from one member that names no field: the record that it starts from, if no field is
required. -/
theorem ofMembers_singleton_of_forall_ne {key : String} (h : ∀ f ∈ r.fields, f.key ≠ key)
    (value : ι) :
    r.ofMembers [(key, value)] =
      match r.fields.find? Field.required with
      | some f => .error (.missingField f.key)
      | none => .ok r.start := by
  have hmissing : r.missing? [(key, value)] = (r.fields.find? Field.required).map Field.key := by
    have hany : ∀ f ∈ r.fields, (f.required && !([(key, value)].any fun m => m.1 == f.key)) =
        f.required := fun f hf => by simp [Ne.symm (h f hf)]
    rw [missing?]
    exact congrArg (Option.map Field.key) (find?_congr_of_mem hany)
  rw [ofMembers, storeMembers_cons_of_forall_ne h, storeMembers, hmissing]
  cases r.fields.find? Field.required <;> rfl

end Record

/-! ### Links -/

namespace DocumentTree

variable {tree : DocumentTree} {reference from_ : String}

/-- Whether a reference leads to an object that is a reference and nothing else. -/
def isLink (tree : DocumentTree) (reference : String) : Bool :=
  match Pointer.canonicalize reference, Pointer.lookup? tree.root reference with
  | .ok _, some (.object [(key, .string _)]) => key == "$ref"
  | _, _ => false

/-- A reference to a link finds an object with a reference as its only member. -/
theorem lookup_of_isLink (from_ : String) (h : tree.isLink reference = true) :
    canonicalize reference from_ = .ok reference ∧
      ∃ target, tree.lookup reference from_ = .ok (.object [("$ref", .string target)]) := by
  unfold isLink at h
  split at h
  · next pointer key target hpointer hvalue =>
    obtain rfl := Pointer.canonicalize_eq hpointer
    have hcanonical : canonicalize pointer from_ = .ok pointer := by
      rw [canonicalize, hpointer]
    refine ⟨hcanonical, target, ?_⟩
    rw [← beq_iff_eq.mp h]
    refine bind_eq_ok_iff.mpr ⟨pointer, hcanonical, ?_⟩
    rw [hvalue]
    rfl
  · cases h

/-- A reference to a link stands for what an object without any field decodes to. -/
theorem part_of_isLink {α : Type} {r : Record Json α} (hr : ∀ f ∈ r.fields, f.key ≠ "$ref")
    (h : tree.isLink reference = true) :
    tree.part r.decode reference from_ =
      match r.fields.find? Field.required with
      | some f => .error (.unsupported reference (.undecodable (.missingField f.key)))
      | none => .ok r.start := by
  obtain ⟨-, target, hlookup⟩ := lookup_of_isLink from_ h
  have hdecode : r.decode .json (.object [("$ref", .string target)]) = _ :=
    Record.ofMembers_singleton_of_forall_ne hr (.string target)
  rw [part, hlookup]
  dsimp only [bind, Except.bind]
  rw [hdecode]
  cases r.fields.find? Field.required <;> rfl

/-- A reference to a link stands for a body and a response without content. -/
theorem part_eq_of_isLink (h : tree.isLink reference = true) :
    tree.part RequestBody.record.decode reference from_ = .ok {} ∧
      tree.part Response.record.decode reference from_ = .ok {} :=
  ⟨part_of_isLink (by simp [RequestBody.record, Field.defaulted]) h,
    part_of_isLink (by simp [Response.record, Field.defaulted]) h⟩

/-- A reference to a link stands for no parameter: it has no name. -/
theorem part_parameter_of_isLink (h : tree.isLink reference = true) :
    tree.part Parameter.record.decode reference from_ =
      .error (.unsupported reference (.undecodable (.missingField "name"))) :=
  part_of_isLink (by simp [Parameter.record, Field.defaulted, Field.needed]) h

end DocumentTree

/-! ### Operations -/

/-- Whether an entry is a reference to a link. -/
def Referable.isLink {α : Type} (tree : DocumentTree) : Referable α → Bool
  | .reference pointer => tree.isLink pointer
  | .item _ => false

/-- An operation without the request body and the responses that are references to links. -/
def Operation.dropLinks (tree : DocumentTree) (o : Operation) : Operation :=
  { o with
    requestBody := o.requestBody.filter fun body => !body.isLink tree
    responses := o.responses.filter fun response => !response.2.isLink tree }

namespace Gen

variable {run : Setting} {o : Operation} {pointer name : String}

theorem locate_of_isLink {α : Type} {r : Record Json α} {entry : Referable α} {x : α}
    (pointer : String) (hentry : entry.isLink run.tree = true)
    (hpart : ∀ {reference from_}, run.tree.isLink reference = true →
      run.tree.part r.decode reference from_ = .ok x) :
    ∃ owner, locate run r.decode pointer entry = .ok (x, owner) := by
  cases entry with
  | item part => cases hentry
  | reference reference =>
    have hlink : run.tree.isLink reference = true := hentry
    obtain ⟨hcanonical, -⟩ := DocumentTree.lookup_of_isLink pointer hlink
    refine ⟨reference, ?_⟩
    rw [locate, hpart hlink, hcanonical]
    rfl

/-- A request body that is a reference to a link has no type. -/
theorem requestUse_dropLinks :
    requestUse run o pointer name = requestUse run (o.dropLinks run.tree) pointer name := by
  unfold requestUse
  cases hbody : o.requestBody with
  | none =>
    have hdrop : (o.dropLinks run.tree).requestBody = none := by
      rw [Operation.dropLinks, hbody]
      rfl
    rw [hdrop]
  | some body =>
    cases hlink : body.isLink run.tree with
    | false =>
      have hdrop : (o.dropLinks run.tree).requestBody = some body := by
        simp [Operation.dropLinks, hbody, Option.filter_some, hlink]
      rw [hdrop]
    | true =>
      have hdrop : (o.dropLinks run.tree).requestBody = none := by
        simp [Operation.dropLinks, hbody, Option.filter_some, hlink]
      obtain ⟨owner, hlocate⟩ := locate_of_isLink (Pointer.child pointer "requestBody") hlink
        fun h => (DocumentTree.part_eq_of_isLink h).1
      rw [hdrop]
      dsimp only
      rw [hlocate]
      rfl

/-- A response that is a reference to a link has no body. -/
theorem responseBodies_filter (pointer : String) :
    (responses : List (String × Referable Response)) →
      responseBodies run pointer responses =
        responseBodies run pointer (responses.filter fun r => !r.2.isLink run.tree)
  | [] => rfl
  | (status, entry) :: rest => by
      have hrest := responseBodies_filter pointer rest
      cases hlink : entry.isLink run.tree with
      | false =>
        rw [List.filter_cons_of_pos (by rw [hlink]; rfl), responseBodies, responseBodies, hrest]
      | true =>
        obtain ⟨owner, hlocate⟩ := locate_of_isLink (Pointer.child pointer status) hlink
          fun h => (DocumentTree.part_eq_of_isLink h).2
        rw [List.filter_cons_of_neg (by rw [hlink]; nofun), responseBodies, hlocate, ← hrest]
        change (responseBodies run pointer rest >>= fun bodies => Except.ok bodies) = _
        cases responseBodies run pointer rest <;> rfl

theorem responseUse_dropLinks :
    responseUse run o pointer name = responseUse run (o.dropLinks run.tree) pointer name := by
  unfold responseUse
  dsimp only [Operation.dropLinks]
  rw [responseBodies_filter]

/-- Parameters among which there is a reference to a link cannot be merged. -/
theorem mergeParameters_of_isLink (base : String) :
    {entries : List (Referable Parameter)} → (∃ entry ∈ entries, entry.isLink run.tree = true) →
      (i : Nat) → (merged : List LocatedParameter) →
      ∃ failure, mergeParameters run base i entries merged = .error failure
  | entry :: rest, h, i, merged => by
      cases hlocate : locate run Parameter.record.decode (Pointer.child base i.repr) entry with
      | error failure => exact ⟨failure, by rw [mergeParameters, hlocate]; rfl⟩
      | ok located =>
        obtain ⟨parameter, target⟩ := located
        have hrest : ∃ entry ∈ rest, entry.isLink run.tree = true := by
          obtain ⟨entry', hmem, hlink⟩ := h
          rcases List.mem_cons.mp hmem with rfl | hmem
          · cases entry' with
            | item part => cases hlink
            | reference reference =>
              have hlink : run.tree.isLink reference = true := hlink
              rw [locate, DocumentTree.part_parameter_of_isLink hlink] at hlocate
              cases hlocate
          · exact ⟨entry', hmem, hlink⟩
        have hstep : mergeParameters run base i (entry :: rest) merged =
            if parameter.location == .cookie then mergeParameters run base (i + 1) rest merged
            else mergeParameters run base (i + 1) rest
              (mergeParameter ⟨parameter, target⟩ merged) := by
          rw [mergeParameters, hlocate]
          rfl
        rw [hstep]
        split
        · exact mergeParameters_of_isLink base hrest (i + 1) merged
        · exact mergeParameters_of_isLink base hrest (i + 1) _

theorem allParameters_of_isLink {item : PathItem} (path pointer : String)
    (h : ∃ entry ∈ item.parameters ++ o.parameters, entry.isLink run.tree = true) :
    ∃ failure, allParameters run item o path pointer = .error failure := by
  obtain ⟨entry, hmem, hlink⟩ := h
  unfold allParameters
  dsimp only
  rcases List.mem_append.mp hmem with hmem | hmem
  · obtain ⟨failure, hfailure⟩ := mergeParameters_of_isLink
      (Pointer.descend "#/paths" [path, "parameters"]) ⟨entry, hmem, hlink⟩ 0 []
    exact ⟨failure, by rw [hfailure]; rfl⟩
  · cases hpath : mergeParameters run (Pointer.descend "#/paths" [path, "parameters"]) 0
        item.parameters [] with
    | error failure => exact ⟨failure, rfl⟩
    | ok merged => exact mergeParameters_of_isLink _ ⟨entry, hmem, hlink⟩ 0 merged

/-- A computation whose second part fails from every state fails. -/
theorem exists_failure_of_bind {α β γ : Type} {m : Gen α} {m' : α → Gen β} {f : α → β → Gen γ}
    (h : ∀ x q, ∃ failure r, (m' x).run.run q = (.error failure, r)) (p : Progress) :
    ∃ failure q, (m >>= fun x => m' x >>= f x).run.run p = (.error failure, q) := by
  rw [run_bind]
  rcases m.run.run p with ⟨failure | x, q⟩
  · exact ⟨failure, q, rfl⟩
  · obtain ⟨failure, r, hr⟩ := h x q
    exact ⟨failure, r, by simp only [run_bind, hr]⟩

/-- References to links are not followed. An operation has the types that it has without the request
body and the responses that are such references, wherever the chains of references end; and if one
of its parameters is such a reference, no types can be made for it. -/
theorem operationTypes_links (run : Setting) (path : String) (item : PathItem) (method : Method)
    (o : Operation) :
    operationTypes run path item method o =
        operationTypes run path item method (o.dropLinks run.tree) ∧
      ((∃ entry ∈ item.parameters ++ o.parameters, entry.isLink run.tree = true) → ∀ p,
        ∃ failure q, (operationTypes run path item method o).run.run p = (.error failure, q)) := by
  refine ⟨?_, fun h p => ?_⟩
  · unfold operationTypes
    dsimp only
    rw [requestUse_dropLinks, responseUse_dropLinks]
    rfl
  · refine exists_failure_of_bind (fun request q => ?_) p
    obtain ⟨failure, hfailure⟩ := allParameters_of_isLink path
      (Pointer.descend "#/paths" [path, method.name]) h
    refine ⟨failure, q, ?_⟩
    unfold parametersName
    rw [hfailure]
    rfl

/-- A run on a tree with a request body and a parameter, and with a link to each. -/
def chainRun : Setting where
  tree := .of <| .object [
    ("components", .object [
      ("requestBodies", .object [
        ("A", .object [("$ref", .string "#/components/requestBodies/B")]),
        ("B", .object [
          ("content", .object [
            ("application/json", .object [
              ("schema", .object [("type", .string "object")])])])])]),
      ("parameters", .object [
        ("P", .object [("$ref", .string "#/components/parameters/Q")]),
        ("Q", .object [("name", .string "q"), ("in", .string "query")])])])]
  config := {}
  filter := {}

/-- An operation with a reference to a request body and references to parameters. -/
def chainOperation (body : String) (parameters : List String) : Operation where
  operationId := some "op"
  requestBody := some (.reference body)
  parameters := parameters.map .reference

/-- With the link to the body the operation has no request type, with a reference to the body itself
it has one, and with the link to the parameter it has no types. -/
theorem operationTypes_links_chainRun :
    operationTypes chainRun "/x" {} .post (chainOperation "#/components/requestBodies/A" []) =
        operationTypes chainRun "/x" {} .post { operationId := some "op" } ∧
      ((operationTypes chainRun "/x" {} .post
        (chainOperation "#/components/requestBodies/A" [])).run.run {}).1.toOption.map
          OperationTypes.request = some none ∧
      ((operationTypes chainRun "/x" {} .post
        (chainOperation "#/components/requestBodies/B" [])).run.run {}).1.toOption.map
          OperationTypes.request = some (some "OpRequest") ∧
      ∀ p, ∃ failure q, (operationTypes chainRun "/x" {} .post
        (chainOperation "#/components/requestBodies/B" ["#/components/parameters/P"])).run.run p =
          (.error failure, q) := by
  have hbody : chainRun.tree.isLink "#/components/requestBodies/A" = true := by decide +kernel
  have hparameter : chainRun.tree.isLink "#/components/parameters/P" = true := by decide +kernel
  have hdrop : (chainOperation "#/components/requestBodies/A" []).dropLinks chainRun.tree =
      { operationId := some "op" } := by
    simp [Operation.dropLinks, chainOperation, Option.filter_some, Referable.isLink, hbody]
  refine ⟨?_, by decide +kernel, by decide +kernel, fun p => ?_⟩
  · rw [← hdrop]
    exact (operationTypes_links chainRun "/x" {} .post _).1
  · exact (operationTypes_links chainRun "/x" {} .post _).2
      ⟨.reference "#/components/parameters/P", by simp [chainOperation], hparameter⟩ p

end Gen

end OpenApiTs
