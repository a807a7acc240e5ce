import OpenApiTs.Proofs.Keys
import OpenApiTs.Proofs.Output

/-!
# Keys of parameters

The parameters of an operation come from two lists, that of its path and its own, and each entry is
a parameter or leads to one. They are merged by location and name: a later parameter takes the place
of an earlier one with the same location and name, and cookies are left out. But the key of a field
is written from the name alone. So the interface of parameters has a key twice exactly if two
parameters of one name are sent in different ways.

## Main definitions

* `Gen.LocatedParameter.key`, `Gen.LocatedParameter.IsSent`: location and name of a parameter, and
  the parameters that are no cookies.
* `Gen.listedParameters`, `Gen.operationParameters`: what the entries stand for, without merging.
* `Gen.mergeAll`: all sent parameters merged, one after the other.
* `Gen.Unambiguous`: no two parameters that differ have the same name under the convention.
* `Declaration.ListsFields`: a declaration that is an interface of fields.
* `Document.DeclaresParameters`: an interface of parameters was made for an operation.

## Main results

* `Gen.allParameters_eq`: the parameters of an operation are those that its entries stand for,
  merged.
* `generate_parameters_nodup_iff`: when the keys of an interface of parameters are distinct.
-/

namespace OpenApiTs

namespace Gen

/-! ### Merging by location and name -/

namespace LocatedParameter

/-- What parameters are merged by. -/
def key (p : LocatedParameter) : ParameterLocation × String :=
  (p.parameter.location, p.parameter.name)

theorem sameKey_iff (a b : LocatedParameter) : a.sameKey b = true ↔ a.key = b.key := by
  rw [sameKey, Bool.and_eq_true, beq_iff_eq, beq_iff_eq, key, key, Prod.mk.injEq]

/-- Cookies are not sent by the caller. -/
def IsSent (p : LocatedParameter) : Prop := p.parameter.location ≠ .cookie

instance (p : LocatedParameter) : Decidable p.IsSent :=
  inferInstanceAs (Decidable (p.parameter.location ≠ .cookie))

end LocatedParameter

/-- One more parameter adds its location and name at the end, or leaves them as they are. -/
theorem keys_mergeParameter (p : LocatedParameter) (merged : List LocatedParameter) :
    (mergeParameter p merged).map LocatedParameter.key =
      if p.key ∈ merged.map LocatedParameter.key then merged.map LocatedParameter.key
      else merged.map LocatedParameter.key ++ [p.key] := by
  induction merged with
  | nil => rfl
  | cons q rest ih =>
    rw [mergeParameter]
    by_cases h : q.key = p.key
    · rw [if_pos ((q.sameKey_iff p).mpr h), List.map_cons, List.map_cons, h,
        if_pos List.mem_cons_self]
    · rw [if_neg (mt (q.sameKey_iff p).mp h), List.map_cons, List.map_cons, ih]
      simp only [List.mem_cons, Ne.symm h, false_or, List.cons_append]
      split <;> rfl

theorem nodup_keys_mergeParameter (p : LocatedParameter) {merged : List LocatedParameter}
    (h : (merged.map LocatedParameter.key).Nodup) :
    ((mergeParameter p merged).map LocatedParameter.key).Nodup := by
  rw [keys_mergeParameter]
  split
  · exact h
  · next hnew =>
    refine List.nodup_append.mpr ⟨h, List.nodup_singleton _, ?_⟩
    rintro a ha b hb rfl
    exact hnew (List.mem_singleton.mp hb ▸ ha)

theorem mem_keys_mergeParameter {p : LocatedParameter} {merged : List LocatedParameter}
    {k : ParameterLocation × String} :
    k ∈ (mergeParameter p merged).map LocatedParameter.key ↔
      k ∈ merged.map LocatedParameter.key ∨ p.key = k := by
  rw [keys_mergeParameter]
  split
  · next hold => exact ⟨.inl, fun hk => hk.elim id fun hk => hk ▸ hold⟩
  · rw [List.mem_append, List.mem_singleton, eq_comm (a := k)]

/-- The sent parameters merged into others, one after the other. -/
def mergeAll (listed merged : List LocatedParameter) : List LocatedParameter :=
  (listed.filter fun p => p.IsSent).foldl (fun merged p => mergeParameter p merged) merged

theorem mergeAll_cons (p : LocatedParameter) (rest merged : List LocatedParameter) :
    mergeAll (p :: rest) merged =
      mergeAll rest (if p.IsSent then mergeParameter p merged else merged) := by
  rw [mergeAll, List.filter_cons]
  by_cases h : p.IsSent
  · rw [if_pos (decide_eq_true h), if_pos h]
    rfl
  · rw [if_neg (mt of_decide_eq_true h), if_neg h]
    rfl

theorem mergeAll_append (listed more merged : List LocatedParameter) :
    mergeAll (listed ++ more) merged = mergeAll more (mergeAll listed merged) := by
  rw [mergeAll, List.filter_append, List.foldl_append]
  rfl

/-- Merged parameters have distinct locations and names, which are those that were there and those
of the sent parameters. -/
theorem keys_mergeAll (listed merged : List LocatedParameter)
    (h : (merged.map LocatedParameter.key).Nodup) :
    ((mergeAll listed merged).map LocatedParameter.key).Nodup ∧
      ∀ k, k ∈ (mergeAll listed merged).map LocatedParameter.key ↔
        k ∈ merged.map LocatedParameter.key ∨ ∃ p ∈ listed, p.IsSent ∧ p.key = k := by
  induction listed generalizing merged with
  | nil => exact ⟨h, fun k => by simp [mergeAll]⟩
  | cons p rest ih =>
    rw [mergeAll_cons]
    by_cases hsent : p.IsSent
    · rw [if_pos hsent]
      have hnodup := nodup_keys_mergeParameter p h
      refine ⟨(ih _ hnodup).1, fun k => ?_⟩
      rw [(ih _ hnodup).2 k, mem_keys_mergeParameter]
      simp only [List.mem_cons, exists_eq_or_imp, hsent, true_and, or_assoc]
    · rw [if_neg hsent]
      refine ⟨(ih _ h).1, fun k => ?_⟩
      rw [(ih _ h).2 k]
      simp only [List.mem_cons, exists_eq_or_imp, hsent, false_and, false_or]

/-! ### What the entries stand for -/

variable (run : Setting)

/-- The parameters that the entries at positions from `i` on below a pointer stand for, each with
its own pointer. -/
def listedParameters (pointer : String) :
    Nat → List (Referable Parameter) → Except Failure (List LocatedParameter)
  | _, [] => .ok []
  | i, entry :: rest => do
    let (parameter, target) ←
      locate run Parameter.record.decode (Pointer.child pointer i.repr) entry
    let listed ← listedParameters pointer (i + 1) rest
    pure (⟨parameter, target⟩ :: listed)

/-- The parameters that the entries of an operation at a pointer stand for: those of its path, then
its own. -/
def operationParameters (item : PathItem) (o : Operation) (path pointer : String) :
    Except Failure (List LocatedParameter) := do
  let ofPath ← listedParameters run (Pointer.descend "#/paths" [path, "parameters"]) 0
    item.parameters
  let own ← listedParameters run (Pointer.child pointer "parameters") 0 o.parameters
  pure (ofPath ++ own)

variable {run}

/-- Merging the entries of a list is merging what they stand for. -/
theorem mergeParameters_eq (pointer : String) : (i : Nat) → (entries : List (Referable Parameter)) →
    (merged : List LocatedParameter) →
    mergeParameters run pointer i entries merged =
      (listedParameters run pointer i entries).map fun listed => mergeAll listed merged
  | _, [], _ => rfl
  | i, entry :: rest, merged => by
      rw [mergeParameters, listedParameters]
      cases locate run Parameter.record.decode (Pointer.child pointer i.repr) entry with
      | error failure => rfl
      | ok located =>
        obtain ⟨parameter, target⟩ := located
        have hcookie : (parameter.location == .cookie) = true ↔
            ¬LocatedParameter.IsSent ⟨parameter, target⟩ := by
          rw [beq_iff_eq, LocatedParameter.IsSent, not_not]
        have hstep (before : List LocatedParameter)
            (hbefore : before = if LocatedParameter.IsSent ⟨parameter, target⟩
              then mergeParameter ⟨parameter, target⟩ merged else merged) :
            mergeParameters run pointer (i + 1) rest before =
              ((listedParameters run pointer (i + 1) rest).map fun listed =>
                (⟨parameter, target⟩ :: listed : List LocatedParameter)).map
                fun listed => mergeAll listed merged := by
          rw [mergeParameters_eq pointer (i + 1) rest before, hbefore]
          cases listedParameters run pointer (i + 1) rest with
          | error failure => rfl
          | ok listed => exact congrArg Except.ok (mergeAll_cons _ _ _).symm
        change (if parameter.location == .cookie
          then mergeParameters run pointer (i + 1) rest merged
          else mergeParameters run pointer (i + 1) rest
            (mergeParameter ⟨parameter, target⟩ merged)) = _
        split
        · next h => exact hstep merged (if_neg (hcookie.mp h)).symm
        · next h => exact hstep _ (if_pos (not_not.mp (mt hcookie.mpr h))).symm

/-- The parameters of an operation are those that its entries stand for, merged. -/
theorem allParameters_eq (item : PathItem) (o : Operation) (path pointer : String) :
    allParameters run item o path pointer =
      (operationParameters run item o path pointer).map fun listed => mergeAll listed [] := by
  unfold allParameters operationParameters
  dsimp only
  rw [mergeParameters_eq]
  cases listedParameters run (Pointer.descend "#/paths" [path, "parameters"]) 0 item.parameters with
  | error failure => rfl
  | ok ofPath =>
    change mergeParameters run _ 0 o.parameters (mergeAll ofPath []) = _
    rw [mergeParameters_eq]
    cases listedParameters run (Pointer.child pointer "parameters") 0 o.parameters with
    | error failure => rfl
    | ok own => exact congrArg Except.ok (mergeAll_append _ _ _).symm

/-! ### Keys of the interface -/

/-- No two sent parameters that differ in location or name have the same name under the convention
for fields. -/
def Unambiguous (rules : NamingRules) (listed : List LocatedParameter) : Prop :=
  ∀ a ∈ listed, ∀ b ∈ listed, a.IsSent → b.IsSent →
    rules.fieldStem a.parameter.name = rules.fieldStem b.parameter.name → a.key = b.key

/-- Names that are kept are ambiguous only by different locations. -/
theorem unambiguous_iff_of_none {rules : NamingRules} (h : rules.fields = none)
    {listed : List LocatedParameter} :
    Unambiguous rules listed ↔
      ∀ a ∈ listed, ∀ b ∈ listed, a.IsSent → b.IsSent → a.parameter.name = b.parameter.name →
        a.parameter.location = b.parameter.location := by
  simp only [Unambiguous, rules.fieldStem_of_none h, LocatedParameter.key, Prod.mk.injEq]
  exact forall₂_congr fun a _ => forall₄_congr fun b _ _ _ => forall_congr' fun hname =>
    and_iff_left hname

/-- The keys of merged parameters are distinct exactly if the parameters are unambiguous. -/
theorem nodup_keys_mergeAll (rules : NamingRules) (listed : List LocatedParameter) :
    ((mergeAll listed []).map fun p => rules.fieldName p.parameter.name).Nodup ↔
      Unambiguous rules listed := by
  obtain ⟨hnodup, hmem⟩ := keys_mergeAll listed [] List.nodup_nil
  have hmap : ((mergeAll listed []).map fun p => rules.fieldName p.parameter.name) =
      ((mergeAll listed []).map LocatedParameter.key).map fun k => rules.fieldName k.2 := by
    rw [List.map_map]
    rfl
  rw [hmap, List.nodup_map_iff_inj_on hnodup]
  simp only [hmem, List.map_nil, List.not_mem_nil, false_or, rules.fieldName_eq_iff]
  constructor
  · intro h a ha b hb hsa hsb hstem
    exact h _ ⟨a, ha, hsa, rfl⟩ _ ⟨b, hb, hsb, rfl⟩ hstem
  · rintro h _ ⟨a, ha, hsa, rfl⟩ _ ⟨b, hb, hsb, rfl⟩ hstem
    exact h a ha b hb hsa hsb hstem

end Gen

/-- The declaration is an interface of fields. -/
def Declaration.ListsFields (d : Declaration) (fields : List ObjectField) : Prop :=
  d.kind = .interface ∧
    d.content =
      "export interface " ++ d.name ++ " \x7b\n" ++ String.join (fields.map ObjectField.line) ++
        "\x7d"

/-- The interface of parameters that the types of an operation name was made for an operation of the
document. -/
def Document.DeclaresParameters (d : Document) (run : Setting) (types : OperationTypes)
    (p : Progress) : Prop :=
  ∀ name, types.params = some name →
    ∃ item o, (types.path, item) ∈ d.paths ∧ (types.method, o) ∈ item.operations ∧
      ParametersDeclared run item o types.path
        (Pointer.descend "#/paths" [types.path, types.method.name]) p name

/-- A run on a document makes the interfaces of parameters for the operations of the document. -/
theorem Gen.declaresParameters_of_document {run : Setting} {d : Document} {p : Progress}
    {operations : List OperationTypes} {interface : Option String}
    (h : (document run d).run.run {} = (.ok (operations, interface), p)) :
    ∀ types ∈ operations, d.DeclaresParameters run types p := by
  have hcovers : (UseLaw.mentions run).Covers d := UseLaw.mentions_covers d
  have hoperation : ∀ e ∈ d.paths, ∀ m ∈ e.2.operations,
      Keeps ((UseLaw.mentions run).Ready run.tree.bound) (operationTypes run e.1 e.2 m.1 m.2)
        (d.DeclaresParameters run) := by
    intro e he m hm
    refine ((UseLaw.mentions run).keeps_operationTypes (hcovers.operations he hm)).weaken ?_
    rintro types p ⟨⟨hpath, hmethod⟩, -, hparams⟩ name hname
    rw [hpath, hmethod]
    exact ⟨e.2, m.2, he, hm, hparams hname⟩
  have hkept := (UseLaw.mentions run).keeps_document_of hcovers hoperation
  obtain ⟨-, -, -, hresult⟩ := (hkept {} (UseLaw.mentions run).sound_empty.ready).of_ok h
  exact (hresult p (le_refl p)).2

/-- The interface of the parameters of an operation has a field for each sent parameter that the
entries of its path and its own stand for, merged by location and name. Their keys are distinct
exactly if no two of these parameters have the same name under the convention and differ. Without a
convention for fields this is so unless parameters of one name are sent in different ways. -/
theorem generate_parameters_nodup_iff {d : Document} {config : Config} {out : Output}
    (h : generate d config = .ok out) :
    ∃ filter, Filter.compile config.filter = .ok filter ∧
      ∀ types ∈ out.operations, ∀ name, types.params = some name →
        ∃ item o listed, (types.path, item) ∈ d.paths ∧ (types.method, o) ∈ item.operations ∧
          Gen.operationParameters ⟨.of d.tree, config, filter⟩ item o types.path
            (Pointer.descend "#/paths" [types.path, types.method.name]) = .ok listed ∧
          ∃ t ∈ out.types, ∃ fields, t.name = name ∧ t.ListsFields fields ∧
            fields.map ObjectField.key = (Gen.mergeAll listed []).map
              (fun p => config.naming.fieldName p.parameter.name) ∧
            ((fields.map ObjectField.key).Nodup ↔ Gen.Unambiguous config.naming listed) ∧
            (config.naming.fields = none →
              ((fields.map ObjectField.key).Nodup ↔
                ∀ a ∈ listed, ∀ b ∈ listed, a.IsSent → b.IsSent →
                  a.parameter.name = b.parameter.name →
                  a.parameter.location = b.parameter.location)) := by
  obtain ⟨filter, p, hfilter, hrun, hperm⟩ := generate_eq_ok h
  refine ⟨filter, hfilter, fun types htypes name hname => ?_⟩
  have hp := ((UseLaw.mentions _).sound_of_run (UseLaw.mentions_covers d) hrun).orderly
  obtain ⟨item, o, hitem, ho, parameters, fields, hparameters, hkeys, hlookup⟩ :=
    Gen.declaresParameters_of_document hrun types htypes name hname
  rw [Gen.allParameters_eq] at hparameters
  obtain ⟨listed, hlisted, rfl⟩ := map_eq_ok_iff.mp hparameters
  have hnodup : (fields.map ObjectField.key).Nodup ↔ Gen.Unambiguous config.naming listed := by
    rw [hkeys]
    exact Gen.nodup_keys_mergeAll config.naming listed
  obtain ⟨t, hlookup, rfl, hlists⟩ : ∃ t : Declaration, p.registry.lookup? name = some t ∧
      t.name = name ∧ t.ListsFields fields := ⟨_, hlookup, rfl, rfl, rfl⟩
  have hmem := hperm.mem_iff.mpr (hp.coherent.mem_declarations_iff.mpr hlookup)
  exact ⟨item, o, listed, hitem, ho, hlisted, t, hmem, fields, rfl, hlists, hkeys, hnodup,
    fun hnone => hnodup.trans (Gen.unambiguous_iff_of_none hnone)⟩

/-- A document with an operation that has a parameter in its path and one of the same name in its
query. -/
def clashTree : Json :=
  .object [
    ("openapi", .string "3.0.0"),
    ("paths", .object [
      ("/items/\x7bid\x7d", .object [
        ("get", .object [
          ("operationId", .string "getItem"),
          ("parameters", .array [
            .object [("name", .string "id"), ("in", .string "path"), ("required", .bool true)],
            .object [("name", .string "id"), ("in", .string "query")]]),
          ("responses", .object [])])])])]

/-- The interface of the parameters has a key twice. -/
theorem generate_clashTree :
    ∃ d out, Document.ofTree clashTree = .ok d ∧ generate d {} = .ok out ∧
      out.operations.map OperationTypes.params = [some "GetItemParams"] ∧
      out.types.map Declaration.content =
        ["export interface GetItemParams \x7b\n  id: unknown;\n  id?: unknown;\n\x7d"] := by
  have hrun : ((Document.ofTree clashTree).toOption.bind fun d => (generate d {}).toOption).any
      (fun out => out.operations.map OperationTypes.params == [some "GetItemParams"] &&
        out.types.map Declaration.content ==
          ["export interface GetItemParams \x7b\n  id: unknown;\n  id?: unknown;\n\x7d"]) =
      true := by
    decide +kernel
  obtain ⟨d, out, hd, hout, htest⟩ := exists_output_of_any hrun
  rw [Bool.and_eq_true, beq_iff_eq, beq_iff_eq] at htest
  exact ⟨d, out, hd, hout, htest⟩

theorem generate_parameters_nodup_iff_clashTree :
    ∃ d out, Document.ofTree clashTree = .ok d ∧ generate d {} = .ok out ∧
      ∃ t ∈ out.types, ∃ fields, t.ListsFields fields ∧ ¬(fields.map ObjectField.key).Nodup ∧
        t.content =
          "export interface GetItemParams \x7b\n  id: unknown;\n  id?: unknown;\n\x7d" := by
  have hkeys : (Document.ofTree clashTree).toOption.all fun d =>
      (Filter.compile {}).toOption.all fun filter => d.paths.all fun e =>
        e.2.operations.all fun m => (Gen.operationParameters ⟨.of d.tree, {}, filter⟩ e.2 m.2 e.1
          (Pointer.descend "#/paths" [e.1, m.1.name])).toOption.map
            (fun listed => listed.map Gen.LocatedParameter.key) ==
          some [(.path, "id"), (.query, "id")] := by
    decide +kernel
  obtain ⟨d, out, hd, hout, hparams, hcontents⟩ := generate_clashTree
  obtain ⟨types, htypes, hname⟩ :
      ∃ types ∈ out.operations, types.params = some "GetItemParams" := by
    rw [← List.mem_map, hparams]
    exact List.mem_singleton_self _
  obtain ⟨filter, hfilter, hinterface⟩ := generate_parameters_nodup_iff hout
  obtain ⟨item, o, listed, hitem, ho, hlisted, t, ht, fields, -, hlists, -, -, hnodup⟩ :=
    hinterface types htypes _ hname
  have hcontent : t.content ∈ out.types.map Declaration.content := List.mem_map_of_mem ht
  rw [hcontents, List.mem_singleton] at hcontent
  rw [hd, show Filter.compile {} = .ok filter from hfilter] at hkeys
  have hlist : listed.map Gen.LocatedParameter.key = [(.path, "id"), (.query, "id")] := by
    have hall := List.all_eq_true.mp (List.all_eq_true.mp hkeys _ hitem) _ ho
    rw [hlisted] at hall
    exact Option.some.inj (beq_iff_eq.mp hall)
  obtain ⟨a, rest, rfl, ha, hrest⟩ := List.map_eq_cons_iff.mp hlist
  obtain ⟨b, more, rfl, hb, -⟩ := List.map_eq_cons_iff.mp hrest
  refine ⟨d, out, hd, hout, t, ht, fields, hlists, fun hdistinct => ?_, hcontent⟩
  have hsame := (hnodup rfl).mp hdistinct a List.mem_cons_self b
    (List.mem_cons_of_mem _ List.mem_cons_self)
  obtain ⟨halocation, haname⟩ := Prod.mk.inj ha
  obtain ⟨hblocation, hbname⟩ := Prod.mk.inj hb
  rw [Gen.LocatedParameter.IsSent, Gen.LocatedParameter.IsSent, halocation, hblocation] at hsame
  exact nomatch hsame nofun nofun (haname.trans hbname.symm)

end OpenApiTs
