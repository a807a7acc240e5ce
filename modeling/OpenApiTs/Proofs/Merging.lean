import Mathlib.Data.List.Induction
import OpenApiTs.Proofs.Branches
import OpenApiTs.Proofs.Parameters

/-!
# Interfaces of merged parameters

The parameters of a path and of an operation become one interface. What it has fields for can be
said without merging: the locations and names of the sent parameters, each where it occurs first,
and for each of them the last parameter that has it. The types of these parameters are found one
after the other, each in the state that the types before it lead to and below the pointer of its own
parameter. The interface is declared once all of them are there, under a name that no type can
mention, so that it depends on all that its types mention.

## Main definitions

* `Gen.LocatedParameter.IsLastIn`, `Gen.Merges`: which parameters are left of a list.
* `Gen.parameterUse`, `Gen.LocatedParameter.docs`: the type and the comment of a parameter.
* `Gen.LocatedParameter.line`: the line of the interface for a parameter.
* `Gen.FindsTypes`: the types of parameters, with the states between them.

## Main results

* `Gen.merges_mergeAll`, `Gen.Merges.eq_of_merges`: merging leaves these parameters.
* `Gen.run_mapM_parameterField_iff`: the fields that a run builds of these types.
* `Setting.Reaches.parameters_interface`: when an operation has an interface of parameters, and
  what it is.
-/

namespace OpenApiTs

namespace Gen

/-! ### What is left of a list of parameters -/

/-- A sent parameter of the list after which none has its location and name. -/
def LocatedParameter.IsLastIn (m : LocatedParameter) (listed : List LocatedParameter) : Prop :=
  m.IsSent ∧ ∃ before after, listed = before ++ m :: after ∧ ∀ l ∈ after, l.key ≠ m.key

/-- The locations and names of the sent parameters of a list, each where it occurs first and with
the last parameter that has it. -/
structure Merges (listed merged : List LocatedParameter) : Prop where
  keys : merged.map LocatedParameter.key =
    ((listed.filter fun l => l.IsSent).map LocatedParameter.key).eraseDups
  last : ∀ m ∈ merged, m.IsLastIn listed

namespace LocatedParameter.IsLastIn

variable {a b m l : LocatedParameter} {listed : List LocatedParameter}

/-- A parameter with another location or name can follow. -/
theorem append_of_ne (h : m.IsLastIn listed) (hne : l.key ≠ m.key) :
    m.IsLastIn (listed ++ [l]) := by
  obtain ⟨hsent, before, after, rfl, hafter⟩ := h
  refine ⟨hsent, before, after ++ [l], by rw [List.append_assoc, List.cons_append], ?_⟩
  exact List.forall_mem_append.mpr ⟨hafter, List.forall_mem_singleton.mpr hne⟩

theorem append_self (h : l.IsSent) : l.IsLastIn (listed ++ [l]) :=
  ⟨h, listed, [], rfl, List.forall_mem_nil _⟩

/-- Only one parameter is the last with its location and name. -/
theorem eq_of_key_eq (ha : a.IsLastIn listed) (hb : b.IsLastIn listed) (hkey : a.key = b.key) :
    a = b := by
  obtain ⟨-, before, after, rfl, hafter⟩ := ha
  obtain ⟨-, before', after', heq, hafter'⟩ := hb
  rcases List.append_eq_append_iff.mp heq with ⟨more, -, hmore⟩ | ⟨more, -, hmore⟩
  · cases more with
    | nil => exact (List.cons.inj hmore).1
    | cons c more =>
      refine absurd hkey.symm (hafter b ?_)
      rw [(List.cons.inj hmore).2]
      exact List.mem_append_right more List.mem_cons_self
  · cases more with
    | nil => exact (List.cons.inj hmore).1.symm
    | cons c more =>
      refine absurd hkey (hafter' a ?_)
      rw [(List.cons.inj hmore).2]
      exact List.mem_append_right more List.mem_cons_self

theorem eq_of_map_key_eq {as bs : List LocatedParameter} (ha : ∀ a ∈ as, a.IsLastIn listed)
    (hb : ∀ b ∈ bs, b.IsLastIn listed)
    (hkeys : as.map LocatedParameter.key = bs.map LocatedParameter.key) : as = bs := by
  induction as generalizing bs with
  | nil => exact (List.map_eq_nil_iff.mp hkeys.symm).symm
  | cons a as ih =>
    cases bs with
    | nil => cases hkeys
    | cons b bs =>
      obtain ⟨ha, has⟩ := List.forall_mem_cons.mp ha
      obtain ⟨hb, hbs⟩ := List.forall_mem_cons.mp hb
      obtain ⟨hkey, hkeys⟩ := List.cons.inj hkeys
      rw [ha.eq_of_key_eq hb hkey, ih has hbs hkeys]

end LocatedParameter.IsLastIn

/-- One more parameter takes the place of the one with its location and name. -/
theorem eq_or_mem_of_mem_mergeParameter {l m : LocatedParameter} {merged : List LocatedParameter}
    (hnodup : (merged.map LocatedParameter.key).Nodup) (h : m ∈ mergeParameter l merged) :
    m = l ∨ m ∈ merged ∧ l.key ≠ m.key := by
  induction merged with
  | nil => exact .inl (List.mem_singleton.mp h)
  | cons q rest ih =>
    rw [List.map_cons, List.nodup_cons] at hnodup
    rw [mergeParameter] at h
    by_cases hkey : q.key = l.key
    · rw [if_pos ((q.sameKey_iff l).mpr hkey)] at h
      refine (List.mem_cons.mp h).imp_right fun hm => ⟨List.mem_cons_of_mem q hm, fun hne => ?_⟩
      exact hnodup.1 (hkey.trans hne ▸ List.mem_map_of_mem hm)
    · rw [if_neg (mt (q.sameKey_iff l).mp hkey)] at h
      rcases List.mem_cons.mp h with rfl | h
      · exact .inr ⟨List.mem_cons_self, Ne.symm hkey⟩
      · exact (ih hnodup.2 h).imp_right fun hm => ⟨List.mem_cons_of_mem q hm.1, hm.2⟩

/-- Merging leaves the last parameters, in the order in which their locations and names first
occur. -/
theorem merges_mergeAll (listed : List LocatedParameter) : Merges listed (mergeAll listed []) := by
  induction listed using List.reverseRecOn with
  | nil => exact ⟨rfl, List.forall_mem_nil _⟩
  | append_singleton listed l ih =>
    rw [mergeAll_append, mergeAll_cons]
    change Merges _ (if l.IsSent then mergeParameter l (mergeAll listed []) else mergeAll listed [])
    by_cases hsent : l.IsSent
    · rw [if_pos hsent]
      refine ⟨?_, fun m hm => ?_⟩
      · have hfilter : [l].filter (fun l => decide l.IsSent) = [l] :=
          List.filter_eq_self.mpr (List.forall_mem_singleton.mpr (decide_eq_true hsent))
        rw [keys_mergeParameter, ih.keys, List.filter_append, hfilter, List.map_append,
          List.map_singleton, eraseDups_append_singleton]
        simp only [List.mem_eraseDups]
      · have hnodup := (keys_mergeAll listed [] List.nodup_nil).1
        rcases eq_or_mem_of_mem_mergeParameter hnodup hm with rfl | ⟨hm, hne⟩
        · exact .append_self hsent
        · exact (ih.last m hm).append_of_ne hne
    · rw [if_neg hsent]
      refine ⟨?_, fun m hm => (ih.last m hm).append_of_ne fun heq => ?_⟩
      · have hfilter : [l].filter (fun l => decide l.IsSent) = [] :=
          List.filter_eq_nil_iff.mpr (List.forall_mem_singleton.mpr (mt of_decide_eq_true hsent))
        rw [ih.keys, List.filter_append, hfilter, List.append_nil]
      · have hlocation : l.parameter.location = m.parameter.location := (Prod.mk.inj heq).1
        rw [LocatedParameter.IsSent, hlocation] at hsent
        exact hsent (ih.last m hm).1

/-- Nothing else is left of a list. -/
theorem Merges.eq_of_merges {listed merged merged' : List LocatedParameter}
    (h : Merges listed merged) (h' : Merges listed merged') : merged = merged' :=
  LocatedParameter.IsLastIn.eq_of_map_key_eq h.last h'.last (h.keys.trans h'.keys.symm)

/-- Something is left exactly if some parameter is sent. -/
theorem Merges.eq_nil_iff {listed merged : List LocatedParameter} (h : Merges listed merged) :
    merged = [] ↔ ∀ l ∈ listed, ¬l.IsSent := by
  have hkeys : merged = [] ↔
      ∀ k, k ∉ ((listed.filter fun l => l.IsSent).map LocatedParameter.key).eraseDups := by
    rw [← h.keys, ← List.eq_nil_iff_forall_not_mem, List.map_eq_nil_iff]
  simp only [hkeys, List.mem_eraseDups]
  rw [← List.eq_nil_iff_forall_not_mem, List.map_eq_nil_iff, List.filter_eq_nil_iff]
  simp only [decide_eq_true_eq]

/-! ### Fields of parameters -/

variable (run : Setting) (raw : String)

/-- The comment of the field of a parameter: what the parameter says itself, or else its schema. -/
def LocatedParameter.docs (m : LocatedParameter) : String :=
  let texts :=
    Setting.description m.parameter.description ++ Setting.deprecation m.parameter.deprecated
  if texts = [] then (m.parameter.schema.map (SchemaNode.fieldDocs run)).getD ""
  else run.comment texts "  "

/-- The type of a parameter: that of its schema, which stands below the parameter's own pointer.
Without a schema it is the type of every value. -/
def parameterUse (m : LocatedParameter) : Gen TypeUse :=
  match m.parameter.schema with
  | some node =>
    typeOf run node (Pointer.child m.pointer "schema") (Naming.compose [raw, m.parameter.name])
  | none => pure .unknown

/-- The line of the interface for a parameter of a type: its comment, its name as a key, with a
question mark unless it is required or in the path, and the text of the type. -/
def LocatedParameter.line (m : LocatedParameter) (use : TypeUse) : String :=
  m.docs run ++ "  " ++ run.config.naming.fieldName m.parameter.name ++
    (if m.parameter.required = true ∨ m.parameter.location = .path then "" else "?") ++ ": " ++
      use.text ++ ";\n"

/-- The types of parameters, found one after the other. -/
inductive FindsTypes : Progress → List LocatedParameter → List TypeUse → Progress → Prop
  | nil (p) : FindsTypes p [] [] p
  | cons {p q r m use rest uses} (h : (parameterUse run raw m).run.run p = (.ok use, q))
      (hrest : FindsTypes q rest uses r) : FindsTypes p (m :: rest) (use :: uses) r

variable {run raw} {p q r : Progress} {m : LocatedParameter} {merged : List LocatedParameter}
  {uses : List TypeUse}

/-- The field of a parameter of a type. -/
def LocatedParameter.field (run : Setting) (m : LocatedParameter) (use : TypeUse) :
    ObjectField where
  key := run.config.naming.fieldName m.parameter.name
  optional := !(m.parameter.required || m.parameter.location == .path)
  use := use
  docs := m.docs run

theorem line_field (m : LocatedParameter) (use : TypeUse) :
    (m.field run use).line = m.line run use := by
  have hmark : (if (!(m.parameter.required || m.parameter.location == .path)) = true then "?"
      else "") =
      if m.parameter.required = true ∨ m.parameter.location = .path then "" else "?" := by
    simp only [Bool.not_eq_true', Bool.or_eq_false_iff, beq_eq_false_iff_ne]
    by_cases h : m.parameter.required = true ∨ m.parameter.location = .path
    · rw [if_pos h, if_neg]
      rintro ⟨hrequired, hpath⟩
      exact h.elim (fun h => Bool.noConfusion (hrequired.symm.trans h)) hpath
    · rw [if_neg h, if_pos]
      exact ⟨Bool.eq_false_iff.mpr fun hrequired => h (.inl hrequired), fun hpath => h (.inr hpath)⟩
  rw [ObjectField.line, ObjectField.text, LocatedParameter.field, LocatedParameter.line, ← hmark]
  simp only [String.append_assoc]

theorem parameterField_eq (m : LocatedParameter) :
    parameterField run raw m = parameterUse run raw m >>= fun use => pure (m.field run use) := by
  have hdocs (f : ObjectField)
      (hf : f.docs = (m.parameter.schema.map (SchemaNode.fieldDocs run)).getD "") :
      (if (Setting.description m.parameter.description ++
          Setting.deprecation m.parameter.deprecated).isEmpty then f
        else { f with docs := run.comment (Setting.description m.parameter.description ++
          Setting.deprecation m.parameter.deprecated) "  " }) = { f with docs := m.docs run } := by
    rw [LocatedParameter.docs, ← hf]
    split
    · next hempty => rw [if_pos (List.isEmpty_iff.mp hempty)]
    · next hempty => rw [if_neg (mt List.isEmpty_iff.mpr hempty)]
  unfold parameterField parameterUse
  dsimp only
  cases hschema : m.parameter.schema with
  | none =>
    rw [hschema] at hdocs
    dsimp only
    rw [pure_bind, pure_bind, hdocs _ rfl]
    rfl
  | some node =>
    rw [hschema] at hdocs
    dsimp only
    unfold field typeOf
    rw [bind_assoc]
    refine bind_congr fun use => ?_
    rw [pure_bind, hdocs]
    · rfl
    · cases node <;> rfl

theorem run_parameterField_iff {f : ObjectField} :
    (parameterField run raw m).run.run p = (.ok f, q) ↔
      ∃ use, (parameterUse run raw m).run.run p = (.ok use, q) ∧ m.field run use = f := by
  rw [parameterField_eq, run_bind_eq_ok_iff]
  constructor
  · rintro ⟨use, _, huse, hf⟩
    cases hf
    exact ⟨use, huse, rfl⟩
  · rintro ⟨use, huse, rfl⟩
    exact ⟨use, q, huse, rfl⟩

/-- The fields that a run builds are those of the types that it finds. -/
theorem run_mapM_parameterField_iff {fields : List ObjectField} :
    (merged.mapM (parameterField run raw)).run.run p = (.ok fields, r) ↔
      ∃ uses, FindsTypes run raw p merged uses r ∧
        List.zipWith (LocatedParameter.field run) merged uses = fields := by
  induction merged generalizing p fields with
  | nil =>
    rw [List.mapM_nil]
    constructor
    · intro h
      cases h
      exact ⟨[], .nil _, rfl⟩
    · rintro ⟨_, ⟨⟩, rfl⟩
      rfl
  | cons m rest ih =>
    rw [List.mapM_cons, run_bind_eq_ok_iff]
    constructor
    · rintro ⟨f, q, hf, h⟩
      obtain ⟨fs, r', hfs, hpure⟩ := run_bind_eq_ok_iff.mp h
      cases hpure
      obtain ⟨use, huse, rfl⟩ := run_parameterField_iff.mp hf
      obtain ⟨uses, huses, rfl⟩ := ih.mp hfs
      exact ⟨use :: uses, .cons huse huses, rfl⟩
    · rintro ⟨_, ⟨⟩ | ⟨huse, huses⟩, rfl⟩
      refine ⟨_, _, run_parameterField_iff.mpr ⟨_, huse, rfl⟩, ?_⟩
      exact run_bind_eq_ok_iff.mpr ⟨_, _, ih.mpr ⟨_, huses, rfl⟩, rfl⟩

namespace FindsTypes

/-- The types of the fields are those that are found. -/
theorem map_use_field (h : FindsTypes run raw p merged uses r) :
    (List.zipWith (LocatedParameter.field run) merged uses).map ObjectField.use = uses := by
  induction h with
  | nil p => rfl
  | @cons _ _ _ _ use _ _ _ _ ih => exact congrArg (use :: ·) ih

/-- While types are found, a run stays sound, and what they mention are names of pointers. -/
theorem knows (hp : (UseLaw.mentions run).Sound p) (h : FindsTypes run raw p merged uses r) :
    (UseLaw.mentions run).Sound r ∧ ∀ use ∈ uses, r.Knows use.mentions := by
  have hkept := Keeps.mapM merged fun m _ =>
    (UseLaw.mentions run).keeps_parameterField (p := m) (fun _ => trivial) raw
  obtain ⟨hr, -, -, hfields⟩ :=
    (hkept p hp.ready).of_ok (run_mapM_parameterField_iff.mpr ⟨uses, h, rfl⟩)
  refine ⟨hr.toSound, fun use huse => ?_⟩
  rw [← h.map_use_field] at huse
  obtain ⟨f, hf, rfl⟩ := List.mem_map.mp huse
  obtain ⟨m, hfield⟩ := exists_of_mem_right (hfields r (le_refl r)) hf
  rcases hfield.use with hunknown | ⟨node, location, hholds⟩
  · rw [hunknown]
    exact nofun
  · exact hholds

end FindsTypes

/-! ### The interface -/

variable {item : PathItem} {o : Operation} {path pointer name n : String}

/-- The interface of parameters of these types. -/
def interfaceOf (run : Setting) (merged : List LocatedParameter) (uses : List TypeUse)
    (source name : String) : Declaration :=
  parametersDeclaration (List.zipWith (LocatedParameter.field run) merged uses) source name

theorem content_interfaceOf (source : String) :
    (interfaceOf run merged uses source n).content =
      "export interface " ++ n ++ " \x7b\n" ++
        String.join (List.zipWith (LocatedParameter.line run) merged uses) ++ "\x7d" := by
  rw [interfaceOf, parametersDeclaration, List.map_zipWith]
  simp only [line_field]

/-- An interface under a name that no type mentions depends on all that its types mention. -/
theorem dependencies_interfaceOf (hfound : FindsTypes run raw p merged uses r)
    (source : String) (h : ∀ use ∈ uses, n ∉ use.mentions) :
    ((interfaceOf run merged uses source n).dropDependency n).dependencies =
      (uses.flatMap TypeUse.mentions).eraseDups := by
  have hunion := Names.foldl_union_eraseDups (fun f : ObjectField => f.use.mentions)
    (List.zipWith (LocatedParameter.field run) merged uses) []
  have hmentions : (List.zipWith (LocatedParameter.field run) merged uses).flatMap
      (fun f => f.use.mentions) = uses.flatMap TypeUse.mentions := by
    rw [← hfound.map_use_field, List.flatMap_map, hfound.map_use_field]
  rw [List.eraseDups_nil, List.nil_append, hmentions] at hunion
  change (List.foldl _ [] _).filter (· != n) = _
  rw [hunion, List.filter_eq_self]
  intro mention hmention
  rw [List.mem_eraseDups, List.mem_flatMap] at hmention
  obtain ⟨use, huse, hmention⟩ := hmention
  rw [bne_iff_ne]
  rintro rfl
  exact h use huse hmention

/-- Once its types are found, an interface only needs a name. -/
theorem run_parametersName (hall : allParameters run item o path pointer = .ok merged)
    (hne : merged ≠ [])
    (hfound : FindsTypes run (Naming.compose [name, "Params"]) p merged uses r) :
    (parametersName run item o path pointer name).run.run p =
      match r.registry.reserve
        (run.config.naming.typeName (Naming.compose [name, "Params"])) with
      | .ok (n, registry) =>
        (.ok (some n), r.declared registry n
          (interfaceOf run merged uses (Pointer.child pointer "parameters") n))
      | .error ⟨base, attempts⟩ => (.error (.exhausted base attempts), r) := by
  have hempty : ¬merged.isEmpty = true := mt List.isEmpty_iff.mp hne
  unfold parametersName
  rw [hall]
  change (if merged.isEmpty then pure none else _ : Gen (Option String)).run.run p = _
  rw [if_neg hempty]
  dsimp only
  rw [run_bind, run_mapM_parameterField_iff.mpr ⟨uses, hfound, rfl⟩]
  dsimp only
  rw [map_eq_pure_bind, run_bind, run_declare]
  rcases r.registry.reserve (run.config.naming.typeName (Naming.compose [name, "Params"])) with
    ⟨base, attempts⟩ | ⟨n, registry⟩ <;> rfl

end Gen

namespace Setting.Reaches

variable {run : Setting} {p : Progress}

/-- If the entries of a path and of an operation stand for parameters, the interface is that of the
merged parameters. Once their types are found, there is no interface if no parameter is sent. Else
it gets a name, unless all are taken, has a line for each parameter, and depends on what the types
mention. -/
theorem parameters_interface (hp : run.Reaches p) {item : PathItem} {o : Operation}
    {path pointer name : String} {listed : List Gen.LocatedParameter}
    (hlisted : Gen.operationParameters run item o path pointer = .ok listed) :
    ∃ merged, Gen.Merges listed merged ∧
      ∀ uses r, Gen.FindsTypes run (Naming.compose [name, "Params"]) p merged uses r →
        ((∀ l ∈ listed, ¬l.IsSent) →
          (Gen.parametersName run item o path pointer name).run.run p = (.ok none, p)) ∧
        ((∃ l ∈ listed, l.IsSent) →
          match r.registry.uniqueName
            (run.config.naming.typeName (Naming.compose [name, "Params"])) with
          | .error e =>
            (Gen.parametersName run item o path pointer name).run.run p =
              (.error (.exhausted e.base e.attempts), r)
          | .ok n =>
            ∃ q d, (Gen.parametersName run item o path pointer name).run.run p = (.ok (some n), q) ∧
              q.registry.lookup? n = some d ∧ d.name = n ∧ d.kind = .interface ∧
              d.content = "export interface " ++ n ++ " \x7b\n" ++
                String.join (List.zipWith (Gen.LocatedParameter.line run) merged uses) ++ "\x7d" ∧
              d.dependencies = (uses.flatMap TypeUse.mentions).eraseDups) := by
  have hmerged := Gen.merges_mergeAll listed
  have hall : Gen.allParameters run item o path pointer = .ok (Gen.mergeAll listed []) := by
    rw [Gen.allParameters_eq, hlisted]
    rfl
  refine ⟨_, hmerged, fun uses r huses => ⟨fun hnone => ?_, fun ⟨l, hl, hsent⟩ => ?_⟩⟩
  · unfold Gen.parametersName
    rw [hall, hmerged.eq_nil_iff.mpr hnone]
    rfl
  · have hne : Gen.mergeAll listed [] ≠ [] := fun hnil => hmerged.eq_nil_iff.mp hnil l hl hsent
    have hsound : (UseLaw.mentions run).Sound p := hp.sound fun _ _ => trivial
    obtain ⟨hr, hknown⟩ := huses.knows hsound
    have hrun := Gen.run_parametersName hall hne huses
    rw [Registry.reserve] at hrun
    cases hname : r.registry.uniqueName
      (run.config.naming.typeName (Naming.compose [name, "Params"])) with
    | error e =>
      rw [hname] at hrun
      exact hrun
    | ok n =>
      rw [hname] at hrun
      refine ⟨_, _, hrun, (Registry.lookup?_fulfill _ _ n).trans (if_pos rfl), rfl, rfl,
        Gen.content_interfaceOf (Pointer.child pointer "parameters"), ?_⟩
      refine Gen.dependencies_interfaceOf huses _ fun use huse hmention => ?_
      obtain ⟨P, hP⟩ := hknown use huse n hmention
      exact Registry.uniqueName_not_taken hname (hr.orderly.taken hP)

/-- A run on a tree with a parameter that operations can refer to. -/
def pageRun : Setting :=
  ⟨.of (.object [("components", .object [
    ("parameters", .object [("Page", .object [
      ("name", .string "page"), ("in", .string "query"), ("deprecated", .bool true),
      ("schema", .object [("$ref", .string "#/components/schemas/Size")])])]),
    ("schemas", .object [("Size", .object [("type", .string "integer")])])])]), {}, {}⟩

/-- A path with a parameter in it and two in the query, one of them of the same name. -/
def pageItem : PathItem :=
  { parameters := [
      .item { name := "page", location := .query, required := true },
      .item { name := "id", location := .path },
      .item { name := "id", location := .query }] }

/-- An operation that has these in its query in its own way, and a cookie of the same name. -/
def pageOperation : Operation :=
  { parameters := [
      .item { name := "id", location := .cookie, required := true },
      .item { name := "id", location := .query, required := true },
      .reference "#/components/parameters/Page"] }

/-- What the entries of both stand for. -/
def pageParameters : List Gen.LocatedParameter := [
  ⟨{ name := "page", location := .query, required := true }, "#/paths/~1list/parameters/0"⟩,
  ⟨{ name := "id", location := .path }, "#/paths/~1list/parameters/1"⟩,
  ⟨{ name := "id", location := .query }, "#/paths/~1list/parameters/2"⟩,
  ⟨{ name := "id", location := .cookie, required := true }, "#/paths/~1list/get/parameters/0"⟩,
  ⟨{ name := "id", location := .query, required := true }, "#/paths/~1list/get/parameters/1"⟩,
  ⟨{ name := "page", location := .query, deprecated := true
     schema := some (.reference "#/components/schemas/Size") }, "#/components/parameters/Page"⟩]

theorem parameters_interface_pageOperation :
    pageRun.Reaches {} ∧
      Gen.operationParameters pageRun pageItem pageOperation "/list" "#/paths/~1list/get" =
        .ok pageParameters ∧
      ∃ q d, (Gen.parametersName pageRun pageItem pageOperation "/list" "#/paths/~1list/get"
          "List").run.run {} = (.ok (some "ListParams"), q) ∧
        q.registry.lookup? "ListParams" = some d ∧ d.kind = .interface ∧
        d.content = "export interface ListParams \x7b\n" ++
          "  /** @deprecated */\n  page?: Size;\n  id: unknown;\n  id: unknown;\n\x7d" ∧
        d.dependencies = ["Size"] := by
  have hlisted : Gen.operationParameters pageRun pageItem pageOperation "/list"
      "#/paths/~1list/get" = .ok pageParameters := by
    rfl
  have huses : Gen.FindsTypes pageRun (Naming.compose ["List", "Params"]) {}
      (Gen.mergeAll pageParameters []) [.named "Size", .unknown, .unknown] _ :=
    .cons (Prod.ext (by rfl) rfl) (.cons rfl (.cons rfl (.nil _)))
  obtain ⟨merged, hmerged, hinterface⟩ := parameters_interface .start hlisted
  obtain rfl := hmerged.eq_of_merges (Gen.merges_mergeAll pageParameters)
  obtain ⟨-, hsent⟩ := hinterface _ _ huses
  obtain ⟨q, d, hrun, hlookup, -, hkind, hcontent, hdependencies⟩ :=
    hsent ⟨_, List.mem_cons_self, by decide⟩
  exact ⟨.start, hlisted, q, d, hrun, hlookup, hkind, hcontent.trans (by decide +kernel),
    hdependencies.trans rfl⟩

end Setting.Reaches

end OpenApiTs
