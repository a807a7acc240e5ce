import OpenApiTs.Proofs.Calls
import OpenApiTs.Proofs.Legibility
import OpenApiTs.Proofs.NameTexts

/-!
# Where null is written

A schema admits null by a flag, by a list of types, by its values or by a branch, and null is
written by whatever makes its text: at the use of an interface or an enumeration, in the alias of
anything else, or at the end of the members of a union. Each of these looks at the text that it is
given, so that null is written once. The texts of all rules are tidy: this is the law that runs
obey, from which the place of null follows for types and for declarations.

Names are taken to be made of identifier characters, and custom targets, which can be any text, are
left out.

## Main definitions

* `SchemaNode.rendersNull`: the nodes that are written as null alone.
* `Setting.Plain`: runs without custom targets, whose names are made of identifier characters.
* `TypeUse.Places`: what the text of a node says of null.
* `UseLaw.nulls`: the law of null.
* `NullFree`, `NullInAlias`: null in the text of a declaration.

## Main results

* `NodeUse.places`, `Makes.nullFree`, `Makes.nullInAlias`: each rule for types and declarations.
* `Setting.Reaches.null_once`: null is written in one place.
-/

namespace OpenApiTs

/-! ### Nodes that are null alone -/

namespace Schema

/-- No union, and of null alone by its type or as a constant. -/
def isNullAlone (s : Schema) : Bool :=
  match s.shape with
  | .scalars types => types == [.null]
  | .constant => s.constant.any Json.isNull
  | _ => false

end Schema

namespace SchemaNode

/-- A branch of null alone. -/
def isNullAlone : SchemaNode → Bool
  | .schema s => s.isNullAlone
  | _ => false

/-- A branch that adds no member to a union: of null alone, or of no value. -/
def isHollow : SchemaNode → Bool
  | .schema s => s.isNullAlone
  | .boolean allowed => !allowed
  | .reference _ => false

end SchemaNode

namespace Schema

/-- A union in its place whose branches add no members. -/
def isHollowUnion (s : Schema) : Bool :=
  s.shape == .union && s.placement == .inPlace && s.branches.all SchemaNode.isHollow

theorem isHollowUnion_of_shape (s : Schema) (h : s.shape ≠ .union) : s.isHollowUnion = false := by
  rw [isHollowUnion, beq_false_of_ne h]
  rfl

/-- Whether a union has a branch of null alone, or admits null by itself. -/
def collectsNull (s : Schema) : Bool := s.isNullable || s.branches.any SchemaNode.isNullAlone

end Schema

namespace SchemaNode

/-- A node whose type is written as null alone. -/
def rendersNull : SchemaNode → Bool
  | .schema s => s.isNullAlone || (s.isHollowUnion && s.collectsNull)
  | _ => false

/-- A node whose type is written as that of no value. -/
def rendersNever : SchemaNode → Bool
  | .schema s => s.isHollowUnion && !s.collectsNull
  | .boolean allowed => !allowed
  | .reference _ => false

end SchemaNode

/-- A union that is used by the name of its declaration. -/
def Schema.IsDeclaredUnion (s : Schema) : Prop := s.shape = .union ∧ s.placement = .byName

instance (s : Schema) : Decidable s.IsDeclaredUnion := inferInstanceAs (Decidable (_ ∧ _))

/-! ### Members of unions -/

namespace Gen.Members

variable {m : Members} {use : TypeUse} {null : Bool}

/-- What one more tidy text adds to solid members. -/
theorem add_of_tidy (hm : ∀ t ∈ m.texts, Solid t) (h : Tidy use.text null) :
    (∀ t ∈ (m.add use).texts, Solid t) ∧ (m.add use).nullable = (m.nullable || null) ∧
      ((m.add use).texts = [] ↔ m.texts = [] ∧ (use.text = "null" ∨ use.text = "never")) := by
  have hadd {text : String} (ht : Solid text) :
      (∀ t ∈ Names.add m.texts text, Solid t) ∧ Names.add m.texts text ≠ [] := by
    constructor
    · intro t hmem
      rcases Names.mem_add.mp hmem with hmem | rfl
      · exact hm t hmem
      · exact ht
    · exact List.ne_nil_of_mem (Names.mem_add.mpr (.inr rfl))
  obtain ⟨text, mentions⟩ := use
  dsimp only at h ⊢
  unfold add
  dsimp only
  cases h with
  | solid h =>
    obtain ⟨hsolid, hne⟩ := hadd h
    rw [h.dropSuffix?_null]
    dsimp only
    rw [if_neg (beq_false_of_ne h.ne_null ▸ Bool.false_ne_true),
      if_neg (beq_false_of_ne h.ne_never ▸ Bool.false_ne_true)]
    refine ⟨hsolid, (Bool.or_false _).symm, iff_of_false hne ?_⟩
    rintro ⟨-, hnull | hnever⟩
    · exact h.ne_null hnull
    · exact h.ne_never hnever
  | never => exact ⟨hm, (Bool.or_false _).symm, (and_iff_left (.inr rfl)).symm⟩
  | null => exact ⟨hm, (Bool.or_true _).symm, (and_iff_left (.inl rfl)).symm⟩
  | @orNull t h =>
    obtain ⟨hsolid, hne⟩ := hadd h
    have hfilled := Filled.orNull h
    rw [Text.dropSuffix?_append]
    refine ⟨hsolid, (Bool.or_true _).symm, iff_of_false hne ?_⟩
    rintro ⟨-, hnull | hnever⟩
    · exact hfilled.ne_null hnull
    · exact hfilled.ne_never hnever

/-- The members of tidy texts. -/
theorem foldl_of_tidy {uses : List TypeUse} (h : ∀ use ∈ uses, ∃ null, Tidy use.text null)
    (hm : ∀ t ∈ m.texts, Solid t) :
    (∀ t ∈ (uses.foldl add m).texts, Solid t) ∧
      ((uses.foldl add m).nullable = true ↔
        m.nullable = true ∨ ∃ use ∈ uses, "null" ∈ alternatives use.text) ∧
      ((uses.foldl add m).texts = [] ↔
        m.texts = [] ∧ ∀ use ∈ uses, use.text = "null" ∨ use.text = "never") := by
  induction uses generalizing m with
  | nil => simpa using hm
  | cons use uses ih =>
    obtain ⟨⟨null, huse⟩, huses⟩ := List.forall_mem_cons.mp h
    obtain ⟨hsolid, hnullable, hempty⟩ := add_of_tidy hm huse
    obtain ⟨ihsolid, ihnullable, ihempty⟩ := ih huses hsolid
    rw [List.foldl_cons, ihnullable, ihempty, hnullable, hempty, List.exists_mem_cons_iff,
      List.forall_mem_cons, huse.mem_alternatives_iff, Bool.or_eq_true, or_assoc, and_assoc]
    exact ⟨ihsolid, Iff.rfl, Iff.rfl⟩

/-- The text of solid members: null stands at its end. -/
theorem tidy_use (hm : ∀ t ∈ m.texts, Solid t) :
    Tidy m.use.text m.nullable ∧ (m.use.text = "null" ↔ m.texts = [] ∧ m.nullable = true) ∧
      (m.use.text = "never" ↔ m.texts = [] ∧ m.nullable = false) := by
  obtain ⟨texts, mentions, nullable⟩ := m
  unfold use
  dsimp only at hm ⊢
  by_cases hempty : texts = []
  · subst hempty
    have hne : "null" ≠ "never" := by decide
    cases nullable with
    | true =>
      exact ⟨.null, iff_of_true rfl ⟨rfl, rfl⟩, iff_of_false hne fun h => Bool.noConfusion h.2⟩
    | false =>
      exact ⟨.never, iff_of_false hne.symm fun h => Bool.noConfusion h.2,
        iff_of_true rfl ⟨rfl, rfl⟩⟩
  · have hsolid : Solid (" | ".intercalate texts) := .intercalate hm
    have hfilled : Filled
        (if nullable && " | ".intercalate texts != "null"
          then " | ".intercalate texts ++ " | null" else " | ".intercalate texts) nullable := by
      cases nullable with
      | false => exact .of_solid hsolid
      | true =>
        rw [bne_iff_ne.mpr hsolid.ne_null]
        exact .orNull hsolid
    rw [if_neg (mt List.isEmpty_iff.mp hempty)]
    exact ⟨hfilled.tidy, iff_of_false hfilled.ne_null fun h => hempty h.1,
      iff_of_false hfilled.ne_never fun h => hempty h.1⟩

end Gen.Members

/-! ### Texts of nodes -/

/-- No custom targets, and names between texts of identifier characters. -/
structure Setting.Plain (run : Setting) : Prop where
  mappings : run.config.mappings = []
  before : ∀ c ∈ run.config.naming.before.toList, Naming.isIdentifierPart c = true
  after : ∀ c ∈ run.config.naming.after.toList, Naming.isIdentifierPart c = true

/-- The names of pointers are given out by the naming rules. -/
def Progress.Given (run : Setting) (p : Progress) : Prop :=
  ∀ {pointer name}, p.name? pointer = some name → run.config.naming.Gives name

/-- The text of a node is tidy. It admits null if the node does, unless null stands in the alias of
a declared union. -/
structure TypeUse.Places (node : SchemaNode) (use : TypeUse) : Prop where
  tidy : ∃ null, Tidy use.text null
  admits : ∀ s, node = .schema s → s.isNullable = true → ¬s.IsDeclaredUnion →
    "null" ∈ alternatives use.text
  null_iff : use.text = "null" ↔ node.rendersNull = true
  never_iff : use.text = "never" ↔ node.rendersNever = true

section Rules

variable {run : Setting} {p : Progress} {U : UseRelation} {s : Schema} {node : SchemaNode}
  {location pointer name : String} {use : TypeUse} {null : Bool}

theorem Setting.Plain.lettered (h : run.Plain) :
    Naming.Lettered run.config.naming.before.toList ∧
      Naming.Lettered run.config.naming.after.toList := by
  have hidentifier {text : String} (h : ∀ c ∈ text.toList, Naming.isIdentifierPart c = true) :
      Naming.Lettered text.toList := .of_forall fun c hc => by
    rw [Naming.isNameChar, h c hc, Bool.true_or]
  exact ⟨hidentifier h.before, hidentifier h.after⟩

/-- A text that is neither null alone nor that of no value. -/
theorem Filled.places (h : Filled use.text null) (hnull : node.rendersNull = false)
    (hnever : node.rendersNever = false)
    (hadmits : ∀ s, node = .schema s → s.isNullable = true → ¬s.IsDeclaredUnion → null = true) :
    use.Places node where
  tidy := ⟨null, h.tidy⟩
  admits s hs hnullable hnot := h.tidy.mem_alternatives_iff.mpr (hadmits s hs hnullable hnot)
  null_iff := iff_of_false h.ne_null (Bool.eq_false_iff.mp hnull)
  never_iff := iff_of_false h.ne_never (Bool.eq_false_iff.mp hnever)

theorem Filled.places_schema (h : Filled use.text null) (halone : s.isNullAlone = false)
    (hunion : s.isHollowUnion = false)
    (hnull : s.isNullable = true → ¬s.IsDeclaredUnion → null = true) : use.Places (.schema s) := by
  refine h.places ?_ ?_ ?_
  · rw [SchemaNode.rendersNull, halone, hunion]
    rfl
  · rw [SchemaNode.rendersNever, hunion]
    rfl
  · rintro _ ⟨⟩
    exact hnull

theorem Filled.places_orNullIf (h : Filled use.text null) (halone : s.isNullAlone = false)
    (hunion : s.isHollowUnion = false) : (use.orNullIf s.isNullable).Places (.schema s) :=
  (h.orNullIf _).places_schema halone hunion fun hnullable _ => by rw [hnullable, Bool.or_true]

section Given

variable (hplain : run.Plain) (hp : p.Given run)
include hplain hp

theorem Progress.Given.solid (hn : p.name? pointer = some name) : Solid name :=
  (hp hn).solid hplain.lettered.1 hplain.lettered.2

theorem Progress.Given.filled_ofDeclaration (hn : p.name? pointer = some name) (s : Schema) :
    Filled (TypeUse.ofDeclaration name s).text s.needsNullAtUse := by
  have hname : Filled (TypeUse.named name).text false := .of_solid (hp.solid hplain hn)
  exact hname.orNullIf _

/-- What is used by the name of its declaration has its null at the use, except for unions. -/
theorem Progress.Given.places_ofDeclaration (hs : s.placement = .byName)
    (hn : p.name? pointer = some name) : (TypeUse.ofDeclaration name s).Places (.schema s) := by
  have hshapes := s.shape_of_byName hs
  refine (hp.filled_ofDeclaration hplain hn s).places_schema ?_ ?_ fun h hnot => ?_
  · rcases hshapes with hshape | hshape | hshape <;> rw [Schema.isNullAlone, hshape]
  · rw [Schema.isHollowUnion, hs]
    exact (congrArg (· && _) (Bool.and_false _)).trans rfl
  · rw [Schema.needsNullAtUse, h, Bool.true_and]
    rcases hshapes with hshape | hshape | hshape
    · exact absurd ⟨hshape, hs⟩ hnot
    · rw [hshape]
      rfl
    · rw [hshape]
      rfl

theorem ReferenceUse.filled {reference : String} (h : ReferenceUse run p reference use) :
    ∃ null, Filled use.text null := by
  cases h with
  | excluded => exact ⟨false, .of_solid (.of_isIdentifier (by decide) (by decide) (by decide))⟩
  | @named name null _ _ hn _ =>
    have hname : Filled (TypeUse.named name).text false := .of_solid (hp.solid hplain hn)
    exact ⟨_, hname.orNullIf null⟩

section Union

variable (hU : ∀ {node location use}, U node location use → use.Places node)
include hU

/-- The text of a branch is tidy, and adds no member exactly if the branch is hollow. -/
theorem BranchUse.places (h : BranchUse p U node location use) :
    (∃ null, Tidy use.text null) ∧ (use.text = "null" ↔ node.isNullAlone = true) ∧
      (use.text = "null" ∨ use.text = "never" ↔ node.isHollow = true) := by
  cases h with
  | @declared s location name hs hn =>
    have hfilled := hp.filled_ofDeclaration hplain hn s
    have halone : s.isNullAlone = false := by
      unfold Schema.needsDeclaration at hs
      unfold Schema.isNullAlone
      split at hs <;> simp_all
    have hnot : ¬s.isNullAlone = true := Bool.eq_false_iff.mp halone
    exact ⟨⟨_, hfilled.tidy⟩, iff_of_false hfilled.ne_null hnot,
      iff_of_false (fun h => h.elim hfilled.ne_null hfilled.ne_never) hnot⟩
  | @inPlace node location use hs h =>
    have hplaces := hU h
    refine ⟨hplaces.tidy, ?_⟩
    rw [hplaces.null_iff, hplaces.never_iff]
    cases node with
    | reference => exact ⟨Iff.rfl, or_iff_left Bool.false_ne_true⟩
    | boolean allowed => exact ⟨Iff.rfl, or_iff_right Bool.false_ne_true⟩
    | schema s =>
      have hunion : s.isHollowUnion = false := by
        have hneeds := hs s rfl
        unfold Schema.needsDeclaration at hneeds
        unfold Schema.isHollowUnion
        split at hneeds <;> simp_all
      simp [SchemaNode.rendersNull, SchemaNode.rendersNever, SchemaNode.isHollow,
        SchemaNode.isNullAlone, hunion]

/-- The texts of a row of branches. -/
theorem Row.places {i : Nat} {nodes : List SchemaNode} {uses : List TypeUse}
    (h : Row (BranchUse p U) location i nodes uses) :
    (∀ use ∈ uses, ∃ null, Tidy use.text null) ∧
      ((∃ use ∈ uses, use.text = "null") ↔ nodes.any SchemaNode.isNullAlone = true) ∧
      ((∀ use ∈ uses, use.text = "null" ∨ use.text = "never") ↔
        nodes.all SchemaNode.isHollow = true) := by
  induction h with
  | nil => simp
  | cons h _ ih =>
    obtain ⟨htidy, hnull, hhollow⟩ := h.places hplain hp hU
    obtain ⟨ihtidy, ihnull, ihhollow⟩ := ih
    refine ⟨List.forall_mem_cons.mpr ⟨htidy, ihtidy⟩, ?_, ?_⟩
    · rw [List.exists_mem_cons_iff, List.any_cons, Bool.or_eq_true, hnull, ihnull]
    · rw [List.forall_mem_cons, List.all_cons, Bool.and_eq_true, hhollow, ihhollow]

/-- The text of a union is tidy and has the null that the union admits. It is null alone, or that of
no value, exactly if all branches are hollow. -/
theorem UnionUse.tidy (h : UnionUse p U s location use) :
    ∃ null, Tidy use.text null ∧ (s.isNullable = true → null = true) ∧
      (use.text = "null" ↔
        s.branches.all SchemaNode.isHollow = true ∧ s.collectsNull = true) ∧
      (use.text = "never" ↔
        s.branches.all SchemaNode.isHollow = true ∧ s.collectsNull = false) := by
  obtain @⟨uses, h⟩ := h
  obtain ⟨htidy, hnull, hhollow⟩ := h.places hplain hp hU
  obtain ⟨hsolid, hnullable, hempty⟩ :=
    Gen.Members.foldl_of_tidy (m := { nullable := s.isNullable }) htidy nofun
  obtain ⟨huse, huseNull, huseNever⟩ := Gen.Members.tidy_use hsolid
  generalize uses.foldl Gen.Members.add { nullable := s.isNullable } = m at *
  have hcollects (hall : s.branches.all SchemaNode.isHollow = true) :
      m.nullable = true ↔ s.collectsNull = true := by
    rw [hnullable, Schema.collectsNull, Bool.or_eq_true, ← hnull]
    refine or_congr_right (exists_congr fun use => and_congr_right fun hmem => ?_)
    rcases hhollow.mpr hall use hmem with htext | htext
    · exact iff_of_true (by rw [htext]; decide) htext
    · exact iff_of_false (by rw [htext]; decide) (by rw [htext]; decide)
  have hempty' : m.texts = [] ↔ s.branches.all SchemaNode.isHollow = true :=
    hempty.trans ((and_iff_right rfl).trans hhollow)
  refine ⟨_, huse, fun h => hnullable.mpr (.inl h), ?_, ?_⟩
  · rw [huseNull, hempty']
    exact and_congr_right hcollects
  · rw [huseNever, hempty', ← Bool.not_eq_true, ← Bool.not_eq_true]
    exact and_congr_right fun hall => not_congr (hcollects hall)

end Union

end Given

/-! ### Texts in their place -/

section Closed

variable (hU : ∀ {node location use}, U node location use → use.Places node)
include hU

omit hU in
theorem TypeUse.Places.closed (h : use.Places node) : Closed false use.text.toList := by
  obtain ⟨null, htidy⟩ := h.tidy
  exact htidy.closed

theorem RecordUse.solid (h : RecordUse U s location use) : Solid use.text := by
  cases h with
  | forbidden => exact .record (.of_forall_not_special (by decide))
  | @allowed index _ ha =>
    refine .record ?_
    cases index with
    | none => exact .of_forall_not_special (by decide)
    | some u => exact ha.closed (fun h => (hU h).closed) u rfl

theorem ObjectUse.solid (h : ObjectUse run U s location use) : Solid use.text := by
  cases h with
  | record _ h => exact h.solid hU
  | body _ h =>
    have hnil : IsWord [] := nofun
    obtain ⟨inner, hinner, htext⟩ :=
      Body.exists_inline_eq (h.isClosed (fun h => (hU h).closed) Body.isClosed_empty)
    exact .bracket hnil (by decide) (by decide) hinner htext

end Closed

theorem Solid.unionOf {texts : List String} (h : ∀ t ∈ texts, Solid t) :
    Solid (Gen.unionOf texts).text :=
  .intercalate fun t ht => h t ((Names.mem_union.mp ht).resolve_left List.not_mem_nil)

/-- A value other than null has a solid text. -/
theorem Json.solid_compact {value : Json} (h : value.isNull = false) : Solid value.compact := by
  have hnil : IsWord [] := nofun
  cases value with
  | null => cases h
  | bool b =>
    cases b with
    | true => exact .of_isIdentifier (by decide) (by decide) (by decide)
    | false => exact .of_isIdentifier (by decide) (by decide) (by decide)
  | number n =>
    have hnumeral : IsNumeral n.text := (numeral_number n).1
    have hne (word : String) (hword : 'n' ∈ word.toList) : n.text ≠ word := by
      intro heq
      exact absurd (hnumeral 'n' (heq ▸ hword)) (by decide)
    exact .of_isWord hnumeral.isWord (hne _ (by decide)) (hne _ (by decide))
  | string s =>
    refine .of_mem (c := '"') (Text.closed_quote s)
      (fun m hm => Scan.isBar_of_unmarked (Text.marks_quote s m hm)) ?_ (by decide)
    change '"' ∈ (Text.quote s).toList
    rw [Text.toList_quote]
    exact List.mem_cons_self
  | array elements =>
    exact .bracket hnil (by decide) (by decide) (closed_elements elements)
      (toList_compact_array elements)
  | object members =>
    exact .bracket hnil (by decide) (by decide) (closed_members members)
      (toList_compact_object members)

theorem Json.solid_literalText {value : Json} (h : value.isNull = false) :
    Solid value.literalText := by
  unfold literalText
  split
  · exact .of_isIdentifier (by decide) (by decide) (by decide)
  · exact .of_isIdentifier (by decide) (by decide) (by decide)
  · exact solid_compact h

theorem Scalar.solid_text {scalar : Scalar} (h : scalar ≠ .null) (format : Option String) :
    Solid (scalar.text format) := by
  unfold text
  split
  · split <;> exact .of_isIdentifier (by decide) (by decide) (by decide)
  · exact .of_isIdentifier (by decide) (by decide) (by decide)
  · exact .of_isIdentifier (by decide) (by decide) (by decide)
  · exact .of_isIdentifier (by decide) (by decide) (by decide)
  · exact absurd rfl h

section Places

variable (hplain : run.Plain)
include hplain

theorem Setting.Plain.scalarText (scalar : Scalar) (format : Option String) :
    run.scalarText scalar format = scalar.text format := by
  rw [Setting.scalarText, Config.targetFor?, hplain.mappings]
  rfl

variable (hU : ∀ {node location use}, U node location use → use.Places node)
include hU

theorem PlainUse.tidy (h : PlainUse run U s location use) :
    (∃ null, Tidy use.text null) ∧ use.text ≠ "never" ∧
      (use.text = "null" ↔ s.isNullAlone = true) := by
  have hsolid {use : TypeUse} (h : Solid use.text) (hnot : s.isNullAlone = false) :
      (∃ null, Tidy use.text null) ∧ use.text ≠ "never" ∧
        (use.text = "null" ↔ s.isNullAlone = true) :=
    ⟨⟨false, .solid h⟩, h.ne_never, iff_of_false h.ne_null (Bool.eq_false_iff.mp hnot)⟩
  have hnull {use : TypeUse} (h : use.text = "null") (halone : s.isNullAlone = true) :
      (∃ null, Tidy use.text null) ∧ use.text ≠ "never" ∧
        (use.text = "null" ↔ s.isNullAlone = true) := by
    rw [h]
    exact ⟨⟨true, .null⟩, by decide, iff_of_true rfl halone⟩
  cases h with
  | array hs _ h => exact hsolid (.array (hU h).closed) (by rw [Schema.isNullAlone, hs])
  | anyArray hs =>
    exact hsolid (.array (.of_forall_not_special (by decide))) (by rw [Schema.isNullAlone, hs])
  | constant hs =>
    obtain ⟨value, hvalue⟩ := Schema.constant_of_shape hs
    have halone : s.isNullAlone = value.isNull := by rw [Schema.isNullAlone, hs, hvalue]; rfl
    rw [hvalue, Option.getD_some]
    cases hisNull : value.isNull with
    | false => exact hsolid (Json.solid_literalText hisNull) (halone.trans hisNull)
    | true =>
      cases value with
      | null => exact hnull rfl (halone.trans hisNull)
      | bool | number | string | array | object => cases hisNull
  | enumeration hs =>
    refine hsolid (.unionOf (List.forall_mem_map.mpr fun value hvalue => ?_))
      (by rw [Schema.isNullAlone, hs])
    exact Json.solid_literalText (by simpa using (List.mem_filter.mp hvalue).2)
  | @scalars types hs =>
    have halone : s.isNullAlone = (types == [.null]) := by rw [Schema.isNullAlone, hs]
    rcases Schema.scalars_of_shape hs with rfl | hnot
    · refine hnull ?_ (halone.trans (by decide))
      have htext : Scalar.null.text s.format = "null" := rfl
      rw [List.map_singleton, hplain.scalarText, htext]
      decide
    · refine hsolid (.unionOf (List.forall_mem_map.mpr fun scalar hscalar => ?_))
        (halone.trans (beq_false_of_ne ?_))
      · rw [hplain.scalarText]
        exact Scalar.solid_text (fun heq => hnot (heq ▸ hscalar)) s.format
      · rintro rfl
        exact hnot List.mem_cons_self
  | unknown hs =>
    exact hsolid (.of_isIdentifier (by decide) (by decide) (by decide))
      (by rw [Schema.isNullAlone, hs])

theorem UnionUse.places (hp : p.Given run) (hs : s.shape = .union)
    (hplace : s.placement = .inPlace) (h : UnionUse p U s location use) :
    (use.orNullIf s.isNullable).Places (.schema s) := by
  obtain ⟨null, htidy, hnull, hiffNull, hiffNever⟩ := h.tidy hplain hp hU
  have halone : s.isNullAlone = false := by rw [Schema.isNullAlone, hs]
  have hhollow : s.isHollowUnion = s.branches.all SchemaNode.isHollow := by
    rw [Schema.isHollowUnion, hs, hplace]
    rfl
  rw [htidy.orNullIf_eq hnull]
  refine ⟨⟨null, htidy⟩, ?_, hiffNull.trans ?_, hiffNever.trans ?_⟩
  · rintro _ ⟨⟩ h -
    exact htidy.mem_alternatives_iff.mpr (hnull h)
  · rw [SchemaNode.rendersNull, halone, hhollow, Bool.false_or, Bool.and_eq_true]
  · rw [SchemaNode.rendersNever, hhollow, Bool.and_eq_true, Bool.not_eq_true']

theorem PlainUse.places (hs : s.shape ≠ .union) (h : PlainUse run U s location use) :
    (use.orNullIf s.isNullable).Places (.schema s) := by
  obtain ⟨⟨null, htidy⟩, hnever, hiff⟩ := h.tidy hplain hU
  have hunion := s.isHollowUnion_of_shape hs
  cases halone : s.isNullAlone with
  | false =>
    have hne : use.text ≠ "null" := fun h => Bool.eq_false_iff.mp halone (hiff.mp h)
    exact (Filled.mk htidy hne hnever).places_orNullIf halone hunion
  | true =>
    have htext := hiff.mpr halone
    have hnull : null = true := htidy.mem_alternatives_iff.mp (by rw [htext]; decide)
    rw [htidy.orNullIf_eq fun _ => hnull]
    refine ⟨⟨null, htidy⟩, fun _ _ _ _ => htidy.mem_alternatives_iff.mpr hnull,
      iff_of_true htext ?_, iff_of_false hnever ?_⟩
    · rw [SchemaNode.rendersNull, halone]
      rfl
    · rw [SchemaNode.rendersNever, hunion]
      exact Bool.false_ne_true

/-- The text of every node is tidy, and has the null that its schema admits unless this stands in
the alias of a declared union. -/
theorem NodeUse.places (hp : p.Given run) (h : NodeUse run p U node location use) :
    use.Places node := by
  cases h with
  | reference h =>
    obtain ⟨null, hfilled⟩ := h.filled hplain hp
    exact hfilled.places rfl rfl nofun
  | boolean allowed =>
    cases allowed with
    | true =>
      have hsolid : Solid "unknown" := .of_isIdentifier (by decide) (by decide) (by decide)
      exact (Filled.of_solid hsolid).places rfl rfl nofun
    | false => exact ⟨⟨false, .never⟩, nofun, by decide, by decide⟩
  | @wrapped s reference location use hs h =>
    obtain ⟨null, hfilled⟩ := h.filled hplain hp
    have hshape := s.shape_of_wrapped hs
    exact hfilled.places_orNullIf (by rw [Schema.isNullAlone, hshape])
      (s.isHollowUnion_of_shape (hshape ▸ nofun))
  | byName hs hn => exact hp.places_ofDeclaration hplain hs hn
  | union hplace hs h => exact h.places hplain hU hp hs hplace
  | @object s location use hs h =>
    exact (Filled.of_solid (h.solid hU)).places_orNullIf (by rw [Schema.isNullAlone, hs])
      (s.isHollowUnion_of_shape (hs ▸ nofun))
  | plain hm hplace h =>
    refine h.places hplain hU fun hs => ?_
    rw [hs] at hm
    rcases hm with hm | hm <;> cases hm

end Places

/-! ### Declarations -/

/-- The literals of an enumeration are its values other than null. -/
theorem Schema.not_null_of_mem_literals : ∀ value ∈ s.literals, value.isNull = false := by
  have hfold {add : List Json → Json → List Json}
      (hadd : ∀ seen value, ∀ v ∈ add seen value, v ∈ seen ∨ v = value) :
      ∀ values seen : List Json, (∀ v ∈ values, v.isNull = false) →
        (∀ v ∈ seen, v.isNull = false) → ∀ v ∈ values.foldl add seen, v.isNull = false := by
    intro values
    induction values with
    | nil => exact fun seen _ hseen => hseen
    | cons value values ih =>
      intro seen hvalues hseen
      obtain ⟨hvalue, hvalues⟩ := List.forall_mem_cons.mp hvalues
      refine ih _ hvalues fun v hv => ?_
      rcases hadd seen value v hv with hv | rfl
      · exact hseen v hv
      · exact hvalue
  unfold literals
  refine hfold (fun seen value v hv => ?_) _ [] (fun v hv => ?_) nofun
  · split at hv
    · exact .inl hv
    · rwa [List.mem_append, List.mem_singleton] at hv
  · simpa using (List.mem_filter.mp hv).2

theorem Enumeration.solid_union : Solid (Enumeration.union s.literals) :=
  .intercalate (List.forall_mem_map.mpr fun value hvalue =>
    Json.solid_compact (Schema.not_null_of_mem_literals value hvalue))

/-- Every operand of a composition is in one piece and not null. -/
structure Gen.Composition.Separate (c : Gen.Composition) : Prop where
  operands : ∀ t ∈ c.bases ++ c.others, Undivided t ∧ "null" ∉ alternatives t
  body : c.body.IsClosed

namespace Gen.Composition.Separate

variable {c : Gen.Composition} {text : String} {mentions : List String}

theorem addBase (h : c.Separate) (ht : Undivided text ∧ "null" ∉ alternatives text) :
    Separate { c with mentions := mentions, bases := c.bases ++ [text] } := by
  obtain ⟨hbases, hothers⟩ := List.forall_mem_append.mp h.operands
  refine ⟨List.forall_mem_append.mpr ⟨?_, hothers⟩, h.body⟩
  exact List.forall_mem_append.mpr ⟨hbases, List.forall_mem_singleton.mpr ht⟩

theorem addOther (h : c.Separate) (ht : Undivided text ∧ "null" ∉ alternatives text) :
    Separate { c with mentions := mentions, others := c.others ++ [text] } := by
  refine ⟨?_, h.body⟩
  rw [← List.append_assoc]
  exact List.forall_mem_append.mpr ⟨h.operands, List.forall_mem_singleton.mpr ht⟩

/-- The intersection of all operands and the body. -/
theorem not_null (h : c.Separate) {body : Body} (hbody : body.IsClosed) :
    "null" ∉ alternatives (" & ".intercalate
      (c.bases ++ c.others ++ (if body.isEmpty then [] else [body.block]))) := by
  have hblock : Undivided body.block ∧ "null" ∉ alternatives body.block := by
    obtain ⟨inner, hinner, htext⟩ := Body.exists_block_eq hbody
    have hundivided : Undivided body.block := by
      refine ⟨?_, fun m hm => Scan.isBar_of_unmarked ?_⟩
      · rw [htext]
        exact .bracket (by decide) (by decide) hinner
      · rw [htext] at hm
        exact Operand.marks_bracket '\x7b' '\x7d' (by decide) (by decide) hinner m hm
    refine ⟨hundivided, hundivided.not_null_of_mem (c := '\x7b') (by decide) (by decide) ?_⟩
    rw [htext]
    exact List.mem_cons_self
  have hall : ∀ t ∈ c.bases ++ c.others ++ (if body.isEmpty then [] else [body.block]),
      Undivided t ∧ "null" ∉ alternatives t := by
    refine List.forall_mem_append.mpr ⟨h.operands, ?_⟩
    split
    · exact nofun
    · exact List.forall_mem_singleton.mpr hblock
  exact Undivided.not_null_intercalate (fun t ht => (hall t ht).1) fun t ht => (hall t ht).2

end Gen.Composition.Separate

/-- An interface, an alias without null among the alternatives of its text, or the members of an
enumeration and an alias of their values without null. -/
inductive NullFree (run : Setting) (s : Schema) (name content : String) : Prop
  | interface {bases body} (h : content = Gen.interfaceText (run.docs s [] "") name bases body)
  | alias {text} (h : content = Gen.aliasText (run.docs s [] "") name text)
      (hnull : "null" ∉ alternatives text)
  | members {lines valuesName text}
      (h : content =
        run.docs s [] "" ++ "export enum " ++ name ++ " \x7b\n" ++ lines ++ "\x7d\n\n" ++
          Gen.aliasText "" valuesName text)
      (hnull : "null" ∉ alternatives text)

/-- An alias with null among the alternatives of its text, once and as the last. -/
def NullInAlias (run : Setting) (s : Schema) (name content : String) : Prop :=
  ∃ tags text, content = Gen.aliasText (run.docs s tags "") name text ∧
    NullLast text ∧ "null" ∈ alternatives text

section Declarations

variable (hplain : run.Plain) (hp : p.Given run)
  (hU : ∀ {node location use}, U node location use → use.Places node)
include hplain hp hU

/-- Induction on the entries of an intersection none of which is null alone. -/
theorem Composes.separate {i : Nat} {nodes : List SchemaNode} {c c' : Gen.Composition}
    (h : Composes run p U location i nodes c c')
    (hnodes : ∀ node ∈ nodes, node.rendersNull = false) (hc : c.Separate) : c'.Separate := by
  induction h with
  | nil => exact hc
  | base hr hx _ ih =>
    have hname := hr.name?_of_isExtendable hx
    have hlettered := (hp hname).lettered hplain.lettered.1 hplain.lettered.2
    refine ih (List.forall_mem_cons.mp hnodes).2 (hc.addBase ⟨?_, (hp.solid hplain hname).not_null⟩)
    exact ⟨hlettered.closed, hlettered.unbarred⟩
  | other hr _ _ ih =>
    obtain ⟨null, hfilled⟩ := hr.filled hplain hp
    exact ih (List.forall_mem_cons.mp hnodes).2
      (hc.addOther (Undivided.parenthesize hfilled.tidy hfilled.ne_null))
  | anything _ ih => exact ih (List.forall_mem_cons.mp hnodes).2 hc
  | nothing _ ih =>
    have hnever : Undivided (TypeUse.parenthesize "never") ∧
        "null" ∉ alternatives (TypeUse.parenthesize "never") :=
      Undivided.parenthesize .never (by decide)
    exact ih (List.forall_mem_cons.mp hnodes).2 (hc.addOther hnever)
  | merged _ hb _ ih =>
    refine ih (List.forall_mem_cons.mp hnodes).2 ⟨hc.operands, ?_⟩
    exact hb.isClosed (fun h => (hU h).closed) hc.body
  | part _ hu _ ih =>
    obtain ⟨hnode, hnodes⟩ := List.forall_mem_cons.mp hnodes
    obtain ⟨null, htidy⟩ := (hU hu).tidy
    refine ih hnodes (hc.addOther (Undivided.parenthesize htidy fun htext => ?_))
    exact Bool.eq_false_iff.mp hnode ((hU hu).null_iff.mp htext)

/-- The declaration of an object, an intersection or an enumeration leaves null to its uses. -/
theorem Makes.nullFree {d : Declaration} (h : Makes run p U pointer name (.schema s) d)
    (hnominal : s.shape.isNominal = true)
    (hparts : s.shape = .intersection → ∀ part ∈ s.allOf, part.rendersNull = false) :
    NullFree run s name d.content := by
  cases h with
  | record _ _ h => exact .alias rfl (h.solid hU).not_null
  | interface => exact .interface rfl
  | @intersection _ c body hs _ hc hb =>
    have hentries : ∀ part ∈ s.allOf, part.rendersNull = false := by
      by_cases hshape : s.shape = .intersection
      · exact hparts hshape
      · rw [s.allOf_of_object hs hshape]
        exact nofun
    have hclosed : c.Separate := hc.separate hplain hp hU hentries ⟨nofun, Body.isClosed_empty⟩
    exact .alias rfl (hclosed.not_null (hb.isClosed (fun h => (hU h).closed) hclosed.body))
  | union hs =>
    rw [hs] at hnominal
    cases hnominal
  | enumeration => exact .members rfl Enumeration.solid_union.not_null
  | literals => exact .alias rfl Enumeration.solid_union.not_null
  | plain hs =>
    rw [Shape.isNominal_iff, hs] at hnominal
    exact hnominal.elim nofun nofun

/-- Any other declaration is an alias and has the null that the schema admits. -/
theorem Makes.nullInAlias {d : Declaration} (h : Makes run p U pointer name (.schema s) d)
    (hnominal : s.shape.isNominal = false) (hnullable : s.isNullable = true) :
    NullInAlias run s name d.content := by
  have hobject : s.shape.maker ≠ .object := fun hs =>
    Bool.eq_false_iff.mp hnominal (Shape.isNominal_iff.mpr (.inl hs))
  have htidy {use : TypeUse} {null : Bool} {tags : List String} (h : Tidy use.text null)
      (hnull : null = true) :
      NullInAlias run s name (Gen.aliasText (run.docs s tags "") name use.text) :=
    ⟨tags, use.text, rfl, h.nullLast, h.mem_alternatives_iff.mpr hnull⟩
  cases h with
  | record hs => exact absurd hs hobject
  | interface hs => exact absurd hs hobject
  | intersection hs => exact absurd hs hobject
  | union hs h =>
    obtain ⟨null, h, hnull, -⟩ := h.tidy hplain hp hU
    exact htidy h (hnull hnullable)
  | enumeration hs =>
    rw [hs] at hnominal
    cases hnominal
  | literals hs =>
    rw [hs] at hnominal
    cases hnominal
  | plain hs h =>
    obtain ⟨⟨null, h⟩, hnever, -⟩ := h.tidy hplain hU
    exact htidy (h.orNullIf hnever _) (by rw [hnullable, Bool.or_true])

end Declarations

end Rules

/-! ### The law of null -/

/-- Whatever stands anywhere, the text of its type places null, as long as names are given out by
the naming rules. -/
def UseLaw.nulls {run : Setting} (hplain : run.Plain) : UseLaw run where
  At _ _ := True
  at_part _ _ := trivial
  at_origin _ _ _ := trivial
  Holds p node _ use := p.Given run → use.Places node
  holds_of_use _ h := fun hp => h.places hplain (fun hU => hU hp) hp

theorem UseLaw.Sound.names_given {run : Setting} {law : UseLaw run} {p : Progress}
    (h : law.Sound p) : p.Given run :=
  fun hname => h.given _ (h.orderly.taken hname)

/-- A declaration that is neither an interface nor an enumeration is used by its bare name. -/
theorem TypeUse.text_ofDeclaration {s : Schema} (h : s.shape.isNominal = false) (name : String) :
    (ofDeclaration name s).text = name := by
  rw [ofDeclaration, Schema.needsNullAtUse, h, Bool.and_false]
  rfl

namespace Setting.Reaches

variable {run : Setting} {p q : Progress}

/-- Null in the declaration of a schema for a pointer that has no name yet. -/
private theorem declared (hplain : run.Plain) (hp : run.Reaches p) {s : Schema}
    {pointer raw name : String}
    (h : (Gen.generateNamed run s pointer raw).run.run p = (.ok name, q))
    (hnew : p.name? pointer = none) :
    ∃ d, q.name? pointer = some name ∧ q.registry.lookup? name = some d ∧
      (s.shape.isNominal = true →
        (s.shape = .intersection → ∀ part ∈ s.allOf, part.rendersNull = false) →
        NullFree run s name d.content) ∧
      (s.shape.isNominal = false → s.isNullable = true → NullInAlias run s name d.content) := by
  have hsound : (UseLaw.nulls hplain).Sound p := hp.sound fun _ _ => trivial
  obtain ⟨r, d, hr, hname, hmakes, rfl⟩ := hsound.declared_of_generateNamed trivial hnew h
  have hgiven : r.Given run := hr.names_given
  have hlookup := r.lookup?_finished pointer name d
  refine ⟨_, hname, hlookup, fun hnominal hparts => ?_, fun hnominal hnullable => ?_⟩
  · exact hmakes.nullFree hplain hgiven (fun hU => hU hgiven) hnominal hparts
  · exact hmakes.nullInAlias hplain hgiven (fun hU => hU hgiven) hnominal hnullable

/-- Null is written in one place. In every state that a run reaches, the text of every node has null
at most once among its alternatives, and then as the last; it is null alone only for the nodes of
which this is said. The null of an inline schema at a pointer without a name is in this text, or in
the alias of a union that is declared for it. A declaration leaves the null of an object, an
intersection or an enumeration to its uses, and has the null of any other shape itself. -/
theorem null_once (hplain : run.Plain) (hp : run.Reaches p) :
    (∀ node location hint use q, (Gen.typeOf run node location hint).run.run p = (.ok use, q) →
      NullLast use.text ∧ (use.text = "null" ↔ node.rendersNull = true) ∧
        ∀ s, node = .schema s → s.isNullable = true → p.name? location = none →
          if s.IsDeclaredUnion then
            "null" ∉ alternatives use.text ∧
              ∃ d, q.name? location = some use.text ∧ q.registry.lookup? use.text = some d ∧
                NullInAlias run s use.text d.content
          else "null" ∈ alternatives use.text) ∧
      ∀ s pointer raw name q,
        (Gen.generateNamed run s pointer raw).run.run p = (.ok name, q) →
        p.name? pointer = none → s.isNullable = true →
        ∃ d, q.name? pointer = some name ∧ q.registry.lookup? name = some d ∧
          if s.shape.isNominal then
            ((s.shape = .intersection → ∀ part ∈ s.allOf, part.rendersNull = false) →
                NullFree run s name d.content) ∧
              (TypeUse.ofDeclaration name s).text = name ++ " | null"
          else NullInAlias run s name d.content ∧ (TypeUse.ofDeclaration name s).text = name := by
  have hsound : (UseLaw.nulls hplain).Sound p := hp.sound fun _ _ => trivial
  constructor
  · intro node location hint use q h
    obtain ⟨hq, -, -, hholds⟩ :=
      ((UseLaw.nulls hplain).keeps_typeOf trivial hint p hsound.ready).of_ok h
    have hgiven : q.Given run := hq.toSound.names_given
    have hplaces := hholds q (le_refl q) hgiven
    obtain ⟨null, htidy⟩ := hplaces.tidy
    refine ⟨htidy.nullLast, hplaces.null_iff, ?_⟩
    rintro s rfl hnullable hnew
    split
    · next hunion =>
      obtain ⟨hshape, hplace⟩ := hunion
      change (Gen.useSchema run (Gen.refer run) s _ location hint).run.run p = _ at h
      unfold Gen.useSchema at h
      rw [hplace] at h
      obtain ⟨name, r, hdeclare, hpure⟩ := Gen.run_bind_eq_ok_iff.mp h
      cases hpure
      have hnominal : s.shape.isNominal = false := by
        rw [hshape]
        rfl
      obtain ⟨d, hname, hlookup, -, halias⟩ := hp.declared hplain hdeclare hnew
      rw [TypeUse.text_ofDeclaration hnominal name]
      exact ⟨(hgiven.solid hplain hname).not_null, d, hname, hlookup, halias hnominal hnullable⟩
    · next hunion => exact hplaces.admits s rfl hnullable hunion
  · intro s pointer raw name q h hnew hnullable
    obtain ⟨d, hname, hlookup, hfree, halias⟩ := hp.declared hplain h hnew
    refine ⟨d, hname, hlookup, ?_⟩
    split
    · next hnominal =>
      refine ⟨hfree hnominal, ?_⟩
      obtain ⟨hq, -⟩ :=
        ((UseLaw.nulls hplain).keeps_generateNamed trivial raw p hsound.ready).of_ok h
      have hgiven : q.Given run := hq.toSound.names_given
      have hsolid : Solid name := hgiven.solid hplain hname
      have hends : TypeUse.endsInNull name = false := (Tidy.solid hsolid).endsInNull
      rw [TypeUse.ofDeclaration, Schema.needsNullAtUse, hnullable, hnominal]
      exact congrArg TypeUse.text (if_neg (Bool.eq_false_iff.mp hends))
    · next hnominal =>
      have hnominal : s.shape.isNominal = false := Bool.eq_false_iff.mpr hnominal
      exact ⟨halias hnominal hnullable, TypeUse.text_ofDeclaration hnominal name⟩

/-- A union that may be null by a flag, with an object among its branches. -/
def nullableUnion : Schema :=
  { nullable := true
    oneOf := [
      .schema { types := some (.one "object"), properties := [("x", .boolean true)] },
      .schema { types := some (.one "string") }] }

/-- An object that may be null by its types. -/
def nullableRecord : Schema :=
  { types := some (.many ["object", "null"]), properties := [("x", .boolean true)] }

theorem null_once_loopRun :
    Call.loopRun.Plain ∧ Call.loopRun.Reaches {} ∧
      (∃ q, (Gen.typeOf Call.loopRun (.schema nullableUnion) "#/test" "Test").run.run {} =
          (.ok ⟨"Test", ["Test"]⟩, q) ∧ "null" ∉ alternatives "Test" ∧
        ∃ d, q.name? "#/test" = some "Test" ∧ q.registry.lookup? "Test" = some d ∧
          NullInAlias Call.loopRun nullableUnion "Test" d.content ∧
          d.content = "export type Test = TestVariant1 | string | null;") ∧
      ∃ q, (Gen.generateNamed Call.loopRun nullableRecord "#/test" "Test").run.run {} =
          (.ok "Test", q) ∧
        ∃ d, q.registry.lookup? "Test" = some d ∧
          NullFree Call.loopRun nullableRecord "Test" d.content ∧
          d.content = "export interface Test \x7b\n  x?: unknown;\n\x7d" ∧
          (TypeUse.ofDeclaration "Test" nullableRecord).text = "Test | null" := by
  have hplain : Call.loopRun.Plain := ⟨rfl, nofun, nofun⟩
  obtain ⟨htypes, hdeclarations⟩ := null_once hplain .start
  obtain ⟨q, hunion, hunionText⟩ :
      ∃ q, (Gen.typeOf Call.loopRun (.schema nullableUnion) "#/test" "Test").run.run {} =
          (.ok ⟨"Test", ["Test"]⟩, q) ∧
        (q.registry.lookup? "Test").map Declaration.content =
          some "export type Test = TestVariant1 | string | null;" :=
    ⟨_, Prod.ext (by rfl) rfl, by rfl⟩
  obtain ⟨q', hrecord, hrecordText⟩ :
      ∃ q, (Gen.generateNamed Call.loopRun nullableRecord "#/test" "Test").run.run {} =
          (.ok "Test", q) ∧
        (q.registry.lookup? "Test").map Declaration.content =
          some "export interface Test \x7b\n  x?: unknown;\n\x7d" :=
    ⟨_, Prod.ext (by rfl) rfl, by rfl⟩
  obtain ⟨-, -, hplace⟩ := htypes _ _ _ _ _ hunion
  have hdeclared := hplace nullableUnion rfl rfl rfl
  rw [if_pos (by decide +kernel)] at hdeclared
  obtain ⟨hfree, d, hname, hlookup, hd⟩ := hdeclared
  rw [hlookup] at hunionText
  obtain ⟨d', -, hlookup', hd'⟩ :=
    hdeclarations nullableRecord "#/test" "Test" "Test" _ hrecord rfl rfl
  rw [if_pos (by decide +kernel)] at hd'
  rw [hlookup'] at hrecordText
  exact ⟨hplain, .start,
    ⟨q, hunion, hfree, d, hname, hlookup, hd, Option.some.inj hunionText⟩,
    ⟨q', hrecord, d', hlookup', hd'.1 nofun, Option.some.inj hrecordText, hd'.2⟩⟩

end Setting.Reaches

end OpenApiTs
