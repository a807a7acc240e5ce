import OpenApiTs.Proofs.Output
import OpenApiTs.Proofs.Spelling

/-!
# Dependencies are complete

A type mentions every name that its text spells in type position. A name enters a text only together
with the mention of it, and each rule that puts texts together puts their mentions together. So a
declaration depends on all other declarations that its text names. This needs names that are read as
one word each: of a name with a blank inside, a text spells the pieces.

## Main definitions

* `TypeUse.Complete`, `ObjectField.Complete`, `Body.Complete`, `Gen.Composition.Complete`: texts
  with all their mentions.
* `UseLaw.complete`: the law of complete mentions.

## Main results

* `NodeUse.complete`: the type of a node.
* `Makes.spells`, `Synthesizes.spells`: declarations.
* `generate_dependencies_complete`: the declarations of an output.
-/

namespace OpenApiTs

open Lexis

/-- No custom targets are written, and the names of pointers are words. -/
structure Wordy (run : Setting) (p : Progress) : Prop where
  mappings : run.config.mappings = []
  named : ∀ {pointer name}, p.name? pointer = some name → ∀ c ∈ name.toList, isNameChar c = true

/-! ### Texts with all their mentions -/

/-- All names that the text spells are mentioned. -/
def TypeUse.Complete (use : TypeUse) : Prop := Spells use.text.toList (· ∈ use.mentions)

/-- The type of a field is complete, its key spells nothing, and its comment is skipped. -/
structure ObjectField.Complete (f : ObjectField) : Prop where
  key : ∀ mark ∈ [": ".toList, "?: ".toList], Spells (f.key.toList ++ mark) fun _ => False
  use : f.use.Complete
  docs : Skipped f.docs

/-- The fields of a body and the type of its index signature are complete. -/
structure Body.Complete (b : Body) : Prop where
  fields : ∀ e ∈ b.fields, e.2.Complete
  index : ∀ use ∈ b.index, use.Complete

/-- The operands of a composition spell what it mentions, and its body is complete. -/
structure Gen.Composition.Complete (c : Gen.Composition) : Prop where
  operands : ∀ text ∈ c.bases ++ c.others, Spells text.toList (· ∈ c.mentions)
  body : c.body.Complete

/-- The members of a union spell what they mention. -/
def Gen.Members.Complete (m : Gen.Members) : Prop :=
  ∀ text ∈ m.texts, Spells text.toList (· ∈ m.mentions)

namespace TypeUse

variable {use : TypeUse}

/-- A text of small letters and marks is complete. -/
theorem complete_plain {text : String} (h : ∀ c ∈ text.toList, isQuiet c = true) :
    (plain text).Complete := .of_quiet h

theorem complete_unknown : unknown.Complete := complete_plain (by decide)

theorem complete_ofBoolean (allowed : Bool) : (ofBoolean allowed).Complete := by
  cases allowed with
  | true => exact complete_unknown
  | false => exact complete_plain (by decide)

theorem complete_named {name : String} (h : ∀ c ∈ name.toList, isNameChar c = true) :
    (named name).Complete := (Spells.word h).mono List.mem_singleton.mpr

theorem Complete.orNullIf (h : use.Complete) (condition : Bool) :
    (use.orNullIf condition).Complete := by
  rw [Complete, mentions_orNullIf, TypeUse.orNullIf]
  split
  · rw [orNull]
    split
    · exact h
    · rw [String.toList_append]
      exact h.appendNull
  · exact h

theorem spells_parenthesize {text : String} {T : String → Prop} (h : Spells text.toList T) :
    Spells (parenthesize text).toList T := by
  rw [parenthesize]
  split
  · rw [String.toList_append, String.toList_append]
    exact (h.opened (by decide)).closed (by decide)
  · exact h

theorem Complete.array (h : use.Complete) : use.array.Complete := by
  change Spells (parenthesize use.text ++ "[]").toList (· ∈ use.mentions)
  rw [String.toList_append]
  exact (spells_parenthesize h).closed (by decide)

theorem Complete.record (h : use.Complete) : use.record.Complete := by
  have hname : Spells "Record".toList (· ∈ use.mentions) := .written (by decide)
  have hopen : Spells ("Record".toList ++ "<string, ".toList) (· ∈ use.mentions) :=
    hname.closed (by decide)
  change Spells ("Record<string, " ++ use.text ++ ">").toList (· ∈ use.mentions)
  rw [String.toList_append, String.toList_append]
  exact (hopen.append_of_ends h (by decide)).closed (by decide)

end TypeUse

namespace ObjectField

variable {f : ObjectField}

theorem Complete.spells_text (h : f.Complete) : Spells f.text.toList (· ∈ f.use.mentions) := by
  have htext : ∃ mark ∈ [": ".toList, "?: ".toList],
      f.text.toList = (f.key.toList ++ mark) ++ f.use.text.toList := by
    rw [text]
    split
    · exact ⟨_, List.mem_cons_of_mem _ List.mem_cons_self, by
        simp only [String.toList_append, List.append_assoc]; rfl⟩
    · exact ⟨_, List.mem_cons_self, by
        simp only [String.toList_append, String.toList_empty, List.append_assoc, List.nil_append]⟩
  have hmarks : ∀ mark ∈ [": ".toList, "?: ".toList], EndsApart mark ∧ mark ≠ [] := by decide
  obtain ⟨mark, hmark, htext⟩ := htext
  obtain ⟨hends, hne⟩ := hmarks mark hmark
  rw [htext]
  exact ((h.key mark hmark).mono False.elim).append_of_ends h.use (hends.append hne _)

theorem endsApart_line (f : ObjectField) : EndsApart f.line.toList := by
  rw [line, String.toList_append]
  exact EndsApart.append (by decide) (by decide) _

theorem Complete.spells_line (h : f.Complete) : Spells f.line.toList (· ∈ f.use.mentions) := by
  have hline : f.line.toList =
      f.docs.toList ++ ("  ".toList ++ (f.text.toList ++ ";\n".toList)) := by
    simp only [line, String.toList_append, List.append_assoc]
  rw [hline]
  exact h.docs ((h.spells_text.closed (by decide)).opened (by decide))

end ObjectField

namespace Body

variable {b : Body}

theorem complete_empty : Complete {} := ⟨nofun, nofun⟩

private theorem Complete.spells_indexText (h : b.Complete) :
    ∀ text ∈ b.indexText?, Spells text.toList (· ∈ b.mentions) := by
  intro text htext
  obtain ⟨use, huse, rfl⟩ := Option.map_eq_some_iff.mp htext
  rw [String.toList_append]
  refine .opened ?_ (by decide)
  split
  · exact (h.index use huse).mono fun hname => mem_mentions.mpr (.inr ⟨use, huse, hname⟩)
  · exact .of_quiet (by decide)

/-- A body in a type is complete. -/
theorem Complete.inline (h : b.Complete) : (⟨b.inline, b.mentions⟩ : TypeUse).Complete := by
  have htexts : ∀ t ∈ b.fields.map (fun e => e.2.text) ++ b.indexText?.toList,
      Spells t.toList (· ∈ b.mentions) := by
    refine List.forall_mem_append.mpr ⟨List.forall_mem_map.mpr fun e he => ?_, fun t ht => ?_⟩
    · exact (h.fields e he).spells_text.mono fun hname => mem_mentions.mpr (.inl ⟨e, he, hname⟩)
    · exact h.spells_indexText t (Option.mem_toList.mp ht)
  change Spells b.inline.toList (· ∈ b.mentions)
  rw [Body.inline, String.toList_append, String.toList_append]
  exact ((Spells.intercalate htexts (by decide)).opened (by decide)).closed (by decide)

/-- The lines of a body between braces spell what it mentions. -/
theorem Complete.block (h : b.Complete) : Spells b.block.toList (· ∈ b.mentions) := by
  have hfields : Spells (String.join (b.fields.map fun e => e.2.line)).toList
      (· ∈ b.mentions) := by
    refine .join (List.forall_mem_map.mpr fun e he => ?_)
      (List.forall_mem_map.mpr fun e _ => e.2.endsApart_line)
    exact (h.fields e he).spells_line.mono fun hname => mem_mentions.mpr (.inl ⟨e, he, hname⟩)
  have hlines : Spells b.lines.toList (· ∈ b.mentions) := by
    rw [lines, String.toList_append]
    cases htext : b.indexText? with
    | none => exact hfields.append .nil (.inr fun c hc => absurd hc (Option.not_mem_none c))
    | some text =>
      have hindex : Spells ("  " ++ text ++ ";\n").toList (· ∈ b.mentions) := by
        rw [String.toList_append, String.toList_append]
        exact ((h.spells_indexText text htext).opened (by decide)).closed (by decide)
      have hstarts : StartsApart ("  " ++ text ++ ";\n").toList := by
        rw [String.append_assoc, String.toList_append]
        exact .append (by decide) (by decide) _
      exact hfields.append_of_starts hindex hstarts
  rw [Body.block, String.toList_append, String.toList_append]
  exact (hlines.opened (by decide)).closed (by decide)

end Body

/-! ### Texts of declarations -/

section Declarations

variable {docs name text : String} {T : String → Prop}

/-- A type alias spells what its text spells. -/
theorem Gen.spells_aliasText (hdocs : Skipped docs) (hname : ∀ c ∈ name.toList, isNameChar c = true)
    (h : Spells text.toList T) : Spells (aliasText docs name text).toList T := by
  have hlabel : Spells (name.toList ++ " = ".toList) T := .label hname (by decide) (by decide)
  have htext : (aliasText docs name text).toList = docs.toList ++ ("export type ".toList ++
      ((name.toList ++ " = ".toList) ++ (text.toList ++ ";".toList))) := by
    simp only [aliasText, String.toList_append, List.append_assoc]
  rw [htext]
  exact hdocs ((hlabel.append_of_ends (h.closed (by decide))
    (.append (by decide) (by decide) _)).opened (by decide))

/-- The head of a declaration with braces spells at most its name. -/
private theorem spells_head {keyword : String} (hopens : Opens keyword.toList)
    (hdocs : Skipped docs) (hname : ∀ c ∈ name.toList, isNameChar c = true)
    {body : List Char} (h : Spells body T) (hbody : StartsApart body) :
    Spells (docs.toList ++ (keyword.toList ++ (name.toList ++ body))) fun n => T n ∨ n = name :=
  hdocs ((((Spells.word hname).mono .inr).append_of_starts (h.mono .inl) hbody).opened hopens)

/-- An interface spells what its bases and its body spell. -/
theorem Gen.spells_interfaceText (hdocs : Skipped docs)
    (hname : ∀ c ∈ name.toList, isNameChar c = true) {bases : List String} {body : Body}
    (hbases : ∀ base ∈ bases, Spells base.toList T) (hbody : Spells body.block.toList T) :
    Spells (interfaceText docs name bases body).toList fun n => T n ∨ n = name := by
  have hblock : Spells (if body.isEmpty then "\x7b\x7d" else body.block).toList T := by
    split
    · exact .of_quiet (by decide)
    · exact hbody
  unfold interfaceText
  generalize (if body.isEmpty then "\x7b\x7d" else body.block) = block at hblock
  have htail : Spells (" ".toList ++ block.toList) T := hblock.opened (by decide)
  have hstarts : StartsApart (" ".toList ++ block.toList) := .append (by decide) (by decide) _
  split
  · have htext : (docs ++ "export interface " ++ name ++ "" ++ " " ++ block).toList =
        docs.toList ++ ("export interface ".toList ++ (name.toList ++
          (" ".toList ++ block.toList))) := by
      simp only [String.append_empty, String.toList_append, List.append_assoc]
    rw [htext]
    exact spells_head (by decide) hdocs hname htail hstarts
  · have htext : (docs ++ "export interface " ++ name ++ (" extends " ++ ", ".intercalate bases) ++
        " " ++ block).toList = docs.toList ++ ("export interface ".toList ++ (name.toList ++
          (" extends ".toList ++ ((", ".intercalate bases).toList ++
            (" ".toList ++ block.toList))))) := by
      simp only [String.toList_append, List.append_assoc]
    have hlist : Spells (", ".intercalate bases).toList T := .intercalate hbases (by decide)
    rw [htext]
    refine spells_head (by decide) hdocs hname ?_ (.append (by decide) (by decide) _)
    exact (hlist.append_of_starts htail hstarts).opened (by decide)

/-- The interface of parameters spells what the lines of its fields spell. -/
theorem Gen.spells_parameters (hname : ∀ c ∈ name.toList, isNameChar c = true) {lines : String}
    (h : Spells lines.toList T) :
    Spells ("export interface " ++ name ++ " \x7b\n" ++ lines ++ "\x7d").toList
      fun n => T n ∨ n = name := by
  have htext : ("export interface " ++ name ++ " \x7b\n" ++ lines ++ "\x7d").toList =
      "".toList ++ ("export interface ".toList ++ (name.toList ++
        (" \x7b\n".toList ++ (lines.toList ++ "\x7d".toList)))) := by
    simp only [String.toList_append, String.toList_empty, List.append_assoc, List.nil_append]
  rw [htext]
  refine spells_head (by decide) id hname ?_ (.append (by decide) (by decide) _)
  exact (h.closed (by decide)).opened (by decide)

/-- The members of an enumeration spell nothing. -/
private theorem spells_members :
    (values : List Json) → {used : List String} → {i : Nat} →
      ∀ member ∈ Enumeration.membersFrom used i values,
        Spells (Enumeration.memberLine member).toList T ∧
          EndsApart (Enumeration.memberLine member).toList
  | [], _, _ => nofun
  | value :: rest, used, i => by
      refine List.forall_mem_cons.mpr ⟨⟨?_, ?_⟩, spells_members rest⟩
      · have hlabel : Spells ((Enumeration.memberName used i value).toList ++ " = ".toList) T :=
          .label (isNameChar_of_isIdentifier (Enumeration.isIdentifier_memberName used i value))
            (by decide) (by decide)
        have hvalue : Spells (value.compact.toList ++ ",\n".toList) T :=
          value.spells_compact.closed (by decide)
        have htext : ("  " ++ Enumeration.memberName used i value ++ " = " ++ value.compact ++
            ",\n").toList = "  ".toList ++ (((Enumeration.memberName used i value).toList ++
              " = ".toList) ++ (value.compact.toList ++ ",\n".toList)) := by
          simp only [String.toList_append, List.append_assoc]
        change Spells ("  " ++ Enumeration.memberName used i value ++ " = " ++ value.compact ++
          ",\n").toList T
        rw [htext]
        exact (hlabel.append_of_ends hvalue (.append (by decide) (by decide) _)).opened (by decide)
      · rw [Enumeration.memberLine, String.toList_append]
        exact .append (by decide) (by decide) _

/-- The union of values spells nothing. -/
theorem Enumeration.spells_union (values : List Json) : Spells (union values).toList T :=
  .intercalate (List.forall_mem_map.mpr fun value _ => value.spells_compact) (by decide)

/-- A declaration with members, followed by the union of its values, spells its name. -/
theorem Enumeration.spells_declaration (hdocs : Skipped docs)
    (hname : ∀ c ∈ name.toList, isNameChar c = true) {valuesName : String}
    (hvalues : ∀ c ∈ valuesName.toList, isNameChar c = true) (values : List Json) :
    Spells (docs ++ "export enum " ++ name ++ " \x7b\n" ++
      String.join ((members values).map memberLine) ++ "\x7d\n\n" ++
        Gen.aliasText "" valuesName (union values)).toList fun n => T n ∨ n = name := by
  have hlines : Spells (String.join ((members values).map memberLine)).toList T :=
    .join (List.forall_mem_map.mpr fun member hm => (spells_members values member hm).1)
      (List.forall_mem_map.mpr fun member hm =>
        (spells_members (T := T) values member hm).2)
  have halias : Spells (Gen.aliasText "" valuesName (union values)).toList T :=
    Gen.spells_aliasText id hvalues (spells_union values)
  have htext : (docs ++ "export enum " ++ name ++ " \x7b\n" ++
      String.join ((members values).map memberLine) ++ "\x7d\n\n" ++
        Gen.aliasText "" valuesName (union values)).toList =
      docs.toList ++ ("export enum ".toList ++ (name.toList ++ (" \x7b\n".toList ++
        ((String.join ((members values).map memberLine)).toList ++ ("\x7d\n\n".toList ++
          (Gen.aliasText "" valuesName (union values)).toList))))) := by
    simp only [String.toList_append, List.append_assoc]
  rw [htext]
  refine spells_head (by decide) hdocs hname ?_ (.append (by decide) (by decide) _)
  exact (hlines.append_of_starts (halias.opened (by decide))
    (.append (by decide) (by decide) _)).opened (by decide)

end Declarations

/-! ### Types -/

section Rules

variable {run : Setting} {p : Progress} {U : UseRelation} (hw : Wordy run p)
include hw

theorem TypeUse.complete_ofDeclaration {pointer name : String} (hn : p.name? pointer = some name)
    (s : Schema) : (ofDeclaration name s).Complete :=
  (complete_named (hw.named hn)).orNullIf _

theorem ReferenceUse.complete {reference : String} {use : TypeUse}
    (h : ReferenceUse run p reference use) : use.Complete := by
  cases h with
  | excluded => exact TypeUse.complete_unknown
  | named _ _ hn _ => exact (TypeUse.complete_named (hw.named hn)).orNullIf _

theorem BodyUse.complete {node : SchemaNode} {location : String} {use : TypeUse}
    (h : BodyUse run p node location use) : use.Complete := by
  cases h with
  | reference h => exact h.complete hw
  | boolean allowed => exact TypeUse.complete_ofBoolean allowed
  | schema hn => exact TypeUse.complete_ofDeclaration hw hn _

section Given

variable (hU : ∀ {node location use}, U node location use → use.Complete)
include hU

theorem BranchUse.complete {node : SchemaNode} {location : String} {use : TypeUse}
    (h : BranchUse p U node location use) : use.Complete := by
  cases h with
  | declared _ hn => exact TypeUse.complete_ofDeclaration hw hn _
  | inPlace _ h => exact hU h

theorem Row.complete {location : String} {i : Nat} {nodes : List SchemaNode} {uses : List TypeUse}
    (h : Row (BranchUse p U) location i nodes uses) : ∀ use ∈ uses, use.Complete := by
  induction h with
  | nil => exact nofun
  | cons h _ ih => exact List.forall_mem_cons.mpr ⟨h.complete hw hU, ih⟩

omit hw hU in
/-- The members with one more type mention what it mentions. -/
private theorem Gen.Members.Complete.add {m : Gen.Members} (hm : m.Complete) {use : TypeUse}
    (h : use.Complete) : (m.add use).Complete := by
  have hold : ∀ text ∈ m.texts,
      Spells text.toList (· ∈ Names.union m.mentions use.mentions) := fun text htext =>
    (hm text htext).mono fun hname => Names.mem_union.mpr (.inl hname)
  have hnew : Spells use.text.toList (· ∈ Names.union m.mentions use.mentions) :=
    h.mono fun hname => Names.mem_union.mpr (.inr hname)
  have hadd {text : String} (ht : Spells text.toList (· ∈ Names.union m.mentions use.mentions)) :
      ∀ t ∈ Names.add m.texts text, Spells t.toList (· ∈ Names.union m.mentions use.mentions) :=
    fun t hmem => (Names.mem_add.mp hmem).elim (hold t) fun heq => heq ▸ ht
  unfold Gen.Members.add
  dsimp only
  split
  · next text htext =>
    refine hadd (.dropNull ?_)
    rw [← Text.eq_append_of_dropSuffix? htext]
    exact hnew
  · split
    · exact hold
    · split
      · exact hold
      · exact hadd hnew

omit hw hU in
private theorem Gen.Members.Complete.foldl_add :
    {uses : List TypeUse} → (∀ use ∈ uses, use.Complete) → {m : Gen.Members} → m.Complete →
      (uses.foldl Gen.Members.add m).Complete
  | [], _, _, hm => hm
  | _ :: _, h, _, hm =>
      have ⟨huse, hrest⟩ := List.forall_mem_cons.mp h
      foldl_add hrest (hm.add huse)

omit hw hU in
theorem Gen.Members.Complete.use {m : Gen.Members} (hm : m.Complete) : m.use.Complete := by
  have htext : Spells (if m.texts.isEmpty then if m.nullable then "null" else "never"
      else " | ".intercalate m.texts).toList (· ∈ m.mentions) := by
    split
    · split <;> exact .of_quiet (by decide)
    · exact .intercalate hm (by decide)
  unfold Gen.Members.use
  dsimp only
  generalize (if m.texts.isEmpty then if m.nullable then "null" else "never"
    else " | ".intercalate m.texts) = text at htext ⊢
  change Spells (if m.nullable && text != "null" then text ++ " | null" else text).toList _
  split
  · rw [String.toList_append]
    exact htext.appendNull
  · exact htext

theorem UnionUse.complete {s : Schema} {location : String} {use : TypeUse}
    (h : UnionUse p U s location use) : use.Complete := by
  obtain ⟨h⟩ := h
  have hnone (nullable : Bool) : Gen.Members.Complete { nullable := nullable } := nofun
  exact ((hnone s.isNullable).foldl_add (h.complete hw hU)).use

/-! ### Bodies -/

omit hw hU in
theorem SchemaNode.skipped_fieldDocs (node : SchemaNode) : Skipped (node.fieldDocs run) := by
  cases node with
  | schema s => exact run.skipped_comment _ (by decide)
  | reference | boolean => exact id

omit hw in
theorem Fields.complete {s : Schema} {location : String} {properties : List (String × SchemaNode)}
    {body body' : Body} (h : Fields run U s location properties body body') (hb : body.Complete) :
    body'.Complete := by
  induction h with
  | nil => exact hb
  | @cons name node _ _ _ use huse _ ih =>
    refine ih ⟨fun e he => ?_, hb.index⟩
    rcases Entries.mem_put he with rfl | he
    · exact ⟨fun mark => run.config.naming.spells_fieldName name, hU huse, node.skipped_fieldDocs⟩
    · exact hb.fields e he

omit hw in
theorem AdditionalUse.complete {location : String} {node : Option SchemaNode} {use : Option TypeUse}
    (h : AdditionalUse U location node use) : ∀ u ∈ use, u.Complete := by
  cases h with
  | absent | forbidden => exact nofun
  | present _ h =>
    rintro u ⟨⟩
    exact hU h

omit hw in
theorem Collects.complete {s : Schema} {location : String} {body body' : Body}
    (h : Collects run U s location body body') (hb : body.Complete) : body'.Complete := by
  obtain @⟨body'', index, hfields, hadditional⟩ := h
  have hcomplete := hfields.complete hU hb
  refine ⟨hcomplete.fields, fun use huse => ?_⟩
  cases index with
  | none => exact hcomplete.index use huse
  | some u => exact hadditional.complete hU use huse

omit hw in
theorem RecordUse.complete {s : Schema} {location : String} {use : TypeUse}
    (h : RecordUse U s location use) : use.Complete := by
  cases h with
  | forbidden => exact (TypeUse.complete_plain (by decide)).record
  | @allowed index _ ha =>
    cases index with
    | none => exact TypeUse.complete_unknown.record
    | some u => exact (ha.complete hU u rfl).record

omit hw in
theorem ObjectUse.complete {s : Schema} {location : String} {use : TypeUse}
    (h : ObjectUse run U s location use) : use.Complete := by
  cases h with
  | record _ h => exact h.complete hU
  | body _ h => exact (h.complete hU Body.complete_empty).inline

/-! ### Types in their place -/

omit hw hU in
/-- A union of texts that spell nothing. -/
private theorem complete_unionOf {texts : List String}
    (h : ∀ text ∈ texts, Spells text.toList fun _ => False) : (Gen.unionOf texts).Complete := by
  have htexts : ∀ text ∈ Names.union [] texts, Spells text.toList (· ∈ []) := fun text htext =>
    (h text ((Names.mem_union.mp htext).resolve_left List.not_mem_nil)).mono False.elim
  exact .intercalate htexts (by decide)

omit hU in
private theorem spells_scalarText (scalar : Scalar) (format : Option String) :
    Spells (run.scalarText scalar format).toList fun _ => False := by
  have htarget : run.config.targetFor? scalar.name format = none := by
    rw [Config.targetFor?, hw.mappings]
    rfl
  rw [Setting.scalarText, htarget, Option.getD_none]
  cases scalar with
  | string =>
    rw [Scalar.text]
    split
    · exact .written (by decide)
    · exact .of_quiet (by decide)
  | number | integer | boolean | null =>
    rw [Scalar.text]
    exact .of_quiet (by decide)

theorem PlainUse.complete {s : Schema} {location : String} {use : TypeUse}
    (h : PlainUse run U s location use) : use.Complete := by
  cases h with
  | array _ _ h => exact (hU h).array
  | anyArray => exact TypeUse.complete_unknown.array
  | constant => exact Json.spells_literalText _
  | enumeration =>
    exact complete_unionOf (List.forall_mem_map.mpr fun value _ => value.spells_literalText)
  | scalars =>
    exact complete_unionOf (List.forall_mem_map.mpr fun t _ => spells_scalarText hw t s.format)
  | unknown => exact TypeUse.complete_unknown

/-- The type of a node mentions every name that it spells. -/
theorem NodeUse.complete {node : SchemaNode} {location : String} {use : TypeUse}
    (h : NodeUse run p U node location use) : use.Complete := by
  cases h with
  | reference h => exact h.complete hw
  | boolean allowed => exact TypeUse.complete_ofBoolean allowed
  | wrapped _ h => exact (h.complete hw).orNullIf _
  | byName _ hn => exact TypeUse.complete_ofDeclaration hw hn _
  | union _ _ h => exact (h.complete hw hU).orNullIf _
  | object _ h => exact (h.complete hU).orNullIf _
  | plain _ _ h => exact (h.complete hw hU).orNullIf _

/-! ### Intersections -/

omit hw hU in
theorem Gen.Composition.complete_empty : Complete {} := ⟨nofun, Body.complete_empty⟩

omit hw hU in
/-- The mentions of a composition grow with its operands. -/
private theorem Gen.Composition.Complete.union {c : Gen.Composition} (hc : c.Complete)
    {use : TypeUse} {text : String} (ht : Spells text.toList (· ∈ use.mentions))
    {operands : List String} (h : ∀ t ∈ operands, t ∈ c.bases ++ c.others ∨ t = text) :
    ∀ t ∈ operands, Spells t.toList (· ∈ Names.union c.mentions use.mentions) := by
  intro t hmem
  rcases h t hmem with hold | rfl
  · exact (hc.operands t hold).mono fun hname => Names.mem_union.mpr (.inl hname)
  · exact ht.mono fun hname => Names.mem_union.mpr (.inr hname)

/-- The induction is on the entries: each adds its type with its mentions, or fields. -/
theorem Composes.complete {location : String} {i : Nat} {nodes : List SchemaNode}
    {c c' : Gen.Composition} (h : Composes run p U location i nodes c c') (hc : c.Complete) :
    c'.Complete := by
  induction h with
  | nil => exact hc
  | base hr _ _ ih =>
    refine ih ⟨hc.union (hr.complete hw) fun t ht => ?_, hc.body⟩
    rw [List.mem_append, List.mem_append, List.mem_singleton, or_right_comm,
      ← List.mem_append] at ht
    exact ht
  | other hr _ _ ih =>
    refine ih ⟨hc.union (TypeUse.spells_parenthesize (hr.complete hw)) fun t ht => ?_, hc.body⟩
    rwa [← List.append_assoc, List.mem_append, List.mem_singleton] at ht
  | anything _ ih => exact ih hc
  | nothing _ ih =>
    refine ih ⟨fun t ht => ?_, hc.body⟩
    rw [← List.append_assoc, List.mem_append, List.mem_singleton] at ht
    rcases ht with ht | rfl
    · exact hc.operands t ht
    · exact .of_quiet (by decide)
  | merged _ hb _ ih => exact ih ⟨hc.operands, hb.complete hU hc.body⟩
  | part _ hu _ ih =>
    refine ih ⟨hc.union (TypeUse.spells_parenthesize (hU hu)) fun t ht => ?_, hc.body⟩
    rwa [← List.append_assoc, List.mem_append, List.mem_singleton] at ht

/-! ### Declarations -/

omit hw hU in
theorem Setting.skipped_docs (run : Setting) (s : Schema) (more : List String) :
    Skipped (run.docs s more "") := run.skipped_comment _ (List.forall_mem_nil _)

omit hw hU in
/-- An alias of a complete type. -/
private theorem spells_alias {docs name : String} (hdocs : Skipped docs)
    (hname : ∀ c ∈ name.toList, isNameChar c = true) {use : TypeUse} (h : use.Complete)
    (pointer : String) :
    Spells (Gen.aliasDeclaration docs name use pointer).content.toList fun n =>
      n ∈ (Gen.aliasDeclaration docs name use pointer).dependencies ∨ n = name :=
  Gen.spells_aliasText hdocs hname (h.mono .inl)

/-- A declaration depends on whatever its text spells, except for its own name. -/
theorem Makes.spells {pointer name : String} {node : SchemaNode} {d : Declaration}
    (h : Makes run p U pointer name node d)
    (hname : ∀ c ∈ name.toList, isNameChar c = true)
    (hexports : ∀ n ∈ d.exports, ∀ c ∈ n.toList, isNameChar c = true) :
    Spells d.content.toList fun n => n ∈ d.dependencies ∨ n = name := by
  cases h with
  | link h =>
    cases h with
    | endless => exact spells_alias id hname TypeUse.complete_unknown pointer
    | follows _ _ h => exact spells_alias id hname (h.complete hw) pointer
  | boolean allowed => exact spells_alias id hname (TypeUse.complete_ofBoolean allowed) pointer
  | record _ _ h => exact spells_alias (run.skipped_docs _ _) hname (h.complete hU) pointer
  | interface _ _ hc hb ho =>
    have hcomplete := hc.complete hw hU Gen.Composition.complete_empty
    have hbody := hb.complete hU hcomplete.body
    refine Gen.spells_interfaceText (run.skipped_docs _ _) hname (fun base hbase => ?_) ?_
    · exact (hcomplete.operands base (List.mem_append_left _ hbase)).mono fun hn =>
        Names.mem_union.mpr (.inl hn)
    · exact hbody.block.mono fun hn => Names.mem_union.mpr (.inr hn)
  | @intersection s c body _ _ hc hb _ =>
    have hcomplete := hc.complete hw hU Gen.Composition.complete_empty
    have hbody := hb.complete hU hcomplete.body
    have hoperands : ∀ text ∈ c.bases ++ c.others ++ (if body.isEmpty then [] else [body.block]),
        Spells text.toList (· ∈ Names.union c.mentions body.mentions) := by
      refine List.forall_mem_append.mpr ⟨fun text htext => ?_, fun text htext => ?_⟩
      · exact (hcomplete.operands text htext).mono fun hn => Names.mem_union.mpr (.inl hn)
      · split at htext
        · cases htext
        · cases List.mem_singleton.mp htext
          exact hbody.block.mono fun hn => Names.mem_union.mpr (.inr hn)
    have hseparates : Separates " & ".toList := by decide
    have huse : TypeUse.Complete ⟨" & ".intercalate _, Names.union c.mentions body.mentions⟩ :=
      .intercalate hoperands hseparates
    exact spells_alias (run.skipped_docs _ _) hname huse pointer
  | union _ h => exact spells_alias (run.skipped_docs _ _) hname (h.complete hw hU) pointer
  | enumeration =>
    exact Enumeration.spells_declaration (run.skipped_docs _ _) hname
      (hexports _ List.mem_cons_self) _
  | @literals s =>
    have huse : TypeUse.Complete ⟨Enumeration.union s.literals, []⟩ := Enumeration.spells_union _
    exact spells_alias (run.skipped_docs _ _) hname huse pointer
  | plain _ h =>
    exact spells_alias (run.skipped_docs _ _) hname ((h.complete hw hU).orNullIf _) pointer

omit hw in
theorem ParameterField.complete {f : ObjectField} (h : ParameterField run U f) : f.Complete := by
  obtain ⟨⟨raw, hkey⟩, huse, hdocs⟩ := h
  refine ⟨fun mark hmark => ?_, ?_, ?_⟩
  · rw [hkey]
    exact run.config.naming.spells_fieldName raw hmark
  · rcases huse with hunknown | ⟨node, location, huse⟩
    · rw [hunknown]
      exact TypeUse.complete_unknown
    · exact hU huse
  · rcases hdocs with ⟨node, hnode⟩ | ⟨texts, htexts⟩
    · rw [hnode]
      exact node.skipped_fieldDocs
    · rw [htexts]
      exact run.skipped_comment texts (by decide)

/-- A declaration of an operation depends on whatever its text spells, except for its own name. -/
theorem Synthesizes.spells {name : String} {d : Declaration} (h : Synthesizes run p U name d)
    (hname : ∀ c ∈ name.toList, isNameChar c = true) :
    Spells d.content.toList fun n => n ∈ d.dependencies ∨ n = name := by
  cases h with
  | @parameters fields path method h =>
    have hlines : Spells (String.join (fields.map ObjectField.line)).toList
        (· ∈ fields.foldl (fun names f => Names.union names f.use.mentions) []) := by
      refine .join (List.forall_mem_map.mpr fun f hf => ?_)
        (List.forall_mem_map.mpr fun f _ => f.endsApart_line)
      exact ((h f hf).complete hU).spells_line.mono fun hn =>
        Names.mem_foldl_union.mpr (.inr ⟨f, hf, hn⟩)
    exact Gen.spells_parameters hname hlines
  | @responses uses texts path method h =>
    have hseparates : Separates " | ".toList := by decide
    refine spells_alias (run.skipped_comment _ (List.forall_mem_nil _)) hname ?_ _
    refine .intercalate (fun text htext => ?_) hseparates
    obtain ⟨use, huse, rfl⟩ := (UseLaw.mem_texts_of_uses htext).resolve_left List.not_mem_nil
    obtain ⟨node, location, hbody⟩ := h use huse
    exact (hbody.complete hw).mono fun hn => Names.mem_foldl_union.mpr (.inr ⟨use, huse, hn⟩)

end Given

end Rules

/-! ### The law -/

namespace UseLaw

/-- The law of complete mentions: nodes stand anywhere, and types mention whatever they spell. -/
def complete (run : Setting) : UseLaw run where
  At _ _ := True
  at_part _ _ := trivial
  at_origin _ _ _ := trivial
  Holds p _ _ use := Wordy run p → use.Complete
  holds_of_use _ h := fun hw => h.complete hw fun hU => hU hw

theorem complete_covers {run : Setting} (d : Document) : (complete run).Covers d :=
  ⟨fun _ => trivial, fun _ _ _ _ _ => trivial⟩

/-- A declaration in its place depends on whatever its text spells, except for its own name. -/
theorem Made.spells {run : Setting} {p : Progress} (hw : Wordy run p) {name : String}
    {d : Declaration} (h : (complete run).Made p name d)
    (hexports : ∀ n ∈ d.exports, ∀ c ∈ n.toList, isNameChar c = true) :
    Spells d.content.toList fun n => n ∈ d.dependencies ∨ n = d.name := by
  have hkeep {d : Declaration}
      (h : Spells d.content.toList fun n => n ∈ d.dependencies ∨ n = name) :
      Spells ((d.dropDependency name).rename name).content.toList fun n =>
        n ∈ ((d.dropDependency name).rename name).dependencies ∨ n = name := by
    refine h.mono fun {n} hn => ?_
    by_cases heq : n = name
    · exact .inr heq
    · exact .inl (Declaration.mem_dependencies_dropDependency.mpr ⟨hn.resolve_right heq, heq⟩)
  cases h with
  | @node pointer node d _ _ h =>
    have hname := hexports name (Declaration.mem_exports_rename _ _)
    exact hkeep (h.spells hw (fun hU => hU hw) hname fun n hn =>
      hexports n (Declaration.mem_exports_rename_of_mem h.draft.name hn))
  | synthesized h =>
    exact hkeep (h.spells hw (fun hU => hU hw) (hexports name (Declaration.mem_exports_rename _ _)))

end UseLaw

/-! ### Outputs -/

variable {d : Document} {config : Config} {out : Output}

/-- Under the default naming rules, without custom targets, and if no declaration has the name of a
built-in type that texts are written with, a declaration depends on every other declaration whose
name stands in type position in its text, provided that all names are words. -/
theorem generate_dependencies_complete (h : generate d config = .ok out)
    (hnaming : config.naming = {}) (hmappings : config.mappings = [])
    (hwritten : ∀ name ∈ Naming.written, name ∉ out.exports)
    (hwords : ∀ name ∈ out.exports, ∀ c ∈ name.toList, isNameChar c = true) :
    ∀ t ∈ out.types, ∀ u ∈ out.types, u.name ∈ typeWords t.content →
      u.name ∈ t.dependencies ∨ u.name = t.name := by
  obtain ⟨filter, p, -, hrun, hperm⟩ := generate_eq_ok h
  obtain ⟨hsound, hv, -, -⟩ := (UseLaw.complete _).sound_document (UseLaw.complete_covers d) hrun
  have hp := hsound.orderly
  have hlookup {t : Declaration} (ht : t ∈ out.types) : p.registry.lookup? t.name = some t :=
    hp.coherent.mem_declarations_iff.mp (hperm.mem_iff.mp ht)
  have hexported {t : Declaration} (ht : t ∈ out.types) {name : String} (hn : name ∈ t.exports) :
      name ∈ out.exports :=
    List.mem_append_left _ (List.mem_flatMap.mpr ⟨t, ht, hn⟩)
  have hown {t : Declaration} (ht : t ∈ out.types) : t.name ∈ t.exports := by
    obtain ⟨companions, heq, -⟩ := (generate_exports_nodup h).2 t ht
    exact heq ▸ List.mem_cons_self
  have hwordy : Wordy ⟨.of d.tree, config, filter⟩ p := by
    refine ⟨hmappings, fun {pointer name} hn => ?_⟩
    obtain ⟨t, ht⟩ := hp.exists_lookup? hv hn
    obtain rfl := hp.coherent.name_eq_of_lookup? ht
    have hmem : t ∈ out.types := hperm.mem_iff.mpr (hp.coherent.mem_declarations_iff.mpr ht)
    exact hwords _ (hexported hmem (hown hmem))
  intro t ht u hu hword
  have hlarge : Naming.IsLarge u.name :=
    NamingRules.GivesFor.isLarge (hnaming ▸ Output.gives_of_mem_exports h _ (hexported hu (hown hu)))
  have hspells := (hsound.made (hlookup ht) p (le_refl p)).spells hwordy fun n hn =>
    hwords n (hexported ht hn)
  exact hspells.words hword hlarge fun hmem => hwritten _ hmem (hexported hu (hown hu))

/-- A run on the document of pets exports words, and its second declaration names the first. -/
theorem exports_petTree :
    ∃ d out, Document.ofTree petTree = .ok d ∧ generate d {} = .ok out ∧
      out.exports = ["Kind", "KindValues", "Pet", "ListPetsParams", "Operations"] ∧
      (out.types.take 2).map (fun t => (t.name, t.content)) =
        [("Kind", "export enum Kind \x7b\n  Cat = \"cat\",\n  Dog = \"dog\",\n\x7d\n\n" ++
          "export type KindValues = \"cat\" | \"dog\";"),
        ("Pet", "export interface Pet \x7b\n  kind?: Kind;\n\x7d")] := by
  have hrun : ((Document.ofTree petTree).toOption.bind fun d => (generate d {}).toOption).any
      (fun out => out.exports == ["Kind", "KindValues", "Pet", "ListPetsParams", "Operations"] &&
        (out.types.take 2).map (fun t => (t.name, t.content)) ==
          [("Kind", "export enum Kind \x7b\n  Cat = \"cat\",\n  Dog = \"dog\",\n\x7d\n\n" ++
            "export type KindValues = \"cat\" | \"dog\";"),
          ("Pet", "export interface Pet \x7b\n  kind?: Kind;\n\x7d")]) = true := by
    decide +kernel
  obtain ⟨d, out, hd, hout, htest⟩ := exists_output_of_any hrun
  rw [Bool.and_eq_true, beq_iff_eq, beq_iff_eq] at htest
  exact ⟨d, out, hd, hout, htest⟩

theorem generate_dependencies_complete_petTree :
    ∃ d out, Document.ofTree petTree = .ok d ∧ generate d {} = .ok out ∧
      ∃ t ∈ out.types, ∃ u ∈ out.types, u.name ∈ typeWords t.content ∧ u.name ∈ t.dependencies := by
  obtain ⟨d, out, hd, hout, hexports, htypes⟩ := exports_petTree
  have hwritten : ∀ name ∈ Naming.written, name ∉ out.exports := by
    rw [hexports]
    decide
  have hwords : ∀ name ∈ out.exports, ∀ c ∈ name.toList, isNameChar c = true := by
    rw [hexports]
    decide
  obtain ⟨u, hu, hukind⟩ := List.mem_map.mp (htypes ▸ List.mem_cons_self)
  obtain ⟨t, ht, htpet⟩ := List.mem_map.mp (htypes ▸ List.mem_cons_of_mem _ List.mem_cons_self)
  have hname : u.name = "Kind" := congrArg Prod.fst hukind
  have hpet : t.name = "Pet" := congrArg Prod.fst htpet
  have hcontent : t.content = "export interface Pet \x7b\n  kind?: Kind;\n\x7d" :=
    congrArg Prod.snd htpet
  have hword : u.name ∈ typeWords t.content := by
    rw [hname, hcontent]
    decide +kernel
  have hne : u.name ≠ t.name := by
    rw [hname, hpet]
    decide
  have ht := List.mem_of_mem_take ht
  have hu := List.mem_of_mem_take hu
  have hcomplete := generate_dependencies_complete hout rfl rfl hwritten hwords t ht u hu hword
  exact ⟨d, out, hd, hout, t, ht, u, hu, hword, hcomplete.resolve_right hne⟩

/-- A document with two names that differ in a mark that is no letter and in a vowel sign. The sign
joins the blank that the mark is turned into, so the second name keeps the blank. -/
def signTree : Json :=
  .object [
    ("openapi", .string "3.0.0"),
    ("paths", .object []),
    ("components", .object [
      ("schemas", .object [
        ("राज", .object [("type", .string "string")]),
        ("राज़ी", .object [("type", .string "boolean")]),
        ("Meta", .object [
          ("properties", .object [
            ("x", .object [("$ref", .string "#/components/schemas/राज़ी")])])])])])]

/-- Not all names are words, and a name stands in type position in a declaration that does not
depend on it. -/
theorem words_signTree :
    ∃ d out, Document.ofTree signTree = .ok d ∧ generate d {} = .ok out ∧
      out.types.map (fun t => (t.name, typeWords t.content, t.dependencies)) =
        [("राज", ["export", "type", "string"], []),
          ("राज ी", ["export", "type", "boolean"], []),
          ("Meta", ["export", "interface", "राज", "ी"], ["राज ी"])] := by
  have hrun : ((Document.ofTree signTree).toOption.bind fun d => (generate d {}).toOption).any
      (fun out => out.types.map (fun t => (t.name, typeWords t.content, t.dependencies)) ==
        [("राज", ["export", "type", "string"], []),
          ("राज ी", ["export", "type", "boolean"], []),
          ("Meta", ["export", "interface", "राज", "ी"], ["राज ी"])]) = true := by
    decide +kernel
  obtain ⟨d, out, hd, hout, htest⟩ := exists_output_of_any hrun
  exact ⟨d, out, hd, hout, beq_iff_eq.mp htest⟩

end OpenApiTs
