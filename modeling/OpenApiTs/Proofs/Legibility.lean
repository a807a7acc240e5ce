import OpenApiTs.Proofs.Openings
import OpenApiTs.Proofs.Printing
import OpenApiTs.Proofs.Rendering

/-!
# Type texts name what nodes show

If the names of declarations can be told from everything else in a text, the names that a type text
has as operands are those of the pointers that the node shows. Each rule by which types are made is
read in turn.

## Main definitions

* `Legible`: names and custom targets that can be told from one another in a text.
* `Progress.Calls`: the names of the pointers with a property.

## Main results

* `NodeUse.reads`: the names in the type of a node.
* `UnionUse.reads`: the names in the type of a union.
* `Composes.reads`: the names in an intersection.
-/

namespace OpenApiTs

/-- The names of pointers are among the names `N`, which only declarations have, and no custom
target has any of them. -/
structure Legible (run : Setting) (N : String → Prop) (p : Progress) : Prop where
  proper : ∀ {name}, N name → Naming.Proper name
  named : ∀ {pointer name}, p.name? pointer = some name → N name
  target : ∀ m ∈ run.config.mappings, Reads N false m.target fun _ => False

/-- A name is that of a pointer with a property. -/
def Progress.Calls (p : Progress) (T : String → Prop) (name : String) : Prop :=
  ∃ pointer, T pointer ∧ p.name? pointer = some name

/-- A name is that of a pointer to which a node of a row has a relation. -/
def Progress.CallsRow (p : Progress) (R : SchemaNode → String → String → Prop) (location : String)
    (i : Nat) (nodes : List SchemaNode) : String → Prop :=
  p.Calls fun target => InRow (R · · target) location i nodes

/-- Bases and other operands of a composition have the names with `T`, the bases are names, and the
body is closed. -/
structure Gen.Composition.IsRead (N : String → Prop) (c : Gen.Composition) (T : String → Prop) :
    Prop where
  operands : ReadsAll N false (c.bases ++ c.others) T
  bases : ∀ base ∈ c.bases, N base
  body : c.body.IsClosed

section Rules

variable {run : Setting} {N : String → Prop} {p : Progress} {U : UseRelation}

namespace Progress

variable {T T' : String → Prop} {name : String}

theorem calls_congr (h : ∀ pointer, T pointer ↔ T' pointer) : p.Calls T name ↔ p.Calls T' name :=
  exists_congr fun pointer => and_congr_left fun _ => h pointer

theorem calls_or :
    p.Calls (fun pointer => T pointer ∨ T' pointer) name ↔ p.Calls T name ∨ p.Calls T' name := by
  simp only [Calls, or_and_right, exists_or]

theorem not_calls (h : ∀ pointer, ¬T pointer) : ¬p.Calls T name := fun ⟨pointer, ht, _⟩ =>
  h pointer ht

section Row

variable {R : SchemaNode → String → String → Prop} {location : String} {i : Nat}
  {node : SchemaNode} {nodes : List SchemaNode}

theorem not_callsRow_nil : ¬p.CallsRow R location i [] name := not_calls fun _ => not_inRow_nil

theorem callsRow_cons :
    p.CallsRow R location i (node :: nodes) name ↔
      p.Calls (R node (Pointer.child location i.repr)) name ∨
        p.CallsRow R location (i + 1) nodes name := by
  rw [CallsRow, CallsRow, ← calls_or]
  exact calls_congr fun target => inRow_cons (R := (R · · target))

end Row

theorem calls_eq {pointer : String} :
    p.Calls (· = pointer) name ↔ p.name? pointer = some name := exists_eq_left

end Progress

/-- A text that has no names has those of no pointers. -/
theorem Reads.calls {comments : Bool} {text : String} {T : String → Prop}
    (h : Reads N comments text fun _ => False) (hT : ∀ pointer, ¬T pointer) :
    Reads N comments text (p.Calls T) :=
  h.congr fun _ => iff_of_false id (Progress.not_calls hT)

/-! ### Bodies -/

theorem Setting.closed_comment (run : Setting) (texts : List String) {indent : String}
    (hindent : ∀ c ∈ indent.toList, c = ' ') : Closed true (run.comment texts indent).toList := by
  rw [comment]
  split
  · exact Declaration.closed_docComment texts hindent
  · exact .nil

private theorem closed_fieldDocs (node : SchemaNode) :
    Closed true (node.fieldDocs run).toList := by
  cases node with
  | schema s =>
    change Closed true (run.comment (Setting.docTexts s ++ []) "  ").toList
    exact run.closed_comment _ (by decide)
  | reference | boolean =>
    change Closed true "".toList
    exact .nil

section Closed

variable (hclosed : ∀ {node location use}, U node location use → Closed false use.text.toList)
include hclosed

theorem Fields.isClosed {s : Schema} {location : String} {properties : List (String × SchemaNode)}
    {body body' : Body} (h : Fields run U s location properties body body')
    (hb : body.IsClosed) : body'.IsClosed := by
  induction h with
  | nil => exact hb
  | @cons name node _ _ _ use huse _ ih =>
    have hkey : Closed false (run.config.naming.fieldName name).toList :=
      run.config.naming.closed_fieldName name
    have hdocs : Closed true (node.fieldDocs run).toList := closed_fieldDocs node
    have hput := hb.put (f := ⟨_, !s.isRequired name, use, _⟩) hkey (hclosed huse) hdocs name
    exact ih hput

theorem AdditionalUse.closed {location : String} {node : Option SchemaNode} {use : Option TypeUse}
    (h : AdditionalUse U location node use) : ∀ u ∈ use, Closed false u.text.toList := by
  cases h with
  | absent | forbidden => exact nofun
  | present _ h =>
    rintro u ⟨⟩
    exact hclosed h

theorem Collects.isClosed {s : Schema} {location : String} {body body' : Body}
    (h : Collects run U s location body body') (hb : body.IsClosed) : body'.IsClosed := by
  obtain @⟨body'', index, hfields, hadditional⟩ := h
  have hisClosed := hfields.isClosed hclosed hb
  refine ⟨hisClosed.keys, hisClosed.uses, hisClosed.docs, fun use huse => ?_⟩
  cases index with
  | none => exact hisClosed.index use huse
  | some u => exact hadditional.closed hclosed use huse

end Closed

section Legible

variable (hl : Legible run N p)
include hl

/-! ### References and declarations -/

theorem Legible.reads_name {comments : Bool} {pointer name : String}
    (hn : p.name? pointer = some name) : Reads N comments name (p.Calls (· = pointer)) := by
  refine (Reads.name (hl.proper (hl.named hn)).word).congr fun {other} _ => ?_
  rw [Progress.calls_eq, hn, Option.some.injEq, eq_comm]

theorem Legible.reads_ofDeclaration {pointer name : String} (hn : p.name? pointer = some name)
    (s : Schema) : Reads N false (TypeUse.ofDeclaration name s).text (p.Calls (· = pointer)) :=
  have hnamed : Reads N false (TypeUse.named name).text (p.Calls (· = pointer)) := hl.reads_name hn
  hnamed.orNullIf hl.proper _

theorem Legible.reads_ofBoolean {comments : Bool} (allowed : Bool) :
    Reads N comments (TypeUse.ofBoolean allowed).text fun _ => False := by
  cases allowed with
  | true => exact .word hl.proper (by decide)
  | false => exact .word hl.proper (by decide)

theorem ReferenceUse.reads {reference : String} {use : TypeUse}
    (h : ReferenceUse run p reference use) :
    Reads N false use.text
      (p.Calls fun target => run.excludes reference = false ∧ target = reference) := by
  cases h with
  | excluded _ hx =>
    have hunknown : Reads N false TypeUse.unknown.text fun _ => False := .word hl.proper (by decide)
    refine hunknown.calls fun _ hshown => ?_
    rw [hx] at hshown
    cases hshown.1
  | @named name _ _ hx hn _ =>
    have hnamed : Reads N false (TypeUse.named name).text (p.Calls (· = reference)) :=
      hl.reads_name hn
    refine (hnamed.orNullIf hl.proper _).congr fun _ => ?_
    exact Progress.calls_congr fun _ => (and_iff_right hx).symm

section Given

variable (hU : ∀ {node location use}, U node location use →
  Reads N false use.text (p.Calls (Shows run node location)))
include hU

/-! ### Unions -/

theorem BranchUse.reads {node : SchemaNode} {location : String} {use : TypeUse}
    (h : BranchUse p U node location use) :
    Reads N false use.text (p.Calls (ShowsBranch run node location)) := by
  cases h with
  | declared hs hn =>
    refine (hl.reads_ofDeclaration hn _).congr fun _ => Progress.calls_congr fun pointer => ?_
    constructor
    · rintro rfl
      exact .declared hs
    · rintro (_ | ⟨hnot, -⟩)
      · rfl
      · rw [hnot _ rfl] at hs
        cases hs
  | inPlace hs h =>
    refine (hU h).congr fun _ => Progress.calls_congr fun _ => ⟨.inPlace hs, fun hshown => ?_⟩
    cases hshown with
    | declared hneeds =>
      rw [hs _ rfl] at hneeds
      cases hneeds
    | inPlace _ hshown => exact hshown

omit hl hU in
/-- The members with one more type have its names too: null and the type of no value have none. -/
private theorem reads_add (hN : ∀ {name}, N name → Naming.Proper name) {m : Gen.Members}
    {use : TypeUse} {T T' : String → Prop} (hm : ReadsAll N false m.texts T)
    (hu : Reads N false use.text T') :
    ReadsAll N false (m.add use).texts fun name => T name ∨ T' name := by
  have hnone {word : String} (hword : word ∈ Naming.reserved) (htext : use.text = word) :
      ReadsAll N false m.texts fun name => T name ∨ T' name := by
    refine hm.congr fun hn => ?_
    have hread : Reads N false word fun _ => False := .word hN (List.mem_append_left _ hword)
    rw [← hu.operand_iff hn, htext, hread.operand_iff hn, or_false]
  unfold Gen.Members.add
  dsimp only
  split
  · next text htext => exact hm.add (hu.dropNull hN htext) fun _ => Names.mem_add
  · split
    · next hnull => exact hnone (by decide) (beq_iff_eq.mp hnull)
    · split
      · next hnever => exact hnone (by decide) (beq_iff_eq.mp hnever)
      · exact hm.add hu fun _ => Names.mem_add

/-- Induction on the row of branches: the members so far have the names of the branches so far. -/
private theorem reads_members {location : String} {i : Nat} {nodes : List SchemaNode}
    {uses : List TypeUse} (h : Row (BranchUse p U) location i nodes uses) {m : Gen.Members}
    {T : String → Prop} (hm : ReadsAll N false m.texts T) :
    ReadsAll N false (uses.foldl Gen.Members.add m).texts fun name =>
      T name ∨ p.CallsRow (ShowsBranch run) location i nodes name := by
  induction h generalizing m T with
  | nil i => exact hm.congr fun _ => (or_iff_left Progress.not_callsRow_nil).symm
  | cons h _ ih =>
    refine (ih (reads_add hl.proper hm (h.reads hl hU))).congr fun _ => ?_
    rw [Progress.callsRow_cons, or_assoc]

omit hl hU in
private theorem reads_use (hN : ∀ {name}, N name → Naming.Proper name) {m : Gen.Members}
    {T : String → Prop} (hm : ReadsAll N false m.texts T) : Reads N false m.use.text T := by
  have htext : Reads N false
      (if m.texts.isEmpty then if m.nullable then "null" else "never"
        else " | ".intercalate m.texts) T := by
    split
    · next hempty =>
      have hnone : Reads N false (if m.nullable then "null" else "never") fun _ => False := by
        split <;> exact .word hN (by decide)
      refine hnone.congr fun hn => ?_
      rw [← hm.operand_iff hn, List.isEmpty_iff.mp hempty]
      simp
    · next hempty =>
      exact hm.intercalate (mt List.isEmpty_iff.mpr hempty) (c := '|') rfl (by decide)
  unfold Gen.Members.use
  dsimp only
  generalize (if m.texts.isEmpty then if m.nullable then "null" else "never"
    else " | ".intercalate m.texts) = text at htext ⊢
  split
  · exact htext.appendNull hN
  · exact htext

theorem UnionUse.reads {s : Schema} {location : String} {use : TypeUse}
    (h : UnionUse p U s location use) :
    Reads N false use.text
      (p.CallsRow (ShowsBranch run) (Pointer.child location s.branchKeyword) 0 s.branches) := by
  obtain ⟨h⟩ := h
  exact (reads_use hl.proper (reads_members hl hU h .nil)).congr fun _ => by rw [false_or]

/-! ### Types in their place -/

theorem RecordUse.reads {s : Schema} {location : String} {use : TypeUse}
    (h : RecordUse U s location use) : Reads N false use.text fun _ => False := by
  have hword : ∀ word ∈ ["never", "unknown"], Closed false word.toList := fun word hword => by
    refine (Naming.isPlain_of_isIdentifier ?_).word.closed
    revert word
    decide
  cases h with
  | forbidden => exact .record hl.proper (hword _ (by decide))
  | @allowed index _ ha =>
    refine .record hl.proper ?_
    cases index with
    | none => exact hword "unknown" (by decide)
    | some u => exact ha.closed (fun h => (hU h).closed) u rfl

theorem ObjectUse.reads {s : Schema} {location : String} {use : TypeUse}
    (h : ObjectUse run U s location use) : Reads N false use.text fun _ => False := by
  cases h with
  | record _ h => exact h.reads hl hU
  | body _ h =>
    exact Body.reads_inline hl.proper (h.isClosed (fun h => (hU h).closed) Body.isClosed_empty)

omit hU in
private theorem reads_unionOf {texts : List String}
    (h : ∀ text ∈ texts, Reads N false text fun _ => False) :
    Reads N false (Gen.unionOf texts).text fun _ => False := by
  refine ReadsAll.union_of_forall hl.proper fun text htext => h text ?_
  rw [Names.mem_union] at htext
  exact htext.resolve_left List.not_mem_nil

omit hU in
private theorem reads_scalarText (scalar : Scalar) (format : Option String) :
    Reads N false (run.scalarText scalar format) fun _ => False := by
  rw [Setting.scalarText]
  cases htarget : run.config.targetFor? scalar.name format with
  | some target =>
    obtain ⟨m, hm, rfl⟩ := Option.map_eq_some_iff.mp htarget
    exact hl.target m (List.mem_of_find?_eq_some hm)
  | none =>
    refine .word hl.proper ?_
    change scalar.text format ∈ _
    unfold Scalar.text
    split
    · split <;> decide
    · decide
    · decide
    · decide
    · decide

theorem PlainUse.reads {s : Schema} {location : String} {use : TypeUse}
    (h : PlainUse run U s location use) : Reads N false use.text fun _ => False := by
  cases h with
  | array _ _ h => exact .array hl.proper (hU h).closed
  | anyArray => exact .array hl.proper (Naming.isPlain_of_isIdentifier (by decide)).word.closed
  | constant => exact Json.reads_literalText hl.proper _
  | enumeration =>
    exact reads_unionOf hl (List.forall_mem_map.mpr fun v _ => Json.reads_literalText hl.proper v)
  | scalars =>
    exact reads_unionOf hl (List.forall_mem_map.mpr fun t _ => reads_scalarText hl t s.format)
  | unknown => exact .word hl.proper (by decide)

/-- The names in the type of a node are those of the pointers that it shows. -/
theorem NodeUse.reads {node : SchemaNode} {location : String} {use : TypeUse}
    (h : NodeUse run p U node location use) :
    Reads N false use.text (p.Calls (Shows run node location)) := by
  cases h with
  | reference h =>
    exact (h.reads hl).congr fun _ => Progress.calls_congr fun _ => shows_reference_iff.symm
  | boolean allowed => exact (hl.reads_ofBoolean allowed).calls fun _ => not_shows_boolean
  | wrapped hs h =>
    refine ((h.reads hl).orNullIf hl.proper _).congr fun _ => ?_
    exact Progress.calls_congr fun _ => (shows_wrapped_iff hs).symm
  | byName hs hn =>
    refine (hl.reads_ofDeclaration hn _).congr fun _ => ?_
    exact Progress.calls_congr fun _ => (shows_byName_iff hs).symm
  | union hp hs h =>
    refine ((h.reads hl hU).orNullIf hl.proper _).congr fun _ => Progress.calls_congr fun _ => ?_
    rw [shows_union_iff hp hs, inRow_zero_iff]
    rfl
  | object hs h =>
    refine ((h.reads hl hU).orNullIf hl.proper _).calls fun _ => ?_
    exact not_shows_of_inPlace (Schema.placement_of_object hs) (by rw [hs]; nofun)
  | plain hm hp h =>
    refine ((h.reads hl hU).orNullIf hl.proper _).calls fun _ => not_shows_of_inPlace hp ?_
    rintro hs
    rw [hs] at hm
    exact hm.elim nofun nofun

/-! ### Intersections -/

omit hl hU in
/-- What an interface can extend is not excluded, and stands for a schema that does not admit
null. -/
theorem Setting.resolve_of_isExtendable {pointer : String}
    (h : run.isExtendable pointer = .ok true) :
    run.excludes pointer = false ∧ ∃ s, run.tree.resolve pointer pointer = .ok s ∧
      s.isNullable = false := by
  rw [isExtendable, DocumentTree.bound, examine] at h
  cases hx : run.excludes pointer with
  | true =>
    rw [hx] at h
    cases h
  | false =>
    cases hs : run.tree.resolve pointer pointer with
    | error failure =>
      rw [hx, hs] at h
      cases h
    | ok s =>
      refine ⟨rfl, s, rfl, Bool.eq_false_iff.mpr fun hnull => ?_⟩
      simp [hx, hs, hnull, bind, Except.bind, pure, Except.pure] at h

omit hl hU in
/-- A base is used by its name. -/
theorem ReferenceUse.name?_of_isExtendable {reference : String} {use : TypeUse}
    (h : ReferenceUse run p reference use) (hx : run.isExtendable reference = .ok true) :
    p.name? reference = some use.text := by
  obtain ⟨hnot, s, hs, hnull⟩ := Setting.resolve_of_isExtendable hx
  cases h with
  | excluded _ hexcludes =>
    rw [hexcludes] at hnot
    cases hnot
  | @named name null _ _ hn huse =>
    have hfalse : null = false := by
      rw [Gen.needsNullAtUse, hs] at huse
      cases hlookup : run.tree.lookup reference reference with
      | error failure =>
        rw [hlookup] at huse
        cases huse
      | ok value =>
        simp only [hlookup, bind, Except.bind, pure, Except.pure, Schema.needsNullAtUse, hnull,
          Bool.false_and] at huse
        split at huse <;> cases huse <;> rfl
    rw [hfalse]
    exact hn

end Given

end Legible

namespace Gen.Composition.IsRead

variable {c : Gen.Composition} {text : String} {mentions : List String} {T T' : String → Prop}

theorem congr (h : c.IsRead N T) (hT : ∀ {name}, N name → (T name ↔ T' name)) : c.IsRead N T' :=
  ⟨h.operands.congr hT, h.bases, h.body⟩

theorem empty : IsRead N {} fun _ => False := ⟨.nil, nofun, Body.isClosed_empty⟩

theorem addBase (h : c.IsRead N T) (hn : N text) (ht : Reads N false text T') :
    IsRead N { c with mentions := mentions, bases := c.bases ++ [text] } fun name =>
      T name ∨ T' name := by
  refine ⟨h.operands.add ht fun t => ?_, ?_, h.body⟩
  · simp only [List.mem_append, List.mem_singleton]
    tauto
  · exact List.forall_mem_append.mpr ⟨h.bases, List.forall_mem_singleton.mpr hn⟩

theorem addOther (h : c.IsRead N T) (ht : Reads N false text T') :
    IsRead N { c with mentions := mentions, others := c.others ++ [text] } fun name =>
      T name ∨ T' name := by
  refine ⟨h.operands.add ht fun t => ?_, h.bases, h.body⟩
  simp only [List.mem_append, List.mem_singleton, or_assoc]

/-- What the first entry of a row shows is shown in the row. -/
theorem cons {c' : Gen.Composition} {location : String} {i : Nat} {node : SchemaNode}
    {nodes : List SchemaNode}
    (h : c'.IsRead N fun name =>
      (T name ∨ p.Calls (ShowsEntry run node (Pointer.child location i.repr)) name) ∨
        p.CallsRow (ShowsEntry run) location (i + 1) nodes name) :
    c'.IsRead N fun name =>
      T name ∨ p.CallsRow (ShowsEntry run) location i (node :: nodes) name := by
  refine h.congr fun _ => ?_
  rw [Progress.callsRow_cons, or_assoc]

end Gen.Composition.IsRead

/-- The names in an intersection are those of the pointers that its entries show. The induction is
on the entries: a composition so far has the names of the entries so far. -/
theorem Composes.reads (hl : Legible run N p)
    (hU : ∀ {node location use}, U node location use →
      Reads N false use.text (p.Calls (Shows run node location)))
    {location : String} {i : Nat} {nodes : List SchemaNode} {c c' : Gen.Composition}
    (h : Composes run p U location i nodes c c') {T : String → Prop} (hc : c.IsRead N T) :
    c'.IsRead N fun name => T name ∨ p.CallsRow (ShowsEntry run) location i nodes name := by
  have hreference {reference place : String} {use : TypeUse}
      (hr : ReferenceUse run p reference use) :
      Reads N false use.text (p.Calls (ShowsEntry run (.reference reference) place)) :=
    (hr.reads hl).congr fun _ => Progress.calls_congr fun _ => showsEntry_reference_iff.symm
  have hskip {c : Gen.Composition} {T : String → Prop} {node : SchemaNode} {place : String}
      (hc : c.IsRead N T) (hnone : ∀ target, ¬ShowsEntry run node place target) :
      c.IsRead N fun name => T name ∨ p.Calls (ShowsEntry run node place) name :=
    hc.congr fun _ => (or_iff_left (Progress.not_calls hnone)).symm
  induction h generalizing T with
  | nil => exact hc.congr fun _ => (or_iff_left Progress.not_callsRow_nil).symm
  | base hr hx _ ih =>
    exact (ih (hc.addBase (hl.named (hr.name?_of_isExtendable hx)) (hreference hr))).cons
  | other hr _ _ ih =>
    exact (ih (hc.addOther ((hreference hr).parenthesize hl.proper))).cons
  | anything _ ih => exact (ih (hskip hc fun _ => not_showsEntry_boolean)).cons
  | nothing _ ih =>
    have hnever : Reads N false "never" fun _ => False := .word hl.proper (by decide)
    exact (ih (hc.addOther (hnever.calls fun _ => not_showsEntry_boolean))).cons
  | merged hs hb _ ih =>
    refine (ih (hskip ?_ fun _ => not_showsEntry_of_isMergeable hs)).cons
    exact ⟨hc.operands, hc.bases, hb.isClosed (fun h => (hU h).closed) hc.body⟩
  | part hs hu _ ih =>
    refine (ih (hc.addOther (Reads.parenthesize hl.proper ((hU hu).congr fun _ => ?_)))).cons
    exact Progress.calls_congr fun _ => (showsEntry_schema_iff hs).symm

end Rules

end OpenApiTs
