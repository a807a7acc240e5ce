import OpenApiTs.Proofs.Legibility
import OpenApiTs.Proofs.Operations

/-!
# Unguarded mentions

A declaration mentions a name unguarded if it is an alias and the name is an operand of its text, or
if it is an interface and the name is one of its bases. Both are read off the full text of the
declaration, without the comment before it. An alias or an interface so read back is what was
printed, and mentions unguarded the names of the pointers to which its node unfolds.

## Main definitions

* `Declaration.code`: the text of a declaration without the comment before it.
* `Declaration.Unguarded`: the names that a declaration mentions unguarded.
* `Declaration.Extends`: the bases of an interface as they are written.

## Main results

* `Declaration.unguarded_alias_iff`, `Declaration.Extends.unguarded_iff`: printed declarations are
  read back.
* `Makes.unguarded_iff`: a declaration mentions unguarded what its node unfolds to.
-/

namespace OpenApiTs

open Scan (Comment)

/-! ### Declarations read back -/

namespace Declaration

/-- The text of a declaration without the comment before it. -/
def code (d : Declaration) : List Char :=
  (Text.uncommented d.content.toList).dropWhile Text.isBlank

/-- A declaration mentions a name unguarded: the name is an operand of the text of an alias, or one
of the bases between `extends` and the brace of an interface. -/
inductive Unguarded (d : Declaration) (name : String) : Prop
  | operand {text : List Char} (hk : d.kind = .union)
      (hc : d.code = ("export type " ++ d.name ++ " = ").toList ++ (text ++ [';']))
      (h : Operand text name.toList) : Unguarded d name
  | base {bases rest : List Char} (hk : d.kind = .interface)
      (hc : d.code =
        ("export interface " ++ d.name ++ " extends").toList ++ (bases ++ '\x7b' :: rest))
      (hb : '\x7b' ∉ bases) (h : name.toList ∈ (bases.splitOn ',').map Text.bare) :
      Unguarded d name

/-- A text that stands before a declaration: nothing, or a comment. -/
def IsDocs (docs : String) : Prop :=
  docs = "" ∨ ∃ body, Comment body ∧ docs.toList = '/' :: (body ++ ['*', '/', '\n'])

theorem isDocs_comment (run : Setting) (texts : List String) : IsDocs (run.comment texts "") := by
  rw [Setting.comment]
  split
  · exact docComment_eq texts "" (List.forall_mem_nil _)
  · exact .inl rfl

variable {d : Declaration} {docs name : String}

/-- The comment before a declaration is left out. -/
theorem code_eq (hdocs : IsDocs docs) {text : List Char}
    (h : d.content.toList = docs.toList ++ text) (hstart : text.head? = some 'e') :
    d.code = text := by
  obtain ⟨rest, rfl⟩ := List.head?_eq_some_iff.mp hstart
  have hkeep : ('e' :: rest).dropWhile Text.isBlank = 'e' :: rest := by
    rw [List.dropWhile_cons, if_neg (by decide)]
  rw [code, h]
  rcases hdocs with rfl | ⟨body, hbody, hdocs⟩
  · change (Text.uncommented ('e' :: rest)).dropWhile Text.isBlank = _
    rw [Text.uncommented, if_neg (by decide), hkeep]
  · have hsplit : docs.toList ++ 'e' :: rest =
        '/' :: (body ++ '*' :: '/' :: '\n' :: 'e' :: rest) := by simp [hdocs]
    rw [hsplit, hbody.uncommented, List.dropWhile_cons, if_pos (by decide), hkeep]

/-- An alias is read back: it mentions unguarded the operands of its text. -/
theorem unguarded_alias_iff (hdocs : IsDocs docs) {text : String} (hk : d.kind = .union)
    (hc : d.content = Gen.aliasText docs d.name text) :
    d.Unguarded name ↔ Operand text.toList name.toList := by
  have hcode : d.code = ("export type " ++ d.name ++ " = ").toList ++ (text.toList ++ [';']) := by
    refine code_eq hdocs ?_ (by simp)
    rw [hc, Gen.aliasText]
    simp
  constructor
  · rintro (⟨-, hc', h⟩ | ⟨hk', -⟩)
    · rw [hcode] at hc'
      have heq := List.append_cancel_right (List.append_cancel_left hc')
      rw [heq]
      exact h
    · rw [hk] at hk'
      cases hk'
  · exact .operand hk hcode

/-- The bases of an interface are read back from between commas. -/
private theorem map_bare_splitOn :
    (bases : List (List Char)) → bases ≠ [] →
      (∀ base ∈ bases, ∀ c ∈ base, Text.isBlank c = false ∧ c ≠ ',') →
      ((' ' :: ([',', ' '].intercalate bases ++ [' '])).splitOn ',').map Text.bare = bases
  | [base], _, h => by
      have hbase := h base List.mem_cons_self
      have hnone : ∀ c ∈ ' ' :: (base ++ [' ']), (c == ',') = false := by
        refine List.forall_mem_cons.mpr ⟨rfl, List.forall_mem_append.mpr ⟨fun c hc => ?_, ?_⟩⟩
        · exact beq_eq_false_iff_ne.mpr (hbase c hc).2
        · exact List.forall_mem_singleton.mpr rfl
      rw [List.intercalate_singleton, List.splitOn_eq_splitOnP, List.splitOnP_eq_singleton hnone,
        List.map_singleton, Text.bare_cons_blank rfl, Text.bare_append_blank rfl,
        Text.bare_of_forall fun c hc => (hbase c hc).1]
  | base :: base' :: rest, _, h => by
      have hbase := h base List.mem_cons_self
      have hnone : ∀ c ∈ ' ' :: base, (c == ',') = false :=
        List.forall_mem_cons.mpr ⟨rfl, fun c hc => beq_eq_false_iff_ne.mpr (hbase c hc).2⟩
      have hsplit : ' ' :: ([',', ' '].intercalate (base :: base' :: rest) ++ [' ']) =
          (' ' :: base) ++ ',' :: ' ' :: ([',', ' '].intercalate (base' :: rest) ++ [' ']) := by
        rw [List.intercalate_cons_cons]
        simp
      have hrest := map_bare_splitOn (base' :: rest) (List.cons_ne_nil _ _)
        fun b hb => h b (List.mem_cons_of_mem _ hb)
      rw [List.splitOn_eq_splitOnP] at hrest
      rw [hsplit, List.splitOn_eq_splitOnP,
        List.splitOnP_append_cons_of_forall_mem hnone ',' rfl, List.map_cons, hrest,
        Text.bare_cons_blank rfl, Text.bare_of_forall fun c hc => (hbase c hc).1]

/-- An interface without bases mentions nothing unguarded. -/
theorem not_unguarded_of_brace (hdocs : IsDocs docs) {rest : List Char} (hk : d.kind = .interface)
    (hc : d.content.toList =
      docs.toList ++ (("export interface " ++ d.name ++ " ").toList ++ '\x7b' :: rest)) :
    ¬d.Unguarded name := by
  have hcode := code_eq hdocs hc (by simp)
  rintro (⟨hk', -⟩ | ⟨-, hc', -⟩)
  · rw [hk] at hk'
    cases hk'
  · have hsplit : ("export interface " ++ d.name ++ " extends").toList =
        ("export interface " ++ d.name ++ " ").toList ++ "extends".toList := by simp
    rw [hcode, hsplit, List.append_assoc] at hc'
    exact absurd (List.cons.inj (List.append_cancel_left hc')).1 (by decide)

/-- A text ends at the first brace after it. -/
private theorem eq_of_append_brace {as bs xs ys : List Char} (ha : '\x7b' ∉ as) (hb : '\x7b' ∉ bs)
    (h : as ++ '\x7b' :: xs = bs ++ '\x7b' :: ys) : as = bs := by
  have hfront : ∀ {cs : List Char}, '\x7b' ∉ cs → ∀ zs,
      (cs ++ '\x7b' :: zs).takeWhile (· != '\x7b') = cs := by
    intro cs hcs zs
    have hall : ∀ c ∈ cs, (c != '\x7b') = true := fun c hc =>
      bne_iff_ne.mpr fun he => hcs (he ▸ hc)
    rw [List.takeWhile_append_of_pos hall]
    simp
  rw [← hfront ha xs, h, hfront hb]

/-- The bases between `extends` and the brace are read back. -/
private theorem unguarded_extends_iff (hk : d.kind = .interface) {bases : List String}
    {rest : List Char} (hne : bases ≠ []) (hb : ∀ base ∈ bases, Naming.IsPlain base)
    (hc : d.code = ("export interface " ++ d.name ++ " extends").toList ++
      ((' ' :: ([',', ' '].intercalate (bases.map String.toList) ++ [' '])) ++ '\x7b' :: rest)) :
    d.Unguarded name ↔ name ∈ bases := by
  have hcharacters : ∀ base ∈ bases.map String.toList, ∀ c ∈ base,
      (Text.isBlank c = false ∧ c ≠ ',') ∧ c ≠ '\x7b' := by
    refine List.forall_mem_map.mpr fun base hbase c hc =>
      ⟨⟨((hb base hbase).word c hc).2, ?_⟩, ?_⟩
    · rintro rfl
      exact absurd ((hb base hbase).unpunctuated _ hc) (by decide)
    · rintro rfl
      exact absurd ((hb base hbase).word _ hc).1 (by decide)
  have hbrace : '\x7b' ∉ ' ' :: ([',', ' '].intercalate (bases.map String.toList) ++ [' ']) := by
    have hinner : ∀ c ∈ [',', ' '].intercalate (bases.map String.toList), c ≠ '\x7b' :=
      Text.forall_mem_intercalate (by decide) fun base hbase c hc => (hcharacters base hbase c hc).2
    simpa using fun hmem => hinner _ hmem rfl
  have hpieces := map_bare_splitOn (bases.map String.toList) (List.map_eq_nil_iff.not.mpr hne)
    fun base hbase c hc => (hcharacters base hbase c hc).1
  have hmem : name.toList ∈ bases.map String.toList ↔ name ∈ bases := by
    simp [List.mem_map, String.toList_inj]
  constructor
  · rintro (⟨hk', -⟩ | ⟨-, hc', hb', h⟩)
    · rw [hk] at hk'
      cases hk'
    · rw [hc] at hc'
      rw [← eq_of_append_brace hbrace hb' (List.append_cancel_left hc'), hpieces] at h
      exact hmem.mp h
  · intro h
    refine .base hk hc hbrace ?_
    rw [hpieces]
    exact hmem.mpr h

/-- An interface with bases between its name and the brace. -/
def Extends (d : Declaration) (bases : List String) : Prop :=
  d.kind = .interface ∧ ∃ docs rest, IsDocs docs ∧
    d.content = docs ++ "export interface " ++ d.name ++
      (if bases.isEmpty then "" else " extends " ++ ", ".intercalate bases) ++ " " ++
      String.ofList ('\x7b' :: rest)

theorem extends_interfaceText (hdocs : IsDocs docs) {bases : List String} {body : Body}
    (hk : d.kind = .interface) (hc : d.content = Gen.interfaceText docs d.name bases body) :
    d.Extends bases := by
  obtain ⟨rest, hbody⟩ :
      ∃ rest, (if body.isEmpty then "\x7b\x7d" else body.block) =
        String.ofList ('\x7b' :: rest) := by
    split
    · exact ⟨['\x7d'], rfl⟩
    · refine ⟨"\n".toList ++ (body.lines ++ "\x7d").toList, String.toList_inj.mp ?_⟩
      simp [Body.block]
  exact ⟨hk, docs, rest, hdocs, by rw [hc, Gen.interfaceText, hbody]⟩

/-- An interface is read back: it mentions unguarded its bases. -/
theorem Extends.unguarded_iff {bases : List String} (h : d.Extends bases)
    (hb : ∀ base ∈ bases, Naming.IsPlain base) : d.Unguarded name ↔ name ∈ bases := by
  obtain ⟨hk, docs, rest, hdocs, hc⟩ := h
  by_cases hne : bases = []
  · have hcontent : d.content.toList = docs.toList ++
        (("export interface " ++ d.name ++ " ").toList ++ '\x7b' :: rest) := by
      rw [hc, hne]
      simp
    rw [hne]
    exact iff_of_false (not_unguarded_of_brace hdocs hk hcontent) List.not_mem_nil
  · have hcontent : d.content.toList = docs.toList ++
        (("export interface " ++ d.name ++ " extends").toList ++
          ((' ' :: ([',', ' '].intercalate (bases.map String.toList) ++ [' '])) ++
            '\x7b' :: rest)) := by
      rw [hc, if_neg (mt List.isEmpty_iff.mp hne)]
      simp [String.toList_intercalate]
    exact unguarded_extends_iff hk hne hb (code_eq hdocs hcontent (by simp))

theorem unguarded_interface_iff (hdocs : IsDocs docs) {bases : List String} {body : Body}
    (hk : d.kind = .interface) (hc : d.content = Gen.interfaceText docs d.name bases body)
    (hb : ∀ base ∈ bases, Naming.IsPlain base) : d.Unguarded name ↔ name ∈ bases :=
  (extends_interfaceText hdocs hk hc).unguarded_iff hb

end Declaration

/-! ### What declarations mention unguarded -/

section Rules

variable {run : Setting} {N : String → Prop} {p : Progress} {U : UseRelation}

/-- An alias mentions unguarded the names that its text has. -/
theorem Gen.unguarded_aliasDeclaration_iff {docs name pointer : String} {use : TypeUse}
    {comments : Bool} {T : String → Prop} (hdocs : Declaration.IsDocs docs)
    (h : Reads N comments use.text T) {n : String} (hn : N n) :
    (((aliasDeclaration docs name use pointer).dropDependency name).rename name).Unguarded n ↔
      T n :=
  (Declaration.unguarded_alias_iff hdocs rfl rfl).trans (h.operand_iff hn)

namespace Gen.Composition.IsRead

variable {c : Gen.Composition} {T : String → Prop} (hN : ∀ {name}, N name → Naming.Proper name)
include hN

/-- Without other operands, the bases are the names. -/
theorem mem_bases_iff (h : c.IsRead N T) (ho : c.others.isEmpty = true) {n : String} (hn : N n) :
    n ∈ c.bases ↔ T n := by
  have hword : ∀ t ∈ c.bases, (Operand t.toList n.toList ↔ n = t) := fun t ht =>
    (hN (h.bases t ht)).word.operand_iff.trans String.toList_inj
  have hoperands := h.operands.operand_iff hn
  rw [List.isEmpty_iff.mp ho, List.append_nil] at hoperands
  rw [← hoperands]
  constructor
  · exact fun hmem => ⟨n, hmem, (hword n hmem).mpr rfl⟩
  · rintro ⟨t, ht, hop⟩
    rw [(hword t ht).mp hop]
    exact ht

/-- The body of an intersection adds no names. -/
theorem intersection {body : Body} (h : c.IsRead N T) (hb : body.IsClosed)
    (ho : c.others.isEmpty = false) :
    Reads N true
      (" & ".intercalate (c.bases ++ c.others ++ (if body.isEmpty then [] else [body.block])))
      T := by
  have hall : ReadsAll N true (c.bases ++ c.others ++ (if body.isEmpty then [] else [body.block]))
      T := by
    split
    · rw [List.append_nil]
      exact h.operands.allow
    · refine (h.operands.allow.add (Body.reads_block hN hb) fun t => ?_).congr fun _ => ?_
      · rw [List.mem_append, List.mem_singleton]
      · rw [or_false]
  refine hall.intercalate (fun hnil => ?_) (c := '&') rfl (by decide)
  rw [(List.append_eq_nil_iff.mp (List.append_eq_nil_iff.mp hnil).1).2] at ho
  cases ho

end Gen.Composition.IsRead

section Given

variable (hl : Legible run N p)
  (hU : ∀ {node location use}, U node location use →
    Reads N false use.text (p.Calls (Shows run node location)))
include hl hU

/-- A composition of all entries has the names of what the declaration unfolds to. -/
private theorem isRead_entries {s : Schema} {pointer : String} {c : Gen.Composition}
    (hs : s.shape.maker = .object)
    (hc : Composes run p U (Pointer.child pointer "allOf") 0 s.allOf {} c) :
    c.IsRead N (p.Calls (Unfolds run pointer (.schema s))) := by
  refine (hc.reads hl hU .empty).congr fun _ => ?_
  rw [false_or]
  exact Progress.calls_congr fun _ => (unfolds_object_iff hs).symm

/-- A declaration mentions unguarded the names of the pointers to which its node unfolds. -/
theorem Makes.unguarded_iff {pointer name : String} {node : SchemaNode} {d : Declaration}
    (h : Makes run p U pointer name node d) {n : String} (hn : N n) :
    ((d.dropDependency name).rename name).Unguarded n ↔
      p.Calls (Unfolds run pointer node) n := by
  have hdocs (texts : List String) : Declaration.IsDocs (run.comment texts "") :=
    Declaration.isDocs_comment run texts
  cases h with
  | link h =>
    cases h with
    | endless hs hb =>
      have hunknown : Reads N false TypeUse.unknown.text fun _ => False :=
        .word hl.proper (by decide)
      refine Gen.unguarded_aliasDeclaration_iff (.inl rfl) (hunknown.calls fun _ hunfolds => ?_) hn
      rw [((unfolds_reference_iff hs).mp hunfolds).1] at hb
      cases hb
    | follows hs hb h =>
      refine Gen.unguarded_aliasDeclaration_iff (.inl rfl) ((h.reads hl).congr fun _ => ?_) hn
      refine Progress.calls_congr fun _ => ?_
      rw [unfolds_reference_iff hs, and_iff_right hb]
  | boolean allowed =>
    have hread : Reads N false (TypeUse.ofBoolean allowed).text fun _ => False :=
      hl.reads_ofBoolean allowed
    exact Gen.unguarded_aliasDeclaration_iff (.inl rfl)
      (hread.calls fun _ => not_unfolds_boolean) hn
  | @record s _ hs he h =>
    refine Gen.unguarded_aliasDeclaration_iff (hdocs _) ((h.reads hl hU).calls fun _ => ?_) hn
    have hnone : s.allOf = [] := List.isEmpty_iff.mp (Bool.and_eq_true_iff.mp he).2
    rw [unfolds_object_iff hs, hnone]
    exact not_inRow_nil
  | interface hs _ hc _ ho =>
    have hread := isRead_entries hl hU hs hc
    rw [← hread.mem_bases_iff hl.proper ho hn]
    exact Declaration.unguarded_interface_iff (hdocs _) rfl rfl fun base hbase =>
      (hl.proper (hread.bases base hbase)).toIsPlain
  | intersection hs _ hc hb ho =>
    have hread := isRead_entries hl hU hs hc
    exact Gen.unguarded_aliasDeclaration_iff (hdocs _)
      (hread.intersection hl.proper (hb.isClosed (fun h => (hU h).closed) hread.body) ho) hn
  | union hs h =>
    refine Gen.unguarded_aliasDeclaration_iff (hdocs _) ((h.reads hl hU).congr fun _ => ?_) hn
    exact Progress.calls_congr fun _ => (unfolds_union_iff hs).symm
  | enumeration hs =>
    refine iff_of_false ?_ (Progress.not_calls fun _ => not_unfolds_of_maker (.inl ?_))
    · rintro (⟨hk, -⟩ | ⟨hk, -⟩) <;> cases hk
    · rw [hs]
      rfl
  | @literals s hs =>
    have hread : Reads N false (Enumeration.union s.literals) fun _ => False :=
      ReadsAll.union_of_forall hl.proper
        (List.forall_mem_map.mpr fun v _ => Json.reads_compact hl.proper v)
    refine Gen.unguarded_aliasDeclaration_iff (hdocs _) (hread.calls fun _ => ?_) hn
    refine not_unfolds_of_maker (.inl ?_)
    rw [hs]
    rfl
  | plain hs h =>
    have hread := (h.reads hl hU).orNullIf hl.proper
    exact Gen.unguarded_aliasDeclaration_iff (hdocs _)
      ((hread _).calls fun _ => not_unfolds_of_maker (.inr hs)) hn

omit hU in
theorem BodyUse.reads {node : SchemaNode} {location : String} {use : TypeUse}
    (h : BodyUse run p node location use) : ∃ T, Reads N false use.text (p.Calls T) := by
  cases h with
  | reference h => exact ⟨_, h.reads hl⟩
  | boolean allowed => exact ⟨_, (hl.reads_ofBoolean allowed).calls fun _ => id⟩
  | schema hn => exact ⟨_, hl.reads_ofDeclaration hn _⟩

omit hU in
/-- The texts of bodies, each once, have names of pointers only. -/
private theorem reads_bodies :
    {uses : List TypeUse} → (∀ use ∈ uses, ∃ node location, BodyUse run p node location use) →
      {texts : List String} → {T : String → Prop} → ReadsAll N false texts (p.Calls T) →
      ∃ T', ReadsAll N false (uses.foldl (fun texts use => Names.add texts use.text) texts)
        (p.Calls T')
  | [], _, _, T, hall => ⟨T, hall⟩
  | use :: uses, h, _, T, hall => by
      obtain ⟨⟨node, location, huse⟩, hrest⟩ := List.forall_mem_cons.mp h
      obtain ⟨T', hread⟩ := huse.reads hl
      exact reads_bodies hrest
        ((hall.add hread fun _ => Names.mem_add).congr fun _ => Progress.calls_or.symm)

omit hU in
/-- A declaration of an operation mentions only names of pointers unguarded. -/
theorem Synthesizes.exists_of_unguarded {name : String} {d : Declaration}
    (h : Synthesizes run p U name d) {n : String} (hn : N n)
    (hu : ((d.dropDependency name).rename name).Unguarded n) :
    ∃ pointer, p.name? pointer = some n := by
  cases h with
  | @parameters fields path method =>
    have hcontent : (Gen.parametersDeclaration fields
        (Pointer.descend "#/paths" [path, method.name, "parameters"]) name).content.toList =
        "".toList ++ (("export interface " ++ name ++ " ").toList ++
          '\x7b' :: ("\n" ++ String.join (fields.map ObjectField.line) ++ "\x7d").toList) := by
      rw [Gen.parametersDeclaration]
      simp
    exact absurd hu (Declaration.not_unguarded_of_brace (.inl rfl) rfl hcontent)
  | responses h =>
    obtain ⟨T, hall⟩ := reads_bodies hl h (T := fun _ => False)
      (ReadsAll.nil.congr fun _ => (iff_of_false id (Progress.not_calls fun _ => id)))
    generalize List.foldl _ _ _ = texts at hall hu
    have hread : Reads N false (" | ".intercalate texts) (p.Calls T) := by
      by_cases hne : texts = []
      · rw [hne]
        refine (Reads.empty hl.proper).congr fun hn => iff_of_false id ?_
        rw [← hall.operand_iff hn, hne]
        simp
      · exact hall.intercalate hne (c := '|') rfl (by decide)
    obtain ⟨pointer, -, hpointer⟩ := (Gen.unguarded_aliasDeclaration_iff
      (Declaration.isDocs_comment run _) hread hn).mp hu
    exact ⟨pointer, hpointer⟩

end Given

end Rules

end OpenApiTs
