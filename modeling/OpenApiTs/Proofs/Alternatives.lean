import OpenApiTs.Proofs.Reading

/-!
# Alternatives of type texts

The vertical bars outside of brackets and texts cut a type text into its alternatives. Null is put
at the end of a text by looking at its last characters only, and is taken from there in the same
way. This finds null wherever it is an alternative, as long as the text was itself put together so:
a tidy text has null as its last alternative or not at all.

## Main definitions

* `alternatives`: the alternatives of a type text.
* `NullLast`: null is at most once among the alternatives, and then the last.
* `Lone`: texts that are their only alternative.
* `Solid`: texts among whose alternatives are neither null nor the type of no value.
* `Tidy`, `Filled`: texts as they are put together, with or without null.
* `Undivided`: texts without vertical bars outside of brackets.

## Main results

* `alternatives_separated`, `Lone.alternatives_intercalate`, `Solid.intercalate`: texts joined by
  vertical bars.
* `Tidy.nullLast`, `Tidy.mem_alternatives_iff`: where null is in a tidy text.
* `Tidy.orNullIf`, `Filled.orNullIf`: adding null to a tidy text.
* `Undivided.not_null_intercalate`: null in an intersection.
-/

namespace OpenApiTs

/-! ### Cutting at vertical bars -/

/-- A vertical bar outside of brackets and texts. -/
def Scan.isBar (m : Char × Bool) : Bool := m.2 && m.1 == '|'

/-- What the vertical bars outside of brackets and texts separate, without the blanks around it. -/
def alternatives (text : String) : List String :=
  (((Scan.marks {} text.toList).splitOnP Scan.isBar).map operandOf).map String.ofList

/-- Null is at most once among the alternatives, and then the last of them. -/
def NullLast (text : String) : Prop :=
  ∃ others, "null" ∉ others ∧
    (alternatives text = others ∨ alternatives text = others ++ ["null"])

section Cut

variable {a : String}

/-- A vertical bar outside of brackets cuts a text. -/
theorem alternatives_append_bar (ha : Closed false a.toList) (b : String) :
    alternatives (a ++ "|" ++ b) = alternatives a ++ alternatives b := by
  have hmarks : Scan.marks {} (a ++ "|" ++ b).toList =
      Scan.marks {} a.toList ++ ('|', true) :: Scan.marks {} b.toList := by
    rw [String.toList_append, String.toList_append, List.append_assoc, Scan.marks_append, (ha 0).1]
    rfl
  rw [alternatives, hmarks, List.splitOnP_append_cons _ _ rfl, List.map_append, List.map_append]
  rfl

theorem alternatives_append_blank (a : String) : alternatives (a ++ " ") = alternatives a := by
  have hmarks : Scan.marks {} (a ++ " ").toList = Scan.marks {} a.toList ++ [(' ', false)] := by
    rw [String.toList_append, Scan.marks_append]
    exact congrArg (fun mark => _ ++ [(' ', mark)]) (Bool.and_false _)
  rw [alternatives, hmarks, map_splitOnP_append_blank (fun _ => rfl) rfl, alternatives]

theorem alternatives_blank_append (b : String) : alternatives (" " ++ b) = alternatives b := by
  have hmarks : Scan.marks {} (" " ++ b).toList = (' ', false) :: Scan.marks {} b.toList := by
    rw [String.toList_append]
    rfl
  rw [alternatives, hmarks, map_splitOnP_cons_blank (fun _ => rfl) rfl, alternatives]

/-- A vertical bar between blanks cuts a text. -/
theorem alternatives_separated (ha : Closed false a.toList) (b : String) :
    alternatives (a ++ " | " ++ b) = alternatives a ++ alternatives b := by
  have hclosed : Closed false (a ++ " ").toList := by
    rw [String.toList_append]
    exact ha.append (.of_forall_not_special (by decide))
  have hparts : a ++ " | " ++ b = (a ++ " ") ++ "|" ++ (" " ++ b) := by
    simp only [String.append_assoc]
    rfl
  rw [hparts, alternatives_append_bar hclosed, alternatives_append_blank,
    alternatives_blank_append]

theorem Text.trim_eq (a : String) : trim a = String.ofList (bare a.toList) := by
  unfold trim trimEnd trimStart bare
  rw [String.toList_ofList]

theorem Text.mem_trim {c : Char} (hc : isBlank c = false) (h : c ∈ a.toList) :
    c ∈ (trim a).toList := by
  rw [trim_eq, String.toList_ofList]
  exact mem_bare hc h

/-- Null after a text is one more alternative. -/
theorem alternatives_append_null (ha : Closed false a.toList) :
    alternatives (a ++ " | null") = alternatives a ++ ["null"] := by
  have hnull : alternatives "null" = ["null"] := by decide
  have htext : a ++ " | null" = a ++ " | " ++ "null" := by
    rw [String.append_assoc]
    rfl
  rw [htext, alternatives_separated ha, hnull]

/-- Without vertical bars outside of brackets, a text is its only alternative. -/
theorem alternatives_of_marks (h : ∀ m ∈ Scan.marks {} a.toList, Scan.isBar m = false) :
    alternatives a = [Text.trim a] := by
  rw [alternatives, List.splitOnP_eq_singleton h, List.map_singleton, List.map_singleton,
    operandOf, Scan.map_fst_marks, Text.trim_eq]

theorem alternatives_ne_nil (a : String) : alternatives a ≠ [] := by
  rw [alternatives, ne_eq, List.map_eq_nil_iff, List.map_eq_nil_iff]
  exact List.splitOnP_ne_nil _ _

end Cut

theorem Scan.isBar_of_unmarked {m : Char × Bool} (h : m.2 = false) : isBar m = false := by
  rw [isBar, h, Bool.false_and]

theorem Text.dropSuffix?_append (a tail : String) : dropSuffix? (a ++ tail) tail = some a := by
  rw [dropSuffix?, String.toList_append, List.reverse_append,
    List.isPrefixOf?_eq_some_iff_append_eq.mpr rfl, Option.map_some, List.reverse_reverse,
    String.ofList_toList]

/-- A text that begins and ends in no blank has none around it. -/
theorem Text.trim_of_ends {a : String} {c d : Char} {cs : List Char}
    (htext : a.toList = c :: (cs ++ [d])) (hc : isBlank c = false) (hd : isBlank d = false) :
    trim a = a := by
  rw [trim_eq, htext, bare, List.dropWhile_cons, if_neg (Bool.eq_false_iff.mp hc),
    ← List.cons_append, dropBlankEnd_append_singleton _ hd, List.cons_append, ← htext,
    String.ofList_toList]

/-! ### Lone texts -/

/-- A closed text that is its only alternative. -/
structure Lone (text : String) : Prop where
  closed : Closed false text.toList
  alternatives_eq : alternatives text = [Text.trim text]

namespace Lone

variable {text : String}

theorem of_marks (hclosed : Closed false text.toList)
    (hmarks : ∀ m ∈ Scan.marks {} text.toList, m.2 = false) : Lone text :=
  ⟨hclosed, alternatives_of_marks fun m hm => Scan.isBar_of_unmarked (hmarks m hm)⟩

theorem of_isIdentifier (h : Naming.isIdentifier text = true) : Lone text := by
  have hword : IsWord text.toList := (Naming.isPlain_of_isIdentifier h).word
  exact of_marks hword.closed hword.marks

theorem array {use : TypeUse} (h : Closed false use.text.toList) : Lone use.array.text := by
  obtain ⟨hclosed, hmarks, -⟩ := Reads.closed_array h
  exact of_marks hclosed hmarks

theorem record {use : TypeUse} (h : Closed false use.text.toList) : Lone use.record.text := by
  have hname : IsWord "Record".toList := (Naming.isPlain_of_isIdentifier (by decide)).word
  have hkey : Closed false "string, ".toList := .of_forall_not_special (by decide)
  obtain ⟨hclosed, hmarks⟩ := hname.bracket (by decide : '<' ∈ Scan.opening)
    (by decide : '>' ∈ Scan.closing) (hkey.append h)
  rw [← Reads.toList_record] at hclosed hmarks
  exact of_marks hclosed hmarks

/-- Null is one more lone text. -/
theorem append_null {texts : List String} (h : ∀ t ∈ texts, Lone t) (condition : Bool) :
    ∀ t ∈ texts ++ (if condition then ["null"] else []), Lone t := by
  refine List.forall_mem_append.mpr ⟨h, ?_⟩
  split
  · exact List.forall_mem_singleton.mpr (.of_isIdentifier (by decide))
  · exact nofun

/-- Lone texts joined by vertical bars are the alternatives. -/
theorem alternatives_intercalate {texts : List String} (hne : texts ≠ [])
    (h : ∀ t ∈ texts, Lone t) :
    alternatives (" | ".intercalate texts) = texts.map Text.trim := by
  induction texts with
  | nil => exact absurd rfl hne
  | cons t rest ih =>
    obtain ⟨ht, hrest⟩ := List.forall_mem_cons.mp h
    cases rest with
    | nil =>
      rw [String.intercalate_singleton]
      exact ht.alternatives_eq
    | cons u rest =>
      rw [String.intercalate_cons_cons, alternatives_separated ht.closed, ht.alternatives_eq,
        ih (List.cons_ne_nil u rest) hrest]
      rfl

end Lone

/-! ### Solid texts -/

/-- A closed text among whose alternatives are neither null nor the type of no value. -/
structure Solid (text : String) : Prop where
  closed : Closed false text.toList
  not_null : "null" ∉ alternatives text
  not_never : "never" ∉ alternatives text

namespace Solid

variable {a b text : String}

theorem ne_null (h : Solid text) : text ≠ "null" := by
  rintro rfl
  exact h.not_null (by decide)

theorem ne_never (h : Solid text) : text ≠ "never" := by
  rintro rfl
  exact h.not_never (by decide)

/-- A text without vertical bars outside of brackets. -/
theorem of_marks (hclosed : Closed false text.toList)
    (hmarks : ∀ m ∈ Scan.marks {} text.toList, Scan.isBar m = false)
    (hnull : Text.trim text ≠ "null") (hnever : Text.trim text ≠ "never") : Solid text := by
  refine ⟨hclosed, fun h => hnull ?_, fun h => hnever ?_⟩
  · rw [alternatives_of_marks hmarks, List.mem_singleton] at h
    exact h.symm
  · rw [alternatives_of_marks hmarks, List.mem_singleton] at h
    exact h.symm

theorem of_isWord (h : IsWord text.toList) (hnull : text ≠ "null") (hnever : text ≠ "never") :
    Solid text := by
  have htrim : Text.trim text = text := by
    rw [Text.trim_eq, Text.bare_of_forall fun c hc => (h c hc).2, String.ofList_toList]
  refine .of_marks h.closed (fun m hm => Scan.isBar_of_unmarked (h.marks m hm)) ?_ ?_
  · rwa [htrim]
  · rwa [htrim]

theorem of_isIdentifier (h : Naming.isIdentifier text = true) (hnull : text ≠ "null")
    (hnever : text ≠ "never") : Solid text :=
  of_isWord (Naming.isPlain_of_isIdentifier h).word hnull hnever

/-- A text in one piece with a closing bracket or a quotation mark in it. -/
theorem of_mem (hclosed : Closed false text.toList)
    (hmarks : ∀ m ∈ Scan.marks {} text.toList, Scan.isBar m = false) {c : Char}
    (hmem : c ∈ text.toList) (hc : c ∈ '"' :: Scan.closing) : Solid text := by
  have hblank : ∀ d ∈ '"' :: Scan.closing, Text.isBlank d = false := by decide
  have hwords : ∀ word ∈ ["null", "never"], ∀ d ∈ '"' :: Scan.closing, d ∉ word.toList := by
    decide
  have htrim : c ∈ (Text.trim text).toList := Text.mem_trim (hblank c hc) hmem
  refine .of_marks hclosed hmarks (fun h => ?_) fun h => ?_
  · rw [h] at htrim
    exact hwords "null" (by decide) c hc htrim
  · rw [h] at htrim
    exact hwords "never" (by decide) c hc htrim

/-- A word with a text between brackets after it. -/
theorem bracket {before inner : List Char} (hbefore : IsWord before) {c c' : Char}
    (hc : c ∈ Scan.opening) (hc' : c' ∈ Scan.closing) (h : Closed false inner)
    (htext : text.toList = before ++ c :: (inner ++ [c'])) : Solid text := by
  obtain ⟨hclosed, hmarks⟩ := hbefore.bracket hc hc' h
  rw [← htext] at hclosed hmarks
  exact of_mem (c := c') hclosed (fun m hm => Scan.isBar_of_unmarked (hmarks m hm)) (by simp [htext])
    (List.mem_cons_of_mem _ hc')

theorem array {use : TypeUse} (h : Closed false use.text.toList) : Solid use.array.text := by
  obtain ⟨hclosed, hmarks, cs, htext⟩ := Reads.closed_array h
  refine of_mem (c := ']') hclosed (fun m hm => Scan.isBar_of_unmarked (hmarks m hm)) ?_
    (by decide)
  rw [htext]
  exact List.mem_append_right cs (List.mem_singleton_self _)

theorem record {use : TypeUse} (h : Closed false use.text.toList) : Solid use.record.text := by
  refine bracket (Naming.isPlain_of_isIdentifier (by decide)).word (by decide) (by decide) ?_
    (Reads.toList_record use)
  exact (Closed.of_forall_not_special (by decide)).append h

theorem empty : Solid "" := .of_isWord nofun (by decide) (by decide)

/-- Solid texts joined by a vertical bar. -/
theorem separated (ha : Solid a) (hb : Solid b) : Solid (a ++ " | " ++ b) := by
  have hseparator : Closed false " | ".toList := .of_forall_not_special (by decide)
  refine ⟨?_, ?_, ?_⟩
  · rw [String.toList_append, String.toList_append]
    exact (ha.closed.append hseparator).append hb.closed
  · rw [alternatives_separated ha.closed, List.mem_append, not_or]
    exact ⟨ha.not_null, hb.not_null⟩
  · rw [alternatives_separated ha.closed, List.mem_append, not_or]
    exact ⟨ha.not_never, hb.not_never⟩

/-- Solid texts joined by vertical bars. -/
theorem intercalate {texts : List String} (h : ∀ t ∈ texts, Solid t) :
    Solid (" | ".intercalate texts) := by
  induction texts with
  | nil => exact empty
  | cons t rest ih =>
    obtain ⟨ht, hrest⟩ := List.forall_mem_cons.mp h
    cases rest with
    | nil =>
      rw [String.intercalate_singleton]
      exact ht
    | cons u rest =>
      rw [String.intercalate_cons_cons]
      exact ht.separated (ih hrest)

/-- No solid text says at its end that it admits null. -/
theorem not_suffix_null (h : Solid text) : ¬"| null".toList <:+ text.toList := by
  rintro ⟨front, hfront⟩
  refine h.not_null ?_
  have hlist : (String.ofList front).toList = front := String.toList_ofList
  have htext : text = String.ofList front ++ "|" ++ " null" := by
    rw [← String.toList_inj, ← hfront, String.toList_append, String.toList_append, hlist,
      List.append_assoc]
    rfl
  have hclosed : Closed false front := by
    have hall := h.closed
    rw [← hfront] at hall
    exact hall.of_append (by decide) (by decide)
  have hlast : "null" ∈ alternatives " null" := by decide
  rw [htext, alternatives_append_bar (by rwa [hlist])]
  exact List.mem_append_right _ hlast

theorem not_endsWith_null (h : Solid text) : Text.endsWith text "| null" = false :=
  Bool.eq_false_iff.mpr fun hends => h.not_suffix_null (List.isSuffixOf_iff_suffix.mp hends)

theorem dropSuffix?_null (h : Solid text) : Text.dropSuffix? text " | null" = none := by
  cases hdrop : Text.dropSuffix? text " | null" with
  | none => rfl
  | some rest =>
    refine absurd ?_ h.not_suffix_null
    rw [Text.eq_append_of_dropSuffix? hdrop]
    exact (by decide : "| null".toList <:+ " | null".toList).trans (List.suffix_append _ _)

end Solid

/-! ### Tidy texts -/

/-- A text as it is put together, and whether it admits null: null and the type of no value stand
alone, and any other text is solid or has null after a solid text. -/
inductive Tidy : String → Bool → Prop
  | solid {text} (h : Solid text) : Tidy text false
  | never : Tidy "never" false
  | null : Tidy "null" true
  | orNull {text} (h : Solid text) : Tidy (text ++ " | null") true

namespace Tidy

variable {text : String} {null : Bool}

theorem closed (h : Tidy text null) : Closed false text.toList := by
  cases h with
  | solid h => exact h.closed
  | never => exact .of_forall_not_special (by decide)
  | null => exact .of_forall_not_special (by decide)
  | orNull h =>
    rw [String.toList_append]
    exact h.closed.append (.of_forall_not_special (by decide))

/-- The alternatives of a tidy text that admits null are followed by null. -/
theorem alternatives_eq (h : Tidy text null) :
    ∃ others, "null" ∉ others ∧ alternatives text = others ++ if null then ["null"] else [] := by
  cases h with
  | solid h => exact ⟨_, h.not_null, (List.append_nil _).symm⟩
  | never => exact ⟨["never"], by decide, by decide⟩
  | null => exact ⟨[], by decide, by decide⟩
  | orNull h => exact ⟨_, h.not_null, alternatives_append_null h.closed⟩

theorem nullLast (h : Tidy text null) : NullLast text := by
  obtain ⟨others, hothers, heq⟩ := h.alternatives_eq
  refine ⟨others, hothers, ?_⟩
  cases null with
  | true => exact .inr heq
  | false => exact .inl (heq.trans (List.append_nil _))

theorem mem_alternatives_iff (h : Tidy text null) : "null" ∈ alternatives text ↔ null = true := by
  obtain ⟨others, hothers, heq⟩ := h.alternatives_eq
  rw [heq]
  cases null with
  | true => simp
  | false => simpa using hothers

/-- A tidy text without null is solid, or that of no value. -/
theorem solid_or_never (h : Tidy text false) : Solid text ∨ text = "never" := by
  cases h with
  | solid h => exact .inl h
  | never => exact .inr rfl

/-- What a text says at its end is whether it admits null. -/
theorem endsInNull (h : Tidy text null) : TypeUse.endsInNull text = null := by
  cases h with
  | solid h =>
    rw [TypeUse.endsInNull, h.not_endsWith_null, Bool.or_false]
    exact beq_false_of_ne h.ne_null
  | never => decide
  | null => decide
  | @orNull t h =>
    have hends : Text.endsWith (t ++ " | null") "| null" = true := by
      rw [Text.endsWith, List.isSuffixOf_iff_suffix, String.toList_append]
      exact (by decide : "| null".toList <:+ " | null".toList).trans (List.suffix_append _ _)
    rw [TypeUse.endsInNull, hends, Bool.or_true]

/-- A tidy text that has null stays as it is. -/
theorem orNullIf_eq {use : TypeUse} (h : Tidy use.text null) {condition : Bool}
    (hnull : condition = true → null = true) : use.orNullIf condition = use := by
  cases condition with
  | false => rfl
  | true => rw [TypeUse.orNullIf, if_pos rfl, TypeUse.orNull, h.endsInNull, if_pos (hnull rfl)]

/-- Of all tidy texts, only null itself has no alternative but null. -/
theorem eq_null (h : Tidy text null) (htext : alternatives text = ["null"]) : text = "null" := by
  have hnull : null = true := h.mem_alternatives_iff.mp (htext ▸ List.mem_singleton_self _)
  subst hnull
  cases h with
  | null => rfl
  | @orNull t h =>
    rw [alternatives_append_null h.closed, List.append_eq_singleton_iff] at htext
    exact absurd (htext.resolve_right fun hboth => nomatch hboth.2).1 (alternatives_ne_nil t)

end Tidy

/-- A tidy text that is neither null alone nor that of no value. -/
structure Filled (text : String) (null : Bool) : Prop where
  tidy : Tidy text null
  ne_null : text ≠ "null"
  ne_never : text ≠ "never"

namespace Filled

variable {null : Bool}

theorem of_solid {text : String} (h : Solid text) : Filled text false :=
  ⟨.solid h, h.ne_null, h.ne_never⟩

theorem orNull {text : String} (h : Solid text) : Filled (text ++ " | null") true := by
  refine ⟨.orNull h, fun htext => ?_, fun htext => ?_⟩
  · have hwords : ∀ t, t = "null" → alternatives t = [] ++ ["null"] := by
      rintro _ rfl
      decide
    have heq := hwords _ htext
    rw [alternatives_append_null h.closed] at heq
    exact alternatives_ne_nil text (List.append_cancel_right heq)
  · have hmem : "null" ∈ alternatives "never" := by
      rw [← htext, alternatives_append_null h.closed]
      exact List.mem_append_right _ (List.mem_singleton_self _)
    exact absurd hmem (by decide)

/-- Null is added to a text that is neither null nor that of no value. -/
theorem orNullIf {use : TypeUse} (h : Filled use.text null) (condition : Bool) :
    Filled (use.orNullIf condition).text (null || condition) := by
  by_cases hnull : condition = true → null = true
  · rw [h.tidy.orNullIf_eq hnull, Bool.or_eq_left_iff_imp.mpr hnull]
    exact h
  · obtain ⟨rfl, hfalse⟩ := Classical.not_imp.mp hnull
    obtain rfl := Bool.eq_false_iff.mpr hfalse
    rw [TypeUse.orNullIf, if_pos rfl, TypeUse.orNull, h.tidy.endsInNull]
    exact .orNull (h.tidy.solid_or_never.resolve_right h.ne_never)

end Filled

/-- Null is added to a tidy text, unless that is of no value. -/
theorem Tidy.orNullIf {use : TypeUse} {null : Bool} (h : Tidy use.text null)
    (hne : use.text ≠ "never") (condition : Bool) :
    Tidy (use.orNullIf condition).text (null || condition) := by
  by_cases htext : use.text = "null"
  · have hnull : null = true := h.mem_alternatives_iff.mp (by rw [htext]; decide)
    rw [h.orNullIf_eq fun _ => hnull, hnull, Bool.true_or]
    exact hnull ▸ h
  · exact (Filled.mk h htext hne).orNullIf condition |>.tidy

/-! ### Texts in one piece -/

/-- A closed text without vertical bars outside of brackets. -/
structure Undivided (text : String) : Prop where
  closed : Closed true text.toList
  unbarred : ∀ m ∈ Scan.marks {} text.toList, Scan.isBar m = false

namespace Undivided

variable {a b : String}

theorem empty : Undivided "" := ⟨.nil, nofun⟩

/-- Texts joined as operands of an intersection. -/
theorem intersected (ha : Undivided a) (hb : Undivided b) : Undivided (a ++ " & " ++ b) := by
  have hoperator : Closed true " & ".toList := .of_forall_not_special (by decide)
  have hmarks : ∀ m ∈ Scan.marks {} " & ".toList, Scan.isBar m = false := by decide
  constructor
  · rw [String.toList_append, String.toList_append]
    exact (ha.closed.append hoperator).append hb.closed
  · rw [String.toList_append, String.toList_append, List.append_assoc, Scan.marks_append,
      (ha.closed 0).1, Scan.marks_append, (hoperator 0).1]
    exact List.forall_mem_append.mpr ⟨ha.unbarred, List.forall_mem_append.mpr ⟨hmarks, hb.unbarred⟩⟩

theorem intercalate {texts : List String} (h : ∀ t ∈ texts, Undivided t) :
    Undivided (" & ".intercalate texts) := by
  induction texts with
  | nil => exact empty
  | cons t rest ih =>
    obtain ⟨ht, hrest⟩ := List.forall_mem_cons.mp h
    cases rest with
    | nil =>
      rw [String.intercalate_singleton]
      exact ht
    | cons u rest =>
      rw [String.intercalate_cons_cons]
      exact ht.intersected (ih hrest)

/-- Null is no alternative of a text in one piece that has a character beside its letters. -/
theorem not_null_of_mem (h : Undivided a) {c : Char} (hblank : Text.isBlank c = false)
    (hc : c ∉ "null".toList) (hmem : c ∈ a.toList) : "null" ∉ alternatives a := by
  rw [alternatives_of_marks h.unbarred, List.mem_singleton]
  intro htrim
  have hletter := Text.mem_trim hblank hmem
  rw [← htrim] at hletter
  exact hc hletter

/-- Null is no alternative of an intersection, unless it is that of its only operand. -/
theorem not_null_intercalate {texts : List String} (h : ∀ t ∈ texts, Undivided t)
    (hnull : ∀ t ∈ texts, "null" ∉ alternatives t) :
    "null" ∉ alternatives (" & ".intercalate texts) := by
  match texts with
  | [] => decide
  | [t] =>
    rw [String.intercalate_singleton]
    exact hnull t List.mem_cons_self
  | t :: u :: rest =>
    have hmem : '&' ∈ (" & ".intercalate (t :: u :: rest)).toList := by
      rw [String.intercalate_cons_cons, String.toList_append, String.toList_append]
      exact List.mem_append_left _ (List.mem_append_right _ (by decide))
    exact (intercalate h).not_null_of_mem (by decide) (by decide) hmem

/-- Parentheses around a tidy text, if it needs them. -/
theorem parenthesize {null : Bool} (h : Tidy a null) (hne : a ≠ "null") :
    Undivided (TypeUse.parenthesize a) ∧ "null" ∉ alternatives (TypeUse.parenthesize a) := by
  obtain ⟨hclosed, hmarks⟩ := Reads.closed_parenthesize h.closed
  have hundivided : Undivided (TypeUse.parenthesize a) :=
    ⟨hclosed.allow, fun m hm => Scan.isBar_of_unmarked (hmarks m hm)⟩
  refine ⟨hundivided, ?_⟩
  by_cases hoperator : TypeUse.hasOperator .code 0 a.toList = true
  · refine hundivided.not_null_of_mem (c := '(') (by decide) (by decide) ?_
    rw [TypeUse.parenthesize, if_pos hoperator, String.toList_append, String.toList_append]
    exact List.mem_append_left _ (List.mem_append_left _ List.mem_cons_self)
  · have heq : TypeUse.parenthesize a = a := if_neg hoperator
    rw [heq] at hundivided ⊢
    have halternatives := alternatives_of_marks hundivided.unbarred
    intro hmem
    rw [halternatives, List.mem_singleton] at hmem
    rw [← hmem] at halternatives
    exact hne (h.eq_null halternatives)

end Undivided

end OpenApiTs
