import OpenApiTs.Naming.Identifier
import OpenApiTs.Proofs.Operands

/-!
# Reading the names in type texts

Which names are operands of a type text, where the names are words that no type text has by
itself. Unions and intersections have the names of their members, a type that also admits null has
the names of the type, and arrays and records have none.

## Main definitions

* `Naming.Proper`: names that only declarations have.
* `Reads`, `ReadsAll`: a closed text, or several of them, with their names.

## Main results

* `ReadsAll.intercalate`: unions and intersections.
* `Reads.orNull`, `Reads.dropNull`: null at the end of a text.
* `Reads.parenthesize`, `Reads.array`, `Reads.record`: types made from a type.
-/

namespace OpenApiTs

open Scan (Along)

/-! ### Words -/

/-- The characters of a text mean nothing to the scanner, cut nothing and are not blank. -/
def IsWord (cs : List Char) : Prop :=
  ∀ c ∈ cs, c ∉ Scan.special ++ Scan.operators ∧ Text.isBlank c = false

namespace IsWord

variable {cs y : List Char}

theorem closed {comments : Bool} (h : IsWord cs) : Closed comments cs :=
  .of_forall_not_special fun c hc => mt (List.mem_append_left _) (h c hc).1

theorem marks (h : IsWord cs) : ∀ m ∈ Scan.marks {} cs, m.2 = false :=
  Scan.marks_of_forall fun c hc => mt (List.mem_append_right _) (h c hc).1

/-- A word is its only operand. -/
theorem operand_iff (h : IsWord cs) : Operand cs y ↔ y = cs := by
  have hbare : Text.bare cs = cs := Text.bare_of_forall fun c hc => (h c hc).2
  constructor
  · intro hy
    rcases hy.of_marks h.marks with rfl | ⟨inner, hinner, -⟩
    · exact hbare
    · rw [hbare] at hinner
      rw [hinner] at h
      exact absurd (h '(' List.mem_cons_self).1 (by decide)
  · rintro rfl
    refine .own ?_
    rw [operands_of_marks h.marks, hbare]
    exact List.mem_singleton_self _

/-- A word with a closed text between brackets after it is closed, and has no operator outside of
the brackets. -/
theorem bracket {comments : Bool} {inner : List Char} (hword : IsWord cs) {c c' : Char}
    (hc : c ∈ Scan.opening) (hc' : c' ∈ Scan.closing) (h : Closed comments inner) :
    Closed comments (cs ++ c :: (inner ++ [c'])) ∧
      ∀ m ∈ Scan.marks {} (cs ++ c :: (inner ++ [c'])), m.2 = false := by
  have hclosed : Closed comments cs := hword.closed
  refine ⟨hclosed.append (.bracket hc hc' h), ?_⟩
  rw [Scan.marks_append, (hclosed 0).1]
  exact List.forall_mem_append.mpr ⟨hword.marks, Operand.marks_bracket c c' hc hc' h⟩

end IsWord

namespace Naming

/-- Words that stand in type texts besides the names of built-in types. -/
def words : List String := ["Blob", "false", "true"]

/-- The punctuation of numbers and lists. -/
def punctuation : List Char := ['-', '.', '+', ',']

/-- A word without punctuation that is no number. -/
structure IsPlain (name : String) : Prop where
  word : IsWord name.toList
  unpunctuated : ∀ c ∈ name.toList, c ∉ punctuation
  start : ∃ c cs, name.toList = c :: cs ∧ Text.isAsciiDigit c = false

/-- A name that only a declaration has. -/
structure Proper (name : String) : Prop extends IsPlain name where
  not_reserved : name ∉ reserved
  not_word : name ∉ words

/-- The characters of identifiers lie between the blanks of ASCII and those beyond it. -/
theorem not_blank_of_isIdentifierPart {c : Char} (h : isIdentifierPart c = true) :
    Text.isBlank c = false := by
  have hrange : 36 ≤ c.toNat ∧ c.toNat ≤ 122 := by
    rw [isIdentifierPart, Bool.or_eq_true, Bool.or_eq_true, beq_iff_eq, beq_iff_eq,
      Text.isAsciiAlphanumeric_iff, Text.isAsciiUpper_iff, Text.isAsciiLower_iff,
      Text.isAsciiDigit_iff] at h
    rcases h with (h | rfl) | rfl
    · omega
    · decide
    · decide
  rw [Text.isBlank, Bool.eq_false_iff]
  simp only [ne_eq, Bool.or_eq_true, Bool.and_eq_true, decide_eq_true_eq, beq_iff_eq]
  omega

theorem isIdentifierPart_of_mem {name : String} (h : isIdentifier name = true) :
    ∀ c ∈ name.toList, isIdentifierPart c = true := by
  rw [isIdentifier] at h
  generalize name.toList = cs at h
  cases cs with
  | nil => exact nofun
  | cons c cs =>
    rw [isIdentifierList, Bool.and_eq_true, List.all_eq_true] at h
    have hstart : isIdentifierPart c = true := by
      have hc := h.1
      simp only [isIdentifierStart, Bool.or_eq_true] at hc
      simp only [isIdentifierPart, Text.isAsciiAlphanumeric, Bool.or_eq_true]
      tauto
    exact List.forall_mem_cons.mpr ⟨hstart, h.2⟩

/-- Identifiers are plain. -/
theorem isPlain_of_isIdentifier {name : String} (h : isIdentifier name = true) : IsPlain name := by
  have hmarks : ∀ c ∈ (Scan.special ++ Scan.operators) ++ punctuation,
      isIdentifierPart c = false := by decide
  have hdigit : ∀ c, isIdentifierStart c = true → Text.isAsciiDigit c = false := by
    intro c hc
    refine Bool.eq_false_iff.mpr fun hdigit => ?_
    rw [isIdentifierStart, Text.isAsciiLetter, Bool.or_eq_true, Bool.or_eq_true, Bool.or_eq_true,
      beq_iff_eq, beq_iff_eq, Text.isAsciiUpper_iff, Text.isAsciiLower_iff] at hc
    rw [Text.isAsciiDigit_iff] at hdigit
    rcases hc with (hc | rfl) | rfl
    · omega
    · exact absurd hdigit (by decide)
    · exact absurd hdigit (by decide)
  have hparts := isIdentifierPart_of_mem h
  have hnot : ∀ c ∈ name.toList, c ∉ (Scan.special ++ Scan.operators) ++ punctuation := by
    intro c hc hmem
    have hpart := hparts c hc
    rw [hmarks c hmem] at hpart
    cases hpart
  refine ⟨fun c hc => ⟨fun hmem => hnot c hc (List.mem_append_left _ hmem),
    not_blank_of_isIdentifierPart (hparts c hc)⟩,
    fun c hc hmem => hnot c hc (List.mem_append_right _ hmem), ?_⟩
  rw [isIdentifier] at h
  generalize name.toList = cs at h
  cases cs with
  | nil => cases h
  | cons c cs =>
    rw [isIdentifierList, Bool.and_eq_true] at h
    exact ⟨c, cs, rfl, hdigit c h.1⟩

end Naming

theorem Text.eq_append_of_dropSuffix? {s tail rest : String} (h : dropSuffix? s tail = some rest) :
    s.toList = rest.toList ++ tail.toList := by
  obtain ⟨front, hfront, rfl⟩ := Option.map_eq_some_iff.mp h
  have hreverse := congrArg List.reverse (List.append_eq_of_isPrefixOf?_eq_some hfront)
  rw [List.reverse_append, List.reverse_reverse, List.reverse_reverse] at hreverse
  rw [String.toList_ofList]
  exact hreverse.symm

/-! ### Names in a text -/

/-- The text is closed, and those of the names `N` that are its operands are those with `T`. -/
structure Reads (N : String → Prop) (comments : Bool) (text : String) (T : String → Prop) :
    Prop where
  closed : Closed comments text.toList
  operand_iff : ∀ {name}, N name → (Operand text.toList name.toList ↔ T name)

namespace Reads

variable {N : String → Prop} {comments : Bool} {text : String} {T T' : String → Prop}

theorem congr (h : Reads N comments text T) (hT : ∀ {name}, N name → (T name ↔ T' name)) :
    Reads N comments text T' :=
  ⟨h.closed, fun hn => (h.operand_iff hn).trans (hT hn)⟩

/-- A word has itself. -/
theorem name {word : String} (h : IsWord word.toList) : Reads N comments word (· = word) :=
  ⟨h.closed, fun _ => h.operand_iff.trans String.toList_inj⟩

/-- The empty text has no names. -/
theorem empty (hN : ∀ {name}, N name → Naming.Proper name) :
    Reads N comments "" fun _ => False := by
  have hword : IsWord "".toList := nofun
  refine ⟨hword.closed, fun hn => iff_of_false (fun hy => ?_) id⟩
  obtain ⟨c, cs, hname, -⟩ := (hN hn).start
  rw [hword.operand_iff.mp hy] at hname
  cases hname

section Proper

variable (hN : ∀ {name}, N name → Naming.Proper name)
include hN

/-- The words of type texts are no names. -/
theorem word {word : String} (h : word ∈ Naming.reserved ++ Naming.words) :
    Reads N comments word fun _ => False := by
  have hidentifier : ∀ w ∈ Naming.reserved ++ Naming.words, Naming.isIdentifier w = true := by
    decide
  have hword := (Naming.isPlain_of_isIdentifier (hidentifier word h)).word
  refine (name hword).congr fun hn => iff_of_false ?_ id
  rintro rfl
  exact (List.mem_append.mp h).elim (hN hn).not_reserved (hN hn).not_word

/-- A text in one piece that ends like no name has no names. -/
theorem of_end (hclosed : Closed comments text.toList)
    (hmarks : ∀ m ∈ Scan.marks {} text.toList, m.2 = false) (cs : List Char) (c : Char)
    (hend : text.toList = cs ++ [c]) (hc : c ∈ ['\x7d', ']', '>', '"']) :
    Reads N comments text fun _ => False := by
  have hends : ∀ c ∈ ['\x7d', ']', '>', '"'],
      Text.isBlank c = false ∧ c ≠ ')' ∧ c ∈ Scan.special ++ Scan.operators := by decide
  obtain ⟨hblank, hparenthesis, hmark⟩ := hends c hc
  obtain ⟨ds, hbare⟩ := Text.bare_append_of_not_blank hblank cs
  rw [← hend] at hbare
  refine ⟨hclosed, fun {name} hn => iff_of_false (fun hy => ?_) id⟩
  rcases hy.of_marks hmarks with hname | ⟨inner, hinner, -⟩
  · have hmem : c ∈ name.toList := by
      rw [hname, hbare]
      exact List.mem_append_right ds (List.mem_singleton_self c)
    exact ((hN hn).word c hmem).1 hmark
  · rw [hbare, ← List.cons_append] at hinner
    exact hparenthesis (List.singleton_inj.mp (List.append_inj_right' hinner rfl))

/-- A text that begins with a word and goes on between brackets has no names. -/
theorem bracket {before inner : List Char} (hbefore : IsWord before) (c c' : Char)
    (hc : c ∈ Scan.opening) (hc' : c' ∈ ['\x7d', ']', '>']) (h : Closed comments inner)
    (htext : text.toList = before ++ c :: (inner ++ [c'])) :
    Reads N comments text fun _ => False := by
  have hclosing : ∀ d ∈ ['\x7d', ']', '>'], d ∈ Scan.closing ∧ d ∈ ['\x7d', ']', '>', '"'] := by
    decide
  obtain ⟨hc', hend⟩ := hclosing c' hc'
  have htext' : text.toList = (before ++ c :: inner) ++ [c'] := by
    rw [htext, List.append_assoc, List.cons_append]
  obtain ⟨hclosed, hmarks⟩ := hbefore.bracket hc hc' h
  rw [← htext] at hclosed hmarks
  exact of_end hN hclosed hmarks (before ++ c :: inner) c' htext' hend

/-- Null at the end adds no names. -/
theorem appendNull (h : Reads N comments text T) : Reads N comments (text ++ " | null") T := by
  have hnull : Reads N comments "null" fun _ => False := word hN (by decide)
  have hclosed : Closed comments " | null".toList := .of_forall_not_special (by decide)
  have htext : (text ++ " | null").toList = text.toList ++ ' ' :: '|' :: ' ' :: "null".toList :=
    String.toList_append
  constructor
  · rw [String.toList_append]
    exact h.closed.append hclosed
  · intro name hn
    rw [htext, Operand.append_operator_iff (h.closed 0).1 (by decide), h.operand_iff hn,
      hnull.operand_iff hn, or_false]

theorem orNull {use : TypeUse} (h : Reads N comments use.text T) :
    Reads N comments use.orNull.text T := by
  rw [TypeUse.orNull]
  split
  · exact h
  · exact h.appendNull hN

theorem orNullIf {use : TypeUse} (h : Reads N comments use.text T) (condition : Bool) :
    Reads N comments (use.orNullIf condition).text T := by
  rw [TypeUse.orNullIf]
  split
  · exact h.orNull hN
  · exact h

/-- A text without the null at its end has the same names. -/
theorem dropNull {rest : String} (h : Reads N false text T)
    (hrest : Text.dropSuffix? text " | null" = some rest) : Reads N false rest T := by
  have hnull : Reads N false "null" fun _ => False := word hN (by decide)
  have htext : text.toList = rest.toList ++ ' ' :: '|' :: ' ' :: "null".toList :=
    Text.eq_append_of_dropSuffix? hrest
  have hclosed : Closed false rest.toList := by
    have hall := h.closed
    rw [htext] at hall
    exact hall.of_append (by decide) (by decide)
  refine ⟨hclosed, fun hn => ?_⟩
  rw [← h.operand_iff hn, htext, Operand.append_operator_iff (hclosed 0).1 (by decide),
    hnull.operand_iff hn, or_false]

/-! ### Types made from a type -/

omit hN in
theorem closed_parenthesize (h : Closed false text.toList) :
    Closed false (TypeUse.parenthesize text).toList ∧
      ∀ m ∈ Scan.marks {} (TypeUse.parenthesize text).toList, m.2 = false := by
  rw [TypeUse.parenthesize]
  split
  · have htext : ("(" ++ text ++ ")").toList = '(' :: (text.toList ++ [')']) := by
      rw [String.toList_append, String.toList_append]
      rfl
    rw [htext]
    exact ⟨.bracket (by decide) (by decide) h,
      Operand.marks_bracket '(' ')' (by decide) (by decide) h⟩
  · next hoperator => exact ⟨h, Scan.marks_of_hasOperator h (Bool.eq_false_iff.mpr hoperator)⟩

/-- Parentheses add no names. -/
theorem parenthesize (h : Reads N false text T) :
    Reads N false (TypeUse.parenthesize text) T := by
  refine ⟨(closed_parenthesize h.closed).1, fun {name} hn => ?_⟩
  rw [TypeUse.parenthesize]
  split
  · have htext : ("(" ++ text ++ ")").toList = '(' :: (text.toList ++ [')']) := by
      rw [String.toList_append, String.toList_append]
      rfl
    have hparenthesis : '(' ∉ name.toList := fun hmem =>
      absurd ((hN hn).word _ hmem).1 (by decide)
    rw [htext, Operand.parentheses_iff h.closed.allow hparenthesis]
    exact h.operand_iff hn
  · exact h.operand_iff hn

omit hN in
/-- An array is a closed text without operators outside of brackets. -/
theorem closed_array {use : TypeUse} (h : Closed false use.text.toList) :
    Closed false use.array.text.toList ∧ (∀ m ∈ Scan.marks {} use.array.text.toList, m.2 = false) ∧
      ∃ cs, use.array.text.toList = cs ++ [']'] := by
  obtain ⟨hclosed, hmarks⟩ := closed_parenthesize h
  have htext : use.array.text.toList =
      (TypeUse.parenthesize use.text).toList ++ '[' :: ([] ++ [']']) := String.toList_append
  have hnil : Closed false [] := .nil
  have hmarks' := Operand.marks_bracket '[' ']' (by decide) (by decide) hnil
  refine ⟨?_, ?_, _, htext.trans (List.append_cons _ _ _)⟩
  · rw [htext]
    exact hclosed.append (.bracket (by decide) (by decide) .nil)
  · rw [htext, Scan.marks_append, (hclosed 0).1]
    exact List.forall_mem_append.mpr ⟨hmarks, hmarks'⟩

/-- An array has no names. -/
theorem array {use : TypeUse} (h : Closed false use.text.toList) :
    Reads N false use.array.text fun _ => False := by
  obtain ⟨hclosed, hmarks, cs, htext⟩ := closed_array h
  exact of_end hN hclosed hmarks cs ']' htext (by decide)

omit hN in
/-- In a record, the type of the values stands between brackets. -/
theorem toList_record (use : TypeUse) :
    use.record.text.toList =
      "Record".toList ++ '<' :: (("string, ".toList ++ use.text.toList) ++ ['>']) := by
  change ("Record<string, " ++ use.text ++ ">").toList = _
  simp only [String.toList_append]
  rfl

/-- A record has no names. -/
theorem record {use : TypeUse} (h : Closed false use.text.toList) :
    Reads N false use.record.text fun _ => False := by
  refine bracket hN (Naming.isPlain_of_isIdentifier (by decide)).word '<' '>' (by decide)
    (by decide) ?_ (toList_record use)
  exact (Closed.of_forall_not_special (by decide)).append h

end Proper

end Reads

/-! ### Names in several texts -/

/-- The texts are closed, and those of the names `N` that are an operand of one are those with
`T`. -/
structure ReadsAll (N : String → Prop) (comments : Bool) (texts : List String)
    (T : String → Prop) : Prop where
  closed : ∀ t ∈ texts, Closed comments t.toList
  operand_iff : ∀ {name}, N name → ((∃ t ∈ texts, Operand t.toList name.toList) ↔ T name)

namespace ReadsAll

variable {N : String → Prop} {comments : Bool} {texts texts' : List String} {text : String}
  {T T' : String → Prop}

theorem nil : ReadsAll N comments [] fun _ => False := ⟨nofun, fun _ => ⟨nofun, False.elim⟩⟩

theorem congr (h : ReadsAll N comments texts T) (hT : ∀ {name}, N name → (T name ↔ T' name)) :
    ReadsAll N comments texts T' :=
  ⟨h.closed, fun hn => (h.operand_iff hn).trans (hT hn)⟩

theorem allow (h : ReadsAll N false texts T) : ReadsAll N comments texts T :=
  ⟨fun t ht => (h.closed t ht).allow, h.operand_iff⟩

/-- Texts with one more have its names too. -/
theorem add (h : ReadsAll N comments texts T) (ht : Reads N comments text T')
    (hmem : ∀ t, t ∈ texts' ↔ t ∈ texts ∨ t = text) :
    ReadsAll N comments texts' fun name => T name ∨ T' name := by
  constructor
  · intro t hmem'
    rcases (hmem t).mp hmem' with hold | rfl
    · exact h.closed t hold
    · exact ht.closed
  · intro name hn
    rw [← h.operand_iff hn, ← ht.operand_iff hn]
    constructor
    · rintro ⟨t, hmem', hop⟩
      rcases (hmem t).mp hmem' with hold | rfl
      · exact .inl ⟨t, hold, hop⟩
      · exact .inr hop
    · rintro (⟨t, hold, hop⟩ | hop)
      · exact ⟨t, (hmem t).mpr (.inl hold), hop⟩
      · exact ⟨text, (hmem text).mpr (.inr rfl), hop⟩

/-- Texts joined by an operator have the names of each. -/
theorem intercalate (h : ReadsAll N comments texts T) (hne : texts ≠ []) {separator : String}
    {c : Char} (hs : separator.toList = [' ', c, ' ']) (hc : c ∈ Scan.operators) :
    Reads N comments (separator.intercalate texts) T := by
  have hword : ∀ d ∈ ' ' :: Scan.operators, d ∉ Scan.special := by decide
  have hseparator : Closed comments [' ', c, ' '] :=
    .cons (hword ' ' List.mem_cons_self) <| .cons (hword c (List.mem_cons_of_mem _ hc)) <|
      .cons (hword ' ' List.mem_cons_self) .nil
  have htexts : ∀ t ∈ texts.map String.toList, Closed comments t := List.forall_mem_map.mpr h.closed
  constructor
  · rw [String.toList_intercalate, hs]
    exact hseparator.intercalate htexts
  · intro name hn
    rw [String.toList_intercalate, hs, ← h.operand_iff hn,
      Operand.intercalate_iff (List.map_eq_nil_iff.not.mpr hne) htexts hc]
    simp

/-- A union of texts without names has none. -/
theorem union_of_forall (hN : ∀ {name}, N name → Naming.Proper name)
    (h : ∀ t ∈ texts, Reads N comments t fun _ => False) :
    Reads N comments (" | ".intercalate texts) fun _ => False := by
  have hall : ReadsAll N comments texts fun _ => False := by
    refine ⟨fun t ht => (h t ht).closed, fun hn => iff_of_false ?_ id⟩
    rintro ⟨t, ht, hop⟩
    exact ((h t ht).operand_iff hn).mp hop
  by_cases hempty : texts = []
  · rw [hempty]
    exact .empty hN
  · exact hall.intercalate hempty (c := '|') rfl (by decide)

end ReadsAll

end OpenApiTs
