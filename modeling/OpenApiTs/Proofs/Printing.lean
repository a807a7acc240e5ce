import OpenApiTs.Generation.Alias
import OpenApiTs.Generation.Enumeration
import OpenApiTs.Proofs.Reading
import OpenApiTs.Proofs.Registry

/-!
# Printed texts are closed

Quoted texts, numbers, values, documentation comments, fields and bodies are closed texts, whatever
characters the document puts into them, and none of them names a declaration outside of brackets.

## Main results

* `Text.closed_quote`, `Json.closed_compact`: quoted texts and values.
* `Json.reads_compact`, `Json.reads_literalText`: values name no declarations.
* `Enumeration.isIdentifier_memberName`: names of members are identifiers.
* `Declaration.docComment_cases`: the form of a documentation comment.
* `Body.reads_block`, `Body.reads_inline`: bodies name no declarations.
-/

namespace OpenApiTs

open Scan (Along)

/-! ### Quoted texts -/

namespace Text

private theorem hexDigit_ne : ∀ n < 16, hexDigit n ≠ '"' ∧ hexDigit n ≠ '\\' := by decide

/-- The scanner stays in the text that it is in. -/
def InText (d : Int) (s : Scan) : Prop :=
  s.depth = d ∧ (s.place = .text ∨ s.place = .escape)

/-- Whatever follows a backslash belongs to the text. -/
private theorem scan_pair (c : Char) (d : Int) :
    Scan.scan ⟨.text, d⟩ ['\\', c] = ⟨.text, d⟩ ∧ Along (InText d) ⟨.text, d⟩ ['\\', c] :=
  ⟨rfl, ⟨rfl, .inl rfl⟩, ⟨rfl, .inr rfl⟩, rfl, .inl rfl⟩

private theorem scan_escapeChar (c : Char) (d : Int) :
    Scan.scan ⟨.text, d⟩ (escapeChar c) = ⟨.text, d⟩ ∧
      Along (InText d) ⟨.text, d⟩ (escapeChar c) := by
  have htext : InText d ⟨.text, d⟩ := ⟨rfl, .inl rfl⟩
  have hescape : InText d ⟨.escape, d⟩ := ⟨rfl, .inr rfl⟩
  unfold escapeChar
  split_ifs with hquote hslash _ _ _ _ _ hcontrol
  · exact scan_pair _ d
  · exact scan_pair _ d
  · exact scan_pair _ d
  · exact scan_pair _ d
  · exact scan_pair _ d
  · exact scan_pair _ d
  · exact scan_pair _ d
  · obtain ⟨hq, hs⟩ := hexDigit_ne (c.toNat / 16) (by omega)
    obtain ⟨hq', hs'⟩ := hexDigit_ne (c.toNat % 16) (by omega)
    have hfirst := Scan.step_text_of_ne (d := d) hq hs
    have hsecond := Scan.step_text_of_ne (d := d) hq' hs'
    refine ⟨?_, htext, hescape, htext, htext, htext, ?_⟩
    · change Scan.step (Scan.step ⟨.text, d⟩ _) _ = _
      rw [hfirst, hsecond]
    · change InText d (Scan.step ⟨.text, d⟩ _) ∧ InText d (Scan.step (Scan.step ⟨.text, d⟩ _) _)
      rw [hfirst, hsecond]
      exact ⟨htext, htext⟩
  · have hstep := Scan.step_text_of_ne (d := d) hquote hslash
    rw [Scan.scan_cons, hstep, Along, hstep]
    exact ⟨rfl, htext, htext⟩

theorem scan_escape (cs : List Char) (d : Int) :
    Scan.scan ⟨.text, d⟩ (escape cs) = ⟨.text, d⟩ ∧ Along (InText d) ⟨.text, d⟩ (escape cs) := by
  induction cs with
  | nil => exact ⟨rfl, rfl, .inl rfl⟩
  | cons c cs ih =>
    obtain ⟨hscan, halong⟩ := scan_escapeChar c d
    rw [escape, List.flatMap_cons, Scan.scan_append, Scan.along_append, hscan]
    exact ⟨ih.1, halong, ih.2⟩

theorem toList_quote (s : String) : (quote s).toList = '"' :: (escape s.toList ++ ['"']) :=
  String.toList_ofList

/-- A quoted text is closed. -/
theorem closed_quote (s : String) : Closed false (quote s).toList := by
  intro d
  obtain ⟨hscan, halong⟩ := scan_escape s.toList d
  rw [toList_quote, Scan.scan_cons, Along]
  change Scan.scan ⟨.text, d⟩ _ = _ ∧ _ ∧ Along _ ⟨.text, d⟩ _
  rw [Scan.scan_append, Scan.along_append, hscan]
  refine ⟨rfl, ⟨Int.le_refl d, id⟩, halong.mono fun s hs => ?_, ⟨Int.le_refl d, id⟩,
    Int.le_refl d, id⟩
  obtain ⟨hdepth, hplace⟩ := hs
  refine ⟨Int.le_of_eq hdepth.symm, fun hc => ?_⟩
  rcases hplace with hplace | hplace <;> rw [hplace] at hc <;> cases hc

/-- A quoted text has no operators outside of itself. -/
theorem marks_quote (s : String) : ∀ m ∈ Scan.marks {} (quote s).toList, m.2 = false := by
  obtain ⟨hscan, halong⟩ := scan_escape s.toList 0
  have hstep : Scan.step {} '"' = ⟨.text, 0⟩ := rfl
  have hinner := Scan.marks_of_along (halong.mono fun s hs he => by
    rw [he] at hs
    exact hs.2.elim nofun nofun)
  rw [toList_quote, Scan.marks, hstep, Scan.marks_append, hscan]
  exact List.forall_mem_cons.mpr
    ⟨rfl, List.forall_mem_append.mpr ⟨hinner, List.forall_mem_singleton.mpr rfl⟩⟩

/-- A quoted text names no declaration. -/
theorem reads_quote {N : String → Prop} (hN : ∀ {name}, N name → Naming.Proper name) (s : String) :
    Reads N false (quote s) fun _ => False :=
  .of_end hN (closed_quote s) (marks_quote s) ('"' :: escape s.toList) '"' (toList_quote s)
    (by decide)

end Text

/-! ### Numbers -/

/-- The text has digits and the other characters of numbers only. -/
def IsNumeral (text : String) : Prop :=
  ∀ c ∈ text.toList, Text.isAsciiDigit c = true ∨ c ∈ ['-', '.', '+', 'e']

/-- The text has a sign of numbers. -/
private def IsSigned (text : String) : Prop := ∃ c ∈ Naming.punctuation, c ∈ text.toList

private theorem IsNumeral.append {a b : String} (ha : IsNumeral a) (hb : IsNumeral b) :
    IsNumeral (a ++ b) := by
  intro c hc
  rw [String.toList_append] at hc
  exact (List.mem_append.mp hc).elim (ha c) (hb c)

private theorem IsNumeral.ite {c : Prop} [Decidable c] {a b : String} (ha : IsNumeral a)
    (hb : IsNumeral b) : IsNumeral (if c then a else b) := by
  split
  · exact ha
  · exact hb

private theorem IsNumeral.of_subset {cs : List Char} {a : String} (ha : IsNumeral a)
    (h : cs ⊆ a.toList) : IsNumeral (String.ofList cs) := by
  intro c hc
  rw [String.toList_ofList] at hc
  exact ha c (h hc)

private theorem IsSigned.append_left {a : String} (ha : IsSigned a) (b : String) :
    IsSigned (a ++ b) := by
  obtain ⟨c, hc, hmem⟩ := ha
  exact ⟨c, hc, by
    rw [String.toList_append]
    exact List.mem_append_left _ hmem⟩

private theorem IsSigned.append_right {b : String} (hb : IsSigned b) (a : String) :
    IsSigned (a ++ b) := by
  obtain ⟨c, hc, hmem⟩ := hb
  exact ⟨c, hc, by
    rw [String.toList_append]
    exact List.mem_append_right _ hmem⟩

private theorem IsSigned.ite {c : Prop} [Decidable c] {a b : String} (ha : IsSigned a)
    (hb : IsSigned b) : IsSigned (if c then a else b) := by
  split
  · exact ha
  · exact hb

theorem IsNumeral.isWord {text : String} (h : IsNumeral text) : IsWord text.toList := by
  have hspecial : ∀ c ∈ Scan.special ++ Scan.operators, Text.isAsciiDigit c = false ∧
      c ∉ ['-', '.', '+', 'e'] := by decide
  have hblank : ∀ c ∈ ['-', '.', '+', 'e'], Text.isBlank c = false := by decide
  intro c hc
  refine ⟨fun hmem => ?_, (h c hc).elim (fun hdigit => ?_) (hblank c)⟩
  · obtain ⟨hdigit, hsign⟩ := hspecial c hmem
    rcases h c hc with h | h
    · rw [hdigit] at h
      cases h
    · exact hsign h
  · refine Naming.not_blank_of_isIdentifierPart ?_
    rw [Naming.isIdentifierPart, Text.isAsciiAlphanumeric, hdigit]
    simp

theorem Text.isAsciiDigit_of_mem_repr {n : Nat} {c : Char} (h : c ∈ n.repr.toList) :
    Text.isAsciiDigit c = true := by
  rw [Nat.toList_repr] at h
  have hdigit := Nat.isDigit_of_mem_toDigits (by decide) (by decide) h
  rw [Char.isDigit, Bool.and_eq_true, decide_eq_true_iff, decide_eq_true_iff] at hdigit
  rw [Text.isAsciiDigit, Bool.and_eq_true, decide_eq_true_iff, decide_eq_true_iff]
  exact hdigit

private theorem isNumeral_repr (n : Nat) : IsNumeral n.repr :=
  fun _ hc => .inl (Text.isAsciiDigit_of_mem_repr hc)

/-- A text with a sign is no name. -/
private theorem IsSigned.not_plain {text : String} (h : IsSigned text) : ¬Naming.IsPlain text := by
  obtain ⟨c, hc, hmem⟩ := h
  exact fun hplain => hplain.unpunctuated c hmem hc

/-- A text of digits is no name. -/
private theorem not_plain_of_digits {text : String}
    (h : ∀ c ∈ text.toList, Text.isAsciiDigit c = true) : ¬Naming.IsPlain text := by
  intro hplain
  obtain ⟨c, cs, htext, hc⟩ := hplain.start
  rw [h c (htext ▸ List.mem_cons_self)] at hc
  cases hc

namespace Json

private theorem numeral_integerText (n : Int) :
    IsNumeral (integerText n) ∧ ¬Naming.IsPlain (integerText n) := by
  have hrepr : IsNumeral n.natAbs.repr := isNumeral_repr n.natAbs
  have hsign : IsNumeral "-" ∧ IsSigned "-" := by
    refine ⟨?_, '-', by decide⟩
    unfold IsNumeral
    decide
  rw [integerText]
  split
  · exact ⟨hsign.1.append hrepr, (hsign.2.append_left _).not_plain⟩
  · exact ⟨hrepr, not_plain_of_digits fun _ => Text.isAsciiDigit_of_mem_repr⟩

/-- The text of a double has a point, or an exponent with a sign. -/
private theorem numeral_double (x : Binary64) :
    IsNumeral (numberStyle.text x) ∧ IsSigned (numberStyle.text x) := by
  have hrepr (n : Nat) : IsNumeral n.repr := isNumeral_repr n
  have htake (n k : Nat) : IsNumeral (String.ofList (n.repr.toList.take k)) :=
    (hrepr n).of_subset (List.take_subset k _)
  have hdrop (n k : Nat) : IsNumeral (String.ofList (n.repr.toList.drop k)) :=
    (hrepr n).of_subset (List.drop_subset k _)
  have hzeros (k : Nat) : IsNumeral (String.ofList (List.replicate k '0')) :=
    (hrepr 0).of_subset fun c hc => by
      rw [List.eq_of_mem_replicate hc]
      exact List.mem_cons_self
  have hmarks : IsNumeral "-" ∧ IsNumeral "" ∧ IsNumeral ".0" ∧ IsNumeral "." ∧ IsNumeral "0." ∧
      IsNumeral "e" ∧ IsNumeral "+" := by
    unfold IsNumeral
    decide
  have hsigns : IsSigned ".0" ∧ IsSigned "." ∧ IsSigned "0." ∧ IsSigned "-" ∧ IsSigned "+" :=
    ⟨⟨'.', by decide⟩, ⟨'.', by decide⟩, ⟨'.', by decide⟩, ⟨'-', by decide⟩, ⟨'+', by decide⟩⟩
  obtain ⟨htail', hpoint', hzero', hminus', hplus'⟩ := hsigns
  obtain ⟨hminus, hnone, htail, hpoint, hzero, hexponent, hplus⟩ := hmarks
  unfold Decimal.Notation.text
  generalize Decimal.shortest x = digits
  dsimp only [numberStyle]
  constructor
  · refine .append (.ite hminus hnone) (.ite ?_ ?_)
    · refine .ite (((hrepr _).append (hzeros _)).append htail) (.ite ?_ ?_)
      · exact ((htake _ _).append hpoint).append (hdrop _ _)
      · exact (hzero.append (hzeros _)).append (hrepr _)
    · refine .append (.append (.ite (hrepr _) ?_) hexponent) (.ite ?_ ?_)
      · exact ((htake _ _).append hpoint).append (hdrop _ _)
      · exact hminus.append (hrepr _)
      · exact hplus.append (hrepr _)
  · refine IsSigned.append_right (.ite ?_ ?_) _
    · refine .ite (htail'.append_right _) (.ite ?_ ?_)
      · exact (hpoint'.append_right _).append_left _
      · exact (hzero'.append_left _).append_left _
    · exact IsSigned.append_right (.ite (hminus'.append_left _) (hplus'.append_left _)) _

/-- The text of a number is a numeral, and no name. -/
theorem numeral_number (n : Number) : IsNumeral n.text ∧ ¬Naming.IsPlain n.text := by
  cases n with
  | int n => exact numeral_integerText n
  | double x =>
    obtain ⟨hnumeral, hsigned⟩ := numeral_double x
    exact ⟨hnumeral, hsigned.not_plain⟩

/-! ### Values -/

theorem toList_compact_array (elements : List Json) :
    (array elements).compact.toList =
      '[' :: ((",".intercalate (compactElements elements)).toList ++ [']']) := by
  rw [compact, String.toList_append, String.toList_append]
  rfl

theorem toList_compact_object (members : List (String × Json)) :
    (object members).compact.toList =
      '\x7b' :: ((",".intercalate (compactMembers members)).toList ++ ['\x7d']) := by
  rw [compact, String.toList_append, String.toList_append]
  rfl

/-- Closed texts with commas between them are closed. -/
private theorem closed_commas {texts : List String} (h : ∀ t ∈ texts, Closed false t.toList) :
    Closed false (",".intercalate texts).toList := by
  rw [String.toList_intercalate]
  exact .intercalate (.of_forall_not_special (by decide)) (List.forall_mem_map.mpr h)

mutual

/-- The text of a value is closed. -/
theorem closed_compact : (value : Json) → Closed false value.compact.toList
  | .null => .of_forall_not_special (by decide)
  | .bool true => .of_forall_not_special (by decide)
  | .bool false => .of_forall_not_special (by decide)
  | .number n => (numeral_number n).1.isWord.closed
  | .string s => Text.closed_quote s
  | .array elements => by
      rw [toList_compact_array]
      exact .bracket (by decide) (by decide) (closed_commas (closed_compactElements elements))
  | .object members => by
      rw [toList_compact_object]
      exact .bracket (by decide) (by decide) (closed_commas (closed_compactMembers members))

private theorem closed_compactElements :
    (elements : List Json) → ∀ t ∈ compactElements elements, Closed false t.toList
  | [] => nofun
  | value :: rest =>
      List.forall_mem_cons.mpr ⟨closed_compact value, closed_compactElements rest⟩

private theorem closed_compactMembers :
    (members : List (String × Json)) → ∀ t ∈ compactMembers members, Closed false t.toList
  | [] => nofun
  | (key, value) :: rest => by
      refine List.forall_mem_cons.mpr ⟨?_, closed_compactMembers rest⟩
      rw [String.toList_append, String.toList_append]
      exact ((Text.closed_quote key).append (.of_forall_not_special (by decide))).append
        (closed_compact value)

end

/-- A closed text stands between the brackets of an array. -/
theorem closed_elements (elements : List Json) :
    Closed false (",".intercalate (compactElements elements)).toList :=
  closed_commas (closed_compactElements elements)

/-- A closed text stands between the braces of an object. -/
theorem closed_members (members : List (String × Json)) :
    Closed false (",".intercalate (compactMembers members)).toList :=
  closed_commas (closed_compactMembers members)

section Proper

variable {N : String → Prop} (hN : ∀ {name}, N name → Naming.Proper name)
include hN

/-- The text of a value names no declaration. -/
theorem reads_compact (value : Json) : Reads N false value.compact fun _ => False := by
  have hnil : IsWord [] := nofun
  cases value with
  | null => exact .word hN (by decide)
  | bool b =>
    cases b with
    | true => exact .word hN (by decide)
    | false => exact .word hN (by decide)
  | number n =>
    obtain ⟨hnumeral, hnot⟩ := numeral_number n
    refine ⟨hnumeral.isWord.closed, fun hn => iff_of_false (fun hy => ?_) id⟩
    have hplain := (hN hn).toIsPlain
    rw [String.toList_inj.mp (hnumeral.isWord.operand_iff.mp hy)] at hplain
    exact hnot hplain
  | string s => exact Text.reads_quote hN s
  | array elements =>
    exact .bracket hN hnil '[' ']' (by decide) (by decide) (closed_elements elements)
      (toList_compact_array elements)
  | object members =>
    exact .bracket hN hnil '\x7b' '\x7d' (by decide) (by decide) (closed_members members)
      (toList_compact_object members)

/-- The literal type of a value names no declaration. -/
theorem reads_literalText (value : Json) : Reads N false value.literalText fun _ => False := by
  unfold literalText
  split
  · exact .word hN (by decide)
  · exact .word hN (by decide)
  · exact reads_compact hN value

end Proper

end Json

/-! ### Names of members -/

/-- Characters of identifiers can follow an identifier. -/
theorem Naming.isIdentifier_append {name tail : String} (h : isIdentifier name = true)
    (htail : ∀ c ∈ tail.toList, isIdentifierPart c = true) :
    isIdentifier (name ++ tail) = true := by
  unfold isIdentifier at h ⊢
  rw [String.toList_append]
  cases hname : name.toList with
  | nil =>
    rw [hname] at h
    cases h
  | cons c rest =>
    rw [hname] at h
    rw [List.cons_append, isIdentifierList, List.all_append, List.all_eq_true.mpr htail,
      Bool.and_true]
    exact h

/-- A number can follow an identifier. -/
theorem Naming.isIdentifier_append_repr {name : String} (h : isIdentifier name = true) (n : Nat) :
    isIdentifier (name ++ n.repr) = true :=
  isIdentifier_append h fun c hc => by
    rw [isIdentifierPart, Text.isAsciiAlphanumeric, Text.isAsciiDigit_of_mem_repr hc]
    simp

namespace Enumeration

theorem exists_firstFree_eq (used : List String) (member : String) (count n : Nat) :
    ∃ k : Nat, firstFree used member count n = member ++ k.repr := by
  induction count generalizing n with
  | zero => exact ⟨n, rfl⟩
  | succ count ih =>
    rw [firstFree]
    split
    · exact ih (n + 1)
    · exact ⟨n, rfl⟩

/-- The name of a member is an identifier. -/
theorem isIdentifier_memberName (used : List String) (i : Nat) (value : Json) :
    Naming.isIdentifier (memberName used i value) = true := by
  unfold memberName
  dsimp only
  have hmember : Naming.isIdentifier
      (if Naming.isIdentifier (Naming.memberName value) then Naming.memberName value
        else "Value" ++ (i + 1).repr) = true := by
    split
    · next h => exact h
    · exact Naming.isIdentifier_append_repr (by decide) (i + 1)
  generalize (if Naming.isIdentifier (Naming.memberName value) then Naming.memberName value
    else "Value" ++ (i + 1).repr) = member at hmember ⊢
  split
  · obtain ⟨k, hk⟩ := exists_firstFree_eq used member used.length 2
    rw [hk]
    exact Naming.isIdentifier_append_repr hmember k
  · exact hmember

end Enumeration

/-! ### Documentation comments -/

namespace Declaration

open Scan (InComment Comment)

/-- The place after a character of a comment that does not end it. -/
private def after (d : Int) (c : Char) : Scan := if c = '*' then ⟨.star, d⟩ else ⟨.comment, d⟩

private theorem step_star {d : Int} {c : Char} (hc : c ≠ '/') :
    Scan.step ⟨.star, d⟩ c = after d c := if_neg hc

private theorem inComment_after (d : Int) (c : Char) : InComment d (after d c) := by
  unfold after
  split
  · exact ⟨rfl, rfl⟩
  · exact ⟨rfl, rfl⟩

/-- A text in which the mark that ends a comment is replaced stays in the comment, also after an
asterisk unless it starts with a slash. -/
private theorem along_replacePair {d : Int} :
    (cs : List Char) →
      Along (InComment d) ⟨.comment, d⟩ (Text.replacePair '*' '/' ['*', '\\', '/'] cs) ∧
        (cs.head? ≠ some '/' →
          Along (InComment d) ⟨.star, d⟩ (Text.replacePair '*' '/' ['*', '\\', '/'] cs))
  | [] => ⟨⟨rfl, rfl⟩, fun _ => ⟨rfl, rfl⟩⟩
  | [c] => by
      refine ⟨⟨⟨rfl, rfl⟩, inComment_after d c⟩, fun hc => ⟨⟨rfl, rfl⟩, ?_⟩⟩
      rw [Along, step_star fun h => hc (congrArg some h)]
      exact inComment_after d c
  | c :: c' :: rest => by
      rw [Text.replacePair]
      split
      · have hrest := (along_replacePair (d := d) rest).1
        exact ⟨⟨⟨rfl, rfl⟩, ⟨rfl, rfl⟩, ⟨rfl, rfl⟩, hrest⟩,
          fun _ => ⟨⟨rfl, rfl⟩, ⟨rfl, rfl⟩, ⟨rfl, rfl⟩, hrest⟩⟩
      · next hpair =>
        have hrest : Along (InComment d) (after d c)
            (Text.replacePair '*' '/' ['*', '\\', '/'] (c' :: rest)) := by
          obtain ⟨hcomment, hstar⟩ := along_replacePair (d := d) (c' :: rest)
          unfold after
          split
          · next hc => exact hstar fun h => hpair ⟨hc, Option.some.inj h⟩
          · exact hcomment
        refine ⟨⟨⟨rfl, rfl⟩, hrest⟩, fun hc => ⟨⟨rfl, rfl⟩, ?_⟩⟩
        rw [step_star fun h => hc (congrArg some h)]
        exact hrest

/-- A line of a comment does not end it. -/
private theorem comment_docLine (line : String) {c : Char} (hstar : c ≠ '*') (hslash : c ≠ '/') :
    Comment ((docLine line).toList ++ [c]) := by
  refine .append_singleton (fun d => ?_) hstar hslash
  rw [docLine, String.toList_ofList]
  generalize (Text.trimEnd line).toList = cs
  exact (along_replacePair cs).1

/-- A documentation comment is empty if there are no lines, and else a comment on lines of its
own. -/
theorem docComment_cases (texts : List String) (indent : String)
    (hindent : ∀ c ∈ indent.toList, c = ' ') :
    (texts.flatMap Text.lines = [] ∧ docComment texts indent = "") ∨
      ∃ body, Comment ('*' :: '*' :: body) ∧ (docComment texts indent).toList =
        indent.toList ++ '/' :: '*' :: '*' :: (body ++ ['*', '/', '\n']) := by
  have hblank : Comment indent.toList := .of_forall fun c hc => by
    rw [hindent c hc]
    decide
  have hstars (c : Char) (hstar : c ≠ '*') (hslash : c ≠ '/') : Comment (['*', '*'] ++ [c]) := by
    refine .append_singleton (fun d => ?_) hstar hslash
    exact ⟨⟨rfl, rfl⟩, ⟨rfl, rfl⟩, rfl, rfl⟩
  have hstar (c : Char) (hstar : c ≠ '*') (hslash : c ≠ '/') : Comment ([' ', '*'] ++ [c]) := by
    refine .append_singleton (fun d => ?_) hstar hslash
    exact ⟨⟨rfl, rfl⟩, ⟨rfl, rfl⟩, rfl, rfl⟩
  have hspace : Comment [' '] := .of_forall (by decide)
  have hlines : ∀ line ∈ (texts.flatMap Text.lines).map docLine, ∀ c : Char, c ≠ '*' → c ≠ '/' →
      Comment (line.toList ++ [c]) :=
    List.forall_mem_map.mpr fun line _ c => comment_docLine line
  have hnone : (texts.flatMap Text.lines).map docLine = [] → texts.flatMap Text.lines = [] :=
    List.map_eq_nil_iff.mp
  unfold docComment
  generalize (texts.flatMap Text.lines).map docLine = lines at hlines hnone
  split
  · exact .inl ⟨hnone rfl, rfl⟩
  · next line =>
    refine .inr ⟨[' '] ++ (line.toList ++ [' ']), ?_, ?_⟩
    · exact (hstars ' ' (by decide) (by decide)).append
        (hlines line List.mem_cons_self ' ' (by decide) (by decide))
    · simp
  · next =>
    have hbody : Comment (String.join (lines.map fun line =>
        if line.isEmpty then indent ++ " *\n" else indent ++ " * " ++ line ++ "\n")).toList := by
      rw [String.toList_join, List.flatMap_def, List.map_map]
      refine .flatten (List.forall_mem_map.mpr fun line hline => ?_)
      dsimp only [Function.comp]
      split
      · rw [String.toList_append]
        exact hblank.append (hstar '\n' (by decide) (by decide))
      · have htext : (indent ++ " * " ++ line ++ "\n").toList =
            indent.toList ++ ([' ', '*', ' '] ++ (line.toList ++ ['\n'])) := by simp
        rw [htext]
        exact hblank.append ((hstar ' ' (by decide) (by decide)).append
          (hlines line hline '\n' (by decide) (by decide)))
    exact .inr ⟨['\n'] ++ _, (hstars '\n' (by decide) (by decide)).append (hbody.append
      (hblank.append hspace)), by simp⟩

/-- A documentation comment is empty, or a comment on lines of its own. -/
theorem docComment_eq (texts : List String) (indent : String)
    (hindent : ∀ c ∈ indent.toList, c = ' ') :
    docComment texts indent = "" ∨ ∃ body, Comment body ∧
      (docComment texts indent).toList = indent.toList ++ '/' :: (body ++ ['*', '/', '\n']) :=
  (docComment_cases texts indent hindent).imp And.right fun ⟨_, hbody, htext⟩ => ⟨_, hbody, htext⟩

/-- A documentation comment is closed. -/
theorem closed_docComment (texts : List String) {indent : String}
    (hindent : ∀ c ∈ indent.toList, c = ' ') :
    Closed true (docComment texts indent).toList := by
  have hblank : Closed true indent.toList := .of_forall_not_special fun c hc => by
    rw [hindent c hc]
    decide
  rcases docComment_eq texts indent hindent with hnone | ⟨body, hbody, htext⟩
  · rw [hnone]
    exact .nil
  · have hsplit : indent.toList ++ '/' :: (body ++ ['*', '/', '\n']) =
        indent.toList ++ (('/' :: (body ++ ['*', '/'])) ++ ['\n']) := by simp
    rw [htext, hsplit]
    exact hblank.append (hbody.closed.append (.of_forall_not_special (by decide)))

end Declaration

/-! ### Bodies -/

/-- The key of a field is closed. -/
theorem NamingRules.closed_fieldName (rules : NamingRules) (raw : String) :
    Closed false (rules.fieldName raw).toList := by
  have hkey : ∀ name : String,
      Closed false (if Naming.isIdentifier name then name else Text.quote name).toList := by
    intro name
    split
    · next h => exact (Naming.isPlain_of_isIdentifier h).word.closed
    · exact Text.closed_quote name
  exact hkey _

/-- The texts of fields are closed, and so is that of the values of the index signature. -/
structure Body.IsClosed (b : Body) : Prop where
  keys : ∀ e ∈ b.fields, Closed false e.2.key.toList
  uses : ∀ e ∈ b.fields, Closed false e.2.use.text.toList
  docs : ∀ e ∈ b.fields, Closed true e.2.docs.toList
  index : ∀ use ∈ b.index, Closed false use.text.toList

namespace Body

variable {b : Body}

theorem isClosed_empty : IsClosed {} := ⟨nofun, nofun, nofun, nofun⟩

/-- A field with closed texts can be put into a body. -/
theorem IsClosed.put (h : b.IsClosed) {f : ObjectField} (hkey : Closed false f.key.toList)
    (huse : Closed false f.use.text.toList) (hdocs : Closed true f.docs.toList) (name : String) :
    IsClosed { b with fields := Entries.put name f b.fields } where
  keys e he := (Entries.mem_put he).elim (fun h => h ▸ hkey) (h.keys e)
  uses e he := (Entries.mem_put he).elim (fun h => h ▸ huse) (h.uses e)
  docs e he := (Entries.mem_put he).elim (fun h => h ▸ hdocs) (h.docs e)
  index := h.index

private theorem closed_text {f : ObjectField} (hkey : Closed false f.key.toList)
    (huse : Closed false f.use.text.toList) : Closed false f.text.toList := by
  have hmark : Closed false (if f.optional then "?" else "").toList := by
    split
    · exact .of_forall_not_special (by decide)
    · exact .nil
  have hcolon : Closed false ": ".toList := .of_forall_not_special (by decide)
  unfold ObjectField.text
  simp only [String.toList_append]
  exact ((hkey.append hmark).append hcolon).append huse

private theorem closed_indexText (h : b.IsClosed) :
    ∀ text ∈ b.indexText?, Closed false text.toList := by
  intro text htext
  obtain ⟨use, huse, rfl⟩ := Option.map_eq_some_iff.mp htext
  have hname : Closed false "key: string".toList := .of_forall_not_special (by decide)
  have hcolon : Closed false ": ".toList := .of_forall_not_special (by decide)
  have hopen : '[' ∈ Scan.opening := by decide
  have hclose : ']' ∈ Scan.closing := by decide
  have hkey : Closed false "[key: string]: ".toList := (hname.bracket hopen hclose).append hcolon
  rw [String.toList_append]
  refine hkey.append ?_
  split
  · exact h.index use huse
  · exact .of_forall_not_special (by decide)

/-- In a type, a closed text stands between the braces of a body. -/
theorem exists_inline_eq (h : b.IsClosed) :
    ∃ inner, Closed false inner ∧ b.inline.toList = '\x7b' :: (inner ++ ['\x7d']) := by
  have hsemicolon : Closed false "; ".toList := .of_forall_not_special (by decide)
  have hspace : Closed false [' '] := .of_forall_not_special (by decide)
  have htexts : ∀ t ∈ b.fields.map (fun e => e.2.text) ++ b.indexText?.toList,
      Closed false t.toList := by
    refine List.forall_mem_append.mpr ⟨List.forall_mem_map.mpr fun e he => ?_, fun t ht => ?_⟩
    · exact closed_text (h.keys e he) (h.uses e he)
    · exact closed_indexText h t (Option.mem_toList.mp ht)
  have hinner : Closed false ("; ".intercalate
      (b.fields.map (fun e => e.2.text) ++ b.indexText?.toList)).toList := by
    rw [String.toList_intercalate]
    exact hsemicolon.intercalate (List.forall_mem_map.mpr htexts)
  refine ⟨_, (hspace.append hinner).append hspace, ?_⟩
  rw [inline, String.toList_append, String.toList_append]
  simp

/-- On lines, a closed text stands between the braces of a body. -/
theorem exists_block_eq (h : b.IsClosed) :
    ∃ inner, Closed true inner ∧ b.block.toList = '\x7b' :: (inner ++ ['\x7d']) := by
  have hspaces : Closed true "  ".toList := .of_forall_not_special (by decide)
  have hbreak : Closed true ";\n".toList := .of_forall_not_special (by decide)
  have hnewline : Closed true ['\n'] := .of_forall_not_special (by decide)
  have hlines : Closed true b.lines.toList := by
    rw [lines, String.toList_append, String.toList_join, List.flatMap_def, List.map_map]
    refine .append (.flatten (List.forall_mem_map.mpr fun e he => ?_)) ?_
    · have htext := closed_text (h.keys e he) (h.uses e he)
      dsimp only [Function.comp, ObjectField.line]
      simp only [String.toList_append]
      exact (((h.docs e he).append hspaces).append htext.allow).append hbreak
    · split
      · next text htext =>
        rw [String.toList_append, String.toList_append]
        exact (hspaces.append (closed_indexText h text htext).allow).append hbreak
      · exact .nil
  refine ⟨_, hnewline.append hlines, ?_⟩
  rw [block, String.toList_append, String.toList_append]
  simp

section Proper

variable {N : String → Prop} (hN : ∀ {name}, N name → Naming.Proper name)
include hN

/-- A body between braces names no declaration. -/
theorem reads_inline (h : b.IsClosed) : Reads N false b.inline fun _ => False := by
  have hnil : IsWord [] := nofun
  obtain ⟨inner, hinner, htext⟩ := exists_inline_eq h
  exact .bracket hN hnil '\x7b' '\x7d' (by decide) (by decide) hinner htext

/-- The lines of a body between braces name no declaration. -/
theorem reads_block (h : b.IsClosed) : Reads N true b.block fun _ => False := by
  have hnil : IsWord [] := nofun
  obtain ⟨inner, hinner, htext⟩ := exists_block_eq h
  exact .bracket hN hnil '\x7b' '\x7d' (by decide) (by decide) hinner htext

end Proper

end Body

end OpenApiTs
