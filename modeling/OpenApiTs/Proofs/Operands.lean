import Mathlib.Data.List.Basic
import Mathlib.Data.List.TakeWhile
import OpenApiTs.Proofs.Scan
import OpenApiTs.Text.Blank

/-!
# Operands of type texts

The operators outside of brackets cut a type text into its operands. An operand between parentheses
is opened, and so has operands of its own. Texts that are joined by an operator have the operands of
each of them; a text between brackets has none but itself.

## Main definitions

* `Scan.marks`: the characters of a text, with the operators outside of brackets marked.
* `operands`: the operands of a text.
* `Operand`: the operands of a text, and those that are found when parentheses are opened.

## Main results

* `Operand.append_operator_iff`, `Operand.intercalate_iff`: texts joined by an operator.
* `Operand.parentheses_iff`: parentheses are opened.
* `Operand.of_marks`: a text without operators outside of brackets.
-/

namespace OpenApiTs

open Scan (Along)

/-- A text without the blanks at its ends. -/
def Text.bare (cs : List Char) : List Char := dropBlankEnd (cs.dropWhile isBlank)

namespace Scan

/-- The operators between types. -/
def operators : List Char := ['|', '&']

/-- The characters of a text, each with whether it is an operator outside of brackets. -/
def marks : Scan → List Char → List (Char × Bool)
  | _, [] => []
  | s, c :: cs => (c, decide (s = {}) && operators.contains c) :: marks (s.step c) cs

theorem marks_append :
    (as bs : List Char) → (s : Scan) → marks s (as ++ bs) = marks s as ++ marks (s.scan as) bs
  | [], _, _ => rfl
  | c :: as, bs, s => congrArg (_ :: ·) (marks_append as bs (s.step c))

theorem map_fst_marks : (cs : List Char) → (s : Scan) → (marks s cs).map Prod.fst = cs
  | [], _ => rfl
  | c :: cs, s => congrArg (c :: ·) (map_fst_marks cs (s.step c))

/-- Away from code outside of brackets, no operator is marked. -/
theorem marks_of_along :
    {cs : List Char} → {s : Scan} → Along (fun s => s ≠ {}) s cs → ∀ m ∈ marks s cs, m.2 = false
  | [], _, _ => nofun
  | c :: cs, s, h => by
      rw [marks, decide_eq_false h.1]
      exact List.forall_mem_cons.mpr ⟨rfl, marks_of_along h.2⟩

/-- A text without operators has no marks. -/
theorem marks_of_forall :
    {cs : List Char} → {s : Scan} → (∀ c ∈ cs, c ∉ operators) → ∀ m ∈ marks s cs, m.2 = false
  | [], _, _ => nofun
  | c :: cs, s, h => by
      have hc : operators.contains c = false :=
        Bool.eq_false_iff.mpr (mt List.contains_iff_mem.mp (h c List.mem_cons_self))
      rw [marks, hc, Bool.and_false]
      exact List.forall_mem_cons.mpr
        ⟨rfl, marks_of_forall fun d hd => h d (List.mem_cons_of_mem c hd)⟩

end Scan

/-! ### Blanks at the ends -/

namespace Text

theorem bare_cons_blank {c : Char} (hc : isBlank c = true) (cs : List Char) :
    bare (c :: cs) = bare cs := by
  rw [bare, List.dropWhile_cons, if_pos hc, bare]

theorem bare_append_blank {c : Char} (hc : isBlank c = true) (cs : List Char) :
    bare (cs ++ [c]) = bare cs := by
  have hend : ∀ l : List Char, dropBlankEnd (l ++ [c]) = dropBlankEnd l := fun l => by
    rw [dropBlankEnd, List.reverse_append, List.reverse_singleton, List.singleton_append,
      List.dropWhile_cons, if_pos hc, dropBlankEnd]
  induction cs with
  | nil =>
    rw [List.nil_append, bare_cons_blank hc]
  | cons d cs ih =>
    rw [List.cons_append]
    by_cases hd : isBlank d = true
    · rw [bare_cons_blank hd, bare_cons_blank hd, ih]
    · rw [bare, bare, List.dropWhile_cons, if_neg hd, List.dropWhile_cons, if_neg hd,
        ← List.cons_append, hend]

/-- A text that ends in no blank keeps its last character. -/
theorem bare_append_of_not_blank {c : Char} (hc : isBlank c = false) (cs : List Char) :
    ∃ ds, bare (cs ++ [c]) = ds ++ [c] := by
  induction cs with
  | nil =>
    refine ⟨[], ?_⟩
    rw [bare, List.nil_append, List.dropWhile_cons, if_neg (Bool.eq_false_iff.mp hc)]
    exact dropBlankEnd_append_singleton [] hc
  | cons d cs ih =>
    rw [List.cons_append]
    by_cases hd : isBlank d = true
    · rw [bare_cons_blank hd]
      exact ih
    · rw [bare, List.dropWhile_cons, if_neg hd, ← List.cons_append,
        dropBlankEnd_append_singleton _ hc]
      exact ⟨_, rfl⟩

/-- A text without blanks is left as it is. -/
theorem bare_of_forall {cs : List Char} (h : ∀ c ∈ cs, isBlank c = false) : bare cs = cs := by
  have hkeep : ∀ l : List Char, (∀ c ∈ l, isBlank c = false) → l.dropWhile isBlank = l := by
    rintro (_ | ⟨c, l⟩) hl
    · rfl
    · rw [List.dropWhile_cons, if_neg (Bool.eq_false_iff.mp (hl c List.mem_cons_self))]
  rw [bare, hkeep cs h, dropBlankEnd, hkeep _ fun c hc => h c (List.mem_reverse.mp hc),
    List.reverse_reverse]

/-- A character that is not blank stays when the blanks at the ends are dropped. -/
theorem mem_bare {c : Char} {cs : List Char} (hc : isBlank c = false) (h : c ∈ cs) :
    c ∈ bare cs := by
  have hkeep : ∀ l : List Char, c ∈ l → c ∈ l.dropWhile isBlank := fun l hl => by
    rw [← List.takeWhile_append_dropWhile (p := isBlank) (l := l)] at hl
    refine (List.mem_append.mp hl).resolve_left fun htake => ?_
    rw [List.mem_takeWhile_imp htake] at hc
    cases hc
  rw [bare, dropBlankEnd, List.mem_reverse]
  exact hkeep _ (List.mem_reverse.mpr (hkeep _ h))

end Text

/-! ### Cutting at operators -/

/-- An operand, from its marked characters. -/
def operandOf (piece : List (Char × Bool)) : List Char := Text.bare (piece.map Prod.fst)

/-- The operands of a text. -/
def operands (cs : List Char) : List (List Char) :=
  ((Scan.marks {} cs).splitOnP Prod.snd).map operandOf

section Cut

variable {P : Char × Bool → Bool} (hP : ∀ c, P (c, false) = false)
include hP

/-- A character at the end that does not cut belongs to the last piece. -/
private theorem splitOnP_append_unmarked (c : Char) (l : List (Char × Bool)) :
    ∃ init last, l.splitOnP P = init ++ [last] ∧
      (l ++ [(c, false)]).splitOnP P = init ++ [last ++ [(c, false)]] := by
  induction l with
  | nil =>
    refine ⟨[], [], rfl, ?_⟩
    rw [List.nil_append, List.splitOnP_cons_eq_if_modifyHead, if_neg (Bool.eq_false_iff.mp (hP c))]
    rfl
  | cons m l ih =>
    obtain ⟨init, last, hl, hlc⟩ := ih
    rw [List.cons_append, List.splitOnP_cons_eq_if_modifyHead, List.splitOnP_cons_eq_if_modifyHead,
      hl, hlc]
    split
    · exact ⟨[] :: init, last, rfl, rfl⟩
    · cases init with
      | nil => exact ⟨[], m :: last, rfl, rfl⟩
      | cons first init => exact ⟨(m :: first) :: init, last, rfl, rfl⟩

/-- A blank at the end changes no piece. -/
theorem map_splitOnP_append_blank {c : Char} (hc : Text.isBlank c = true)
    (l : List (Char × Bool)) :
    ((l ++ [(c, false)]).splitOnP P).map operandOf = (l.splitOnP P).map operandOf := by
  obtain ⟨init, last, hl, hlc⟩ := splitOnP_append_unmarked hP c l
  have hlast : operandOf (last ++ [(c, false)]) = operandOf last := by
    rw [operandOf, List.map_append]
    exact Text.bare_append_blank hc _
  rw [hl, hlc, List.map_append, List.map_append, List.map_singleton, List.map_singleton, hlast]

/-- A blank at the start changes no piece. -/
theorem map_splitOnP_cons_blank {c : Char} (hc : Text.isBlank c = true)
    (l : List (Char × Bool)) :
    (((c, false) :: l).splitOnP P).map operandOf = (l.splitOnP P).map operandOf := by
  rw [List.splitOnP_cons_eq_if_modifyHead, if_neg (Bool.eq_false_iff.mp (hP c))]
  cases hl : l.splitOnP P with
  | nil => exact absurd hl (List.splitOnP_ne_nil _ l)
  | cons first rest => exact congrArg (· :: rest.map operandOf) (Text.bare_cons_blank hc _)

end Cut

/-- An operator outside of brackets, between blanks, cuts a text. -/
theorem operands_append_operator {as : List Char} (ha : Scan.scan {} as = {}) {c : Char}
    (hc : c ∈ Scan.operators) (bs : List Char) :
    operands (as ++ ' ' :: c :: ' ' :: bs) = operands as ++ operands bs := by
  have hblank : Text.isBlank ' ' = true := rfl
  have hmark : ∀ d : Char, Prod.snd (d, false) = false := fun _ => rfl
  have hstep : ∀ d ∈ ' ' :: Scan.operators, Scan.step {} d = {} := by decide
  have hcut : Scan.operators.contains c = true := List.contains_iff_mem.mpr hc
  have hmarks : Scan.marks {} (as ++ ' ' :: c :: ' ' :: bs) =
      (Scan.marks {} as ++ [(' ', false)]) ++ (c, true) :: (' ', false) :: Scan.marks {} bs := by
    rw [Scan.marks_append, ha, Scan.marks, hstep ' ' List.mem_cons_self, Scan.marks,
      hstep c (List.mem_cons_of_mem _ hc), Scan.marks, hstep ' ' List.mem_cons_self, hcut,
      List.append_assoc]
    rfl
  rw [operands, hmarks, List.splitOnP_append_cons _ _ rfl, List.map_append,
    map_splitOnP_append_blank hmark hblank, map_splitOnP_cons_blank hmark hblank, operands,
    operands]

/-- A text without operators outside of brackets is its only operand. -/
theorem operands_of_marks {cs : List Char} (h : ∀ m ∈ Scan.marks {} cs, m.2 = false) :
    operands cs = [Text.bare cs] := by
  rw [operands, List.splitOnP_eq_singleton h, List.map_singleton, operandOf, Scan.map_fst_marks]

/-! ### Opening parentheses -/

/-- The operands of a text, and those that are found when enclosing parentheses are opened. -/
inductive Operand : List Char → List Char → Prop
  | own {cs y} (h : y ∈ operands cs) : Operand cs y
  | opened {cs inner y} (h : '(' :: (inner ++ [')']) ∈ operands cs) (hc : Closed true inner)
      (hy : Operand inner y) : Operand cs y

namespace Operand

variable {as bs cs y : List Char}

theorem iff_of_operands (h : ∀ o, o ∈ operands cs ↔ o ∈ operands as ∨ o ∈ operands bs) :
    Operand cs y ↔ Operand as y ∨ Operand bs y := by
  constructor
  · rintro (hy | ⟨hopen, hc, hy⟩)
    · exact ((h y).mp hy).imp .own .own
    · exact ((h _).mp hopen).imp (.opened · hc hy) (.opened · hc hy)
  · rintro (⟨hy | ⟨hopen, hc, hy⟩⟩ | ⟨hy | ⟨hopen, hc, hy⟩⟩)
    · exact .own ((h y).mpr (.inl hy))
    · exact .opened ((h _).mpr (.inl hopen)) hc hy
    · exact .own ((h y).mpr (.inr hy))
    · exact .opened ((h _).mpr (.inr hopen)) hc hy

/-- Texts joined by an operator have the operands of both. -/
theorem append_operator_iff (ha : Scan.scan {} as = {}) {c : Char} (hc : c ∈ Scan.operators) :
    Operand (as ++ ' ' :: c :: ' ' :: bs) y ↔ Operand as y ∨ Operand bs y :=
  iff_of_operands fun o => by rw [operands_append_operator ha hc, List.mem_append]

/-- Texts joined by operators have the operands of each. -/
theorem intercalate_iff {texts : List (List Char)} (hne : texts ≠ []) {comments : Bool}
    (h : ∀ t ∈ texts, Closed comments t) {c : Char} (hc : c ∈ Scan.operators) :
    Operand ([' ', c, ' '].intercalate texts) y ↔ ∃ t ∈ texts, Operand t y := by
  induction texts with
  | nil => exact absurd rfl hne
  | cons t rest ih =>
    obtain ⟨ht, hrest⟩ := List.forall_mem_cons.mp h
    rw [List.exists_mem_cons_iff]
    cases rest with
    | nil => simp [List.intercalate_singleton]
    | cons u rest =>
      rw [List.intercalate_cons_cons, List.append_assoc, List.cons_append, List.cons_append,
        List.singleton_append, append_operator_iff (ht 0).1 hc,
        ih (List.cons_ne_nil u rest) hrest]

/-- A text without operators outside of brackets has itself as its only operand, unless it stands
between parentheses. -/
theorem of_marks (h : ∀ m ∈ Scan.marks {} cs, m.2 = false) (hy : Operand cs y) :
    y = Text.bare cs ∨ ∃ inner, Text.bare cs = '(' :: (inner ++ [')']) ∧ Operand inner y := by
  rcases hy with hy | ⟨hopen, -, hy⟩
  · rw [operands_of_marks h, List.mem_singleton] at hy
    exact .inl hy
  · rw [operands_of_marks h, List.mem_singleton] at hopen
    exact .inr ⟨_, hopen.symm, hy⟩

/-- A text between parentheses has no operators outside of brackets. -/
theorem marks_bracket {comments : Bool} (c c' : Char) (hc : c ∈ Scan.opening)
    (hc' : c' ∈ Scan.closing) (h : Closed comments cs) :
    ∀ m ∈ Scan.marks {} (c :: (cs ++ [c'])), m.2 = false := by
  have hoperators : ∀ d ∈ Scan.opening ++ Scan.closing, Scan.operators.contains d = false := by
    decide
  obtain ⟨hscan, halong⟩ := h 1
  have hinner := Scan.marks_of_along (halong.mono fun s hs he =>
    absurd hs.1 (by rw [he]; decide))
  have hstep : Scan.step {} c = ⟨.code, 1⟩ := Scan.step_code_of_opening hc
  rw [Scan.marks, hstep, Scan.marks_append, hscan, Scan.marks, Scan.marks,
    hoperators c (List.mem_append_left _ hc), hoperators c' (List.mem_append_right _ hc'),
    Bool.and_false]
  refine List.forall_mem_cons.mpr ⟨rfl, List.forall_mem_append.mpr ⟨hinner, ?_⟩⟩
  exact List.forall_mem_singleton.mpr rfl

/-- Parentheses around a text are opened. -/
theorem parentheses_iff (h : Closed true cs) (hy : '(' ∉ y) :
    Operand ('(' :: (cs ++ [')'])) y ↔ Operand cs y := by
  have hmarks := marks_bracket '(' ')' (by decide) (by decide) h
  have hbare : Text.bare ('(' :: (cs ++ [')'])) = '(' :: (cs ++ [')']) := by
    rw [Text.bare, List.dropWhile_cons, if_neg (by decide), ← List.cons_append,
      Text.dropBlankEnd_append_singleton _ (by decide)]
  constructor
  · intro hop
    rcases of_marks hmarks hop with rfl | ⟨inner, hinner, hop⟩
    · rw [hbare] at hy
      exact absurd List.mem_cons_self hy
    · rw [hbare] at hinner
      have heq : cs = inner := List.append_cancel_right (List.cons.inj hinner).2
      rw [heq]
      exact hop
  · intro hop
    refine .opened ?_ h hop
    rw [operands_of_marks hmarks, hbare]
    exact List.mem_singleton_self _

end Operand

/-! ### The parentheses that a type text needs -/

/-- The place of a scan that knows no comments. -/
private def placeOf : TypeUse.Place → Scan.Place
  | .code => .code
  | .text => .text
  | .escape => .escape

/-- The search for an operator in code tells the characters apart that a scan does. -/
private theorem hasOperator_code (depth : Int) (c : Char) (cs : List Char) :
    TypeUse.hasOperator .code depth (c :: cs) =
      if c = '"' then TypeUse.hasOperator .text depth cs
      else if c ∈ Scan.opening then TypeUse.hasOperator .code (depth + 1) cs
      else if c ∈ Scan.closing then TypeUse.hasOperator .code (depth - 1) cs
      else decide (depth = 0) && Scan.operators.contains c ||
        TypeUse.hasOperator .code depth cs := by
  have hopening : c ∈ Scan.opening ↔ c = '\x7b' ∨ c = '(' ∨ c = '[' ∨ c = '<' := by
    simp [Scan.opening]
  have hclosing : c ∈ Scan.closing ↔ c = '\x7d' ∨ c = ')' ∨ c = ']' ∨ c = '>' := by
    simp [Scan.closing]
  have hoperator : (decide (depth = 0) && Scan.operators.contains c) = true ↔
      (c = '|' ∨ c = '&') ∧ depth = 0 := by
    simp [Scan.operators, and_comm]
  simp only [TypeUse.hasOperator, hopening, hclosing]
  congr 3
  split
  · next h => rw [hoperator.mpr h, Bool.true_or]
  · next h => rw [Bool.eq_false_iff.mpr (mt hoperator.mp h), Bool.false_or]

/-- In a text without comments, the marks are the operators that a scan without comments finds. -/
private theorem any_marks :
    (cs : List Char) → (place : TypeUse.Place) → (depth : Int) →
      Along (fun s => s.place.isComment = false) ⟨placeOf place, depth⟩ cs →
      (Scan.marks ⟨placeOf place, depth⟩ cs).any Prod.snd =
        TypeUse.hasOperator place depth cs
  | [], _, _, _ => rfl
  | c :: cs, place, depth, h => by
      have hrest := h.2
      have hescape : (⟨.escape, depth⟩ : Scan) ≠ {} := fun he => nomatch congrArg Scan.place he
      have htext : (⟨.text, depth⟩ : Scan) ≠ {} := fun he => nomatch congrArg Scan.place he
      have hcode : (⟨.code, depth⟩ : Scan) = {} ↔ depth = 0 :=
        ⟨congrArg Scan.depth, by rintro rfl; rfl⟩
      cases place with
      | escape =>
        rw [placeOf, Scan.step] at hrest
        simp only [placeOf, Scan.marks, Scan.step, List.any_cons, hescape, decide_false,
          Bool.false_and, Bool.false_or, TypeUse.hasOperator]
        exact any_marks cs .text depth hrest
      | text =>
        simp only [placeOf, Scan.step] at hrest
        simp only [placeOf, Scan.marks, Scan.step, List.any_cons, htext, decide_false,
          Bool.false_and, Bool.false_or, TypeUse.hasOperator]
        split_ifs at hrest ⊢
        · exact any_marks cs .escape depth hrest
        · exact any_marks cs .code depth hrest
        · exact any_marks cs .text depth hrest
      | code =>
        have hslash : c ≠ '/' := by
          rintro rfl
          exact absurd hrest.start Bool.noConfusion
        have hplain : ∀ d ∈ '"' :: (Scan.opening ++ Scan.closing),
            Scan.operators.contains d = false := by decide
        have hmark (hc : c ∈ '"' :: (Scan.opening ++ Scan.closing)) :
            (decide (depth = 0) && Scan.operators.contains c) = false := by
          rw [hplain c hc, Bool.and_false]
        simp only [placeOf, Scan.step, if_neg hslash] at hrest
        rw [hasOperator_code]
        simp only [placeOf, Scan.marks, Scan.step, if_neg hslash, List.any_cons, hcode]
        split_ifs at hrest ⊢ with hquote hopen hclose
        · rw [hmark (hquote ▸ List.mem_cons_self), Bool.false_or]
          exact any_marks cs .text depth hrest
        · rw [hmark (List.mem_cons_of_mem _ (List.mem_append_left _ hopen)), Bool.false_or]
          exact any_marks cs .code (depth + 1) hrest
        · rw [hmark (List.mem_cons_of_mem _ (List.mem_append_right _ hclose)), Bool.false_or]
          exact any_marks cs .code (depth - 1) hrest
        · exact congrArg (_ || ·) (any_marks cs .code depth hrest)

/-- In a closed text, the marks are the operators that the search for one finds. -/
theorem Scan.any_marks_eq {cs : List Char} (h : Closed false cs) :
    (marks {} cs).any Prod.snd = TypeUse.hasOperator .code 0 cs :=
  any_marks cs .code 0 <|
    (h 0).2.mono fun _ hs => Bool.eq_false_iff.mpr fun hc => Bool.false_ne_true (hs.2 hc)

/-- A closed text in which no operator is found has no marks. -/
theorem Scan.marks_of_hasOperator {cs : List Char} (h : Closed false cs)
    (hoperator : TypeUse.hasOperator .code 0 cs = false) : ∀ m ∈ marks {} cs, m.2 = false := by
  rw [← any_marks_eq h, List.any_eq_false] at hoperator
  exact fun m hm => Bool.eq_false_iff.mpr (hoperator m hm)

end OpenApiTs
