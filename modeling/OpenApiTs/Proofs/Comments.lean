import OpenApiTs.Proofs.Printing

/-!
# Where comments end

The lines of a comment are texts of the document, which can have the mark that ends a comment in
them. It is taken apart in every line, and the lines are joined so that no asterisk and slash meet
across a joint. So a text in which the scanner stays in a comment is free of the mark, and a
documentation comment has it once, where it should be.

## Main results

* `Scan.Comment.append_mark_eq_iff`: the mark after a text that stays in a comment is its only one.
* `Text.lines_eq_nil_iff`: the texts that have no lines.
* `Declaration.docComment_delimited`: where a documentation comment begins and ends.
-/

namespace OpenApiTs

/-! ### The mark at the end -/

namespace Scan.Comment

variable {cs before after : List Char}

/-- A text that stays in a comment is free of the mark that ends one. -/
theorem ne_mark (h : Comment cs) : cs ≠ before ++ '*' :: '/' :: after := by
  rintro rfl
  obtain ⟨hbefore, hmark⟩ := along_append.mp (h 0).2
  have hin : InComment 0 (scan ⟨.comment, 0⟩ before) := hbefore.last
  generalize scan ⟨.comment, 0⟩ before = s at hin hmark
  obtain ⟨place, depth⟩ := s
  obtain ⟨rfl, hplace⟩ := hin
  -- an asterisk leads to the same place from both places in a comment, and a slash leaves it
  have hout : step (step ⟨place, 0⟩ '*') '/' = {} := by
    cases place with
    | comment | star => rfl
    | code | text | escape => cases hplace
  have hend := hmark.2.2.start.2
  rw [hout] at hend
  cases hend

/-- The mark after a text that stays in a comment is its only one. -/
theorem append_mark_eq_iff (h : Comment cs) {rest : List Char} (hrest : '*' ∉ rest) :
    cs ++ '*' :: '/' :: rest = before ++ '*' :: '/' :: after ↔ before = cs ∧ after = rest := by
  refine ⟨fun heq => ?_, fun ⟨hbefore, hafter⟩ => by rw [hbefore, hafter]⟩
  rcases List.append_eq_append_iff.mp heq with ⟨more, hbefore, hmark⟩ | ⟨more, hcs, hmark⟩
  · -- the other mark begins in what follows the text
    match more, hmark with
    | [], hmark =>
      rw [List.append_nil] at hbefore
      exact ⟨hbefore, (List.cons.inj (List.cons.inj hmark).2).2.symm⟩
    | [_], hmark => cases (List.cons.inj (List.cons.inj hmark).2).1
    | _ :: _ :: more, hmark =>
      refine absurd ?_ hrest
      rw [(List.cons.inj (List.cons.inj hmark).2).2]
      exact List.mem_append_right more List.mem_cons_self
  · -- the other mark begins in the text
    match more, hmark with
    | [], hmark =>
      rw [List.append_nil] at hcs
      exact ⟨hcs.symm, (List.cons.inj (List.cons.inj hmark).2).2⟩
    | [_], hmark => cases (List.cons.inj (List.cons.inj hmark).2).1
    | c :: d :: more, hmark =>
      obtain ⟨hc, hmark⟩ := List.cons.inj hmark
      rw [← hc, ← (List.cons.inj hmark).1] at hcs
      exact absurd hcs h.ne_mark

end Scan.Comment

/-! ### Lines -/

/-- Only the empty text has no lines. -/
theorem Text.lines_eq_nil_iff (text : String) : lines text = [] ↔ text = "" := by
  rw [lines, List.map_eq_nil_iff, ← String.toList_eq_nil_iff]
  generalize text.toList = cs
  refine ⟨fun h => ?_, fun h => by rw [h]; rfl⟩
  unfold lineList at h
  dsimp only at h
  split at h
  · next hlast =>
    obtain ⟨init, hpieces⟩ := List.getLast?_eq_some_iff.mp hlast
    rw [hpieces, List.dropLast_concat, List.map_eq_nil_iff] at h
    have hjoined : List.intercalate ['\n'] (cs.splitOn '\n') = cs := List.intercalate_splitOn '\n'
    rw [← hjoined, hpieces, h]
    rfl
  · exact absurd (List.append_eq_nil_iff.mp h).2 (List.cons_ne_nil _ _)
  · next hnone => exact absurd (List.getLast?_eq_none_iff.mp hnone) (List.splitOn_ne_nil _ _)

/-! ### Documentation comments -/

namespace Declaration

/-- A documentation comment cannot be left early. It is empty exactly if all texts are, which have
no line then. Else it opens after the blanks before it, and the mark that ends a comment is in it
once, before the line feed at its end. -/
theorem docComment_delimited (texts : List String) (indent : String)
    (hindent : ∀ c ∈ indent.toList, c = ' ') :
    (docComment texts indent = "" ↔ texts.flatMap Text.lines = []) ∧
      (texts.flatMap Text.lines = [] ↔ ∀ text ∈ texts, text = "") ∧
      (docComment texts indent ≠ "" → ∃ body : String,
        docComment texts indent = indent ++ "/**" ++ body ++ "*/\n" ∧
        ∀ before after : List Char,
          (docComment texts indent).toList = before ++ '*' :: '/' :: after ↔
            before = (indent ++ "/**" ++ body).toList ∧ after = ['\n']) := by
  have hlines : texts.flatMap Text.lines = [] ↔ ∀ text ∈ texts, text = "" := by
    rw [List.flatMap_eq_nil_iff]
    exact forall₂_congr fun text _ => Text.lines_eq_nil_iff text
  rcases docComment_cases texts indent hindent with ⟨hnone, hempty⟩ | ⟨body, hbody, htext⟩
  · exact ⟨iff_of_true hempty hnone, hlines, fun h => absurd hempty h⟩
  · have hopened : (indent ++ "/**" ++ String.ofList body).toList =
        indent.toList ++ '/' :: '*' :: '*' :: body := by simp
    have hcomment : Scan.Comment (indent.toList ++ '/' :: '*' :: '*' :: body) := by
      have hblank : Scan.Comment indent.toList := .of_forall fun c hc => by
        rw [hindent c hc]
        decide
      have hslash : Scan.Comment ['/'] := fun _ => ⟨rfl, ⟨rfl, rfl⟩, rfl, rfl⟩
      exact hblank.append (hslash.append hbody)
    have hclosed : (docComment texts indent).toList =
        (indent.toList ++ '/' :: '*' :: '*' :: body) ++ '*' :: '/' :: ['\n'] := by simp [htext]
    have hne : docComment texts indent ≠ "" := by
      rw [ne_eq, ← String.toList_eq_nil_iff, hclosed]
      exact List.append_ne_nil_of_right_ne_nil _ (List.cons_ne_nil _ _)
    refine ⟨iff_of_false hne fun hnone => hne ?_, hlines, fun _ =>
      ⟨String.ofList body, ?_, fun before after => ?_⟩⟩
    · unfold docComment
      rw [hnone]
      rfl
    · rw [← String.toList_inj, String.toList_append, hopened, hclosed]
      rfl
    · rw [hclosed, hopened]
      exact hcomment.append_mark_eq_iff (by decide)

/-- Lines that try to end the comment: by a mark, by what becomes one when a mark is taken out, and
by an asterisk or a slash next to a joint, with a carriage return and blanks at their ends. -/
def breakingTexts : List String := ["done */ export", "**//", "*\r\n/ \n\n*"]

theorem docComment_delimited_breakingTexts :
    (∀ c ∈ "  ".toList, c = ' ') ∧
      docComment breakingTexts "  " =
        "  /**\n   * done *\\/ export\n   * **\\//\n   * *\n   * /\n   *\n   * *\n   */\n" ∧
      ∃ body : String, docComment breakingTexts "  " = "  " ++ "/**" ++ body ++ "*/\n" ∧
        ∀ before after : List Char,
          (docComment breakingTexts "  ").toList = before ++ '*' :: '/' :: after ↔
            before = ("  " ++ "/**" ++ body).toList ∧ after = ['\n'] := by
  have hblank : ∀ c ∈ "  ".toList, c = ' ' := by decide
  have htext : docComment breakingTexts "  " =
      "  /**\n   * done *\\/ export\n   * **\\//\n   * *\n   * /\n   *\n   * *\n   */\n" := by
    decide +kernel
  refine ⟨hblank, htext, (docComment_delimited breakingTexts "  " hblank).2.2 ?_⟩
  rw [htext]
  decide

end Declaration

end OpenApiTs
