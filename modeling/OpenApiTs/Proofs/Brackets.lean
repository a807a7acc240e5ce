import OpenApiTs.Proofs.Nullability

/-!
# Brackets in type texts

The search for an operator outside of brackets goes through a text once and trusts it: with a text
between quotation marks that is left open, or a bracket that is closed too early, it would look in
the wrong places. The texts of all types are closed, whatever is nested in them. So the search finds
the operators outside of brackets and no others, parentheses are put where they are needed, and the
brackets of an array belong to the whole text before them.

## Main definitions

* `Bracketed`: texts in which all brackets and quotation marks are closed in order.
* `HasOuterOperator`: texts with an operator outside of brackets and quotation marks.

## Main results

* `Closed.bracketed`, `Closed.hasOperator_iff`: what closed texts are, and what is found in them.
* `Closed.parenthesize_eq_parentheses_iff`: where parentheses are put.
* `Setting.Reaches.types_bracketed`: the texts of types, and of arrays of them.
-/

namespace OpenApiTs

/-! ### Positions in a text -/

namespace Scan

/-- What holds along a scan holds wherever the text is cut. -/
theorem along_iff {Q : Scan → Prop} {s : Scan} {cs : List Char} :
    Along Q s cs ↔ ∀ before after, cs = before ++ after → Q (s.scan before) := by
  constructor
  · rintro h before after rfl
    exact (along_append.mp h).1.last
  · intro h
    induction cs generalizing s with
    | nil => exact h [] [] rfl
    | cons c cs ih =>
      exact ⟨h [] (c :: cs) rfl, ih fun before after hcs => h (c :: before) after (hcs ▸ rfl)⟩

/-- The marks are at the operators that the scanner meets in code outside of brackets. -/
theorem any_marks_iff {s : Scan} {cs : List Char} :
    (marks s cs).any Prod.snd = true ↔
      ∃ before c after, cs = before ++ c :: after ∧ c ∈ operators ∧ s.scan before = {} := by
  induction cs generalizing s with
  | nil => exact iff_of_false Bool.false_ne_true fun ⟨before, c, after, h, _⟩ => by simp at h
  | cons d cs ih =>
    rw [marks, List.any_cons, Bool.or_eq_true, ih, Bool.and_eq_true, decide_eq_true_iff,
      List.contains_iff_mem]
    constructor
    · rintro (⟨hs, hd⟩ | ⟨before, c, after, rfl, hc, hs⟩)
      · exact ⟨[], d, cs, rfl, hd, hs⟩
      · exact ⟨d :: before, c, after, rfl, hc, hs⟩
    · rintro ⟨before, c, after, hcs, hc, hs⟩
      cases before with
      | nil =>
        obtain ⟨rfl, -⟩ := List.cons.inj hcs
        exact .inl ⟨hs, hc⟩
      | cons b before =>
        obtain ⟨rfl, htail⟩ := List.cons.inj hcs
        exact .inr ⟨before, c, after, htail, hc, hs⟩

end Scan

/-- A text that ends outside of quotation marks and brackets. Wherever it is cut, it has not closed
more brackets than it has opened, and has not begun a comment. -/
structure Bracketed (text : String) : Prop where
  ends : Scan.scan {} text.toList = {}
  before_end : ∀ before after, text.toList = before ++ after →
    0 ≤ (Scan.scan {} before).depth ∧ (Scan.scan {} before).place.isComment = false

/-- Somewhere in the text, outside of brackets and quotation marks, there is an operator. -/
def HasOuterOperator (text : String) : Prop :=
  ∃ before c after, text.toList = before ++ c :: after ∧ c ∈ Scan.operators ∧
    Scan.scan {} before = {}

/-! ### Closed texts -/

namespace Closed

variable {text : String} {use : TypeUse}

theorem bracketed (h : Closed false text.toList) : Bracketed text where
  ends := (h 0).1
  before_end before after htext := by
    obtain ⟨hdepth, hcomment⟩ := Scan.along_iff.mp (h 0).2 before after htext
    exact ⟨hdepth, Bool.eq_false_iff.mpr fun hc => Bool.false_ne_true (hcomment hc)⟩

/-- The search finds an operator exactly if there is one. -/
theorem hasOperator_iff (h : Closed false text.toList) :
    TypeUse.hasOperator .code 0 text.toList = true ↔ HasOuterOperator text := by
  rw [← Scan.any_marks_eq h]
  exact Scan.any_marks_iff

private theorem parentheses_ne (text : String) : "(" ++ text ++ ")" ≠ text := fun h => by
  have hlength := congrArg String.length h
  simp only [String.length_append] at hlength
  have hopen : "(".length = 1 := rfl
  omega

/-- A text with an operator outside of brackets is put in parentheses. -/
theorem parenthesize_eq_parentheses_iff (h : Closed false text.toList) :
    TypeUse.parenthesize text = "(" ++ text ++ ")" ↔ HasOuterOperator text := by
  rw [← h.hasOperator_iff, TypeUse.parenthesize]
  split
  · next hoperator => exact iff_of_true rfl hoperator
  · next hoperator => exact iff_of_false (parentheses_ne text).symm hoperator

/-- Any other text is left as it is. -/
theorem parenthesize_eq_self_iff (h : Closed false text.toList) :
    TypeUse.parenthesize text = text ↔ ¬HasOuterOperator text := by
  rw [← h.hasOperator_iff, TypeUse.parenthesize]
  split
  · next hoperator => exact iff_of_false (parentheses_ne text) (not_not_intro hoperator)
  · next hoperator => exact iff_of_true rfl hoperator

/-- An array has no operator outside of brackets. -/
theorem not_hasOuterOperator_array (h : Closed false use.text.toList) :
    ¬HasOuterOperator use.array.text := by
  obtain ⟨-, hmarks, -⟩ := Reads.closed_array h
  rw [HasOuterOperator, ← Scan.any_marks_iff, List.any_eq_true]
  rintro ⟨m, hm, hmark⟩
  rw [hmarks m hm] at hmark
  cases hmark

end Closed

/-! ### Types of nodes -/

namespace Setting.Reaches

variable {run : Setting} {p : Progress}

/-- The text of a type that a run asks for is bracketed. It is put in parentheses exactly if it has
an operator outside of brackets and quotation marks, and is left as it is otherwise. So the text of
an array of this type is bracketed, ends in its brackets, and has no such operator. -/
theorem types_bracketed (hplain : run.Plain) (hp : run.Reaches p) {node : SchemaNode}
    {location hint : String} {use : TypeUse} {q : Progress}
    (h : (Gen.typeOf run node location hint).run.run p = (.ok use, q)) :
    Bracketed use.text ∧
      (TypeUse.parenthesize use.text = "(" ++ use.text ++ ")" ↔ HasOuterOperator use.text) ∧
      (TypeUse.parenthesize use.text = use.text ↔ ¬HasOuterOperator use.text) ∧
      (∃ item, use.array.text = item ++ "[]") ∧
      Bracketed use.array.text ∧ ¬HasOuterOperator use.array.text := by
  have hsound : (UseLaw.nulls hplain).Sound p := hp.sound fun _ _ => trivial
  obtain ⟨hq, -, -, hholds⟩ :=
    ((UseLaw.nulls hplain).keeps_typeOf trivial hint p hsound.ready).of_ok h
  have hgiven : q.Given run := hq.toSound.names_given
  have hclosed : Closed false use.text.toList := (hholds q (le_refl q) hgiven).closed
  exact ⟨hclosed.bracketed, hclosed.parenthesize_eq_parentheses_iff,
    hclosed.parenthesize_eq_self_iff, ⟨_, rfl⟩, (Reads.closed_array hclosed).1.bracketed,
    hclosed.not_hasOuterOperator_array⟩

/-- An object that may be null, whose key and whose constant have brackets, operators, quotation
marks and a backslash. -/
def guardedKey : Schema :=
  { types := some (.many ["object", "null"])
    properties := [("\x7d|\"", .schema { constant := some (.string "\\\" & (") })] }

/-- The text of this object. -/
def guardedKeyText : String := "\x7b \"\x7d|\\\"\"?: \"\\\\\\\" & (\" \x7d | null"

theorem types_bracketed_guardedKey :
    Call.loopRun.Plain ∧ Call.loopRun.Reaches {} ∧
      ∃ q, (Gen.typeOf Call.loopRun (.schema guardedKey) "#/test" "Test").run.run {} =
          (.ok (.plain guardedKeyText), q) ∧
        Bracketed guardedKeyText ∧ HasOuterOperator guardedKeyText ∧
        (TypeUse.plain guardedKeyText).array.text = "(" ++ guardedKeyText ++ ")" ++ "[]" ∧
        ¬HasOuterOperator (TypeUse.plain guardedKeyText).array.text := by
  have hplain : Call.loopRun.Plain := ⟨rfl, nofun, nofun⟩
  have huse : ((Gen.typeOf Call.loopRun (.schema guardedKey) "#/test" "Test").run.run {}).1 =
      .ok (.plain guardedKeyText) := by
    rfl
  have hparentheses :
      TypeUse.parenthesize guardedKeyText = "(" ++ guardedKeyText ++ ")" := by
    decide +kernel
  obtain ⟨hbracketed, hneeded, -, -, -, harray⟩ :=
    types_bracketed hplain .start (Prod.ext huse rfl)
  exact ⟨hplain, .start, _, Prod.ext huse rfl, hbracketed, hneeded.mp hparentheses,
    congrArg (· ++ "[]") hparentheses, harray⟩

end Setting.Reaches

end OpenApiTs
