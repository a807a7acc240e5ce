/-!
# Blank characters and trimming

White space in the sense of the Unicode property `White_Space`, and the removal of blank
characters at the ends of a text.

## Main definitions

* `Text.isBlank`: the characters with the property `White_Space`.
* `Text.trim`, `Text.trimStart`, `Text.trimEnd`: a text without the blanks at its ends.
-/

namespace OpenApiTs.Text

/-- The white-space characters. -/
def isBlank (c : Char) : Bool :=
  let n := c.toNat
  (9 ≤ n && n ≤ 13) || n == 0x20 || n == 0x85 || n == 0xA0 || n == 0x1680 ||
    (0x2000 ≤ n && n ≤ 0x200A) || n == 0x2028 || n == 0x2029 || n == 0x202F || n == 0x205F ||
    n == 0x3000

/-- A list of characters without the blanks at its end. -/
def dropBlankEnd (cs : List Char) : List Char :=
  (cs.reverse.dropWhile isBlank).reverse

/-- The text without the blanks at its start. -/
def trimStart (s : String) : String :=
  String.ofList (s.toList.dropWhile isBlank)

/-- The text without the blanks at its end. -/
def trimEnd (s : String) : String :=
  String.ofList (dropBlankEnd s.toList)

/-- The text without the blanks at either end. -/
def trim (s : String) : String :=
  trimEnd (trimStart s)

/-! ### Laws -/

@[simp] theorem dropBlankEnd_nil : dropBlankEnd [] = [] := rfl

/-- A text without blanks at its end is left as it is. -/
theorem dropBlankEnd_append_singleton (cs : List Char) {c : Char} (h : isBlank c = false) :
    dropBlankEnd (cs ++ [c]) = cs ++ [c] := by
  simp [dropBlankEnd, h]

end OpenApiTs.Text
