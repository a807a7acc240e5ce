import OpenApiTs.Schema.Shape
import OpenApiTs.Text.Lines

/-!
# Uses of types

The text of a type at the place where it is used, with the names of the declarations that the text
mentions. Texts are combined as texts: a custom target type can be any text.

## Main definitions

* `Names.add`, `Names.union`: names in the order of their first use.
* `TypeUse`: a text and the names in it.
* `TypeUse.orNull`, `TypeUse.array`: a type that also admits null, and arrays of a type.
* `TypeUse.parenthesize`: parentheses around a text with an operator outside of brackets.
-/

namespace OpenApiTs

/-! ### Names in order of first use -/

namespace Names

/-- The names with one more at the end, unless it is there. -/
def add (names : List String) (name : String) : List String :=
  if names.contains name then names else names ++ [name]

/-- The names followed by the further ones that are new. -/
def union (names more : List String) : List String := more.foldl add names

@[simp] theorem mem_add {names : List String} {name n : String} :
    n ∈ add names name ↔ n ∈ names ∨ n = name := by
  by_cases h : name ∈ names
  · rw [add, if_pos (List.contains_iff_mem.mpr h)]
    exact ⟨Or.inl, fun hn => hn.elim id fun hn => hn ▸ h⟩
  · rw [add, if_neg (mt List.contains_iff_mem.mp h), List.mem_append, List.mem_singleton]

/-- Adding a name keeps all names distinct. -/
theorem nodup_add {names : List String} (h : names.Nodup) (name : String) :
    (add names name).Nodup := by
  rw [add]
  split
  · exact h
  · next hn =>
    rw [List.contains_iff_mem] at hn
    exact List.nodup_append.mpr ⟨h, by simp, fun a ha b hb => by
      rw [List.mem_singleton] at hb
      exact fun hab => hn (hb ▸ hab ▸ ha)⟩

@[simp] theorem mem_union {names more : List String} {n : String} :
    n ∈ union names more ↔ n ∈ names ∨ n ∈ more := by
  induction more generalizing names with
  | nil => simp [union]
  | cons m rest ih =>
    rw [union, List.foldl_cons, ← union, ih, mem_add, List.mem_cons, or_assoc]

theorem nodup_union {names : List String} (h : names.Nodup) (more : List String) :
    (union names more).Nodup := by
  induction more generalizing names with
  | nil => exact h
  | cons m rest ih => exact ih (nodup_add h m)

end Names

/-! ### Operators outside of brackets -/

namespace TypeUse

/-- Where a scan of a type text stands. -/
inductive Place where
  | code
  | text
  | escape
  deriving DecidableEq, Repr

/-- Whether the rest of a text has an operator outside of brackets and texts. -/
def hasOperator (place : Place) (depth : Int) : List Char → Bool
  | [] => false
  | c :: rest =>
    match place with
    | .escape => hasOperator .text depth rest
    | .text =>
      if c = '\\' then hasOperator .escape depth rest
      else if c = '"' then hasOperator .code depth rest
      else hasOperator .text depth rest
    | .code =>
      if c = '"' then hasOperator .text depth rest
      else if c = '\x7b' ∨ c = '(' ∨ c = '[' ∨ c = '<' then hasOperator .code (depth + 1) rest
      else if c = '\x7d' ∨ c = ')' ∨ c = ']' ∨ c = '>' then hasOperator .code (depth - 1) rest
      else if (c = '|' ∨ c = '&') ∧ depth = 0 then true
      else hasOperator .code depth rest

/-- The text, in parentheses if it has an operator outside of brackets. -/
def parenthesize (text : String) : String :=
  if hasOperator .code 0 text.toList then "(" ++ text ++ ")" else text

end TypeUse

/-! ### Uses -/

/-- A type text and the names of the declarations in it. -/
structure TypeUse where
  text : String
  mentions : List String := []
  deriving DecidableEq, Repr

namespace TypeUse

/-- A text that mentions no declaration. -/
def plain (text : String) : TypeUse := ⟨text, []⟩

/-- The name of a declaration. -/
def named (name : String) : TypeUse := ⟨name, [name]⟩

/-- The type of every value. -/
def unknown : TypeUse := plain "unknown"

/-- The type of a boolean schema: of every value, or of none. -/
def ofBoolean (allowed : Bool) : TypeUse := if allowed then unknown else plain "never"

/-- Whether a text says at its end that it admits null. -/
def endsInNull (text : String) : Bool := text == "null" || Text.endsWith text "| null"

/-- The type that also admits null. -/
def orNull (use : TypeUse) : TypeUse :=
  if endsInNull use.text then use else { use with text := use.text ++ " | null" }

/-- The type that also admits null, under a condition. -/
def orNullIf (condition : Bool) (use : TypeUse) : TypeUse := if condition then use.orNull else use

/-- Arrays of the type. -/
def array (use : TypeUse) : TypeUse := { use with text := parenthesize use.text ++ "[]" }

/-- Records with values of the type. -/
def record (use : TypeUse) : TypeUse := { use with text := "Record<string, " ++ use.text ++ ">" }

/-- The use of a declaration for a schema. -/
def ofDeclaration (name : String) (schema : Schema) : TypeUse :=
  (named name).orNullIf schema.needsNullAtUse

/-! ### Mentions

What a type is made into mentions what the type mentions. -/

@[simp] theorem mentions_orNull (use : TypeUse) : use.orNull.mentions = use.mentions := by
  rw [orNull]
  split <;> rfl

@[simp] theorem mentions_orNullIf (condition : Bool) (use : TypeUse) :
    (use.orNullIf condition).mentions = use.mentions := by
  rw [orNullIf]
  split
  · exact mentions_orNull use
  · rfl

@[simp] theorem mentions_array (use : TypeUse) : use.array.mentions = use.mentions := rfl

@[simp] theorem mentions_record (use : TypeUse) : use.record.mentions = use.mentions := rfl

@[simp] theorem mentions_ofDeclaration (name : String) (schema : Schema) :
    (ofDeclaration name schema).mentions = [name] :=
  mentions_orNullIf _ _

end TypeUse

end OpenApiTs
