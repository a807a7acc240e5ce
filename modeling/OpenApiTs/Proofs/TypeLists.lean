import OpenApiTs.Proofs.Branches

/-!
# Lists of types

A schema can declare a list of types, in any order and with repeats. Its shape depends only on what
is in the list, and the first rule that applies decides: with object in the list it is an object,
otherwise with array it is an array, and only otherwise a union of scalar types. Null is set apart
and written last. So every type of a list of scalar types has an alternative in the text, but beside
object or array nothing but null has: the text for texts or objects is that for objects.

## Main definitions

* `ListedType`: the types that a list can name.
* `Schema.Lists`: a schema that declares a list of types and nothing else of its shape.
* `Admits`: the alternatives for the values of a type.
* `ListedType.IsKept`: the types of a list that its text keeps.
* `Schema.Covers`: alternatives for the types that are kept, and for no others.

## Main results

* `Schema.Lists.shape_eq`, `Schema.Lists.scalarShape_cases`: the shape for a list.
* `Schema.Covers.of_kept`: alternatives for the types that are kept are for no others.
* `Gen.inlineType_covers`: the text for a list.
-/

namespace OpenApiTs

/-! ### Listed types -/

/-- The types that a list can name. -/
inductive ListedType where
  | scalar (t : Scalar)
  | object
  | array
  deriving DecidableEq, Repr

namespace ListedType

/-- The name of a type in a list. -/
def name : ListedType → String
  | .scalar t => t.name
  | .object => "object"
  | .array => "array"

theorem name_injective : Function.Injective name := by
  intro a b h
  rcases a with (_ | _ | _ | _ | _) | _ | _ <;> rcases b with (_ | _ | _ | _ | _) | _ | _ <;>
    first
    | rfl
    | exact absurd h (by decide)

/-- The types of a list that its text keeps: null, and the others by the first rule that applies. -/
def IsKept (listed : List ListedType) (t : ListedType) : Prop :=
  t = .scalar .null ∨
    if .object ∈ listed then t = .object
    else if .array ∈ listed then t = .array
    else True

/-- A list of scalar types is kept. -/
theorem isKept_scalars (ts : List Scalar) (t : ListedType) : IsKept (ts.map .scalar) t := by
  refine .inr ?_
  rw [if_neg (by simp), if_neg (by simp)]
  trivial

/-- Without object and array, a list is one of scalar types. -/
theorem exists_scalars {listed : List ListedType} (hobject : .object ∉ listed)
    (harray : .array ∉ listed) : ∃ ts : List Scalar, listed = ts.map .scalar := by
  induction listed with
  | nil => exact ⟨[], rfl⟩
  | cons t rest ih =>
    rw [List.mem_cons, not_or] at hobject harray
    obtain ⟨ts, rfl⟩ := ih hobject.2 harray.2
    cases t with
    | scalar t => exact ⟨t :: ts, rfl⟩
    | object => exact absurd rfl hobject.1
    | array => exact absurd rfl harray.1

end ListedType

/-- Equal values are kept once. -/
theorem eraseDups_eq_singleton {α : Type} [BEq α] [LawfulBEq α] {l : List α} {a : α} (hne : l ≠ [])
    (h : ∀ b ∈ l, b = a) : l.eraseDups = [a] := by
  cases l with
  | nil => exact absurd rfl hne
  | cons b rest =>
    obtain ⟨rfl, hrest⟩ := List.forall_mem_cons.mp h
    have hnone : (rest.filter fun c => !c == b) = [] :=
      List.filter_eq_nil_iff.mpr fun c hc => by simp [hrest c hc]
    rw [List.eraseDups_cons, hnone, List.eraseDups_nil]

theorem Scalar.ofName?_name (t : Scalar) : ofName? t.name = some t := by
  cases t <;> decide

/-- Scalar types, each once, without null unless it is alone. -/
theorem Scalar.kept_of_eq {ts kept : List Scalar}
    (h : kept = if 1 < ts.eraseDups.length then ts.eraseDups.filter (· != .null)
      else ts.eraseDups) :
    kept ⊆ ts ∧ (∀ t ∈ ts, t ≠ .null → t ∈ kept) ∧ (ts ≠ [] → kept ≠ []) := by
  have hall : ∀ t ∈ ts, t ≠ .null → t ∈ kept := by
    intro t ht hne
    rw [h]
    split
    · exact List.mem_filter.mpr ⟨List.mem_eraseDups.mpr ht, bne_iff_ne.mpr hne⟩
    · exact List.mem_eraseDups.mpr ht
  refine ⟨fun t ht => ?_, hall, fun hts hempty => ?_⟩
  · rw [h] at ht
    split at ht
    · exact List.mem_eraseDups.mp (List.mem_filter.mp ht).1
    · exact List.mem_eraseDups.mp ht
  · have hnull : ts.eraseDups = [.null] := eraseDups_eq_singleton hts fun t ht => by
      by_contra hne
      exact List.not_mem_nil (hempty ▸ hall t ht hne)
    rw [hnull, hempty] at h
    exact absurd h (by decide)

namespace Schema

/-- The scalar types for names of scalar types are these, each once. -/
theorem scalars?_names (ts : List Scalar) : scalars? (ts.map Scalar.name) = some ts.eraseDups := by
  have hfold {add : List Scalar → String → Option (List Scalar)}
      (hadd : ∀ found t,
        add found (Scalar.name t) = some (if found.contains t then found else found ++ [t]))
      (found : List Scalar) :
      (ts.map Scalar.name).foldlM add found.eraseDups = some (found ++ ts).eraseDups := by
    induction ts generalizing found with
    | nil => simp
    | cons t ts ih =>
      have hone : add found.eraseDups t.name = some (found ++ [t]).eraseDups := by
        rw [hadd, eraseDups_append_singleton]
        simp only [List.contains_iff_mem, List.mem_eraseDups]
      rw [List.map_cons, List.foldlM_cons, hone, Option.bind_eq_bind, Option.bind_some, ih,
        List.append_assoc, List.singleton_append]
  exact hfold (fun found t => by rw [Scalar.ofName?_name]) []

/-- A schema that declares a list of types and nothing else of its shape. -/
structure Lists (s : Schema) (listed : List ListedType) : Prop where
  types : s.types = some (.many (listed.map ListedType.name))
  oneOf : s.oneOf = []
  anyOf : s.anyOf = []
  allOf : s.allOf = []
  properties : s.properties = []
  enumeration : s.enumeration = []
  constant : s.constant = none

namespace Lists

variable {s : Schema} {listed : List ListedType} {ts : List Scalar}

theorem typeNames_eq (h : s.Lists listed) : s.typeNames = listed.map ListedType.name := by
  rw [typeNames, h.types]
  rfl

theorem contains_name_iff (t : ListedType) :
    (listed.map ListedType.name).contains t.name = true ↔ t ∈ listed := by
  rw [List.contains_iff_mem, List.mem_map_of_injective ListedType.name_injective]

theorem isNullable_iff (h : s.Lists listed) :
    s.isNullable = true ↔ s.nullable = true ∨ .scalar .null ∈ listed := by
  rw [isNullable, listsNull, h.types, h.enumeration, Bool.or_eq_true, Bool.or_eq_true]
  exact (or_iff_left Bool.false_ne_true).trans (or_congr_right (contains_name_iff (.scalar .null)))

theorem shape_eq (h : s.Lists listed) :
    s.shape = if .object ∈ listed then .object
      else if .array ∈ listed then .array
      else s.scalarShape := by
  have hdeclares (t : ListedType) : s.declares t.name = true ↔ t ∈ listed := by
    rw [declares, h.typeNames_eq, contains_name_iff]
  have hobject : s.declares "object" = true ↔ .object ∈ listed := hdeclares .object
  have harray : s.declares "array" = true ↔ .array ∈ listed := hdeclares .array
  simp only [shape, h.oneOf, h.anyOf, h.allOf, h.properties, h.enumeration, h.constant,
    List.isEmpty_nil, Bool.not_true, Bool.or_false, Bool.false_eq_true, if_false, List.any_nil,
    Option.isSome_none, hobject, harray]

theorem placement_eq (h : s.Lists listed) : s.placement = .inPlace := by
  have hshape := h.shape_eq
  split_ifs at hshape
  · rw [placement, hshape]
  · rw [placement, hshape]
  · rcases s.scalarShape_cases with hscalars | ⟨types, hscalars, -⟩
    · rw [placement, hshape, hscalars]
    · rw [placement, hshape, hscalars]

/-- The shape for a list of scalar types: it has all of them but null, unless null is alone. -/
theorem scalarShape_cases (h : s.Lists (ts.map .scalar)) :
    (ts = [] ∧ s.scalarShape = .unknown) ∨
      ∃ kept, s.scalarShape = .scalars kept ∧ kept ≠ [] ∧ (kept = [.null] ∨ .null ∉ kept) ∧
        kept ⊆ ts ∧ ∀ t ∈ ts, t ≠ .null → t ∈ kept := by
  have hnames : s.typeNames = ts.map Scalar.name := by
    rw [h.typeNames_eq, List.map_map]
    rfl
  have hnull := s.scalarShape_cases
  rw [Schema.scalarShape, hnames, Schema.scalars?_names] at hnull ⊢
  dsimp only at hnull ⊢
  obtain ⟨hsubset, hall, hne⟩ :=
    Scalar.kept_of_eq (rfl : _ = if 1 < ts.eraseDups.length then _ else _)
  generalize (if 1 < ts.eraseDups.length then ts.eraseDups.filter (· != .null)
    else ts.eraseDups) = kept at hnull hsubset hall hne ⊢
  by_cases hts : ts = []
  · subst hts
    rw [List.subset_nil.mp hsubset]
    exact .inl ⟨rfl, rfl⟩
  · rw [if_neg (mt List.isEmpty_iff.mp (hne hts))] at hnull ⊢
    rcases hnull with hnull | ⟨types, htypes, hnull⟩
    · cases hnull
    · cases htypes
      exact .inr ⟨kept, rfl, hne hts, hnull, hsubset, hall⟩

end Lists

end Schema

/-! ### Alternatives for listed types -/

/-- The alternatives for the values of a type. -/
inductive Admits : String → ListedType → Prop
  | string : Admits "string" (.scalar .string)
  | file : Admits "Blob" (.scalar .string)
  | number : Admits "number" (.scalar .number)
  | integer : Admits "number" (.scalar .integer)
  | boolean : Admits "boolean" (.scalar .boolean)
  | null : Admits "null" (.scalar .null)
  | record (value : String) : Admits ("Record<string, " ++ value ++ ">") .object
  | members (body : String) : Admits ("\x7b " ++ body ++ " \x7d") .object
  | array (item : String) : Admits (item ++ "[]") .array

/-- The characters at the ends of the alternatives for a type. -/
def ListedType.endings : ListedType → List Char
  | .scalar .string => ['g', 'b']
  | .scalar .number => ['r']
  | .scalar .integer => ['r']
  | .scalar .boolean => ['n']
  | .scalar .null => ['l']
  | .object => ['>', '\x7d']
  | .array => [']']

/-- Types that share an ending are written alike. -/
theorem ListedType.eq_or_of_endings (t t' : ListedType) :
    ∀ c ∈ t.endings, c ∈ t'.endings → t = t' ∨ c = 'r' := by
  rcases t with (_ | _ | _ | _ | _) | _ | _ <;> rcases t' with (_ | _ | _ | _ | _) | _ | _ <;>
    decide

namespace Admits

variable {text : String} {t t' : ListedType}

theorem ending (h : Admits text t) : ∃ c ∈ t.endings, text.toList.getLast? = some c := by
  have hlast (front back : String) (cs : List Char) {c : Char} (h : back.toList = cs ++ [c]) :
      (front ++ back).toList.getLast? = some c := by
    rw [String.toList_append, h, ← List.append_assoc, List.getLast?_concat]
  cases h with
  | string => exact ⟨'g', by decide, by decide⟩
  | file => exact ⟨'b', by decide, by decide⟩
  | number => exact ⟨'r', by decide, by decide⟩
  | integer => exact ⟨'r', by decide, by decide⟩
  | boolean => exact ⟨'n', by decide, by decide⟩
  | null => exact ⟨'l', by decide, by decide⟩
  | record => exact ⟨'>', by decide, hlast _ ">" [] rfl⟩
  | members => exact ⟨'\x7d', by decide, hlast _ " \x7d" [' '] rfl⟩
  | array => exact ⟨']', by decide, hlast _ "[]" ['['] rfl⟩

/-- Only numbers and integers have an alternative in common. -/
theorem eq_or_ending (h : Admits text t) (h' : Admits text t') : t = t' ∨ 'r' ∈ t'.endings := by
  obtain ⟨c, hc, hlast⟩ := h.ending
  obtain ⟨c', hc', hlast'⟩ := h'.ending
  obtain rfl : c = c' := Option.some.inj (hlast.symm.trans hlast')
  refine (ListedType.eq_or_of_endings t t' c hc hc').imp_right fun hr => ?_
  rwa [hr] at hc'

theorem isIdentifier {t : Scalar} (h : Admits text (.scalar t)) :
    Naming.isIdentifier text = true := by
  cases h <;> decide

/-- Only the alternative for null ends as null does. -/
theorem not_endsInNull (h : Admits text t) (hne : t ≠ .scalar .null) :
    TypeUse.endsInNull text = false := by
  obtain ⟨c, hc, hlast⟩ := h.ending
  have hother : 'l' ∉ t.endings := by
    rcases t with (_ | _ | _ | _ | _) | _ | _ <;> first | exact absurd rfl hne | decide
  have hnot : text.toList.getLast? ≠ some 'l' := by
    rw [hlast, ne_eq, Option.some.injEq]
    rintro rfl
    exact hother hc
  refine Bool.eq_false_iff.mpr fun hends => hnot ?_
  rw [TypeUse.endsInNull, Bool.or_eq_true] at hends
  rcases hends with heq | hsuffix
  · rw [eq_of_beq heq]
    rfl
  · obtain ⟨front, hfront⟩ := List.isSuffixOf_iff_suffix.mp hsuffix
    have hend : "| null".toList = "| nul".toList ++ ['l'] := rfl
    rw [← hfront, hend, ← List.append_assoc, List.getLast?_concat]

end Admits

/-- If numbers are kept, everything is. -/
theorem ListedType.IsKept.of_ending {listed : List ListedType} {t' : ListedType}
    (h : IsKept listed t') (hending : 'r' ∈ t'.endings) (t : ListedType) : IsKept listed t := by
  have hnot : t' ≠ .scalar .null ∧ t' ≠ .object ∧ t' ≠ .array := by
    refine ⟨?_, ?_, ?_⟩ <;>
    · rintro rfl
      exact absurd hending (by decide)
  have hall := h.resolve_left hnot.1
  refine .inr ?_
  split_ifs at hall ⊢
  · exact absurd hall hnot.2.1
  · exact absurd hall hnot.2.2

/-- The alternatives for a list of types: for each type that is kept there is one, and for no other
type; besides, there are only null by the flag, and the type of every value for the empty list. -/
structure Schema.Covers (s : Schema) (listed : List ListedType) (parts : List String) : Prop where
  admits_iff : ∀ t ∈ listed, (∃ part ∈ parts, Admits part t) ↔ ListedType.IsKept listed t
  only : ∀ part ∈ parts, (∃ t ∈ listed, ListedType.IsKept listed t ∧ Admits part t) ∨
    part = "null" ∧ s.nullable = true ∨ part = "unknown" ∧ listed = []

namespace Schema.Covers

variable {s : Schema} {listed : List ListedType} {parts : List String}

/-- Alternatives for the types that are kept are for no others. -/
theorem of_kept
    (hkept : ∀ t ∈ listed, ListedType.IsKept listed t → ∃ part ∈ parts, Admits part t)
    (honly : ∀ part ∈ parts, (∃ t ∈ listed, ListedType.IsKept listed t ∧ Admits part t) ∨
      part = "null" ∧ s.nullable = true ∨ part = "unknown" ∧ listed = []) :
    s.Covers listed parts := by
  refine ⟨fun t ht => ⟨?_, hkept t ht⟩, honly⟩
  rintro ⟨part, hpart, hadmits⟩
  rcases honly part hpart with ⟨t', -, hkept', hadmits'⟩ | ⟨rfl, -⟩ | ⟨-, rfl⟩
  · rcases hadmits.eq_or_ending hadmits' with rfl | hending
    · exact hkept'
    · exact hkept'.of_ending hending t
  · exact .inl ((hadmits.eq_or_ending .null).resolve_right (by decide))
  · cases ht

/-- A change to the alternatives that keeps what they admit. -/
theorem map (h : s.Covers listed parts) {f : String → String}
    (hadmits : ∀ part ∈ parts, ∀ t, Admits part t → Admits (f part) t) (hnull : f "null" = "null")
    (hunknown : f "unknown" = "unknown") : s.Covers listed (parts.map f) := by
  refine of_kept (fun t ht hkept => ?_) (List.forall_mem_map.mpr fun part hpart => ?_)
  · obtain ⟨part, hpart, hpartAdmits⟩ := (h.admits_iff t ht).mpr hkept
    exact ⟨f part, List.mem_map_of_mem hpart, hadmits part hpart t hpartAdmits⟩
  · rcases h.only part hpart with ⟨t, ht, hkept, hpartAdmits⟩ | ⟨rfl, hflag⟩ | ⟨rfl, hlisted⟩
    · exact .inl ⟨t, ht, hkept, hadmits part hpart t hpartAdmits⟩
    · exact .inr (.inl ⟨hnull, hflag⟩)
    · exact .inr (.inr ⟨hunknown, hlisted⟩)

end Schema.Covers

/-! ### Texts in their place -/

theorem Scalar.admits_text (t : Scalar) (format : Option String) :
    Admits (t.text format) (.scalar t) := by
  cases t with
  | string =>
    rw [Scalar.text]
    split
    · exact .file
    · exact .string
  | number => exact .number
  | integer => exact .integer
  | boolean => exact .boolean
  | null => exact .null

/-- The blanks before an array are those before its items. -/
theorem Text.exists_trim_array (item : String) : ∃ item', trim (item ++ "[]") = item' ++ "[]" := by
  have hbrackets : ['[', ']'].dropWhile isBlank = ['[', ']'] := by decide
  have hstart : (item ++ "[]").toList.dropWhile isBlank =
      item.toList.dropWhile isBlank ++ ['['] ++ [']'] := by
    rw [String.toList_append]
    change (item.toList ++ ['[', ']']).dropWhile isBlank = _
    rw [List.dropWhile_append, hbrackets, List.append_assoc]
    split
    · next hempty => rw [List.isEmpty_iff.mp hempty]; rfl
    · rfl
  refine ⟨String.ofList (item.toList.dropWhile isBlank), ?_⟩
  rw [← String.toList_inj, trim_eq, String.toList_ofList, bare, hstart,
    dropBlankEnd_append_singleton _ (by decide), String.toList_append, String.toList_ofList,
    List.append_assoc]
  rfl

/-- The blanks around an alternative do not matter. -/
theorem Admits.trim {text : String} {t : ListedType} (h : Admits text t) :
    Admits (Text.trim text) t := by
  cases h with
  | string => exact .string
  | file => exact .file
  | number => exact .number
  | integer => exact .integer
  | boolean => exact .boolean
  | null => exact .null
  | record value =>
    have htext : ("Record<string, " ++ value ++ ">").toList =
        'R' :: (("ecord<string, ".toList ++ value.toList) ++ ['>']) := by
      rw [String.toList_append, String.toList_append]
      rfl
    rw [Text.trim_of_ends htext (by decide) (by decide)]
    exact .record value
  | members body =>
    have htext : ("\x7b " ++ body ++ " \x7d").toList =
        '\x7b' :: ((" ".toList ++ body.toList ++ [' ']) ++ ['\x7d']) := by
      rw [String.toList_append, String.toList_append, List.append_assoc (_ ++ _)]
      rfl
    rw [Text.trim_of_ends htext (by decide) (by decide)]
    exact .members body
  | array item =>
    obtain ⟨item', htrim⟩ := Text.exists_trim_array item
    rw [htrim]
    exact .array item'

namespace Schema

/-- A text that joins alternatives for a list of types. -/
structure Writes (s : Schema) (listed : List ListedType) (text : String) (parts : List String) :
    Prop where
  text_eq : text = " | ".intercalate parts
  ne_nil : parts ≠ []
  covers : s.Covers listed parts

variable {s : Schema} {listed : List ListedType}

theorem Writes.covers_alternatives {text : String} {parts : List String}
    (h : s.Writes listed text parts) (hlone : ∀ part ∈ parts, Lone part) :
    s.Covers listed (alternatives text) := by
  rw [h.text_eq, Lone.alternatives_intercalate h.ne_nil hlone]
  exact h.covers.map (fun _ _ _ hadmits => hadmits.trim) (by decide) (by decide)

/-- The type for a list of scalar types, without custom targets. -/
def scalarUse (s : Schema) : TypeUse :=
  match s.scalarShape with
  | .scalars kept => Gen.unionOf (kept.map fun t => t.text s.format)
  | _ => .unknown

namespace Lists

/-- Null is written after alternatives for the other types. -/
theorem writes_orNullIf (h : s.Lists listed) {use : TypeUse} {parts : List String}
    (htext : use.text = " | ".intercalate parts) (hne : parts ≠ [])
    (hend : TypeUse.endsInNull use.text = false)
    (hkept : ∀ t ∈ listed, ListedType.IsKept listed t → t ≠ .scalar .null →
      ∃ part ∈ parts, Admits part t)
    (honly : ∀ part ∈ parts, (∃ t ∈ listed, ListedType.IsKept listed t ∧ Admits part t) ∨
      part = "unknown" ∧ listed = []) :
    s.Writes listed (use.orNullIf s.isNullable).text
      (parts ++ if s.isNullable then ["null"] else []) := by
  have honly' : ∀ part ∈ parts, (∃ t ∈ listed, ListedType.IsKept listed t ∧ Admits part t) ∨
      part = "null" ∧ s.nullable = true ∨ part = "unknown" ∧ listed = [] :=
    fun part hpart => (honly part hpart).imp_right .inr
  by_cases hnull : s.isNullable = true
  · rw [if_pos hnull, TypeUse.orNullIf, if_pos hnull, TypeUse.orNull, hend,
      if_neg Bool.false_ne_true]
    refine ⟨?_, List.append_ne_nil_of_left_ne_nil hne _, .of_kept (fun t ht ht' => ?_) ?_⟩
    · rw [String.intercalate_append_of_ne_nil hne (List.cons_ne_nil _ _),
        String.intercalate_singleton, ← htext, String.append_assoc]
      rfl
    · by_cases hteq : t = .scalar .null
      · subst hteq
        exact ⟨"null", List.mem_append_right _ (List.mem_singleton_self _), .null⟩
      · obtain ⟨part, hpart, hadmits⟩ := hkept t ht ht' hteq
        exact ⟨part, List.mem_append_left _ hpart, hadmits⟩
    · refine List.forall_mem_append.mpr ⟨honly', List.forall_mem_singleton.mpr ?_⟩
      rcases h.isNullable_iff.mp hnull with hflag | hmem
      · exact .inr (.inl ⟨rfl, hflag⟩)
      · exact .inl ⟨_, hmem, .inl rfl, .null⟩
  · rw [if_neg hnull, TypeUse.orNullIf, if_neg hnull, List.append_nil]
    refine ⟨htext, hne, .of_kept (fun t ht ht' => hkept t ht ht' ?_) honly'⟩
    rintro rfl
    exact hnull (h.isNullable_iff.mpr (.inr ht))

/-- An object or an array is the only alternative besides null. -/
theorem writes_piece (h : s.Lists listed) {use : TypeUse} {t : ListedType} (ht : t ∈ listed)
    (hne : t ≠ .scalar .null) (hadmits : Admits use.text t)
    (hkept : ∀ t', ListedType.IsKept listed t' ↔ t' = .scalar .null ∨ t' = t) :
    s.Writes listed (use.orNullIf s.isNullable).text
      ([use.text] ++ if s.isNullable then ["null"] else []) := by
  refine h.writes_orNullIf (String.intercalate_singleton).symm (List.cons_ne_nil _ _)
    (hadmits.not_endsInNull hne) (fun t' _ ht' hne' => ?_) (List.forall_mem_singleton.mpr ?_)
  · rw [((hkept t').mp ht').resolve_left hne']
    exact ⟨use.text, List.mem_singleton_self _, hadmits⟩
  · exact .inl ⟨t, ht, (hkept t).mpr (.inr rfl), hadmits⟩

/-- Null alone is written once. -/
theorem writes_null (h : s.Lists listed) (hmem : .scalar .null ∈ listed)
    (hall : ∀ t ∈ listed, t = .scalar .null) {use : TypeUse} (htext : use.text = "null") :
    s.Writes listed (use.orNullIf s.isNullable).text ["null"] := by
  have hend : TypeUse.endsInNull use.text = true := by
    rw [htext]
    decide
  rw [h.isNullable_iff.mpr (.inr hmem), TypeUse.orNullIf, if_pos rfl, TypeUse.orNull, if_pos hend]
  refine ⟨htext.trans String.intercalate_singleton.symm, List.cons_ne_nil _ _,
    .of_kept (fun t ht _ => ⟨"null", List.mem_singleton_self _, ?_⟩) ?_⟩
  · rw [hall t ht]
    exact .null
  · exact List.forall_mem_singleton.mpr (.inl ⟨_, hmem, .inl rfl, .null⟩)

section Scalars

variable {ts kept : List Scalar} (h : s.Lists (ts.map .scalar))
include h

/-- Scalar types without null have an alternative each. -/
theorem writes_unionOf (hne : kept ≠ []) (hnull : .null ∉ kept) (hsubset : kept ⊆ ts)
    (hall : ∀ t ∈ ts, t ≠ .null → t ∈ kept) :
    ∃ parts, (∀ part ∈ parts, Naming.isIdentifier part = true) ∧
      s.Writes (ts.map .scalar)
        ((Gen.unionOf (kept.map fun t => t.text s.format)).orNullIf s.isNullable).text
        (parts ++ if s.isNullable then ["null"] else []) := by
  have htexts {text : String} : text ∈ Names.union [] (kept.map fun t => t.text s.format) ↔
      ∃ t ∈ kept, t.text s.format = text := by
    rw [Names.mem_union, or_iff_right List.not_mem_nil, List.mem_map]
  have hsolid : Solid (Gen.unionOf (kept.map fun t => t.text s.format)).text :=
    .unionOf (List.forall_mem_map.mpr fun t ht =>
      t.solid_text (fun heq => hnull (heq ▸ ht)) s.format)
  obtain ⟨first, hfirst⟩ := List.exists_mem_of_ne_nil kept hne
  refine ⟨Names.union [] (kept.map fun t => t.text s.format), fun part hpart => ?_,
    h.writes_orNullIf rfl (List.ne_nil_of_mem (htexts.mpr ⟨first, hfirst, rfl⟩))
      (Tidy.solid hsolid).endsInNull ?_ fun part hpart => ?_⟩
  · obtain ⟨t, -, rfl⟩ := htexts.mp hpart
    exact (t.admits_text s.format).isIdentifier
  · refine List.forall_mem_map.mpr fun t ht _ hne' => ?_
    have ht' : t ∈ kept := hall t ht fun heq => hne' (heq ▸ rfl)
    exact ⟨t.text s.format, htexts.mpr ⟨t, ht', rfl⟩, t.admits_text s.format⟩
  · obtain ⟨t, ht, rfl⟩ := htexts.mp hpart
    exact .inl ⟨.scalar t, List.mem_map_of_mem (hsubset ht), ListedType.isKept_scalars ts _,
      t.admits_text s.format⟩

/-- Scalar types have an alternative each, and null has one if it is alone. -/
theorem writes_scalars :
    ∃ parts, s.Writes (ts.map .scalar) (s.scalarUse.orNullIf s.isNullable).text parts ∧
      ∀ part ∈ parts, Lone part := by
  rw [scalarUse]
  rcases h.scalarShape_cases with ⟨rfl, hshape⟩ | ⟨kept, hshape, hne, rfl | hnull, hsubset, hall⟩
  · have hend : TypeUse.endsInNull TypeUse.unknown.text = false := by decide
    rw [hshape]
    refine ⟨["unknown"] ++ _, h.writes_orNullIf rfl (List.cons_ne_nil _ _) hend nofun ?_,
      Lone.append_null (List.forall_mem_singleton.mpr (.of_isIdentifier (by decide))) _⟩
    exact List.forall_mem_singleton.mpr (.inr ⟨rfl, rfl⟩)
  · have hmem : ListedType.scalar .null ∈ ts.map .scalar :=
      List.mem_map_of_mem (hsubset (List.mem_singleton_self _))
    have hnulls : ∀ t ∈ ts, ListedType.scalar t = .scalar .null := by
      intro t ht
      by_contra hne
      exact hne (congrArg _ (List.mem_singleton.mp (hall t ht fun heq => hne (heq ▸ rfl))))
    have htext : (Gen.unionOf ([Scalar.null].map fun t => t.text s.format)).text = "null" := by
      change (Gen.unionOf ["null"]).text = "null"
      decide
    rw [hshape]
    exact ⟨["null"], h.writes_null hmem (List.forall_mem_map.mpr hnulls) htext,
      List.forall_mem_singleton.mpr (.of_isIdentifier (by decide))⟩
  · obtain ⟨parts, hparts, hwrites⟩ := h.writes_unionOf hne hnull hsubset hall
    rw [hshape]
    exact ⟨_, hwrites, Lone.append_null (fun part hpart => .of_isIdentifier (hparts part hpart)) _⟩

end Scalars

end Lists

end Schema

/-! ### Runs -/

namespace Gen

variable {run : Setting} {p q : Progress} {s : Schema} {listed : List ListedType}
  {location hint : String}

/-- The type of a node, and that of every value for none. -/
def typeOrUnknown (run : Setting) (node? : Option SchemaNode) (location hint : String) :
    Gen TypeUse :=
  match node? with
  | some node => typeOf run node location hint
  | none => pure .unknown

theorem run_typeOrUnknown_eq_error_iff {node? : Option SchemaNode} {failure : Failure} :
    (typeOrUnknown run node? location hint).run.run p = (.error failure, q) ↔
      ∃ node, node? = some node ∧
        (typeOf run node location hint).run.run p = (.error failure, q) := by
  cases node? with
  | none => exact ⟨nofun, nofun⟩
  | some node => simp [typeOrUnknown]

theorem additional_parts (s : Schema) (refer : Refer) :
    (s.parts run refer).additional = SchemaNode.optionPart run refer s.additional := by
  cases s
  rfl

theorem items_parts (s : Schema) (refer : Refer) :
    (s.parts run refer).items = SchemaNode.optionPart run refer s.items := by
  cases s
  rfl

/-- A record has the type of the values of the object. -/
theorem record_parts (s : Schema) :
    record (refer run) (s.parts run (refer run)) location hint =
      TypeUse.record <$> typeOrUnknown run s.additional
        (Pointer.child location "additionalProperties") (Naming.compose [hint, "Value"]) := by
  unfold record additionalUse
  rw [additional_parts]
  cases s.additional with
  | none => rfl
  | some node =>
    cases node with
    | reference pointer => simp [SchemaNode.optionPart, SchemaNode.part, typeOrUnknown, typeOf]
    | boolean allowed => cases allowed <;> rfl
    | schema inner => simp [SchemaNode.optionPart, SchemaNode.part, typeOrUnknown, typeOf]

/-- An array has the type of its items. -/
theorem plainUse_of_array (hs : s.shape = .array) :
    plainUse run (refer run) s (s.parts run (refer run)) location hint =
      TypeUse.array <$> typeOrUnknown run s.items (Pointer.child location "items")
        (Naming.compose [hint, "Item"]) := by
  rw [plainUse, hs]
  dsimp only
  rw [items_parts]
  cases s.items with
  | none => rfl
  | some node => rw [map_eq_pure_bind]; rfl

/-- Scalar types have their own texts where there are no custom targets. -/
theorem plainUse_of_scalarShape (hmappings : run.config.mappings = [])
    (hs : s.shape = s.scalarShape) (parts : Parts) :
    plainUse run (refer run) s parts location hint = pure s.scalarUse := by
  have htext (t : Scalar) : run.scalarText t s.format = t.text s.format := by
    rw [Setting.scalarText, Config.targetFor?, hmappings]
    rfl
  rw [plainUse, hs, Schema.scalarUse]
  rcases s.scalarShape_cases with hshape | ⟨types, hshape, -⟩
  · rw [hshape]
  · rw [hshape]
    simp only [htext]

/-- The type of a schema with a list of types wraps that of the values of an object or of the items
of an array, or is made of scalar types. -/
theorem inlineType_eq_of_lists (hmappings : run.config.mappings = []) (h : s.Lists listed) :
    inlineType run s location hint =
      TypeUse.orNullIf s.isNullable <$>
        if .object ∈ listed then
          TypeUse.record <$> typeOrUnknown run s.additional
            (Pointer.child location "additionalProperties") (Naming.compose [hint, "Value"])
        else if .array ∈ listed then
          TypeUse.array <$> typeOrUnknown run s.items (Pointer.child location "items")
            (Naming.compose [hint, "Item"])
        else pure s.scalarUse := by
  have hshape := h.shape_eq
  unfold inlineType useSchema inPlaceUse
  rw [h.placement_eq]
  dsimp only
  rw [bind_pure_comp]
  congr 1
  split_ifs at hshape ⊢
  · rw [hshape]
    dsimp only
    rw [inlineObject, h.properties, List.isEmpty_nil, if_pos rfl, record_parts]
  · rw [hshape]
    exact plainUse_of_array hshape
  · rw [← plainUse_of_scalarShape hmappings hshape (s.parts run (refer run))]
    rcases s.scalarShape_cases with hscalars | ⟨types, hscalars, -⟩
    · rw [hshape, hscalars]
    · rw [hshape, hscalars]

/-- The types that a run asks for are closed. -/
theorem closed_typeOrUnknown (hplain : run.Plain) (hp : run.Reaches p)
    {node? : Option SchemaNode} {use : TypeUse}
    (h : (typeOrUnknown run node? location hint).run.run p = (.ok use, q)) :
    Closed false use.text.toList := by
  cases node? with
  | none =>
    cases h
    exact .of_forall_not_special (by decide)
  | some node =>
    have hsound : (UseLaw.nulls hplain).Sound p := hp.sound fun _ _ => trivial
    obtain ⟨hq, -, -, hholds⟩ :=
      ((UseLaw.nulls hplain).keeps_typeOf trivial hint p hsound.ready).of_ok h
    exact (hholds q (le_refl q) hq.toSound.names_given).closed

/-- The type of a schema with a list of types joins alternatives for the types that are kept, and
for no others. There is always a type, unless that of the values of an object or of the items of an
array fails. With names of identifier characters these are the alternatives of the text. -/
theorem inlineType_covers (hmappings : run.config.mappings = []) (h : s.Lists listed)
    (location hint : String) (p : Progress) :
    (∀ failure q, (inlineType run s location hint).run.run p = (.error failure, q) ↔
      (.object ∈ listed ∧ ∃ node, s.additional = some node ∧
        (typeOf run node (Pointer.child location "additionalProperties")
          (Naming.compose [hint, "Value"])).run.run p = (.error failure, q)) ∨
      (.object ∉ listed ∧ .array ∈ listed ∧ ∃ node, s.items = some node ∧
        (typeOf run node (Pointer.child location "items")
          (Naming.compose [hint, "Item"])).run.run p = (.error failure, q))) ∧
    ∀ use q, (inlineType run s location hint).run.run p = (.ok use, q) →
      ∃ parts, use.text = " | ".intercalate parts ∧ s.Covers listed parts ∧
        (run.Plain → run.Reaches p → s.Covers listed (alternatives use.text)) := by
  rw [inlineType_eq_of_lists hmappings h]
  have hwrites {use : TypeUse} {parts : List String} (hparts : s.Writes listed use.text parts)
      (hlone : run.Plain → run.Reaches p → ∀ part ∈ parts, Lone part) :
      ∃ parts, use.text = " | ".intercalate parts ∧ s.Covers listed parts ∧
        (run.Plain → run.Reaches p → s.Covers listed (alternatives use.text)) :=
    ⟨parts, hparts.text_eq, hparts.covers,
      fun hplain hp => hparts.covers_alternatives (hlone hplain hp)⟩
  split_ifs with hobject harray
  · simp only [run_map_eq_error_iff, run_map_eq_ok_iff, run_typeOrUnknown_eq_error_iff]
    refine ⟨fun failure q => by simp [hobject], ?_⟩
    rintro _ q ⟨_, ⟨use, huse, rfl⟩, rfl⟩
    have hkept (t : ListedType) : ListedType.IsKept listed t ↔ t = .scalar .null ∨ t = .object := by
      rw [ListedType.IsKept, if_pos hobject]
    refine hwrites (h.writes_piece hobject nofun (.record use.text) hkept) fun hplain hp => ?_
    have hclosed := closed_typeOrUnknown hplain hp huse
    exact Lone.append_null (List.forall_mem_singleton.mpr (.record hclosed)) _
  · simp only [run_map_eq_error_iff, run_map_eq_ok_iff, run_typeOrUnknown_eq_error_iff]
    refine ⟨fun failure q => by simp [hobject, harray], ?_⟩
    rintro _ q ⟨_, ⟨use, huse, rfl⟩, rfl⟩
    have hkept (t : ListedType) : ListedType.IsKept listed t ↔ t = .scalar .null ∨ t = .array := by
      rw [ListedType.IsKept, if_neg hobject, if_pos harray]
    refine hwrites (h.writes_piece harray nofun (.array _) hkept) fun hplain hp => ?_
    have hclosed := closed_typeOrUnknown hplain hp huse
    exact Lone.append_null (List.forall_mem_singleton.mpr (.array hclosed)) _
  · simp only [run_map_eq_error_iff, run_map_eq_ok_iff]
    refine ⟨fun failure q => iff_of_false nofun (by simp [hobject, harray]), ?_⟩
    rintro _ q ⟨use, huse, rfl⟩
    cases huse
    obtain ⟨ts, rfl⟩ := ListedType.exists_scalars hobject harray
    obtain ⟨parts, hparts, hlone⟩ := h.writes_scalars
    exact hwrites hparts fun _ _ => hlone

/-- A list of scalar types for a binary text, with null among them. -/
def binaryList : Schema :=
  { types := some (.many ["integer", "null", "string", "number"]), format := some "binary" }

theorem inlineType_covers_binaryList :
    Call.loopRun.config.mappings = [] ∧
      binaryList.Lists
        [.scalar .integer, .scalar .null, .scalar .string, .scalar .number] ∧
      ((inlineType Call.loopRun binaryList "#/test" "Test").run.run {}).1 =
        .ok (.plain "number | Blob | null") ∧
      binaryList.Covers [.scalar .integer, .scalar .null, .scalar .string, .scalar .number]
        (alternatives "number | Blob | null") := by
  have hlists : binaryList.Lists
      [.scalar .integer, .scalar .null, .scalar .string, .scalar .number] :=
    ⟨rfl, rfl, rfl, rfl, rfl, rfl, rfl⟩
  have huse : ((inlineType Call.loopRun binaryList "#/test" "Test").run.run {}).1 =
      .ok (.plain "number | Blob | null") := by
    rfl
  have hmappings : Call.loopRun.config.mappings = [] := rfl
  obtain ⟨-, hcovers⟩ := inlineType_covers hmappings hlists "#/test" "Test" {}
  obtain ⟨-, -, -, halternatives⟩ := hcovers _ _ (Prod.ext huse rfl)
  exact ⟨rfl, hlists, huse, halternatives ⟨rfl, nofun, nofun⟩ .start⟩

/-- A list of a scalar type and object. -/
def mixedList : Schema := { types := some (.many ["string", "object"]) }

/-- A run that puts an opening parenthesis before names. -/
def openedRun : Setting := { Call.loopRun with config := { naming := { before := "(" } } }

/-- A list of array and null, with items that are used by name. -/
def namedItems : Schema :=
  { types := some (.many ["array", "null"])
    items := some (.schema { enumeration := [.string "a", .string "b"] }) }

/-- Not every listed type has an alternative: beside object, texts have none. With names that leave
a bracket open, null is written but is no alternative. -/
theorem inlineType_mixedList :
    Call.loopRun.config.mappings = [] ∧ mixedList.Lists [.scalar .string, .object] ∧
      (∃ q, (inlineType Call.loopRun mixedList "#/test" "Test").run.run {} =
        (.ok (.plain "Record<string, unknown>"), q)) ∧
      (¬∃ part ∈ alternatives "Record<string, unknown>", Admits part (.scalar .string)) ∧
    openedRun.config.mappings = [] ∧ namedItems.Lists [.array, .scalar .null] ∧
      (∃ q, (inlineType openedRun namedItems "#/test" "Test").run.run {} =
        (.ok ⟨"(TestItem[] | null", ["(TestItem"]⟩, q)) ∧
      ¬∃ part ∈ alternatives "(TestItem[] | null", Admits part (.scalar .null) := by
  have hnone {text : String} {t : ListedType} (h : alternatives text = [text])
      (hnot : ¬Admits text t) : ¬∃ part ∈ alternatives text, Admits part t := by
    rintro ⟨part, hpart, hadmits⟩
    rw [h, List.mem_singleton] at hpart
    exact hnot (hpart ▸ hadmits)
  have hrecord : ¬Admits "Record<string, unknown>" (.scalar .string) := fun h =>
    absurd h.isIdentifier (by decide)
  have hnull : ¬Admits "(TestItem[] | null" (.scalar .null) := fun h =>
    absurd h.isIdentifier (by decide)
  have hmixed : ((inlineType Call.loopRun mixedList "#/test" "Test").run.run {}).1 =
      .ok (.plain "Record<string, unknown>") := by
    rfl
  have hopened : ((inlineType openedRun namedItems "#/test" "Test").run.run {}).1 =
      .ok ⟨"(TestItem[] | null", ["(TestItem"]⟩ := by
    rfl
  exact ⟨rfl, ⟨rfl, rfl, rfl, rfl, rfl, rfl, rfl⟩, ⟨_, Prod.ext hmixed rfl⟩,
    hnone (by decide) hrecord, rfl, ⟨rfl, rfl, rfl, rfl, rfl, rfl, rfl⟩,
    ⟨_, Prod.ext hopened rfl⟩, hnone (by decide) hnull⟩

end Gen

end OpenApiTs
