import OpenApiTs.Proofs.NameTexts

/-!
# Names that are identifiers

Every step of naming keeps a text of ASCII in ASCII: the blanks for separators, the words, and the
case maps of letters. What is written in names consists of characters of identifiers and of letters
beyond ASCII, and has a blank only beside such a letter; so of a raw name of ASCII nothing is left
but characters of identifiers. A name without a digit at its start is then an identifier, and stays
one when a word or a number is put after it.

## Main definitions

* `Text.IsAscii`: texts of ASCII.
* `Naming.IsUsable`: identifiers that are not the name of a built-in type.

## Main results

* `Convention.isAscii_apply`: a name of ASCII stays one under each convention.
* `NamingRules.isIdentifier_typeName`: declarations of raw names of ASCII have identifiers.
* `NamingRules.usable_names`: so have all names that are derived from these.
-/

namespace OpenApiTs

/-! ### Texts of ASCII -/

namespace Text

/-- Every character of a text is one of ASCII. -/
def IsAscii (cs : List Char) : Prop := ∀ c ∈ cs, c.toNat < 128

instance (cs : List Char) : Decidable (IsAscii cs) :=
  inferInstanceAs (Decidable (∀ c ∈ cs, c.toNat < 128))

/-- What holds of the characters with the code points of ASCII holds of all characters of ASCII. -/
theorem forall_ascii {p : Char → Prop} (h : ∀ n < 128, p (Char.ofNat n)) (c : Char)
    (hc : c.toNat < 128) : p c :=
  c.ofNat_toNat ▸ h c.toNat hc

theorem isAscii_upperChar : ∀ c : Char, c.toNat < 128 → IsAscii (upperChar c) :=
  forall_ascii (by decide)

theorem isAscii_lowerChar : ∀ c : Char, c.toNat < 128 → IsAscii (lowerChar c) :=
  forall_ascii (by decide)

/-- A text of ASCII in small letters is written character by character: the small sigmas are written
for a capital one only, which is not ASCII. -/
theorem lowerList_eq_flatMap {cs : List Char} (before : List Char) (h : IsAscii cs) :
    lowerList before cs = cs.flatMap lowerChar := by
  induction cs generalizing before with
  | nil => rfl
  | cons c cs ih =>
    obtain ⟨hc, hcs⟩ := List.forall_mem_cons.mp h
    have hsigma : c ≠ 'Σ' := by
      rintro rfl
      exact absurd hc (by decide)
    rw [lowerList, if_neg hsigma, ih (c :: before) hcs, List.flatMap_cons]

theorem lowerText_eq_flatMap {cs : List Char} (h : IsAscii cs) :
    lowerText cs = cs.flatMap lowerChar :=
  lowerList_eq_flatMap [] h

namespace IsAscii

variable {as bs cs : List Char}

theorem append (ha : IsAscii as) (hb : IsAscii bs) : IsAscii (as ++ bs) :=
  List.forall_mem_append.mpr ⟨ha, hb⟩

theorem upperText (h : IsAscii cs) : IsAscii (upperText cs) := by
  intro d hd
  obtain ⟨c, hc, hd⟩ := List.mem_flatMap.mp hd
  exact isAscii_upperChar c (h c hc) d hd

theorem lowerText (h : IsAscii cs) : IsAscii (lowerText cs) := by
  rw [lowerText_eq_flatMap h]
  intro d hd
  obtain ⟨c, hc, hd⟩ := List.mem_flatMap.mp hd
  exact isAscii_lowerChar c (h c hc) d hd

/-- The words of a text have only characters of the text. -/
theorem of_mem_words (h : IsAscii cs) {word : List Cluster} (hword : word ∈ words cs) :
    ∀ cluster ∈ word, IsAscii cluster := by
  intro cluster hcluster c hc
  refine h c ?_
  rw [← flatten_clusters cs]
  have hmem := (mem_of_wordList word (List.mem_filter.mp hword).1 cluster hcluster).1
  exact List.mem_flatten.mpr ⟨cluster, hmem, hc⟩

theorem flatten {texts : List (List Char)} (h : ∀ t ∈ texts, IsAscii t) :
    IsAscii texts.flatten := by
  intro c hc
  obtain ⟨t, ht, hc⟩ := List.mem_flatten.mp hc
  exact h t ht c hc

theorem lowered {word : List Cluster} (h : ∀ cluster ∈ word, IsAscii cluster) :
    IsAscii (lowered word) :=
  (flatten h).lowerText

theorem capitalized {word : List Cluster} (h : ∀ cluster ∈ word, IsAscii cluster) :
    IsAscii (capitalized word) := by
  cases word with
  | nil => exact List.forall_mem_nil _
  | cons cluster rest =>
    obtain ⟨hfirst, hrest⟩ := List.forall_mem_cons.mp h
    exact hfirst.upperText.append (flatten hrest).lowerText

end IsAscii

end Text

namespace Convention

open Text (IsAscii)

theorem isAscii_spaced {cs : List Char} (h : IsAscii cs) : IsAscii (spaced cs) := by
  intro c hc
  obtain ⟨d, hd, rfl⟩ := mem_spaced hc
  split
  · exact h d hd
  · decide

/-- The characters of joined words are those of the words in small letters and with capitals, and
the underscores of one convention, which writes no capitals. -/
theorem forall_mem_join {convention : Convention} {words : List (List Text.Cluster)}
    {p : Char → Prop} (hlowered : ∀ word ∈ words, ∀ c ∈ Text.lowered word, p c)
    (hcapitalized : convention ≠ .snake → ∀ word ∈ words, ∀ c ∈ Text.capitalized word, p c)
    (hmark : convention = .snake → p '_') : ∀ c ∈ convention.join words, p c := by
  have hcapitals {words : List (List Text.Cluster)}
      (h : ∀ word ∈ words, ∀ c ∈ Text.capitalized word, p c) :
      ∀ c ∈ words.flatMap Text.capitalized, p c := by
    intro c hc
    obtain ⟨word, hword, hc⟩ := List.mem_flatMap.mp hc
    exact h word hword c hc
  cases convention with
  | pascal => exact hcapitals (hcapitalized (by decide))
  | camel =>
    cases words with
    | nil => exact List.forall_mem_nil _
    | cons first rest =>
      have hrest := (List.forall_mem_cons.mp (hcapitalized (by decide))).2
      exact List.forall_mem_append.mpr ⟨hlowered first List.mem_cons_self, hcapitals hrest⟩
  | snake =>
    have hunderscore : ∀ c ∈ ['_'], p c := List.forall_mem_singleton.mpr (hmark rfl)
    exact Text.forall_mem_intercalate hunderscore (List.forall_mem_map.mpr hlowered)

theorem isAscii_join (convention : Convention) {words : List (List Text.Cluster)}
    (h : ∀ word ∈ words, ∀ cluster ∈ word, IsAscii cluster) : IsAscii (convention.join words) :=
  forall_mem_join (fun word hword => IsAscii.lowered (h word hword))
    (fun _ word hword => IsAscii.capitalized (h word hword)) fun _ => by decide

/-- A name of ASCII stays one under each convention. -/
theorem isAscii_apply (convention : Convention) {raw : String} (h : IsAscii raw.toList) :
    IsAscii (convention.apply raw).toList := by
  rw [apply, String.toList_ofList, applyList]
  split
  · exact h
  · exact convention.isAscii_join fun word hword => (isAscii_spaced h).of_mem_words hword

end Convention

/-! ### Identifiers -/

namespace Naming

open Text (IsAscii)

/-- In ASCII, what is written in names are characters of identifiers. -/
theorem Lettered.isIdentifierPart {cs : List Char} (h : Lettered cs) (hascii : IsAscii cs) :
    ∀ c ∈ cs, isIdentifierPart c = true := by
  have hforeign : ∀ c ∈ cs, Text.isForeign c = false := fun c hc => by
    refine Bool.eq_false_iff.mpr fun hf => ?_
    have := (Text.isForeign_bounds hf).1
    have := hascii c hc
    omega
  intro c hc
  rcases h.chars c hc with hchar | rfl
  · rwa [isNameChar, hforeign c hc, Bool.or_false] at hchar
  · obtain ⟨d, hd, hf⟩ := h.blank hc
    rw [hforeign d hd] at hf
    cases hf

/-- An identifier that is not the name of a built-in type. -/
def IsUsable (name : String) : Prop := isIdentifier name = true ∧ name ∉ reserved

instance (name : String) : Decidable (IsUsable name) :=
  inferInstanceAs (Decidable (_ ∧ _))

end Naming

/-- A registry derives identifiers from identifiers. -/
theorem Registry.isIdentifier_uniqueName {r : Registry} {base name : String}
    (hbase : Naming.isIdentifier base = true) (h : r.uniqueName base = .ok name) :
    Naming.isIdentifier name = true := by
  rcases uniqueName_cases h with rfl | ⟨n, rfl⟩
  · exact hbase
  · exact Naming.isIdentifier_append_repr hbase n

namespace NamingRules

open Naming (isIdentifier isIdentifierPart IsUsable)
open Text (IsAscii)

variable {rules : NamingRules}

/-- Some text is left of every raw name. -/
theorem stem_ne_empty (rules : NamingRules) (raw : String) : rules.stem raw ≠ "" := by
  have htype : ∀ convention : Convention, convention.apply "type" ≠ "" := by
    intro convention
    cases convention <;> decide +kernel
  unfold stem
  dsimp only
  split
  · exact htype rules.types
  · next hne => exact mt String.isEmpty_iff.mpr hne

/-- What is left of a raw name of ASCII has characters of identifiers only. -/
theorem isIdentifierPart_stem {raw : String} (hraw : IsAscii raw.toList) :
    ∀ c ∈ (rules.stem raw).toList, isIdentifierPart c = true := by
  have hcased {word : String} (hword : IsAscii word.toList) :
      ∀ c ∈ (rules.types.apply word).toList, isIdentifierPart c = true :=
    (rules.types.lettered_apply word).isIdentifierPart (rules.types.isAscii_apply hword)
  unfold stem
  dsimp only
  split
  · exact hcased (by decide)
  · exact hcased hraw

/-- Without a digit at its start, a text of characters of identifiers is an identifier. -/
theorem isIdentifier_guardDigit {name : String} (hne : name ≠ "")
    (hparts : ∀ c ∈ name.toList, isIdentifierPart c = true) :
    isIdentifier (guardDigit name) = true := by
  unfold guardDigit
  split
  · exact Naming.isIdentifier_append (by decide) hparts
  · next hdigit =>
    unfold Naming.isIdentifier
    cases hname : name.toList with
    | nil => exact absurd (String.toList_eq_nil_iff.mp hname) hne
    | cons c rest =>
      rw [hname] at hparts hdigit
      obtain ⟨hc, hrest⟩ := List.forall_mem_cons.mp hparts
      have hc' : Text.isAsciiDigit c = false := Bool.eq_false_iff.mpr hdigit
      rw [isIdentifierPart, Text.isAsciiAlphanumeric, hc', Bool.or_false] at hc
      rw [Naming.isIdentifierList, Bool.and_eq_true, List.all_eq_true]
      exact ⟨hc, hrest⟩

section Affixes

variable (hbefore : rules.before = "" ∨ isIdentifier rules.before = true)
  (hafter : ∀ c ∈ rules.after.toList, isIdentifierPart c = true)
  {raw : String} (hraw : IsAscii raw.toList)

include hbefore in
private theorem isIdentifierPart_before :
    ∀ c ∈ rules.before.toList, isIdentifierPart c = true := by
  rcases hbefore with hempty | hidentifier
  · rw [hempty]
    exact List.forall_mem_nil _
  · exact Naming.isIdentifierPart_of_mem hidentifier

include hbefore hafter hraw

/-- The declaration of a raw name of ASCII has an identifier. -/
theorem isIdentifier_typeName : isIdentifier (rules.typeName raw) = true := by
  have hparts : ∀ c ∈ (rules.before ++ rules.stem raw ++ rules.after).toList,
      isIdentifierPart c = true := by
    rw [String.toList_append, String.toList_append, List.forall_mem_append,
      List.forall_mem_append]
    exact ⟨⟨isIdentifierPart_before hbefore, isIdentifierPart_stem hraw⟩, hafter⟩
  have hne : rules.before ++ rules.stem raw ++ rules.after ≠ "" := by
    simp [rules.stem_ne_empty raw]
  have hname := isIdentifier_guardDigit hne hparts
  have hsuffix : ∀ c ∈ rules.reservedSuffix.toList, isIdentifierPart c = true := by
    unfold reservedSuffix
    split <;> decide
  unfold typeName
  dsimp only
  split
  · exact Naming.isIdentifier_append hname hsuffix
  · exact hname

/-- Under every convention, the declaration of a raw name of ASCII has an identifier that is not the
name of a built-in type. The same holds of the name that a registry derives from it, of the name of
a companion, and of the name that a registry derives from that one. -/
theorem usable_names :
    IsUsable (rules.typeName raw) ∧
      ∀ (r : Registry) (name : String), r.uniqueName (rules.typeName raw) = .ok name →
        IsUsable name ∧ IsUsable (name ++ "Values") ∧
          ∀ (s : Registry) (companion : String), s.uniqueName (name ++ "Values") = .ok companion →
            IsUsable companion := by
  have htype := isIdentifier_typeName hbefore hafter hraw
  refine ⟨⟨htype, rules.typeName_not_reserved raw⟩, fun r name hname => ?_⟩
  have hgiven : rules.Gives name := Registry.gives_uniqueName (.converted trivial) hname
  have hidentifier := Registry.isIdentifier_uniqueName htype hname
  have hvalues : isIdentifier (name ++ "Values") = true :=
    Naming.isIdentifier_append hidentifier (by decide)
  refine ⟨⟨hidentifier, hgiven.not_reserved⟩, ⟨hvalues, hgiven.companion.not_reserved⟩,
    fun s companion hcompanion => ⟨?_, ?_⟩⟩
  · exact Registry.isIdentifier_uniqueName hvalues hcompanion
  · exact (Registry.gives_uniqueName hgiven.companion hcompanion).not_reserved

end Affixes

/-- Rules under which the start of a word and the suffix make the name of a built-in type. -/
def endingRules : NamingRules := { types := .snake, after := "er" }

/-- A registry in which the first names that would be derived are taken. -/
def crowdedNames : Registry :=
  { taken := ["number_type", "number_type2", "number_type3Values"] }

theorem usable_names_endingRules :
    Naming.IsUsable (endingRules.typeName "--NUMB!") ∧ Naming.IsUsable "number_type3" ∧
      Naming.IsUsable "number_type3Values" ∧ Naming.IsUsable "number_type3Values2" := by
  have hname : crowdedNames.uniqueName (endingRules.typeName "--NUMB!") = .ok "number_type3" := by
    decide +kernel
  have hcompanion :
      crowdedNames.uniqueName ("number_type3" ++ "Values") = .ok "number_type3Values2" := by
    decide +kernel
  have hbefore : endingRules.before = "" ∨ isIdentifier endingRules.before = true := .inl rfl
  have hraw : IsAscii "--NUMB!".toList := by decide
  obtain ⟨htype, hderived⟩ := usable_names hbefore (by decide) hraw
  obtain ⟨hunique, hvalues, hcompanions⟩ := hderived crowdedNames "number_type3" hname
  exact ⟨htype, hunique, hvalues, hcompanions crowdedNames "number_type3Values2" hcompanion⟩

end NamingRules

end OpenApiTs
