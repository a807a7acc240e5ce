import OpenApiTs.Naming.Rules
import OpenApiTs.Proofs.Registry

/-!
# Names that a run gives out

A name that a run gives out is a raw name under the naming rules, the name of the companion of an
enumeration, or one of these with a number after it. Companions and numbers never make the name of a
built-in type, so such a name can only come from a raw name. Under the default rules, no name starts
like the words of type texts do, with a small letter or with a digit.

## Main definitions

* `NamingRules.GivesFor`, `NamingRules.Gives`: the names that can be given out under naming rules
  for the raw names of a class, and for all raw names.
* `Naming.written`: the names of built-in types that are written although they are not reserved.
* `Convention.isStart`, `Convention.isPart`: the characters of names that read as a convention.
* `Naming.IsLarge`: names that start unlike the words of type texts.

## Main results

* `NamingRules.GivesFor.exists_raw`: the name of a built-in type comes from a raw name.
* `NamingRules.GivesFor.not_reserved`: no reserved name is given out.
* `Convention.conforms_iff`: when a name reads as a convention, by its characters.
* `NamingRules.GivesFor.isLarge`: how names start under the default rules.
-/

namespace OpenApiTs

/-- The names that are given out under naming rules for the raw names of a class. -/
inductive NamingRules.GivesFor (rules : NamingRules) (Raw : String → Prop) : String → Prop
  | converted {raw : String} (h : Raw raw) : GivesFor rules Raw (rules.typeName raw)
  | companion {name} (h : GivesFor rules Raw name) : GivesFor rules Raw (name ++ "Values")
  | numbered {base} (n : Nat) (h : GivesFor rules Raw base) :
      GivesFor rules Raw (Registry.numbered base n)

/-- The names that are given out under naming rules for whatever raw names. -/
abbrev NamingRules.Gives (rules : NamingRules) : String → Prop := rules.GivesFor fun _ => True

/-- The free name for a base is the base, or has a number after it. -/
theorem Registry.uniqueName_cases {r : Registry} {base name : String}
    (h : r.uniqueName base = .ok name) : name = base ∨ ∃ n, name = numbered base n := by
  rw [uniqueName] at h
  split at h
  · split at h
    · next hfree =>
      cases h
      obtain ⟨-, m, -, -, hm, -⟩ := firstFree?_eq_some hfree
      exact .inr ⟨m, hm⟩
    · cases h
  · cases h
    exact .inl rfl

/-- The free name for a base is given out if the base is. -/
theorem Registry.gives_uniqueName {rules : NamingRules} {Raw : String → Prop} {r : Registry}
    {base name : String} (hbase : rules.GivesFor Raw base) (h : r.uniqueName base = .ok name) :
    rules.GivesFor Raw name := by
  rcases uniqueName_cases h with rfl | ⟨n, rfl⟩
  · exact hbase
  · exact .numbered n hbase

/-! ### Names of built-in types -/

/-- The names of built-in types that type texts are written with although they are not reserved. -/
def Naming.written : List String := ["Record", "Blob"]

namespace NamingRules

variable {rules : NamingRules} {name : String}

/-- The name of a built-in type is given out only for a raw name that converts to it: it does not
end like the name of a companion, and has no digit. -/
theorem GivesFor.exists_raw {Raw : String → Prop} (h : rules.GivesFor Raw name)
    (hname : name ∈ Naming.reserved ++ Naming.written) :
    ∃ raw, Raw raw ∧ rules.typeName raw = name := by
  have hends : ∀ word ∈ Naming.reserved ++ Naming.written,
      "Values".toList.isSuffixOf word.toList = false := by decide
  have hdigits : ∀ word ∈ Naming.reserved ++ Naming.written,
      word.toList.any Char.isDigit = false := by decide
  cases h with
  | @converted raw hraw => exact ⟨raw, hraw, rfl⟩
  | @companion base =>
    have hsuffix : "Values".toList.isSuffixOf (base ++ "Values").toList = true := by
      rw [List.isSuffixOf_iff_suffix, String.toList_append]
      exact List.suffix_append _ _
    rw [hends _ hname] at hsuffix
    cases hsuffix
  | @numbered base n =>
    obtain ⟨c, rest, hrepr⟩ := List.exists_cons_of_ne_nil (Nat.toDigits_ne_nil (n := n) (b := 10))
    have hc : c ∈ Nat.toDigits 10 n := hrepr ▸ List.mem_cons_self
    have hdigit : c.isDigit = true := Nat.isDigit_of_mem_toDigits (by decide) (by decide) hc
    have hmem : c ∈ (Registry.numbered base n).toList := by
      rw [Registry.numbered, String.toList_append, Nat.toList_repr]
      exact List.mem_append_right _ hc
    have hany := List.any_eq_true.mpr ⟨c, hmem, hdigit⟩
    rw [hdigits _ hname] at hany
    cases hany

/-- No reserved name is given out. -/
theorem GivesFor.not_reserved {Raw : String → Prop} (h : rules.GivesFor Raw name) :
    name ∉ Naming.reserved := by
  intro hname
  obtain ⟨raw, -, rfl⟩ := h.exists_raw (List.mem_append_left _ hname)
  exact rules.typeName_not_reserved raw hname

end NamingRules

/-! ### How names start -/

namespace Text

/-- A text starts with a character, which is no small letter of ASCII. -/
def StartsLarge (cs : List Char) : Prop := ∃ c rest, cs = c :: rest ∧ isAsciiLower c = false

theorem StartsLarge.append {cs : List Char} (h : StartsLarge cs) (ds : List Char) :
    StartsLarge (cs ++ ds) := by
  obtain ⟨c, rest, rfl, hc⟩ := h
  exact ⟨c, rest ++ ds, rfl, hc⟩

private theorem isAsciiLower_eq_false_of_toNat {c : Char} (h : c.toNat < 97 ∨ 122 < c.toNat) :
    isAsciiLower c = false := by
  rw [Bool.eq_false_iff, ne_eq, isAsciiLower_iff]
  omega

private theorem isAsciiLower_ofNat {n : Nat} (h : n < 97 ∨ 122 < n) :
    isAsciiLower (Char.ofNat n) = false := by
  by_cases hvalid : n.isValidChar
  · rw [Char.ofNat, dif_pos hvalid]
    exact isAsciiLower_eq_false_of_toNat h
  · rw [Char.ofNat, dif_neg hvalid]
    rfl

/-- No case map beyond ASCII leads to a small letter of ASCII at the start. -/
private theorem startsLarge_caseImage {runs : List CaseRun} {expansions : List (Nat × List Nat)}
    (hruns : ∀ r ∈ runs, 122 < (r.first : Int) + r.offset ∨ (r.last : Int) + r.offset < 97)
    (hexpansions : ∀ e ∈ expansions, ∃ n ∈ e.2.head?, n < 97 ∨ 122 < n) {c : Char}
    (hc : 128 ≤ c.toNat) : StartsLarge (caseImage runs expansions c) := by
  unfold caseImage
  split
  · next image himage =>
    have hmem : ∃ e ∈ expansions, e.2 = image := by
      obtain ⟨before, after, rfl, -⟩ := List.lookup_eq_some_iff.mp himage
      exact ⟨_, List.mem_append_right _ List.mem_cons_self, rfl⟩
    obtain ⟨e, he, rfl⟩ := hmem
    obtain ⟨n, hn, hsmall⟩ := hexpansions e he
    obtain ⟨rest, hrest⟩ := List.head?_eq_some_iff.mp hn
    exact ⟨Char.ofNat n, rest.map Char.ofNat, by rw [hrest]; rfl, isAsciiLower_ofNat hsmall⟩
  · split
    · next image himage =>
      obtain ⟨r, hr, rfl⟩ := Option.map_eq_some_iff.mp himage
      have hin := List.find?_some hr
      simp only [Bool.and_eq_true, decide_eq_true_eq] at hin
      refine ⟨_, [], rfl, isAsciiLower_ofNat ?_⟩
      have := hruns r (List.mem_of_find?_eq_some hr)
      omega
    · exact ⟨c, [], rfl, isAsciiLower_eq_false_of_toNat (.inr (by omega))⟩

/-- The capital form of a character starts with no small letter of ASCII. -/
theorem startsLarge_upperChar (c : Char) : StartsLarge (upperChar c) := by
  unfold upperChar
  split
  · split
    · next hlower =>
      have hle : c.toNat ≤ 122 := (isAsciiLower_iff.mp hlower).2
      exact ⟨_, [], rfl, isAsciiLower_ofNat (by omega)⟩
    · next hlower => exact ⟨c, [], rfl, Bool.eq_false_iff.mpr hlower⟩
  · next hbeyond =>
    exact startsLarge_caseImage (by decide +kernel) (by decide +kernel) (by omega)

theorem clusters_ne_nil {cs : List Char} : ∀ cluster ∈ clusters cs, cluster ≠ [] := by
  induction cs with
  | nil => nofun
  | cons c cs ih =>
    unfold clusters
    split
    · next first others heq =>
      rw [heq] at ih
      split
      · exact List.forall_mem_cons.mpr
          ⟨List.cons_ne_nil _ _, (List.forall_mem_cons.mp ih).2⟩
      · exact List.forall_mem_cons.mpr ⟨List.cons_ne_nil _ _, ih⟩
    · exact List.forall_mem_cons.mpr ⟨List.cons_ne_nil _ _, ih⟩

/-- The words of clusters are made of these clusters, without the separators. -/
theorem mem_of_wordList {cs : List Cluster} :
    ∀ word ∈ (wordList cs).1 :: (wordList cs).2, ∀ c ∈ word, c ∈ cs ∧ c.isSeparator = false := by
  induction cs with
  | nil => exact List.forall_mem_singleton.mpr nofun
  | cons c rest ih =>
    have hlater : ∀ word ∈ (wordList rest).1 :: (wordList rest).2,
        ∀ d ∈ word, d ∈ c :: rest ∧ d.isSeparator = false := fun word hword d hd =>
      ⟨List.mem_cons_of_mem c (ih word hword d hd).1, (ih word hword d hd).2⟩
    obtain ⟨hnext, hothers⟩ := List.forall_mem_cons.mp hlater
    unfold wordList
    dsimp only
    split
    · exact List.forall_mem_cons.mpr ⟨nofun, hlater⟩
    · next hseparator =>
      have hfirst : c ∈ c :: rest ∧ c.isSeparator = false :=
        ⟨List.mem_cons_self, Bool.eq_false_iff.mpr hseparator⟩
      split
      · exact List.forall_mem_cons.mpr ⟨List.forall_mem_singleton.mpr hfirst, hothers⟩
      · split
        · exact List.forall_mem_cons.mpr ⟨List.forall_mem_singleton.mpr hfirst, hlater⟩
        · exact List.forall_mem_cons.mpr ⟨List.forall_mem_cons.mpr ⟨hfirst, hnext⟩, hothers⟩

theorem startsLarge_capitalized {cs : List Char} {word : List Cluster} (h : word ∈ words cs) :
    StartsLarge (capitalized word) := by
  obtain ⟨hword, hne⟩ := List.mem_filter.mp h
  cases word with
  | nil => cases hne
  | cons cluster rest =>
    have hcluster : cluster ≠ [] :=
      clusters_ne_nil cluster (mem_of_wordList _ hword cluster List.mem_cons_self).1
    obtain ⟨c, more, rfl⟩ := List.exists_cons_of_ne_nil hcluster
    rw [capitalized, upperText, List.flatMap_cons, List.append_assoc]
    exact (startsLarge_upperChar c).append _

end Text

/-! ### Names that read as a convention -/

/-- A small letter of ASCII or a digit. -/
def Text.isSmall (c : Char) : Bool := isAsciiLower c || isAsciiDigit c

theorem Text.isAsciiAlphanumeric_of_isSmall {c : Char} (h : isSmall c = true) :
    isAsciiAlphanumeric c = true := by
  rw [isSmall, Bool.or_eq_true] at h
  rw [isAsciiAlphanumeric_iff, or_assoc]
  exact .inr h

namespace Convention

/-- A character that a name can start with under a convention. -/
def isStart : Convention → Char → Bool
  | .pascal => Text.isAsciiUpper
  | .camel | .snake => Text.isAsciiLower

/-- A character that a name can have under a convention. -/
def isPart : Convention → Char → Bool
  | .pascal | .camel => Text.isAsciiAlphanumeric
  | .snake => fun c => Text.isSmall c || c == '_'

theorem conforms_iff {convention : Convention} {cs : List Char} :
    convention.conforms cs = true ↔
      cs.head?.any convention.isStart = true ∧ ∀ c ∈ cs, convention.isPart c = true := by
  cases cs with
  | nil => cases convention <;> simp [conforms]
  | cons c cs =>
    rw [← List.all_eq_true, ← Bool.and_eq_true]
    cases convention <;> rfl

end Convention

/-- A name with capitals is empty, or starts with no small letter of ASCII. -/
theorem Convention.startsLarge_pascal (raw : String) :
    (pascal.apply raw).toList = [] ∨ Text.StartsLarge (pascal.apply raw).toList := by
  rw [apply, String.toList_ofList, applyList]
  split
  · next hconforms =>
    cases hraw : raw.toList with
    | nil => exact .inl rfl
    | cons c rest =>
      rw [hraw, conforms_iff] at hconforms
      have hle : c.toNat ≤ 90 := (Text.isAsciiUpper_iff.mp hconforms.1).2
      exact .inr ⟨c, rest, rfl, Text.isAsciiLower_eq_false_of_toNat (.inl (by omega))⟩
  · rw [join]
    cases hwords : Text.words (spaced raw.toList) with
    | nil => exact .inl rfl
    | cons word rest =>
      have hword : word ∈ Text.words (spaced raw.toList) := hwords ▸ List.mem_cons_self
      rw [List.flatMap_cons]
      exact .inr ((Text.startsLarge_capitalized hword).append _)

/-- A name that starts neither with a small letter of ASCII nor with a digit. -/
def Naming.IsLarge (name : String) : Prop :=
  ∃ c rest, name.toList = c :: rest ∧ Text.isAsciiLower c = false ∧ Text.isAsciiDigit c = false

theorem Naming.IsLarge.append {name : String} (h : IsLarge name) (tail : String) :
    IsLarge (name ++ tail) := by
  obtain ⟨c, rest, hname, hlower, hdigit⟩ := h
  exact ⟨c, rest ++ tail.toList, by rw [String.toList_append, hname, List.cons_append], hlower,
    hdigit⟩

namespace NamingRules

theorem isLarge_typeName (raw : String) : Naming.IsLarge (({} : NamingRules).typeName raw) := by
  have hstem : Text.StartsLarge (({} : NamingRules).stem raw).toList := by
    unfold stem
    dsimp only
    split
    · exact ⟨'T', "ype".toList, by decide +kernel, by decide⟩
    · next hne =>
      refine (Convention.startsLarge_pascal raw).resolve_left fun hnil => hne ?_
      rw [String.isEmpty_iff, ← String.toList_eq_nil_iff]
      exact hnil
  have hname : Naming.IsLarge (guardDigit ("" ++ ({} : NamingRules).stem raw ++ "")) := by
    obtain ⟨c, rest, htext, hlower⟩ := hstem
    rw [String.empty_append, String.append_empty, guardDigit, htext]
    split
    · exact ⟨'_', c :: rest, by rw [String.toList_append, htext]; rfl, by decide⟩
    · next hdigit => exact ⟨c, rest, htext, hlower, Bool.eq_false_iff.mpr hdigit⟩
  unfold typeName
  dsimp only
  split
  · exact hname.append _
  · exact hname

/-- Under the default rules, a name that is given out starts like no word of type texts. -/
theorem GivesFor.isLarge {Raw : String → Prop} {name : String}
    (h : ({} : NamingRules).GivesFor Raw name) : Naming.IsLarge name := by
  induction h with
  | converted _ => exact isLarge_typeName _
  | companion _ ih => exact ih.append _
  | numbered n _ ih => exact ih.append _

end NamingRules

end OpenApiTs
