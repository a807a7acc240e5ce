import OpenApiTs.Proofs.Alternatives
import OpenApiTs.Proofs.Names
import OpenApiTs.Proofs.Printing

/-!
# Texts of names

A name is written with the characters of identifiers and with letters beyond ASCII: the case maps
lead from letters to letters. It can also have a blank, though not by itself. The words of a raw
name are cut at its blanks, except where a letter that extends the character before it, or is
prepended to the one after it, holds the blank in a cluster; such a letter stays beyond ASCII under
the case maps. So a name is one word for the scanner, and without its blanks it is still not the
word for null.

## Main definitions

* `Text.foreignRanges`, `Text.isForeign`: letters beyond ASCII, and other characters there that are
  not blank.
* `Text.Glued`: texts of letters, digits and blanks of which none stands by itself.
* `Naming.Lettered`: the same for what is written in a name.

## Main results

* `Text.Glued.upperText`, `Text.Glued.lowerText`: the case maps of glued texts.
* `Naming.lettered_typeName`, `NamingRules.Gives.lettered`: the names that are given out.
* `NamingRules.Gives.solid`: such a name is a solid text.
-/

namespace OpenApiTs

/-! ### Characters beyond ASCII -/

namespace Text

/-- The characters beyond ASCII and its controls that are not blank. -/
def foreignRanges : List (Nat × Nat) := [
    (0xA1, 0x167F), (0x1681, 0x1FFF), (0x200B, 0x2027), (0x202A, 0x202E), (0x2030, 0x205E),
    (0x2060, 0x2FFF), (0x3001, 0xD7FF), (0xE000, 0x10FFFF)]

/-- A character beyond ASCII that is not blank. -/
def isForeign (c : Char) : Bool := inRanges foreignRanges c.toNat

/-- The letters of ASCII and the characters beyond it that are not blank. -/
def letterRanges : List (Nat × Nat) := (65, 90) :: (97, 122) :: foreignRanges

/-- Letters that stay with the character before or after them. -/
def gluingRanges : List (Nat × Nat) := extendingRanges ++ prependedRanges

/-- A letter that stays with the character before or after it. -/
def isGluing (c : Char) : Bool := inRanges gluingRanges c.toNat

variable {ranges : List (Nat × Nat)} {n : Nat}

theorem inRanges_iff : inRanges ranges n = true ↔ ∃ f ∈ ranges, f.1 ≤ n ∧ n ≤ f.2 := by
  simp only [inRanges, List.any_eq_true, Bool.and_eq_true, decide_eq_true_eq]

/-- Characters of ASCII and blanks are not foreign. -/
theorem isForeign_bounds {c : Char} (h : isForeign c = true) :
    128 ≤ c.toNat ∧ isBlank c = false := by
  obtain ⟨f, hf, hlow, hhigh⟩ := inRanges_iff.mp h
  have hbound : ∀ f ∈ foreignRanges, 128 ≤ f.1 := by decide
  refine ⟨Nat.le_trans (hbound f hf) hlow, ?_⟩
  rw [isBlank, Bool.eq_false_iff]
  simp only [ne_eq, Bool.or_eq_true, Bool.and_eq_true, decide_eq_true_eq, beq_iff_eq]
  simp only [foreignRanges, List.mem_cons, List.not_mem_nil, or_false] at hf
  rcases hf with rfl | rfl | rfl | rfl | rfl | rfl | rfl | rfl <;> dsimp only at hlow hhigh <;>
    omega

theorem isForeign_of_isAlphanumeric {c : Char} (h : isAlphanumeric c = true)
    (hc : 128 ≤ c.toNat) : isForeign c = true := by
  have hwithin : ∀ r ∈ alphanumericRanges, ∃ f ∈ foreignRanges, f.1 ≤ r.1 ∧ r.2 ≤ f.2 := by
    decide +kernel
  rw [isAlphanumeric, if_neg (by omega)] at h
  obtain ⟨r, hr, hlow, hhigh⟩ := inRanges_iff.mp h
  obtain ⟨f, hf, hflow, hfhigh⟩ := hwithin r hr
  exact inRanges_iff.mpr ⟨f, hf, by omega, by omega⟩

/-- The characters in the ranges of letters are valid code points. -/
theorem toNat_ofNat (h : inRanges letterRanges n = true) :
    (Char.ofNat n).toNat = n := by
  have hranges : ∀ f ∈ letterRanges, f.2 < 0xD800 ∨ 0xDFFF < f.1 ∧ f.2 < 0x110000 := by decide
  obtain ⟨f, hf, hlow, hhigh⟩ := inRanges_iff.mp h
  have hvalid : n.isValidChar := by
    rcases hranges f hf with hlt | ⟨hgt, hlt⟩
    · exact .inl (by omega)
    · exact .inr ⟨by omega, by omega⟩
  rw [Char.ofNat, dif_pos hvalid]
  rfl

/-- Letters of ASCII are no gluing letters. -/
theorem isGluing_eq_false {c : Char} (hc : c.toNat < 128) : isGluing c = false := by
  have hbound : ∀ g ∈ gluingRanges, 128 ≤ g.1 := by decide +kernel
  refine Bool.eq_false_iff.mpr fun h => ?_
  obtain ⟨g, hg, hlow, -⟩ := inRanges_iff.mp h
  have := hbound g hg
  omega

end Text

/-! ### What is written for a character -/

namespace Naming

open Text

/-- A character that is written in names. -/
def isNameChar (c : Char) : Bool := isIdentifierPart c || isForeign c

/-- What is written for a character: characters of names, a foreign one for a gluing letter, and a
blank for a blank only. -/
structure Image (c : Char) (image : List Char) : Prop where
  chars : ∀ d ∈ image, isNameChar d = true ∨ d = ' ' ∧ c = ' '
  foreign : isGluing c = true → ∃ d ∈ image, isForeign d = true

theorem isNameChar_of_isAsciiAlphanumeric {c : Char} (h : isAsciiAlphanumeric c = true) :
    isNameChar c = true := by
  rw [isNameChar, isIdentifierPart, h]
  rfl

theorem isForeign_ofNat {n : Nat} (h : inRanges foreignRanges n = true) :
    isForeign (Char.ofNat n) = true := by
  obtain ⟨f, hf, hbounds⟩ := inRanges_iff.mp h
  have hletter : f ∈ letterRanges := List.mem_cons_of_mem _ (List.mem_cons_of_mem _ hf)
  rw [isForeign, toNat_ofNat (inRanges_iff.mpr ⟨f, hletter, hbounds⟩)]
  exact h

theorem isNameChar_ofNat {n : Nat} (h : inRanges letterRanges n = true) :
    isNameChar (Char.ofNat n) = true := by
  have hn := toNat_ofNat h
  obtain ⟨f, hf, hlow, hhigh⟩ := inRanges_iff.mp h
  have hletter (hn' : 65 ≤ n ∧ n ≤ 90 ∨ 97 ≤ n ∧ n ≤ 122) :
      isAsciiAlphanumeric (Char.ofNat n) = true := by
    rw [← hn] at hn'
    rw [isAsciiAlphanumeric_iff, isAsciiUpper_iff, isAsciiLower_iff]
    exact .inl hn'
  rcases List.mem_cons.mp hf with rfl | hf
  · exact isNameChar_of_isAsciiAlphanumeric (hletter (.inl ⟨hlow, hhigh⟩))
  rcases List.mem_cons.mp hf with rfl | hf
  · exact isNameChar_of_isAsciiAlphanumeric (hletter (.inr ⟨hlow, hhigh⟩))
  · rw [isNameChar, isForeign_ofNat (inRanges_iff.mpr ⟨f, hf, hlow, hhigh⟩), Bool.or_true]

/-- A character of names that stands for itself. -/
theorem Image.self {c : Char} (hchar : isNameChar c = true ∨ c = ' ')
    (hforeign : isGluing c = true → isForeign c = true) : Image c [c] where
  chars := List.forall_mem_singleton.mpr (hchar.imp_right fun hc => ⟨hc, hc⟩)
  foreign h := ⟨c, List.mem_singleton_self c, hforeign h⟩

/-! ### Case maps -/

/-- A case map beyond ASCII leads to letters, and from gluing letters to foreign ones. -/
structure KeepsLetters (runs : List CaseRun) (expansions : List (Nat × List Nat)) : Prop where
  letters_of_run : ∀ r ∈ runs, ∃ f ∈ letterRanges,
    (f.1 : Int) ≤ r.first + r.offset ∧ r.last + r.offset ≤ (f.2 : Int)
  letters_of_expansion : ∀ e ∈ expansions, ∀ n ∈ e.2, inRanges letterRanges n = true
  foreign_of_run : ∀ r ∈ runs,
    (∃ f ∈ foreignRanges, (f.1 : Int) ≤ r.first + r.offset ∧ r.last + r.offset ≤ (f.2 : Int)) ∨
      ∀ g ∈ gluingRanges, r.last < g.1 ∨ g.2 < r.first
  foreign_of_expansion : ∀ e ∈ expansions,
    (∃ n ∈ e.2, inRanges foreignRanges n = true) ∨ inRanges gluingRanges e.1 = false

theorem keepsLetters_upper : KeepsLetters upperRuns upperExpansions where
  letters_of_run := by decide +kernel
  letters_of_expansion := by decide +kernel
  foreign_of_run := by decide +kernel
  foreign_of_expansion := by decide +kernel

theorem keepsLetters_lower : KeepsLetters lowerRuns lowerExpansions where
  letters_of_run := by decide +kernel
  letters_of_expansion := by decide +kernel
  foreign_of_run := by decide +kernel
  foreign_of_expansion := by decide +kernel

/-- The image of a run lies between the images of its ends. -/
private theorem inRanges_image {ranges : List (Nat × Nat)} {r : CaseRun} {n : Nat}
    (hr : ∃ f ∈ ranges, (f.1 : Int) ≤ r.first + r.offset ∧ r.last + r.offset ≤ (f.2 : Int))
    (hlow : r.first ≤ n) (hhigh : n ≤ r.last) :
    inRanges ranges ((n : Int) + r.offset).toNat = true := by
  obtain ⟨f, hf, hflow, hfhigh⟩ := hr
  exact inRanges_iff.mpr ⟨f, hf, by omega, by omega⟩

theorem KeepsLetters.image {runs : List CaseRun} {expansions : List (Nat × List Nat)}
    (h : KeepsLetters runs expansions) {c : Char} (hc : isForeign c = true) :
    Image c (caseImage runs expansions c) := by
  unfold caseImage
  split
  · next image himage =>
    obtain ⟨before, after, hmem, -⟩ := List.lookup_eq_some_iff.mp himage
    have hmem : (c.toNat, image) ∈ expansions :=
      hmem ▸ List.mem_append_right before List.mem_cons_self
    refine ⟨List.forall_mem_map.mpr fun n hn => .inl ?_, fun hgluing => ?_⟩
    · exact isNameChar_ofNat (h.letters_of_expansion _ hmem n hn)
    · rcases h.foreign_of_expansion _ hmem with ⟨n, hn, hforeign⟩ | hnot
      · exact ⟨_, List.mem_map_of_mem hn, isForeign_ofNat hforeign⟩
      · exact absurd hgluing (Bool.eq_false_iff.mp hnot)
  · split
    · next image himage =>
      obtain ⟨r, hr, rfl⟩ := Option.map_eq_some_iff.mp himage
      have hmem := List.mem_of_find?_eq_some hr
      have hin := List.find?_some hr
      simp only [Bool.and_eq_true, decide_eq_true_eq] at hin
      obtain ⟨⟨hlow, hhigh⟩, -⟩ := hin
      refine ⟨List.forall_mem_singleton.mpr (.inl ?_), fun hgluing => ?_⟩
      · exact isNameChar_ofNat (inRanges_image (h.letters_of_run r hmem) hlow hhigh)
      · refine ⟨_, List.mem_singleton_self _, isForeign_ofNat ?_⟩
        refine inRanges_image ((h.foreign_of_run r hmem).resolve_right fun hnot => ?_) hlow hhigh
        obtain ⟨g, hg, hglow, hghigh⟩ := inRanges_iff.mp hgluing
        have := hnot g hg
        omega
    · refine .self (.inl ?_) fun _ => hc
      rw [isNameChar, hc, Bool.or_true]

/-- What is written for a character of ASCII. -/
private theorem image_ascii {c d : Char} (hc : c.toNat < 128)
    (hd : isNameChar d = true ∨ d = ' ' ∧ c = ' ') : Image c [d] where
  chars := List.forall_mem_singleton.mpr hd
  foreign h := absurd h (Bool.eq_false_iff.mp (isGluing_eq_false hc))

private theorem isNameChar_ascii {c : Char} (hc : c.toNat < 128)
    (h : isAlphanumeric c = true ∨ c = ' ') : isNameChar c = true ∨ c = ' ' ∧ c = ' ' := by
  rw [isAlphanumeric, if_pos hc] at h
  exact h.imp isNameChar_of_isAsciiAlphanumeric fun h => ⟨h, h⟩

private theorem isForeign_of_not_ascii {c : Char} (hc : ¬c.toNat < 128)
    (h : isAlphanumeric c = true ∨ c = ' ') : isForeign c = true := by
  rcases h with h | rfl
  · exact isForeign_of_isAlphanumeric h (by omega)
  · exact absurd (by decide) hc

theorem image_upperChar {c : Char} (h : isAlphanumeric c = true ∨ c = ' ') :
    Image c (upperChar c) := by
  unfold upperChar
  split
  · next hc =>
    split
    · next hlower =>
      obtain ⟨hlow, hhigh⟩ := isAsciiLower_iff.mp hlower
      refine image_ascii hc (.inl (isNameChar_ofNat (inRanges_iff.mpr ⟨(65, 90), ?_, ?_⟩)))
      · decide
      · dsimp only
        omega
    · exact image_ascii hc (isNameChar_ascii hc h)
  · next hc => exact keepsLetters_upper.image (isForeign_of_not_ascii hc h)

theorem image_lowerChar {c : Char} (h : isAlphanumeric c = true ∨ c = ' ') :
    Image c (lowerChar c) := by
  unfold lowerChar
  split
  · next hc =>
    split
    · next hupper =>
      obtain ⟨hlow, hhigh⟩ := isAsciiUpper_iff.mp hupper
      refine image_ascii hc (.inl (isNameChar_ofNat (inRanges_iff.mpr ⟨(97, 122), ?_, ?_⟩)))
      · decide
      · dsimp only
        omega
    · exact image_ascii hc (isNameChar_ascii hc h)
  · next hc => exact keepsLetters_lower.image (isForeign_of_not_ascii hc h)

/-! ### Texts written for texts -/

/-- A text of letters, digits and blanks, with a gluing letter if there is a blank. -/
structure Glued (cs : List Char) : Prop where
  chars : ∀ c ∈ cs, isAlphanumeric c = true ∨ c = ' '
  blank : ' ' ∈ cs → ∃ c ∈ cs, isGluing c = true

/-- A text of characters of names and blanks, with a foreign character if there is a blank. -/
structure Lettered (cs : List Char) : Prop where
  chars : ∀ c ∈ cs, isNameChar c = true ∨ c = ' '
  blank : ' ' ∈ cs → ∃ c ∈ cs, isForeign c = true

namespace Lettered

variable {as bs cs : List Char}

theorem of_forall (h : ∀ c ∈ cs, isNameChar c = true) : Lettered cs where
  chars c hc := .inl (h c hc)
  blank hblank := absurd (h ' ' hblank) (by decide)

theorem append (ha : Lettered as) (hb : Lettered bs) : Lettered (as ++ bs) where
  chars := List.forall_mem_append.mpr ⟨ha.chars, hb.chars⟩
  blank h := by
    rcases List.mem_append.mp h with h | h
    · exact (ha.blank h).imp fun c hc => ⟨List.mem_append_left bs hc.1, hc.2⟩
    · exact (hb.blank h).imp fun c hc => ⟨List.mem_append_right as hc.1, hc.2⟩

theorem flatten {texts : List (List Char)} (h : ∀ t ∈ texts, Lettered t) :
    Lettered texts.flatten := by
  induction texts with
  | nil => exact of_forall nofun
  | cons t rest ih =>
    obtain ⟨ht, hrest⟩ := List.forall_mem_cons.mp h
    exact ht.append (ih hrest)

theorem intercalate {separator : List Char} (hs : Lettered separator) {texts : List (List Char)}
    (h : ∀ t ∈ texts, Lettered t) : Lettered (separator.intercalate texts) := by
  induction texts with
  | nil => exact of_forall nofun
  | cons t rest ih =>
    obtain ⟨ht, hrest⟩ := List.forall_mem_cons.mp h
    cases rest with
    | nil =>
      rw [List.intercalate_singleton]
      exact ht
    | cons u rest =>
      rw [List.intercalate_cons_cons]
      exact (ht.append hs).append (ih hrest)

/-- What is written for the characters of a glued text. -/
theorem of_images {images : List (List Char)} (h : List.Forall₂ Image cs images)
    (hcs : ' ' ∈ cs → ∃ c ∈ cs, isGluing c = true) : Lettered images.flatten := by
  have hparts : (∀ d ∈ images.flatten, isNameChar d = true ∨ d = ' ' ∧ ' ' ∈ cs) ∧
      ∀ c ∈ cs, isGluing c = true → ∃ d ∈ images.flatten, isForeign d = true := by
    clear hcs
    induction h with
    | nil => exact ⟨nofun, nofun⟩
    | @cons c image cs images h _ ih =>
      obtain ⟨ihchars, ihforeign⟩ := ih
      constructor
      · rw [List.flatten_cons, List.forall_mem_append]
        exact ⟨fun d hd => (h.chars d hd).imp_right fun ⟨hd, hc⟩ => ⟨hd, hc ▸ List.mem_cons_self⟩,
          fun d hd => (ihchars d hd).imp_right fun ⟨hd, hc⟩ => ⟨hd, List.mem_cons_of_mem c hc⟩⟩
      · rw [List.flatten_cons, List.forall_mem_cons]
        refine ⟨fun hc => (h.foreign hc).imp fun d hd => ⟨List.mem_append_left _ hd.1, hd.2⟩,
          fun c hc hgluing => (ihforeign c hc hgluing).imp fun d hd =>
            ⟨List.mem_append_right _ hd.1, hd.2⟩⟩
  refine ⟨fun d hd => (hparts.1 d hd).imp_right And.left, fun hblank => ?_⟩
  have hmem : ' ' ∈ cs :=
    ((hparts.1 ' ' hblank).resolve_left (by decide)).2
  obtain ⟨c, hc, hgluing⟩ := hcs hmem
  exact hparts.2 c hc hgluing

end Lettered

namespace Glued

variable {cs : List Char}

theorem flatten {texts : List (List Char)} (h : ∀ t ∈ texts, Glued t) : Glued texts.flatten where
  chars c hc := by
    obtain ⟨t, ht, hc⟩ := List.mem_flatten.mp hc
    exact (h t ht).chars c hc
  blank hblank := by
    obtain ⟨t, ht, hmem⟩ := List.mem_flatten.mp hblank
    obtain ⟨c, hc, hgluing⟩ := (h t ht).blank hmem
    exact ⟨c, List.mem_flatten.mpr ⟨t, ht, hc⟩, hgluing⟩

theorem upperText (h : Glued cs) : Lettered (Text.upperText cs) := by
  rw [Text.upperText, List.flatMap_def]
  refine .of_images (List.forall₂_map_right_iff.mpr (List.forall₂_same.mpr fun c hc => ?_)) h.blank
  exact image_upperChar (h.chars c hc)

/-- The small forms are written character by character; only the sigma looks at its neighbours. -/
private theorem images_lowerList :
    (cs before : List Char) → (∀ c ∈ cs, isAlphanumeric c = true ∨ c = ' ') →
      ∃ images, List.Forall₂ Image cs images ∧ lowerList before cs = images.flatten
  | [], _, _ => ⟨[], .nil, rfl⟩
  | c :: cs, before, h => by
      obtain ⟨hc, hcs⟩ := List.forall_mem_cons.mp h
      obtain ⟨images, himages, heq⟩ := images_lowerList cs (c :: before) hcs
      have hsigma : ∀ d ∈ ['ς', 'σ'], Image 'Σ' [d] := by
        refine fun d hd => ⟨List.forall_mem_singleton.mpr (.inl ?_), fun hgluing => ?_⟩
        · revert d
          decide
        · exact absurd hgluing (by decide +kernel)
      have himage : Image c
          (if c = 'Σ' then
            if meetsCased before && !meetsCased cs then ['ς'] else ['σ']
          else lowerChar c) := by
        split
        · next hsig =>
          subst hsig
          split
          · exact hsigma 'ς' (by decide)
          · exact hsigma 'σ' (by decide)
        · exact image_lowerChar hc
      exact ⟨_ :: images, .cons himage himages, by rw [lowerList, heq, List.flatten_cons]⟩

theorem lowerText (h : Glued cs) : Lettered (Text.lowerText cs) := by
  obtain ⟨images, himages, heq⟩ := images_lowerList cs [] h.chars
  rw [Text.lowerText, heq]
  exact .of_images himages h.blank

end Glued

end Naming

/-! ### Words of raw names -/

namespace Text

open Naming (Glued Lettered)

theorem flatten_clusters : (cs : List Char) → (clusters cs).flatten = cs
  | [] => rfl
  | c :: cs => by
      have ih := flatten_clusters cs
      unfold clusters
      split
      · next d rest first others heq =>
        rw [heq] at ih
        split <;> simpa using ih
      · simpa using ih

/-- The first cluster begins with the first character. -/
theorem head_clusters {c : Char} {cs : List Char} :
    ∃ more others, clusters (c :: cs) = (c :: more) :: others := by
  unfold clusters
  split
  · split
    · exact ⟨_, _, rfl⟩
    · exact ⟨_, _, rfl⟩
  · exact ⟨_, _, rfl⟩

/-- A blank stays with another character only if that glues it. -/
private theorem gluing_of_staysTogether {c d : Char} (h : staysTogether c d = true)
    (hblank : c = ' ' ∨ d = ' ') : isGluing c = true ∨ isGluing d = true := by
  have hjamo : jamo? ' '.toNat = none := by decide
  have hmem {n : Nat} {ranges : List (Nat × Nat)} (hin : inRanges ranges n = true)
      (hsub : ranges ⊆ gluingRanges) : inRanges gluingRanges n = true := by
    obtain ⟨f, hf, hbounds⟩ := inRanges_iff.mp hin
    exact inRanges_iff.mpr ⟨f, hsub hf, hbounds⟩
  unfold staysTogether at h
  rcases hblank with rfl | rfl
  · split at h
    · exact absurd h (by decide)
    · rw [hjamo, Bool.or_eq_true, Bool.or_eq_true] at h
      rcases h with (h | h) | h
      · exact .inr (hmem h (List.subset_append_left _ _))
      · exact .inl (hmem h (List.subset_append_right _ _))
      · cases h
  · rw [if_pos (by decide), Bool.and_eq_true] at h
    exact .inl (hmem h.2 (List.subset_append_right _ _))

/-- In a cluster a blank is by itself, or with a letter that glues it. -/
private theorem blank_of_mem_clusters :
    (cs : List Char) → ∀ cluster ∈ clusters cs, ' ' ∈ cluster →
      cluster = [' '] ∨ ∃ c ∈ cluster, isGluing c = true
  | [] => nofun
  | [c] => by
      refine List.forall_mem_singleton.mpr fun hblank => .inl ?_
      rw [List.mem_singleton.mp hblank]
  | c :: d :: rest => by
      have ih := blank_of_mem_clusters (d :: rest)
      obtain ⟨more, others, hclusters⟩ : ∃ more others,
          clusters (d :: rest) = (d :: more) :: others := head_clusters
      have hunfold : clusters (c :: d :: rest) =
          if staysTogether c d then (c :: d :: more) :: others
          else [c] :: (d :: more) :: others := by
        conv_lhs => unfold clusters
        rw [hclusters]
      rw [hclusters] at ih
      obtain ⟨hfirst, hothers⟩ := List.forall_mem_cons.mp ih
      rw [hunfold]
      split
      · next htogether =>
        refine List.forall_mem_cons.mpr ⟨fun hblank => .inr ?_, hothers⟩
        have hglued (h : c = ' ' ∨ d = ' ') : ∃ x ∈ c :: d :: more, isGluing x = true := by
          rcases gluing_of_staysTogether htogether h with hc | hd
          · exact ⟨c, List.mem_cons_self, hc⟩
          · exact ⟨d, List.mem_cons_of_mem c List.mem_cons_self, hd⟩
        rcases List.mem_cons.mp hblank with hc | hrest
        · exact hglued (.inl hc.symm)
        · rcases hfirst hrest with hone | ⟨x, hx, hgluing⟩
          · exact hglued (.inr (List.cons.inj hone).1)
          · exact ⟨x, List.mem_cons_of_mem c hx, hgluing⟩
      · refine List.forall_mem_cons.mpr ⟨fun hblank => .inl ?_, ih⟩
        rw [List.mem_singleton.mp hblank]

theorem glued_of_mem_words {cs : List Char} (h : ∀ c ∈ cs, isAlphanumeric c = true ∨ c = ' ')
    {word : List Cluster} (hword : word ∈ words cs) : ∀ cluster ∈ word, Glued cluster := by
  intro cluster hcluster
  obtain ⟨hmem, hseparator⟩ := mem_of_wordList word (List.mem_filter.mp hword).1 cluster hcluster
  refine ⟨fun c hc => h c ?_, fun hblank => ?_⟩
  · rw [← flatten_clusters cs]
    exact List.mem_flatten.mpr ⟨cluster, hmem, hc⟩
  · refine (blank_of_mem_clusters cs cluster hmem hblank).resolve_left fun hone => ?_
    rw [hone] at hseparator
    exact absurd hseparator (by decide)

theorem lettered_lowered {word : List Cluster} (h : ∀ cluster ∈ word, Glued cluster) :
    Lettered (lowered word) :=
  (Glued.flatten h).lowerText

theorem lettered_capitalized {word : List Cluster} (h : ∀ cluster ∈ word, Glued cluster) :
    Lettered (capitalized word) := by
  cases word with
  | nil => exact .of_forall nofun
  | cons cluster rest =>
    obtain ⟨hfirst, hrest⟩ := List.forall_mem_cons.mp h
    exact hfirst.upperText.append (Glued.flatten hrest).lowerText

end Text

/-! ### Names -/

open Naming (Glued Lettered isNameChar)

/-- A spaced name has characters of the name, and blanks for those that are no letters or digits. -/
theorem Convention.mem_spaced {cs : List Char} {c : Char} (h : c ∈ spaced cs) :
    ∃ d ∈ cs, (if Text.isAlphanumeric d then d else ' ') = c := by
  unfold spaced at h
  dsimp only at h
  exact List.mem_map.mp <| (List.dropWhile_suffix _).subset <|
    List.mem_reverse.mp ((List.dropWhile_suffix _).subset (List.mem_reverse.mp h))

/-- A spaced name has letters, digits and blanks. -/
theorem Convention.chars_spaced (cs : List Char) :
    ∀ c ∈ spaced cs, Text.isAlphanumeric c = true ∨ c = ' ' := by
  intro c hc
  obtain ⟨d, -, rfl⟩ := mem_spaced hc
  split
  · next hd => exact .inl hd
  · exact .inr rfl

/-- A name that reads as a convention has characters of identifiers only. -/
private theorem Convention.isNameChar_of_conforms {convention : Convention} {cs : List Char}
    (h : convention.conforms cs = true) : ∀ c ∈ cs, isNameChar c = true := by
  intro c hc
  have hpart := (conforms_iff.mp h).2 c hc
  cases convention with
  | pascal | camel => exact Naming.isNameChar_of_isAsciiAlphanumeric hpart
  | snake =>
    rw [isPart, Bool.or_eq_true, beq_iff_eq] at hpart
    rcases hpart with hsmall | rfl
    · exact Naming.isNameChar_of_isAsciiAlphanumeric (Text.isAsciiAlphanumeric_of_isSmall hsmall)
    · decide

/-- A name under a convention. -/
theorem Convention.lettered_apply (convention : Convention) (raw : String) :
    Lettered (convention.apply raw).toList := by
  have hglued : ∀ word ∈ Text.words (spaced raw.toList), ∀ cluster ∈ word, Glued cluster :=
    fun word hword => Text.glued_of_mem_words (chars_spaced _) hword
  have hcapitals {words : List (List Text.Cluster)}
      (h : ∀ word ∈ words, ∀ cluster ∈ word, Glued cluster) :
      Lettered (words.flatMap Text.capitalized) := by
    rw [List.flatMap_def]
    exact .flatten (List.forall_mem_map.mpr fun word hword =>
      Text.lettered_capitalized (h word hword))
  rw [apply, String.toList_ofList, applyList]
  split
  · next hconforms => exact .of_forall (isNameChar_of_conforms hconforms)
  · generalize Text.words (spaced raw.toList) = words at hglued
    cases convention with
    | pascal => exact hcapitals hglued
    | camel =>
      cases words with
      | nil => exact .of_forall (List.forall_mem_nil _)
      | cons first rest =>
        obtain ⟨hfirst, hrest⟩ := List.forall_mem_cons.mp hglued
        exact (Text.lettered_lowered hfirst).append (hcapitals hrest)
    | snake =>
      have hmark : Lettered ['_'] := .of_forall (by decide)
      rw [join]
      exact .intercalate hmark (List.forall_mem_map.mpr fun word hword =>
        Text.lettered_lowered (hglued word hword))

namespace NamingRules

variable {rules : NamingRules}

/-- The names of declarations, if what is put before and after them is made of characters of
names. -/
theorem lettered_typeName (hbefore : Lettered rules.before.toList)
    (hafter : Lettered rules.after.toList) (raw : String) :
    Lettered (rules.typeName raw).toList := by
  have hstem : Lettered (rules.stem raw).toList := by
    unfold stem
    dsimp only
    split
    · exact Convention.lettered_apply _ _
    · exact Convention.lettered_apply _ _
  have hname : Lettered (guardDigit (rules.before ++ rules.stem raw ++ rules.after)).toList := by
    have hparts : Lettered (rules.before ++ rules.stem raw ++ rules.after).toList := by
      rw [String.toList_append, String.toList_append]
      exact (hbefore.append hstem).append hafter
    unfold guardDigit
    split
    · have hmark : Lettered "_".toList := .of_forall (by decide)
      rw [String.toList_append]
      exact hmark.append hparts
    · exact hparts
  have hsuffix : Lettered rules.reservedSuffix.toList := by
    unfold reservedSuffix
    split
    · exact .of_forall (by decide)
    · exact .of_forall (by decide)
    · exact .of_forall (by decide)
  unfold typeName
  dsimp only
  split
  · rw [String.toList_append]
    exact hname.append hsuffix
  · exact hname

/-- Every name that is given out has characters of names. -/
theorem Gives.lettered (hbefore : Lettered rules.before.toList)
    (hafter : Lettered rules.after.toList) {name : String} (h : rules.Gives name) :
    Lettered name.toList := by
  induction h with
  | converted _ => exact lettered_typeName hbefore hafter _
  | companion _ ih =>
    have hword : Lettered "Values".toList := .of_forall (by decide)
    rw [String.toList_append]
    exact ih.append hword
  | numbered n _ ih =>
    rw [Registry.numbered, String.toList_append]
    refine ih.append (.of_forall fun c hc => Naming.isNameChar_of_isAsciiAlphanumeric ?_)
    rw [Text.isAsciiAlphanumeric, Text.isAsciiDigit_of_mem_repr hc, Bool.or_true]

end NamingRules

/-! ### Names as texts -/

namespace Naming

open Text (isForeign)

theorem not_special_of_isNameChar {c : Char} (h : isNameChar c = true) :
    c ∉ Scan.special ++ Scan.operators ∧ Text.isBlank c = false := by
  have hmarks : ∀ d ∈ Scan.special ++ Scan.operators,
      isIdentifierPart d = false ∧ d.toNat < 128 := by decide
  rw [isNameChar, Bool.or_eq_true] at h
  rcases h with h | h
  · refine ⟨fun hmem => ?_, not_blank_of_isIdentifierPart h⟩
    rw [(hmarks c hmem).1] at h
    cases h
  · obtain ⟨hbeyond, hblank⟩ := Text.isForeign_bounds h
    refine ⟨fun hmem => ?_, hblank⟩
    have := (hmarks c hmem).2
    omega

namespace Lettered

variable {cs : List Char} {name : String}

theorem not_special (h : Lettered cs) : ∀ c ∈ cs, c ∉ Scan.special ++ Scan.operators := by
  intro c hc
  rcases h.chars c hc with hchar | rfl
  · exact (not_special_of_isNameChar hchar).1
  · decide

theorem closed {comments : Bool} (h : Lettered cs) : Closed comments cs :=
  .of_forall_not_special fun c hc => mt (List.mem_append_left _) (h.not_special c hc)

theorem unbarred (h : Lettered cs) : ∀ m ∈ Scan.marks {} cs, Scan.isBar m = false := fun m hm =>
  Scan.isBar_of_unmarked <| Scan.marks_of_forall
    (fun c hc => mt (List.mem_append_right _) (h.not_special c hc)) m hm

/-- A name that is not that of a built-in type is a solid text. -/
theorem solid (h : Lettered name.toList) (hname : name ∉ reserved) : Solid name := by
  have hne : name ≠ "null" ∧ name ≠ "never" := by
    constructor <;> rintro rfl <;> exact hname (by decide)
  by_cases hblank : ' ' ∈ name.toList
  · obtain ⟨c, hc, hforeign⟩ := h.blank hblank
    have htrim := Text.mem_trim (Text.isForeign_bounds hforeign).2 hc
    have hwords : ∀ word ∈ ["null", "never"], ∀ d ∈ word.toList, isForeign d = false := by decide
    have hne (word : String) (hword : word ∈ ["null", "never"]) : Text.trim name ≠ word := by
      intro heq
      rw [heq] at htrim
      rw [hwords word hword c htrim] at hforeign
      cases hforeign
    exact .of_marks h.closed h.unbarred (hne _ (by decide)) (hne _ (by decide))
  · refine .of_isWord (fun c hc => ?_) hne.1 hne.2
    refine not_special_of_isNameChar ((h.chars c hc).resolve_right ?_)
    rintro rfl
    exact hblank hc

end Lettered

end Naming

/-- Every name that is given out is a solid text. -/
theorem NamingRules.Gives.solid {rules : NamingRules} {name : String}
    (hbefore : Lettered rules.before.toList) (hafter : Lettered rules.after.toList)
    (h : rules.Gives name) : Solid name :=
  (h.lettered hbefore hafter).solid h.not_reserved

end OpenApiTs
