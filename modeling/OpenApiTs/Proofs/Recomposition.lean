import Mathlib.Data.List.DropRight
import OpenApiTs.Proofs.Identifiers

/-!
# Names composed of composed names

A convention cuts a raw name into words and joins the words again. The joined name can be cut at
other places: of a word of one letter, only a capital is left, and it stays with a capital after it.
So a convention can change a name that it has made. It keeps a name that reads as the convention,
however, and if the first letter or digit of a raw name of ASCII is a letter, the name that is made
of it is empty or reads as the convention: it starts with the image of that letter, and consists of
images of letters and digits. Such names are settled. They stay settled when they are put together,
so what is composed of composed names is composed of all their parts at once.

## Main definitions

* `Text.LeadsWithLetter`: texts whose first letter or digit is a letter.
* `Text.IsPlainWord`: words of letters and digits of ASCII.
* `Convention.IsSettled`: empty names, and names that read as a convention.

## Main results

* `Convention.settled_apply`: a convention makes settled names.
* `Convention.apply_apply`: a convention applied twice.
* `Naming.compose_compose`: names composed of composed names.
* `Naming.recomposed_names`: the names of operations and what is composed of them.
-/

namespace OpenApiTs

namespace Text

/-! ### Case maps of letters and digits -/

/-- A word of letters and digits of ASCII. -/
def IsPlainWord (word : List Cluster) : Prop :=
  ∀ cluster ∈ word, ∀ c ∈ cluster, isAsciiAlphanumeric c = true

/-- The case maps of letters and digits. -/
theorem caseMaps_alphanumeric : ∀ c : Char, c.toNat < 128 → isAsciiAlphanumeric c = true →
    (∀ d ∈ upperChar c, isAsciiAlphanumeric d = true) ∧ ∀ d ∈ lowerChar c, isSmall d = true :=
  forall_ascii (by decide)

/-- The case maps of letters. -/
theorem caseMaps_letter : ∀ c : Char, c.toNat < 128 → isAsciiLetter c = true →
    (upperChar c).head?.any isAsciiUpper = true ∧ (lowerChar c).head?.any isAsciiLower = true :=
  forall_ascii (by decide)

theorem toNat_lt_of_isAsciiAlphanumeric {c : Char} (h : isAsciiAlphanumeric c = true) :
    c.toNat < 128 := by
  rw [isAsciiAlphanumeric_iff, isAsciiUpper_iff, isAsciiLower_iff, isAsciiDigit_iff] at h
  omega

namespace IsPlainWord

variable {word : List Cluster}

/-- A word in small letters has small letters and digits. -/
theorem isSmall_lowered (h : IsPlainWord word) : ∀ c ∈ lowered word, isSmall c = true := by
  have hword : ∀ c ∈ word.flatten, isAsciiAlphanumeric c = true := by
    intro c hc
    obtain ⟨cluster, hcluster, hc⟩ := List.mem_flatten.mp hc
    exact h cluster hcluster c hc
  have hascii : IsAscii word.flatten := fun c hc => toNat_lt_of_isAsciiAlphanumeric (hword c hc)
  rw [lowered, lowerText_eq_flatMap hascii]
  intro c hc
  obtain ⟨d, hd, hc⟩ := List.mem_flatMap.mp hc
  exact (caseMaps_alphanumeric d (hascii d hd) (hword d hd)).2 c hc

/-- A word with a capital has letters and digits. -/
theorem isAsciiAlphanumeric_capitalized (h : IsPlainWord word) :
    ∀ c ∈ capitalized word, isAsciiAlphanumeric c = true := by
  cases word with
  | nil => exact List.forall_mem_nil _
  | cons cluster rest =>
    obtain ⟨hcluster, hrest⟩ := List.forall_mem_cons.mp h
    refine List.forall_mem_append.mpr ⟨fun c hc => ?_, fun c hc => ?_⟩
    · obtain ⟨d, hd, hc⟩ := List.mem_flatMap.mp hc
      have hplain := hcluster d hd
      exact (caseMaps_alphanumeric d (toNat_lt_of_isAsciiAlphanumeric hplain) hplain).1 c hc
    · exact isAsciiAlphanumeric_of_isSmall (isSmall_lowered hrest c hc)

end IsPlainWord

/-! ### How words start -/

theorem head?_any_append {kind : Char → Bool} {as : List Char} (h : as.head?.any kind = true)
    (bs : List Char) : (as ++ bs).head?.any kind = true := by
  cases as with
  | nil => cases h
  | cons a as => exact h

section Heads

variable {c : Char} (hletter : isAsciiLetter c = true) (more : List Char) (word : List Cluster)

include hletter

private theorem toNat_lt_of_isAsciiLetter : c.toNat < 128 := by
  refine toNat_lt_of_isAsciiAlphanumeric ?_
  rw [isAsciiAlphanumeric, hletter, Bool.true_or]

theorem head?_capitalized : (capitalized ((c :: more) :: word)).head?.any isAsciiUpper = true := by
  have himage := (caseMaps_letter c (toNat_lt_of_isAsciiLetter hletter) hletter).1
  rw [capitalized, upperText, List.flatMap_cons, List.append_assoc]
  exact head?_any_append himage _

theorem head?_lowered : (lowered ((c :: more) :: word)).head?.any isAsciiLower = true := by
  have hascii := toNat_lt_of_isAsciiLetter hletter
  have himage := (caseMaps_letter c hascii hletter).2
  -- Only the small form of a capital sigma looks at its neighbours.
  have hsigma : c ≠ 'Σ' := by
    rintro rfl
    exact absurd hascii (by decide)
  rw [lowered, List.flatten_cons, List.cons_append, lowerText, lowerList, if_neg hsigma]
  exact head?_any_append himage _

end Heads

theorem wordList_cons {cluster : Cluster} (h : cluster.isSeparator = false) (rest : List Cluster) :
    ∃ word, (wordList (cluster :: rest)).1 = cluster :: word := by
  unfold wordList
  dsimp only
  rw [if_neg (Bool.eq_false_iff.mp h)]
  split
  · exact ⟨[], rfl⟩
  · split
    · exact ⟨[], rfl⟩
    · exact ⟨_, rfl⟩

/-- The first word of a text that starts with a letter or digit starts with it too. -/
theorem words_cons {c : Char} (h : isAlphanumeric c = true) (cs : List Char) :
    ∃ more word others, words (c :: cs) = ((c :: more) :: word) :: others := by
  obtain ⟨more, rest, hclusters⟩ : ∃ more rest, clusters (c :: cs) = (c :: more) :: rest :=
    head_clusters
  have hseparator : Cluster.isSeparator (c :: more) = false := by
    refine Bool.eq_false_iff.mpr fun hseparator => ?_
    simp only [Cluster.isSeparator, Bool.or_eq_true, beq_iff_eq, List.cons.injEq] at hseparator
    rcases hseparator with (⟨rfl, -⟩ | ⟨rfl, -⟩) | ⟨rfl, -⟩ <;> exact absurd h (by decide)
  obtain ⟨word, hword⟩ := wordList_cons hseparator rest
  refine ⟨more, word, (wordList ((c :: more) :: rest)).2.filter fun w => !w.isEmpty, ?_⟩
  rw [words, hclusters]
  dsimp only
  rw [hword]
  rfl

/-! ### How raw names start -/

/-- The first letter or digit of a text, if it has any, is a letter of ASCII. -/
def LeadsWithLetter (cs : List Char) : Prop :=
  (cs.find? isAlphanumeric).all isAsciiLetter = true

instance (cs : List Char) : Decidable (LeadsWithLetter cs) :=
  inferInstanceAs (Decidable (_ = true))

theorem not_blank_of_isAlphanumeric {c : Char} (h : isAlphanumeric c = true) :
    isBlank c = false := by
  by_cases hc : c.toNat < 128
  · rw [isAlphanumeric, if_pos hc] at h
    refine Naming.not_blank_of_isIdentifierPart ?_
    rw [Naming.isIdentifierPart, h]
    rfl
  · exact (isForeign_bounds (isForeign_of_isAlphanumeric h (by omega))).2

/-- A text that starts with no blank keeps its start when the blanks at its end are dropped. -/
theorem head?_dropBlankEnd {cs : List Char} (h : ∀ c ∈ cs.head?, isBlank c = false) :
    (dropBlankEnd cs).head? = cs.head? := by
  cases cs with
  | nil => rfl
  | cons c cs =>
    have hkept : dropBlankEnd (c :: cs) ≠ [] := by
      intro hnil
      have hblank := List.rdropWhile_eq_nil_iff.mp hnil c List.mem_cons_self
      rw [h c rfl] at hblank
      cases hblank
    obtain ⟨d, ds, hdrop⟩ := List.exists_cons_of_ne_nil hkept
    obtain ⟨rest, hrest⟩ : dropBlankEnd (c :: cs) <+: c :: cs := List.rdropWhile_prefix isBlank _
    rw [hdrop, List.cons_append] at hrest
    rw [hdrop, List.head?_cons, List.head?_cons, (List.cons.inj hrest).1]

end Text

namespace Convention

open Text

/-- What stands in a spaced name for a character of the name. -/
def spacedChar (c : Char) : Char := if isAlphanumeric c then c else ' '

theorem isBlank_spacedChar (c : Char) : isBlank (spacedChar c) = !isAlphanumeric c := by
  unfold spacedChar
  split
  · next hc =>
    rw [not_blank_of_isAlphanumeric hc, hc]
    rfl
  · next hc =>
    rw [Bool.eq_false_iff.mpr hc]
    rfl

/-- A spaced name starts with the first letter or digit of the name. -/
theorem head?_spaced (cs : List Char) : (spaced cs).head? = cs.find? isAlphanumeric := by
  have hspaced : spaced cs = dropBlankEnd ((cs.map spacedChar).dropWhile isBlank) := rfl
  have hdrop : (cs.map spacedChar).dropWhile isBlank =
      (cs.dropWhile fun c => !isAlphanumeric c).map spacedChar := by
    rw [List.dropWhile_map]
    exact congrArg (fun p => (cs.dropWhile p).map spacedChar) (funext isBlank_spacedChar)
  have hhead : ((cs.map spacedChar).dropWhile isBlank).head? = cs.find? isAlphanumeric := by
    rw [hdrop, List.head?_map, ← List.find?_eq_head?_dropWhile_not]
    cases hfind : cs.find? isAlphanumeric with
    | none => rfl
    | some c => rw [Option.map_some, spacedChar, if_pos (List.find?_some hfind)]
  rw [hspaced, head?_dropBlankEnd, hhead]
  rw [hhead]
  exact fun c hc => not_blank_of_isAlphanumeric (List.find?_some hc)

/-- In ASCII, the words of a raw name have letters and digits only. -/
theorem isPlainWord_of_mem_words {cs : List Char} (hascii : IsAscii cs) :
    ∀ word ∈ words (spaced cs), IsPlainWord word := by
  intro word hword cluster hcluster c hc
  have hglued := glued_of_mem_words (chars_spaced cs) hword cluster hcluster
  have hcluster := (isAscii_spaced hascii).of_mem_words hword cluster hcluster
  rcases hglued.chars c hc with hchar | rfl
  · rwa [isAlphanumeric, if_pos (hcluster c hc)] at hchar
  · obtain ⟨d, hd, hgluing⟩ := hglued.blank hc
    rw [isGluing_eq_false (hcluster d hd)] at hgluing
    cases hgluing

/-! ### Settled names -/

variable {convention : Convention}

/-- A name is settled under a convention if it is empty or reads as the convention. -/
def IsSettled (convention : Convention) (cs : List Char) : Prop :=
  cs = [] ∨ convention.conforms cs = true

instance (cs : List Char) : Decidable (convention.IsSettled cs) :=
  inferInstanceAs (Decidable (_ ∨ _))

namespace IsSettled

variable {as bs cs : List Char}

theorem isPart (h : convention.IsSettled cs) : ∀ c ∈ cs, convention.isPart c = true := by
  rcases h with rfl | hconforms
  · exact List.forall_mem_nil _
  · exact (conforms_iff.mp hconforms).2

/-- Settled names can be put together. -/
theorem append (ha : convention.IsSettled as) (hb : convention.IsSettled bs) :
    convention.IsSettled (as ++ bs) := by
  rcases ha with rfl | hconforms
  · exact hb
  · obtain ⟨hstart, hparts⟩ := conforms_iff.mp hconforms
    exact .inr (conforms_iff.mpr
      ⟨head?_any_append hstart bs, List.forall_mem_append.mpr ⟨hparts, hb.isPart⟩⟩)

/-- A convention keeps a settled name. -/
theorem apply_eq {name : String} (h : convention.IsSettled name.toList) :
    convention.apply name = name := by
  rcases h with hempty | hconforms
  · obtain rfl : name = "" := String.toList_eq_nil_iff.mp hempty
    cases convention <;> rfl
  · exact apply_of_conforms hconforms

end IsSettled

/-! ### Conventions applied twice -/

theorem head?_join (convention : Convention) {c : Char} (hletter : isAsciiLetter c = true)
    (more : List Char) (word : List Cluster) (others : List (List Cluster)) :
    (convention.join (((c :: more) :: word) :: others)).head?.any convention.isStart = true := by
  cases convention with
  | pascal => exact head?_any_append (head?_capitalized hletter more word) _
  | camel => exact head?_any_append (head?_lowered hletter more word) _
  | snake =>
    have hfirst := head?_lowered hletter more word
    rw [join, List.map_cons]
    cases others with
    | nil =>
      rw [List.map_nil, List.intercalate_singleton]
      exact hfirst
    | cons next others =>
      rw [List.map_cons, List.intercalate_cons_cons, List.append_assoc]
      exact head?_any_append hfirst _

theorem isPart_join {words : List (List Cluster)} (h : ∀ word ∈ words, IsPlainWord word) :
    ∀ c ∈ convention.join words, convention.isPart c = true := by
  have hsmall {c : Char} (hc : isSmall c = true) : convention.isPart c = true := by
    cases convention with
    | pascal | camel => exact isAsciiAlphanumeric_of_isSmall hc
    | snake => exact Bool.or_eq_true_iff.mpr (.inl hc)
  have hplain (hne : convention ≠ .snake) {c : Char} (hc : isAsciiAlphanumeric c = true) :
      convention.isPart c = true := by
    cases convention with
    | pascal | camel => exact hc
    | snake => exact absurd rfl hne
  refine forall_mem_join (fun word hword c hc => ?_) (fun hne word hword c hc => ?_) ?_
  · exact hsmall ((h word hword).isSmall_lowered c hc)
  · exact hplain hne ((h word hword).isAsciiAlphanumeric_capitalized c hc)
  · rintro rfl
    rfl

section Raw

variable (convention) {raw : String} (hascii : IsAscii raw.toList)
  (hletter : LeadsWithLetter raw.toList)

include hascii hletter

/-- A convention makes a settled name of a raw name whose first letter or digit is a letter. -/
theorem settled_apply : convention.IsSettled (convention.apply raw).toList := by
  rw [apply, String.toList_ofList, applyList]
  split
  · next hconforms => exact .inr hconforms
  · have hplain := isPlainWord_of_mem_words hascii
    cases hspaced : spaced raw.toList with
    -- Without letters and digits, no word is left.
    | nil => cases convention <;> exact .inl rfl
    | cons c rest =>
      have hfind := head?_spaced raw.toList
      rw [hspaced, List.head?_cons] at hfind
      rw [LeadsWithLetter, ← hfind] at hletter
      obtain ⟨more, word, others, hwords⟩ := words_cons (List.find?_some hfind.symm) rest
      have hstart := convention.head?_join hletter more word others
      rw [← hwords] at hstart
      rw [hspaced] at hplain
      exact .inr (conforms_iff.mpr ⟨hstart, isPart_join hplain⟩)

/-- A convention keeps what it makes of a raw name whose first letter or digit is a letter. -/
theorem apply_apply : convention.apply (convention.apply raw) = convention.apply raw :=
  (convention.settled_apply hascii hletter).apply_eq

end Raw

/-- With a digit before the first letter, the capitals of two words can stand together, and are one
word the next time. -/
example : pascal.apply "1aB" = "1AB" ∧ pascal.apply "1AB" = "1Ab" := by decide +kernel

end Convention

/-! ### Names composed of composed names -/

namespace Naming

open Text (IsAscii LeadsWithLetter)

theorem compose_append (as bs : List String) : compose (as ++ bs) = compose as ++ compose bs := by
  refine String.toList_inj.mp ?_
  simp only [compose, List.map_append, String.toList_append, String.toList_join,
    List.flatMap_append]

theorem compose_singleton (part : String) : compose [part] = Convention.pascal.apply part := by
  refine String.toList_inj.mp ?_
  simp only [compose, List.map_cons, List.map_nil, String.toList_join, List.flatMap_cons,
    List.flatMap_nil, List.append_nil]

section Parts

variable {parts : List String}
  (hparts : ∀ part ∈ parts, IsAscii part.toList ∧ LeadsWithLetter part.toList)

include hparts

theorem settled_compose : Convention.pascal.IsSettled (compose parts).toList := by
  induction parts with
  | nil => exact .inl rfl
  | cons part parts ih =>
    obtain ⟨⟨hascii, hletter⟩, hrest⟩ := List.forall_mem_cons.mp hparts
    rw [← List.singleton_append, compose_append, compose_singleton, String.toList_append]
    exact (Convention.pascal.settled_apply hascii hletter).append (ih hrest)

/-- What is composed of a composed name and further parts is composed of all parts at once. -/
theorem compose_compose (rest : List String) :
    compose (compose parts :: rest) = compose (parts ++ rest) := by
  rw [← List.singleton_append, compose_append, compose_singleton, compose_append,
    (settled_compose hparts).apply_eq]

end Parts

theorem operationName_of_not_blank {id : String} (h : (Text.trim id).isEmpty = false)
    (method path : String) : operationName (some id) method path = compose [id] := by
  rw [operationName, Option.filter_some, h]
  rfl

/-- Let the first letter or digit of a raw name of ASCII be a letter, if there is one. Then every
convention keeps what it makes of the raw name. If the raw name is not blank, and identifies an
operation, the name of the operation stands as it is in what is composed of it and a further word,
whether these are two parts or one. -/
theorem recomposed_names {raw : String} (hascii : IsAscii raw.toList)
    (hletter : LeadsWithLetter raw.toList) :
    (∀ convention : Convention, convention.apply (convention.apply raw) = convention.apply raw) ∧
      ((Text.trim raw).isEmpty = false → ∀ method path : String,
        ∀ word ∈ ["Params", "Request", "Response", "Result"],
          compose [operationName (some raw) method path, word] =
              operationName (some raw) method path ++ word ∧
            compose [operationName (some raw) method path ++ word] =
              operationName (some raw) method path ++ word) := by
  refine ⟨fun convention => convention.apply_apply hascii hletter,
    fun hid method path word hword => ?_⟩
  have hparts : ∀ part ∈ [raw], IsAscii part.toList ∧ LeadsWithLetter part.toList :=
    List.forall_mem_singleton.mpr ⟨hascii, hletter⟩
  have hsettled : Convention.pascal.IsSettled word.toList := by
    have hwords : ∀ word ∈ ["Params", "Request", "Response", "Result"],
        Convention.pascal.IsSettled word.toList := by decide
    exact hwords word hword
  have hjoined : Convention.pascal.IsSettled (compose [raw] ++ word).toList := by
    rw [String.toList_append]
    exact (settled_compose hparts).append hsettled
  rw [operationName_of_not_blank hid]
  constructor
  · rw [compose_compose hparts, compose_append, compose_singleton word, hsettled.apply_eq]
  · rw [compose_singleton (compose [raw] ++ word), hjoined.apply_eq]

theorem recomposed_names_listPets :
    (∀ convention : Convention, convention.apply (convention.apply "-list HTTPPets_2x!") =
        convention.apply "-list HTTPPets_2x!") ∧
      compose ["ListHttpPets2X", "Params"] = "ListHttpPets2XParams" ∧
      compose ["ListHttpPets2XParams"] = "ListHttpPets2XParams" := by
  have hname : operationName (some "-list HTTPPets_2x!") "get" "/pets" = "ListHttpPets2X" := by
    decide +kernel
  have hascii : IsAscii "-list HTTPPets_2x!".toList := by decide +kernel
  obtain ⟨htwice, hnames⟩ := recomposed_names hascii (by decide +kernel)
  have hword := hnames (by decide +kernel) "get" "/pets" "Params" (by decide)
  rw [hname] at hword
  exact ⟨htwice, hword⟩

end Naming

end OpenApiTs
