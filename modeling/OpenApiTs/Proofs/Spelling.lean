import OpenApiTs.Proofs.Lexis

/-!
# Names spelled in texts

A text spells a name if the name stands in type position in it. Texts that are put together without
a word across spell what their parts spell. Keywords, values, keys and comments spell nothing, since
names of declarations start unlike the words in them.

## Main definitions

* `Spells`: a text that ends in code, with a bound on the names that it spells.
* `Lexis.EndsApart`, `Lexis.StartsApart`: texts that can be put together with any others.
* `Lexis.Opens`, `Lexis.Closes`, `Lexis.Separates`: marks that spell nothing before, after and
  between texts.
* `Lexis.Skipped`: texts that can be put before any others.

## Main results

* `Spells.append`, `Spells.intercalate`, `Spells.flatten`: texts that are put together.
* `Spells.dropNull`: a text without the null at its end.
* `Setting.skipped_comment`: comments are skipped.
* `Text.spells_quote`, `Json.spells_compact`, `NamingRules.spells_fieldName`: texts between
  quotation marks, values and keys.
-/

namespace OpenApiTs

open Lexis
open Scan (Place)

namespace Lexis

/-! ### Texts with no word at an end -/

/-- The last character is not that of a word. -/
def EndsApart (cs : List Char) : Prop := ∀ c ∈ cs.getLast?, isNameChar c = false

/-- The first character is not that of a word. -/
def StartsApart (cs : List Char) : Prop := ∀ c ∈ cs.head?, isNameChar c = false

theorem endsApart_iff {cs : List Char} :
    EndsApart cs ↔ cs.getLast?.all (fun c => !isNameChar c) = true := by
  unfold EndsApart
  cases cs.getLast? <;> simp

theorem startsApart_iff {cs : List Char} :
    StartsApart cs ↔ cs.head?.all (fun c => !isNameChar c) = true := by
  unfold StartsApart
  cases cs.head? <;> simp

instance (cs : List Char) : Decidable (EndsApart cs) := decidable_of_iff' _ endsApart_iff

instance (cs : List Char) : Decidable (StartsApart cs) := decidable_of_iff' _ startsApart_iff

theorem EndsApart.append {bs : List Char} (h : EndsApart bs) (hne : bs ≠ []) (as : List Char) :
    EndsApart (as ++ bs) := by
  intro c hc
  rw [List.getLast?_append_of_ne_nil _ hne] at hc
  exact h c hc

theorem StartsApart.append {as : List Char} (h : StartsApart as) (hne : as ≠ [])
    (bs : List Char) : StartsApart (as ++ bs) := by
  intro c hc
  rw [List.head?_append_of_ne_nil _ hne] at hc
  exact h c hc

/-- A character that begins no word in which a name can be found: it starts no text or comment, and
no word starts with it but one with a small letter or a digit. -/
def isQuiet (c : Char) : Bool :=
  c != '"' && c != '/' && (!isNameChar c || Text.isAsciiLower c || Text.isAsciiDigit c)

/-- Quiet characters with no word at the end, which can stand before any text. -/
def Opens (cs : List Char) : Prop := (∀ c ∈ cs, isQuiet c = true) ∧ EndsApart cs

/-- Quiet characters with no word at the start, which can stand after any text. -/
def Closes (cs : List Char) : Prop := (∀ c ∈ cs, isQuiet c = true) ∧ StartsApart cs

/-- Quiet characters that can stand between any texts. -/
def Separates (cs : List Char) : Prop := cs ≠ [] ∧ Opens cs ∧ Closes cs

instance (cs : List Char) : Decidable (Opens cs) :=
  inferInstanceAs (Decidable ((∀ c ∈ cs, isQuiet c = true) ∧ EndsApart cs))

instance (cs : List Char) : Decidable (Closes cs) :=
  inferInstanceAs (Decidable ((∀ c ∈ cs, isQuiet c = true) ∧ StartsApart cs))

instance (cs : List Char) : Decidable (Separates cs) :=
  inferInstanceAs (Decidable (cs ≠ [] ∧ Opens cs ∧ Closes cs))

theorem next_code {c : Char} (hquote : c ≠ '"') (hslash : c ≠ '/') :
    Place.code.next c = .code := by
  unfold Place.next Scan.step
  dsimp only
  rw [if_neg hquote, if_neg hslash]
  split_ifs <;> rfl

theorem after_code {cs : List Char} (h : ∀ c ∈ cs, c ≠ '"' ∧ c ≠ '/') :
    Place.code.after cs = .code := by
  induction cs with
  | nil => rfl
  | cons c cs ih =>
    obtain ⟨⟨hquote, hslash⟩, hcs⟩ := List.forall_mem_cons.mp h
    rw [Place.after, List.foldl_cons, next_code hquote hslash]
    exact ih hcs

theorem after_of_isNameChar {cs : List Char} (h : ∀ c ∈ cs, isNameChar c = true) :
    Place.code.after cs = .code := by
  induction cs with
  | nil => rfl
  | cons c cs ih =>
    obtain ⟨hc, hcs⟩ := List.forall_mem_cons.mp h
    rw [Place.after, List.foldl_cons, next_code_of_isNameChar hc]
    exact ih hcs

end Lexis

/-! ### Spelled names -/

/-- A text that begins and ends in code, and in which all names in type position have `T`, except
for those of built-in types. -/
structure Spells (cs : List Char) (T : String → Prop) : Prop where
  ends : Place.code.after cs = .code
  words : ∀ {word}, word ∈ typeWordsFrom false (tokens cs) → Naming.IsLarge word →
    word ∉ Naming.written → T word

namespace Spells

variable {as bs cs : List Char} {T T' : String → Prop}

theorem mono (h : Spells cs T) (hT : ∀ {word}, T word → T' word) : Spells cs T' :=
  ⟨h.ends, fun hword hlarge hwritten => hT (h.words hword hlarge hwritten)⟩

theorem nil : Spells [] T := ⟨rfl, nofun⟩

theorem append (ha : Spells as T) (hb : Spells bs T) (h : Apart as bs) : Spells (as ++ bs) T := by
  refine ⟨by rw [Place.after_append, ha.ends, hb.ends], fun hword hlarge hwritten => ?_⟩
  rw [tokens_append ha.ends h] at hword
  rcases typeWordsFrom_append_subset hword with hword | hword
  · exact ha.words hword hlarge hwritten
  · exact hb.words hword hlarge hwritten

theorem append_of_ends (ha : Spells as T) (hb : Spells bs T) (h : EndsApart as) :
    Spells (as ++ bs) T := ha.append hb (.inl h)

theorem append_of_starts (ha : Spells as T) (hb : Spells bs T) (h : StartsApart bs) :
    Spells (as ++ bs) T := ha.append hb (.inr h)

/-- Texts of which none ends in a word. -/
theorem flatten {texts : List (List Char)} (h : ∀ t ∈ texts, Spells t T)
    (hends : ∀ t ∈ texts, EndsApart t) : Spells texts.flatten T := by
  induction texts with
  | nil => exact nil
  | cons t rest ih =>
    obtain ⟨ht, hrest⟩ := List.forall_mem_cons.mp h
    obtain ⟨htends, hrestends⟩ := List.forall_mem_cons.mp hends
    exact ht.append_of_ends (ih hrest hrestends) htends

/-- Texts of which none ends in a word, as one text. -/
theorem join {texts : List String} (h : ∀ t ∈ texts, Spells t.toList T)
    (hends : ∀ t ∈ texts, EndsApart t.toList) : Spells (String.join texts).toList T := by
  rw [String.toList_join, List.flatMap_def]
  exact flatten (List.forall_mem_map.mpr h) (List.forall_mem_map.mpr hends)

/-- A text without quotation marks and slashes whose words all start with a small letter or a digit
spells nothing. -/
theorem of_quiet (h : ∀ c ∈ cs, isQuiet c = true) : Spells cs T := by
  simp only [isQuiet, Bool.and_eq_true, bne_iff_ne] at h
  refine ⟨after_code fun c hc => (h c hc).1, fun {word} hword hlarge _ => ?_⟩
  obtain ⟨c, rest, htext, hlower, hdigit⟩ := hlarge
  have hmem : c ∈ word.toList := htext ▸ List.mem_cons_self
  have hin := subset_of_word_mem_tokens (word_mem_of_mem_typeWordsFrom hword) hmem
  obtain ⟨hc, hname⟩ := List.mem_filter.mp hin
  have hquiet := (h c hc).2
  rw [hname, hlower, hdigit] at hquiet
  cases hquiet

/-- A word spells itself. -/
theorem word {name : String} (h : ∀ c ∈ name.toList, isNameChar c = true) :
    Spells name.toList (· = name) := by
  refine ⟨after_of_isNameChar h, fun {word} hword _ _ => ?_⟩
  by_cases hne : name.toList = []
  · rw [hne] at hword
    cases hword
  · rw [tokens_word h hne, String.ofList_toList] at hword
    exact List.mem_singleton.mp hword

/-- The names of built-in types are not counted. -/
theorem written {name : String} (h : name ∈ Naming.written) : Spells name.toList T := by
  have hchars : ∀ name ∈ Naming.written, ∀ c ∈ name.toList, isNameChar c = true := by decide
  have hword := Spells.word (hchars name h)
  refine ⟨hword.ends, fun hmem hlarge hnot => absurd h ?_⟩
  rwa [← hword.words hmem hlarge hnot]

/-- A word before a mark that makes it a key, a member or a declared name spells nothing. -/
theorem label {word mark : List Char} (hword : ∀ c ∈ word, isNameChar c = true)
    (hcloses : Closes mark) (hlabels : labels (tokens mark) = true) : Spells (word ++ mark) T := by
  have hends := after_of_isNameChar hword
  have hmark : Spells mark T := .of_quiet hcloses.1
  refine ⟨by rw [Place.after_append, hends, hmark.ends], fun hmem => hmark.words ?_⟩
  rw [tokens_append hends (.inr hcloses.2)] at hmem
  by_cases hne : word = []
  · rwa [hne] at hmem
  · rw [tokens_word hword hne, List.singleton_append, typeWordsFrom, Bool.false_or,
      if_pos hlabels] at hmem
    revert hlabels hmem
    cases tokens mark with
    | nil => exact fun hlabels => Bool.noConfusion hlabels
    | cons token rest =>
      cases token with
      | mark c => exact fun _ => id
      | word text => exact fun hlabels => Bool.noConfusion hlabels

/-- Marks before a text spell nothing. -/
theorem opened (h : Spells cs T) {marks : List Char} (hmarks : Opens marks) :
    Spells (marks ++ cs) T := append_of_ends (of_quiet hmarks.1) h hmarks.2

/-- Marks after a text spell nothing. -/
theorem closed (h : Spells cs T) {marks : List Char} (hmarks : Closes marks) :
    Spells (cs ++ marks) T := h.append_of_starts (of_quiet hmarks.1) hmarks.2

/-- Texts with marks between them. -/
theorem intercalate {texts : List String} (h : ∀ t ∈ texts, Spells t.toList T)
    {separator : String} (hs : Separates separator.toList) :
    Spells (separator.intercalate texts).toList T := by
  obtain ⟨hne, hopens, hcloses⟩ := hs
  rw [String.toList_intercalate]
  induction texts with
  | nil => exact nil
  | cons t rest ih =>
    obtain ⟨ht, hrest⟩ := List.forall_mem_cons.mp h
    cases rest with
    | nil =>
      rw [List.map_singleton, List.intercalate_singleton]
      exact ht
    | cons u rest =>
      rw [List.map_cons, List.map_cons, List.intercalate_cons_cons]
      exact (ht.closed hcloses).append_of_ends (ih hrest) (hopens.2.append hne _)

/-- Null at the end spells nothing. -/
theorem appendNull (h : Spells cs T) : Spells (cs ++ " | null".toList) T := h.closed (by decide)

/-- A text without the null at its end spells nothing more. -/
theorem dropNull (h : Spells (cs ++ " | null".toList) T) : Spells cs T := by
  have hends : Place.code.after cs = .code := by
    have hall := h.ends
    rw [Place.after_append] at hall
    exact Place.code_of_after (by decide) hall
  have hstarts : StartsApart " | null".toList := by decide
  refine ⟨hends, fun hword => h.words ?_⟩
  rw [tokens_append hends (.inr hstarts)]
  exact mem_typeWordsFrom_append (c := '|') (by decide) hword

end Spells

/-! ### Comments and texts between quotation marks -/

namespace Lexis

/-- A character in code that is of no word and no mark. -/
private theorem tokens_cons {c : Char} {cs : List Char} (hname : isNameChar c = false)
    (hmark : markOf .code c = []) :
    tokens (c :: cs) = tokensFrom (Place.code.next c) [] cs := by
  rw [tokens, tokensFrom, if_neg fun h => Bool.eq_false_iff.mp hname h.2, hmark, flush]
  rfl

/-- A comment leaves no tokens. -/
theorem tokens_comment_append {body : List Char} (h : Scan.Comment body) (cs : List Char) :
    tokens ('/' :: (body ++ '*' :: '/' :: cs)) = tokens cs := by
  have hskip := tokensFrom_of_along (fun s hs hcode => ?_) (h 0).2 ('*' :: '/' :: cs)
  · rw [← Scan.place_scan, (h 0).1] at hskip
    rw [tokens_cons (by decide) (by decide)]
    exact hskip
  · have hcomment := hs.2
    rw [hcode] at hcomment
    cases hcomment

/-- A text between quotation marks leaves no tokens. -/
theorem tokens_quote (text : String) : tokens (Text.quote text).toList = [] := by
  obtain ⟨hscan, halong⟩ := Text.scan_escape text.toList 0
  have hskip := tokensFrom_of_along (fun s hs hcode => ?_) halong ['"']
  · rw [← Scan.place_scan, hscan] at hskip
    rw [Text.toList_quote, tokens_cons (by decide) (by decide)]
    exact hskip
  · have hplace := hs.2
    rw [hcode] at hplace
    exact hplace.elim nofun nofun

end Lexis

/-- A text that can be put before others, which then spell nothing more. -/
def Lexis.Skipped (text : String) : Prop :=
  ∀ {cs : List Char} {T : String → Prop}, Spells cs T → Spells (text.toList ++ cs) T

/-- A documentation comment is skipped. -/
theorem Setting.skipped_comment (run : Setting) (texts : List String) {indent : String}
    (hindent : ∀ c ∈ indent.toList, c = ' ') : Skipped (run.comment texts indent) := by
  intro cs T h
  have hblank {cs : List Char} (h : Spells cs T) : Spells (indent.toList ++ cs) T := by
    refine h.opened ⟨fun c hc => ?_, fun c hc => ?_⟩
    · rw [hindent c hc]
      rfl
    · rw [hindent c (List.mem_of_getLast? hc)]
      rfl
  have hcomment {body : List Char} (hbody : Scan.Comment body) {cs : List Char} (h : Spells cs T) :
      Spells ('/' :: (body ++ '*' :: '/' :: cs)) T := by
    refine ⟨?_, fun hword => h.words ?_⟩
    · have hsplit : '/' :: (body ++ '*' :: '/' :: cs) = ('/' :: (body ++ ['*', '/'])) ++ cs := by
        simp
      rw [hsplit, Place.after_append, hbody.closed.after, h.ends]
    · rwa [tokens_comment_append hbody] at hword
  rw [Setting.comment]
  split
  · rcases Declaration.docComment_eq texts indent hindent with hnone | ⟨body, hbody, htext⟩
    · rw [hnone]
      exact h
    · have hsplit : (Declaration.docComment texts indent).toList ++ cs =
          indent.toList ++ '/' :: (body ++ '*' :: '/' :: (['\n'] ++ cs)) := by simp [htext]
      rw [hsplit]
      exact hblank (hcomment hbody (h.opened (by decide)))
  · exact h

/-! ### Values and keys -/

section Values

variable {T : String → Prop}

theorem Text.spells_quote (text : String) : Spells (quote text).toList T := by
  refine ⟨(closed_quote text).after, fun hword => ?_⟩
  rw [tokens_quote] at hword
  cases hword

/-- A numeral spells nothing. -/
theorem IsNumeral.spells {text : String} (h : IsNumeral text) : Spells text.toList T := by
  have hsigns : ∀ c ∈ ['-', '.', '+', 'e'], isQuiet c = true := by decide
  have hspecial : ∀ c ∈ ['"', '/'], Text.isAsciiDigit c = false := by decide
  refine .of_quiet fun c hc => (h c hc).elim (fun hdigit => ?_) (hsigns c)
  have hne : c ∉ ['"', '/'] := fun hmem => by
    rw [hspecial c hmem] at hdigit
    cases hdigit
  simp only [List.mem_cons, List.not_mem_nil, or_false, not_or] at hne
  simp [isQuiet, hdigit, hne]

namespace Json

mutual

/-- The text of a value spells nothing. -/
theorem spells_compact : (value : Json) → Spells value.compact.toList T
  | .null => .of_quiet (by decide)
  | .bool true => .of_quiet (by decide)
  | .bool false => .of_quiet (by decide)
  | .number n => (numeral_number n).1.spells
  | .string s => Text.spells_quote s
  | .array elements => by
      have helements : Spells (",".intercalate (compactElements elements)).toList T :=
        .intercalate (spells_compactElements elements) (by decide)
      have hopens : Opens ['['] := by decide
      rw [toList_compact_array]
      exact (helements.closed (by decide)).opened hopens
  | .object members => by
      have hmembers : Spells (",".intercalate (compactMembers members)).toList T :=
        .intercalate (spells_compactMembers members) (by decide)
      have hopens : Opens ['\x7b'] := by decide
      rw [toList_compact_object]
      exact (hmembers.closed (by decide)).opened hopens

private theorem spells_compactElements :
    (elements : List Json) → ∀ t ∈ compactElements elements, Spells t.toList T
  | [] => nofun
  | value :: rest =>
      List.forall_mem_cons.mpr ⟨spells_compact value, spells_compactElements rest⟩

private theorem spells_compactMembers :
    (members : List (String × Json)) → ∀ t ∈ compactMembers members, Spells t.toList T
  | [] => nofun
  | (key, value) :: rest => by
      refine List.forall_mem_cons.mpr ⟨?_, spells_compactMembers rest⟩
      rw [String.toList_append, String.toList_append]
      exact ((Text.spells_quote key).closed (by decide)).append_of_ends
        (spells_compact value) (EndsApart.append (by decide) (by decide) _)

end

theorem spells_literalText (value : Json) : Spells value.literalText.toList T := by
  unfold literalText
  split
  · exact .of_quiet (by decide)
  · exact .of_quiet (by decide)
  · exact spells_compact value

end Json

/-- The characters of an identifier are those of words. -/
theorem Lexis.isNameChar_of_isIdentifier {name : String} (h : Naming.isIdentifier name = true) :
    ∀ c ∈ name.toList, isNameChar c = true := fun c hc => by
  rw [isNameChar, Naming.isIdentifierPart_of_mem h c hc, Bool.true_or]

/-- A key with the colon after it, with or without a question mark, spells nothing. -/
theorem NamingRules.spells_fieldName (rules : NamingRules) (raw : String) {mark : List Char}
    (hmark : mark ∈ [": ".toList, "?: ".toList]) :
    Spells ((rules.fieldName raw).toList ++ mark) T := by
  have hmarks : ∀ mark ∈ [": ".toList, "?: ".toList],
      Closes mark ∧ labels (tokens mark) = true := by decide
  obtain ⟨hcloses, hlabels⟩ := hmarks mark hmark
  have hkey : ∀ name : String,
      Spells ((if Naming.isIdentifier name then name else Text.quote name).toList ++ mark) T := by
    intro name
    split
    · next h => exact .label (isNameChar_of_isIdentifier h) hcloses hlabels
    · exact (Text.spells_quote name).closed hcloses
  exact hkey _

end Values

end OpenApiTs
