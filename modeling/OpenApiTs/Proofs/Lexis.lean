import OpenApiTs.Proofs.Names
import OpenApiTs.Proofs.Printing

/-!
# Words in type position

The text of a declaration is cut into words and marks. Comments and texts between quotation marks
leave nothing, and blanks only separate. A word stands for a type unless it is a key, a member, or
the name that is declared: such a word follows a word that declares, or is followed by a colon, a
question mark or an equals sign.

## Main definitions

* `Scan.Place.next`, `Scan.Place.after`: the places of the scanner, without the depth of brackets.
* `Lexis.Token`, `Lexis.tokens`: the words and marks of a text.
* `Lexis.typeWords`: the words in type position.

## Main results

* `Lexis.tokens_append`: texts that are not joined inside a word have the tokens of both.
* `Lexis.tokensFrom_of_along`: comments and texts between quotation marks have no tokens.
* `Lexis.typeWordsFrom_append_subset`: a part of a text has all words that are in type position in
  the whole.
-/

namespace OpenApiTs

/-! ### Places of the scanner -/

namespace Scan

/-- The place after one more character, which does not depend on the depth of brackets. -/
def Place.next (place : Place) (c : Char) : Place := (step ⟨place, 0⟩ c).place

/-- The place after a text. -/
def Place.after (place : Place) (cs : List Char) : Place := cs.foldl next place

theorem place_step (s : Scan) (c : Char) : (s.step c).place = s.place.next c := by
  obtain ⟨place, depth⟩ := s
  cases place <;> unfold Place.next step <;> dsimp only <;> split_ifs <;> rfl

theorem place_scan (s : Scan) (cs : List Char) : (s.scan cs).place = s.place.after cs := by
  induction cs generalizing s with
  | nil => rfl
  | cons c cs ih => rw [scan_cons, ih, place_step, Place.after, Place.after, List.foldl_cons]

theorem Place.after_append (place : Place) (as bs : List Char) :
    place.after (as ++ bs) = (place.after as).after bs := List.foldl_append

/-- Outside of code, only a quotation mark and a slash lead back. -/
theorem Place.code_of_next {place : Place} {c : Char} (hquote : c ≠ '"') (hslash : c ≠ '/')
    (h : place.next c = .code) : place = .code := by
  unfold next step at h
  cases place with
  | code => rfl
  | text =>
    dsimp only at h
    rw [if_neg hquote] at h
    split at h <;> cases h
  | escape => cases h
  | comment =>
    dsimp only at h
    split at h <;> cases h
  | star =>
    dsimp only at h
    rw [if_neg hslash] at h
    split at h <;> cases h

theorem Place.code_of_after {cs : List Char} (hcs : ∀ c ∈ cs, c ≠ '"' ∧ c ≠ '/')
    {place : Place} (h : place.after cs = .code) : place = .code := by
  induction cs generalizing place with
  | nil => exact h
  | cons c cs ih =>
    obtain ⟨⟨hquote, hslash⟩, hcs⟩ := List.forall_mem_cons.mp hcs
    exact code_of_next hquote hslash (ih hcs h)

end Scan

theorem Closed.after {comments : Bool} {cs : List Char} (h : Closed comments cs) :
    Scan.Place.code.after cs = .code := by
  rw [show Scan.Place.code = (⟨.code, 0⟩ : Scan).place from rfl, ← Scan.place_scan, (h 0).1]

namespace Lexis

open Scan (Place)

/-! ### Tokens -/

/-- A character of a word: one of an identifier of ASCII, or any other beyond ASCII that is no
blank. -/
def isNameChar (c : Char) : Bool :=
  Naming.isIdentifierPart c || (128 ≤ c.toNat && !Text.isBlank c)

/-- A word, or a character between words. -/
inductive Token where
  | word (text : String)
  | mark (c : Char)
  deriving DecidableEq, Repr

/-- The word that has been read, unless it is empty. -/
def flush : List Char → List Token
  | [] => []
  | cs => [.word (String.ofList cs)]

/-- The mark that a character is at a place. -/
def markOf (place : Place) (c : Char) : List Token :=
  if place = .code ∧ Text.isBlank c = false ∧ c ∉ ['"', '/'] then [.mark c] else []

/-- The tokens of the rest of a text at a place, after the beginning of a word. -/
def tokensFrom : Place → List Char → List Char → List Token
  | _, word, [] => flush word
  | place, word, c :: cs =>
    if place = .code ∧ isNameChar c = true then tokensFrom .code (word ++ [c]) cs
    else flush word ++ (markOf place c ++ tokensFrom (place.next c) [] cs)

/-- The tokens of a text. -/
def tokens (cs : List Char) : List Token := tokensFrom .code [] cs

/-- No word goes on from the end of one text into the other. -/
def Apart (as bs : List Char) : Prop :=
  (∀ c ∈ as.getLast?, isNameChar c = false) ∨ ∀ c ∈ bs.head?, isNameChar c = false

theorem next_code_of_isNameChar {c : Char} (hc : isNameChar c = true) :
    Place.code.next c = .code := by
  have hspecial : ∀ c ∈ Scan.special, isNameChar c = false := by decide
  have hstep := Scan.step_code_of_not_special (d := 0) (c := c) fun hmem => by
    rw [hspecial c hmem] at hc
    cases hc
  rw [Place.next, hstep]

/-- The tokens of texts with no word across. The induction is on the first text: the word that has
been read so far is the end of what is read. -/
private theorem tokensFrom_append (bs : List Char) :
    (as : List Char) → {place : Place} → {word : List Char} →
      (∀ c ∈ word, isNameChar c = true) → place.after as = .code → Apart (word ++ as) bs →
      tokensFrom place word (as ++ bs) = tokensFrom place word as ++ tokensFrom .code [] bs
  | [], place, word, hword, hplace, hapart => by
      obtain rfl : place = .code := hplace
      rw [List.append_nil] at hapart
      rw [List.nil_append, tokensFrom]
      rcases hapart with hlast | hhead
      · cases hend : word.getLast? with
        | none =>
          rw [List.getLast?_eq_none_iff.mp hend]
          rfl
        | some c =>
          have hc := hword c (List.mem_of_getLast? hend)
          rw [hlast c hend] at hc
          cases hc
      · cases bs with
        | nil => exact (List.append_nil _).symm
        | cons c bs =>
          have hc : isNameChar c = false := hhead c rfl
          simp only [tokensFrom, hc, Bool.false_eq_true, and_false, if_false, flush,
            List.nil_append]
  | c :: as, place, word, hword, hplace, hapart => by
      rw [List.cons_append, tokensFrom, tokensFrom]
      split
      · next hc =>
        refine tokensFrom_append bs as ?_ ?_ ?_
        · exact List.forall_mem_append.mpr ⟨hword, List.forall_mem_singleton.mpr hc.2⟩
        · rw [Place.after, List.foldl_cons, hc.1, next_code_of_isNameChar hc.2] at hplace
          exact hplace
        · rwa [List.append_assoc]
      · rw [tokensFrom_append bs as (List.forall_mem_nil _) hplace, List.append_assoc,
          List.append_assoc]
        refine hapart.imp_left fun hlast d hd => hlast d ?_
        rw [List.nil_append] at hd
        rw [List.getLast?_append, List.getLast?_cons, hd]
        rfl

theorem tokens_append {as bs : List Char} (ha : Place.code.after as = .code)
    (hapart : Apart as bs) : tokens (as ++ bs) = tokens as ++ tokens bs :=
  tokensFrom_append bs as (List.forall_mem_nil _) ha hapart

/-- A text of characters of words is a word. -/
private theorem tokensFrom_word :
    {cs : List Char} → {word : List Char} → (∀ c ∈ cs, isNameChar c = true) →
      tokensFrom .code word cs = flush (word ++ cs)
  | [], word, _ => by rw [List.append_nil, tokensFrom]
  | c :: cs, word, h => by
      obtain ⟨hc, hcs⟩ := List.forall_mem_cons.mp h
      rw [tokensFrom, if_pos ⟨rfl, hc⟩, tokensFrom_word hcs, List.append_assoc]
      rfl

theorem tokens_word {cs : List Char} (h : ∀ c ∈ cs, isNameChar c = true) (hne : cs ≠ []) :
    tokens cs = [.word (String.ofList cs)] := by
  obtain ⟨c, rest, rfl⟩ := List.exists_cons_of_ne_nil hne
  exact tokensFrom_word h

private theorem subset_of_word_mem_flush {text : String} {word : List Char}
    (h : .word text ∈ flush word) : text.toList ⊆ word := by
  cases word with
  | nil => cases h
  | cons c word =>
    cases List.mem_singleton.mp h
    rw [String.toList_ofList]
    exact List.Subset.refl _

/-- A word is made of characters of the text. -/
private theorem subset_of_word_mem_tokensFrom {text : String} :
    {cs : List Char} → {place : Place} → {word : List Char} →
      .word text ∈ tokensFrom place word cs → text.toList ⊆ word ++ cs.filter isNameChar
  | [], place, word, h => by
      rw [tokensFrom] at h
      rw [List.filter_nil, List.append_nil]
      exact subset_of_word_mem_flush h
  | c :: cs, place, word, h => by
      rw [tokensFrom] at h
      split at h
      · next hc =>
        have hsub := subset_of_word_mem_tokensFrom h
        rw [List.append_assoc, List.singleton_append] at hsub
        rw [List.filter_cons_of_pos hc.2]
        exact hsub
      · rcases List.mem_append.mp h with hmem | h
        · exact List.subset_append_of_subset_left _ (subset_of_word_mem_flush hmem)
        · rcases List.mem_append.mp h with hmem | h
          · unfold markOf at hmem
            split at hmem
            · cases List.mem_singleton.mp hmem
            · cases hmem
          · have hsub := subset_of_word_mem_tokensFrom h
            rw [List.nil_append] at hsub
            refine List.subset_append_of_subset_right _ (List.Subset.trans hsub ?_)
            exact ((List.sublist_cons_self c cs).filter _).subset

theorem subset_of_word_mem_tokens {text : String} {cs : List Char} (h : .word text ∈ tokens cs) :
    text.toList ⊆ cs.filter isNameChar :=
  subset_of_word_mem_tokensFrom h

/-- Outside of code there are no tokens. -/
theorem tokensFrom_of_along {Q : Scan → Prop} (hQ : ∀ s, Q s → s.place ≠ .code) :
    {cs : List Char} → {s : Scan} → Scan.Along Q s cs → (rest : List Char) →
      tokensFrom s.place [] (cs ++ rest) = tokensFrom (s.place.after cs) [] rest
  | [], _, _, _ => rfl
  | c :: cs, s, h, rest => by
      have hplace := hQ s h.1
      have hmark : markOf s.place c = [] := if_neg fun hm => hplace hm.1
      have hrest := tokensFrom_of_along hQ h.2 rest
      rw [Scan.place_step] at hrest
      rw [List.cons_append, tokensFrom, if_neg fun hc => hplace hc.1, hmark]
      exact hrest

/-! ### Words in type position -/

/-- The words that declare the word after them. -/
def declaring : List String := ["enum", "interface", "type"]

/-- Whether tokens begin with a mark that makes the word before them a key, a member or a declared
name. -/
def labels : List Token → Bool
  | .mark c :: _ => c == ':' || c == '?' || c == '='
  | _ => false

/-- The words in type position, after a word that declares or not. -/
def typeWordsFrom : Bool → List Token → List String
  | _, [] => []
  | _, .mark _ :: rest => typeWordsFrom false rest
  | declares, .word text :: rest =>
    let others := typeWordsFrom (declaring.contains text) rest
    if declares || labels rest then others else text :: others

/-- The words of a text that stand in type position. -/
def typeWords (text : String) : List String := typeWordsFrom false (tokens text.toList)

variable {word : String} {ts us : List Token}

theorem word_mem_of_mem_typeWordsFrom :
    {ts : List Token} → {declares : Bool} → word ∈ typeWordsFrom declares ts → .word word ∈ ts
  | .mark _ :: _, _, h => List.mem_cons_of_mem _ (word_mem_of_mem_typeWordsFrom h)
  | .word text :: rest, declares, h => by
      rw [typeWordsFrom] at h
      split at h
      · exact List.mem_cons_of_mem _ (word_mem_of_mem_typeWordsFrom h)
      · rcases List.mem_cons.mp h with rfl | h
        · exact List.mem_cons_self
        · exact List.mem_cons_of_mem _ (word_mem_of_mem_typeWordsFrom h)

/-- Without the tokens around them, fewer words are found to be no types. -/
theorem typeWordsFrom_append_subset :
    {ts : List Token} → {declares : Bool} → word ∈ typeWordsFrom declares (ts ++ us) →
      word ∈ typeWordsFrom declares ts ∨ word ∈ typeWordsFrom false us
  | [], declares, h => by
      refine .inr ?_
      cases us with
      | nil => cases h
      | cons token us =>
        cases token with
        | mark c => exact h
        | word text =>
          rw [List.nil_append, typeWordsFrom] at h
          rw [typeWordsFrom, Bool.false_or]
          cases hlabels : labels us <;> cases declares <;> rw [hlabels] at h <;>
            first | exact h | exact List.mem_cons_of_mem _ h
  | .mark _ :: ts, _, h => by
      have hrest : word ∈ typeWordsFrom false ts ∨ word ∈ typeWordsFrom false us :=
        typeWordsFrom_append_subset h
      exact hrest
  | .word text :: ts, declares, h => by
      have hlabels : labels ts = true → labels (ts ++ us) = true := by
        intro hts
        cases ts with
        | nil => cases hts
        | cons token ts => cases token <;> exact hts
      rw [List.cons_append, typeWordsFrom] at h
      rw [typeWordsFrom]
      by_cases hskip : (declares || labels ts) = true
      · have hskip' : (declares || labels (ts ++ us)) = true := by
          rw [Bool.or_eq_true] at hskip ⊢
          exact hskip.imp_right hlabels
        rw [if_pos hskip'] at h
        rw [if_pos hskip]
        exact typeWordsFrom_append_subset h
      · rw [if_neg hskip]
        split at h
        · exact (typeWordsFrom_append_subset h).imp_left (List.mem_cons_of_mem _)
        · rcases List.mem_cons.mp h with rfl | h
          · exact .inl List.mem_cons_self
          · exact (typeWordsFrom_append_subset h).imp_left (List.mem_cons_of_mem _)

/-- A mark that is no label leaves the words before it in type position. -/
theorem mem_typeWordsFrom_append {c : Char} (hc : labels [.mark c] = false) :
    {ts : List Token} → {declares : Bool} → word ∈ typeWordsFrom declares ts →
      word ∈ typeWordsFrom declares (ts ++ .mark c :: us)
  | .mark _ :: ts, _, h => by
      have hrest : word ∈ typeWordsFrom false (ts ++ .mark c :: us) :=
        mem_typeWordsFrom_append hc h
      exact hrest
  | .word text :: ts, declares, h => by
      have hlabels : labels (ts ++ .mark c :: us) = labels ts := by
        cases ts with
        | nil => exact hc
        | cons token ts => cases token <;> rfl
      rw [typeWordsFrom] at h
      rw [List.cons_append, typeWordsFrom, hlabels]
      split at h
      · next hskip =>
        rw [if_pos hskip]
        exact mem_typeWordsFrom_append hc h
      · next hskip =>
        rw [if_neg hskip]
        rcases List.mem_cons.mp h with rfl | h
        · exact List.mem_cons_self
        · exact List.mem_cons_of_mem _ (mem_typeWordsFrom_append hc h)

end Lexis

end OpenApiTs
