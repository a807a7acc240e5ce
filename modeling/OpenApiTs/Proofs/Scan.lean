import Mathlib.Tactic.Common
import OpenApiTs.TypeUse

/-!
# Scanning of type texts

A scanner goes through a text character by character and knows whether it stands in code, in a text
between quotation marks or in a comment, and how deep in brackets. A text is closed if the scanner
comes back to code at the depth from which it started, and never goes above it. Closed texts can be
put together.

## Main definitions

* `Scan`, `Scan.step`, `Scan.scan`: the scanner.
* `Scan.Along`: what holds all along a scan.
* `Closed`: closed texts, with or without comments.
* `Scan.Comment`: texts that do not end the comment in which they stand.
* `Text.uncommented`: a text without the comment at its start.

## Main results

* `Closed.append`, `Closed.bracket`, `Closed.intercalate`: closed texts are put together from closed
  texts.
* `Closed.of_append`: a closed text stays closed without an end that the scanner passes over.
* `Scan.Comment.closed`, `Scan.Comment.uncommented`: comments are closed, and can be skipped.
-/

namespace OpenApiTs

/-- What is said of the characters of a text is decided for these, not for all characters. -/
instance Text.decidableForallMem {P : Char → Prop} [DecidablePred P] (cs : List Char) :
    Decidable (∀ c ∈ cs, P c) :=
  List.decidableBAll P cs

/-- What holds of the characters of texts, and of what is put between them, holds of the joined
text. -/
theorem Text.forall_mem_intercalate {P : Char → Prop} {separator : List Char}
    (hs : ∀ c ∈ separator, P c) {texts : List (List Char)} (h : ∀ t ∈ texts, ∀ c ∈ t, P c) :
    ∀ c ∈ separator.intercalate texts, P c := by
  induction texts with
  | nil => exact nofun
  | cons t rest ih =>
    obtain ⟨ht, hrest⟩ := List.forall_mem_cons.mp h
    cases rest with
    | nil =>
      rw [List.intercalate_singleton]
      exact ht
    | cons u rest =>
      rw [List.intercalate_cons_cons, List.append_assoc]
      exact List.forall_mem_append.mpr ⟨ht, List.forall_mem_append.mpr ⟨hs, ih hrest⟩⟩

/-! ### The scanner -/

/-- Where a scanner stands: in code, in a text, after a backslash in a text, in a comment, and after
an asterisk in a comment. In code, only a comment has a slash. -/
inductive Scan.Place where
  | code
  | text
  | escape
  | comment
  | star
  deriving DecidableEq, Repr

/-- Whether a place is in a comment. -/
def Scan.Place.isComment : Place → Bool
  | .comment | .star => true
  | .code | .text | .escape => false

/-- A scanner with the depth of brackets around it. -/
structure Scan where
  place : Scan.Place := .code
  depth : Int := 0
  deriving DecidableEq, Repr

namespace Scan

/-- The characters that open a bracket. -/
def opening : List Char := ['\x7b', '(', '[', '<']

/-- The characters that close a bracket. -/
def closing : List Char := ['\x7d', ')', ']', '>']

/-- The scanner after one more character. -/
def step (s : Scan) (c : Char) : Scan :=
  match s.place with
  | .code =>
    if c = '"' then ⟨.text, s.depth⟩
    else if c = '/' then ⟨.comment, s.depth⟩
    else if c ∈ opening then ⟨.code, s.depth + 1⟩
    else if c ∈ closing then ⟨.code, s.depth - 1⟩
    else s
  | .text =>
    if c = '\\' then ⟨.escape, s.depth⟩
    else if c = '"' then ⟨.code, s.depth⟩
    else s
  | .escape => ⟨.text, s.depth⟩
  | .comment => if c = '*' then ⟨.star, s.depth⟩ else s
  | .star =>
    if c = '/' then ⟨.code, s.depth⟩
    else if c = '*' then s
    else ⟨.comment, s.depth⟩

/-- The scanner after a text. -/
def scan (s : Scan) (cs : List Char) : Scan := cs.foldl step s

@[simp] theorem scan_nil (s : Scan) : s.scan [] = s := rfl

@[simp] theorem scan_cons (s : Scan) (c : Char) (cs : List Char) :
    s.scan (c :: cs) = (s.step c).scan cs := rfl

theorem scan_append (s : Scan) (as bs : List Char) : s.scan (as ++ bs) = (s.scan as).scan bs :=
  List.foldl_append

/-- The scanner has a property at the start of a text and after each of its characters. -/
def Along (Q : Scan → Prop) : Scan → List Char → Prop
  | s, [] => Q s
  | s, c :: cs => Q s ∧ Along Q (s.step c) cs

section Along

variable {Q R : Scan → Prop} {s : Scan}

theorem Along.start : {cs : List Char} → Along Q s cs → Q s
  | [], h => h
  | _ :: _, h => h.1

theorem along_append :
    {as bs : List Char} → {s : Scan} →
      (Along Q s (as ++ bs) ↔ Along Q s as ∧ Along Q (s.scan as) bs)
  | [], bs, s => ⟨fun h => ⟨h.start, h⟩, And.right⟩
  | c :: as, bs, s => by
      rw [List.cons_append, Along, Along, along_append, scan_cons, and_assoc]

theorem Along.mono (h : ∀ s, Q s → R s) :
    {cs : List Char} → {s : Scan} → Along Q s cs → Along R s cs
  | [], s, hs => h s hs
  | _ :: _, s, hs => ⟨h s hs.1, Along.mono h hs.2⟩

end Along

/-- The characters that mean something to the scanner in code. -/
def special : List Char := '"' :: '/' :: (opening ++ closing)

theorem step_code_of_not_special {d : Int} {c : Char} (h : c ∉ special) :
    step ⟨.code, d⟩ c = ⟨.code, d⟩ := by
  simp only [special, List.mem_cons, List.mem_append, not_or] at h
  obtain ⟨hquote, hslash, hopening, hclosing⟩ := h
  rw [step, if_neg hquote, if_neg hslash, if_neg hopening, if_neg hclosing]

theorem step_code_of_opening {d : Int} {c : Char} (h : c ∈ opening) :
    step ⟨.code, d⟩ c = ⟨.code, d + 1⟩ := by
  simp only [opening, List.mem_cons, List.not_mem_nil, or_false] at h
  rcases h with rfl | rfl | rfl | rfl <;> rfl

theorem step_code_of_closing {d : Int} {c : Char} (h : c ∈ closing) :
    step ⟨.code, d⟩ c = ⟨.code, d - 1⟩ := by
  simp only [closing, List.mem_cons, List.not_mem_nil, or_false] at h
  rcases h with rfl | rfl | rfl | rfl <;> rfl

theorem step_text_of_ne {d : Int} {c : Char} (hquote : c ≠ '"') (hescape : c ≠ '\\') :
    step ⟨.text, d⟩ c = ⟨.text, d⟩ := by
  change (if c = '\\' then _ else if c = '"' then _ else _) = _
  rw [if_neg hescape, if_neg hquote]

/-- Without quotation marks and backslashes, a text that has begun goes on. -/
theorem scan_text {cs : List Char} (h : ∀ c ∈ cs, c ∉ '\\' :: special) {d : Int} :
    scan ⟨.text, d⟩ cs = ⟨.text, d⟩ := by
  induction cs with
  | nil => rfl
  | cons c cs ih =>
    have hc := h c List.mem_cons_self
    simp only [special, List.mem_cons, not_or] at hc
    rw [scan_cons, step_text_of_ne hc.2.1 hc.1]
    exact ih fun d hd => h d (List.mem_cons_of_mem c hd)

end Scan

open Scan (Along)

/-! ### Closed texts -/

/-- From code at any depth, the scanner comes back to code at that depth and never goes above it;
it meets comments only if they are allowed. -/
def Closed (comments : Bool) (cs : List Char) : Prop :=
  ∀ d, Scan.scan ⟨.code, d⟩ cs = ⟨.code, d⟩ ∧
    Along (fun s => d ≤ s.depth ∧ (s.place.isComment = true → comments = true)) ⟨.code, d⟩ cs

namespace Closed

variable {comments : Bool} {as bs cs : List Char}

theorem nil : Closed comments [] := fun d => ⟨rfl, Int.le_refl d, nofun⟩

theorem append (ha : Closed comments as) (hb : Closed comments bs) :
    Closed comments (as ++ bs) := by
  intro d
  obtain ⟨ha, hasAlong⟩ := ha d
  obtain ⟨hb, hbsAlong⟩ := hb d
  refine ⟨by rw [Scan.scan_append, ha, hb], Scan.along_append.mpr ⟨hasAlong, ?_⟩⟩
  rw [ha]
  exact hbsAlong

/-- A character that the scanner passes over. -/
theorem cons {c : Char} (hc : c ∉ Scan.special) (h : Closed comments cs) :
    Closed comments (c :: cs) := by
  intro d
  obtain ⟨hscan, halong⟩ := h d
  rw [Scan.scan_cons, Along, Scan.step_code_of_not_special hc]
  exact ⟨hscan, ⟨Int.le_refl d, nofun⟩, halong⟩

theorem of_forall_not_special (h : ∀ c ∈ cs, c ∉ Scan.special) : Closed comments cs := by
  induction cs with
  | nil => exact nil
  | cons c cs ih =>
    exact cons (h c List.mem_cons_self) (ih fun d hd => h d (List.mem_cons_of_mem c hd))

/-- A closed text between brackets. -/
theorem bracket {c c' : Char} (hc : c ∈ Scan.opening) (hc' : c' ∈ Scan.closing)
    (h : Closed comments cs) : Closed comments (c :: (cs ++ [c'])) := by
  intro d
  obtain ⟨hscan, halong⟩ := h (d + 1)
  have hend : Scan.scan ⟨.code, d⟩ (c :: (cs ++ [c'])) = ⟨.code, d⟩ := by
    rw [Scan.scan_cons, Scan.step_code_of_opening hc, Scan.scan_append, hscan, Scan.scan_cons,
      Scan.step_code_of_closing hc', Scan.scan_nil, Int.add_sub_cancel]
  refine ⟨hend, ⟨Int.le_refl d, nofun⟩, ?_⟩
  rw [Scan.step_code_of_opening hc]
  refine Scan.along_append.mpr ⟨halong.mono fun s hs => ⟨by omega, hs.2⟩, ?_⟩
  rw [hscan]
  refine ⟨⟨by change d ≤ d + 1; omega, nofun⟩, ?_⟩
  rw [Scan.step_code_of_closing hc']
  exact ⟨by change d ≤ d + 1 - 1; omega, nofun⟩

theorem allow (h : Closed false cs) : Closed comments cs := fun d =>
  ⟨(h d).1, (h d).2.mono fun _ hs => ⟨hs.1, fun hc => absurd (hs.2 hc) Bool.false_ne_true⟩⟩

theorem flatten {texts : List (List Char)} (h : ∀ t ∈ texts, Closed comments t) :
    Closed comments texts.flatten := by
  induction texts with
  | nil => exact nil
  | cons t rest ih =>
    exact (h t List.mem_cons_self).append (ih fun u hu => h u (List.mem_cons_of_mem t hu))

theorem intercalate {separator : List Char} (hs : Closed comments separator)
    {texts : List (List Char)} (h : ∀ t ∈ texts, Closed comments t) :
    Closed comments (separator.intercalate texts) := by
  induction texts with
  | nil => exact nil
  | cons t rest ih =>
    have ht : Closed comments t := h t List.mem_cons_self
    have hrest := ih fun u hu => h u (List.mem_cons_of_mem t hu)
    cases rest with
    | nil =>
      rw [List.intercalate_singleton]
      exact ht
    | cons u rest =>
      rw [List.intercalate_cons_cons, List.append_assoc]
      exact ht.append (hs.append hrest)

/-- Without an end that the scanner passes over everywhere, a closed text is closed. -/
theorem of_append (h : Closed false (as ++ bs)) (hb : ∀ c ∈ bs, c ∉ '\\' :: Scan.special)
    (hne : bs ≠ []) : Closed false as := by
  intro d
  obtain ⟨hscan, halong⟩ := h d
  obtain ⟨ha, hend⟩ := Scan.along_append.mp halong
  refine ⟨?_, ha⟩
  rw [Scan.scan_append] at hscan
  generalize Scan.scan ⟨.code, d⟩ as = s at hscan hend ⊢
  obtain ⟨place, depth⟩ := s
  cases place with
  | code =>
    have hpass : Closed false bs :=
      of_forall_not_special fun c hc => mt (List.mem_cons_of_mem _) (hb c hc)
    rw [(hpass depth).1] at hscan
    exact hscan
  | comment | star => exact absurd (hend.start.2 rfl) Bool.false_ne_true
  | text =>
    rw [Scan.scan_text hb] at hscan
    cases hscan
  | escape =>
    obtain ⟨c, rest, rfl⟩ := List.exists_cons_of_ne_nil hne
    change Scan.scan ⟨.text, depth⟩ rest = _ at hscan
    rw [Scan.scan_text fun d hd => hb d (List.mem_cons_of_mem c hd)] at hscan
    cases hscan

end Closed

/-! ### Comments -/

namespace Scan

/-- The scanner is in a comment at a depth. -/
def InComment (d : Int) (s : Scan) : Prop := s.depth = d ∧ s.place.isComment = true

/-- A text that the scanner goes through without leaving the comment that it is in, and after which
no asterisk can end the comment at once. -/
def Comment (cs : List Char) : Prop :=
  ∀ d, scan ⟨.comment, d⟩ cs = ⟨.comment, d⟩ ∧ Along (InComment d) ⟨.comment, d⟩ cs

theorem Along.last {Q : Scan → Prop} : {cs : List Char} → {s : Scan} → Along Q s cs → Q (s.scan cs)
  | [], _, h => h
  | c :: cs, s, h => (Along.last h.2 : Q ((s.step c).scan cs))

/-- A character that is no asterisk, and no slash after one, leaves the scanner in the comment. -/
theorem InComment.step {d : Int} {s : Scan} (h : InComment d s) {c : Char} (hstar : c ≠ '*')
    (hslash : c ≠ '/') : s.step c = ⟨.comment, d⟩ := by
  obtain ⟨place, depth⟩ := s
  obtain ⟨rfl, hplace⟩ := h
  cases place with
  | comment => exact if_neg hstar
  | star => exact (if_neg hslash).trans (if_neg hstar)
  | code | text | escape => cases hplace

namespace Comment

variable {as bs cs : List Char}

theorem nil : Comment [] := fun _ => ⟨rfl, rfl, rfl⟩

theorem append (ha : Comment as) (hb : Comment bs) : Comment (as ++ bs) := by
  intro d
  obtain ⟨ha, hasAlong⟩ := ha d
  obtain ⟨hb, hbsAlong⟩ := hb d
  refine ⟨by rw [scan_append, ha, hb], along_append.mpr ⟨hasAlong, ?_⟩⟩
  rw [ha]
  exact hbsAlong

/-- A text that stays in the comment, with a character after it that is no asterisk or slash. -/
theorem append_singleton (h : ∀ d, Along (InComment d) ⟨.comment, d⟩ cs) {c : Char}
    (hstar : c ≠ '*') (hslash : c ≠ '/') : Comment (cs ++ [c]) := by
  intro d
  have hstep := (h d).last.step hstar hslash
  rw [scan_append, along_append, Along, scan_cons, hstep]
  exact ⟨rfl, h d, (h d).last, rfl, rfl⟩

theorem of_forall (h : ∀ c ∈ cs, c ≠ '*' ∧ c ≠ '/') : Comment cs := by
  intro d
  have hin : InComment d ⟨.comment, d⟩ := ⟨rfl, rfl⟩
  induction cs with
  | nil => exact nil d
  | cons c cs ih =>
    obtain ⟨hstar, hslash⟩ := h c List.mem_cons_self
    obtain ⟨hscan, halong⟩ := ih fun c hc => h c (List.mem_cons_of_mem _ hc)
    rw [scan_cons, Along, hin.step hstar hslash]
    exact ⟨hscan, hin, halong⟩

theorem flatten {texts : List (List Char)} (h : ∀ t ∈ texts, Comment t) :
    Comment texts.flatten := by
  induction texts with
  | nil => exact nil
  | cons t rest ih =>
    exact (h t List.mem_cons_self).append (ih fun u hu => h u (List.mem_cons_of_mem t hu))

/-- A comment is closed. -/
theorem closed (h : Comment cs) : Closed true ('/' :: (cs ++ ['*', '/'])) := by
  intro d
  obtain ⟨hscan, halong⟩ := h d
  rw [scan_cons, Along]
  change scan ⟨.comment, d⟩ _ = _ ∧ _ ∧ Along _ ⟨.comment, d⟩ _
  rw [scan_append, along_append, hscan]
  exact ⟨rfl, ⟨Int.le_refl d, nofun⟩,
    halong.mono fun s hs => ⟨Int.le_of_eq hs.1.symm, fun _ => rfl⟩,
    ⟨Int.le_refl d, fun _ => rfl⟩, ⟨Int.le_refl d, fun _ => rfl⟩, Int.le_refl d, nofun⟩

end Comment

/-- What follows the comment that the scanner is in. -/
def leave : Scan → List Char → List Char
  | _, [] => []
  | s, c :: cs => if (s.step c).place.isComment then leave (s.step c) cs else cs

theorem leave_append {d : Int} :
    {as bs : List Char} → {s : Scan} → Along (InComment d) s as →
      leave s (as ++ bs) = leave (s.scan as) bs
  | [], _, _, _ => rfl
  | c :: as, bs, s, h => by
      rw [List.cons_append, leave, if_pos h.2.start.2, leave_append h.2, scan_cons]

end Scan

/-- A text without the comment at its start. -/
def Text.uncommented : List Char → List Char
  | [] => []
  | c :: cs => if c = '/' then Scan.leave ⟨.comment, 0⟩ cs else c :: cs

theorem Scan.Comment.uncommented {cs : List Char} (h : Scan.Comment cs) (rest : List Char) :
    Text.uncommented ('/' :: (cs ++ '*' :: '/' :: rest)) = rest := by
  rw [Text.uncommented, if_pos rfl, Scan.leave_append (h 0).2, (h 0).1]
  rfl

end OpenApiTs
