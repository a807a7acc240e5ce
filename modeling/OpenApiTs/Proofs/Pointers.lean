import Mathlib.Data.List.Basic
import OpenApiTs.Pointer

/-!
# Pointers lead where they are built for

A pointer that is extended by a segment leads to the part of the value that the segment stands for:
the written form of a segment is read back, and has no slash to be cut at. The segment of a position
leads to the element at that position. A pointer whose tildes are all escaped is built of what its
segments are read as, and a position has one segment only.

## Main definitions

* `Pointer.TildesEscaped`, `Pointer.IsEscaped`: texts and pointers in which every tilde is escaped.

## Main results

* `Pointer.unescape_escape`: the written form of a segment is read back.
* `Pointer.escape_unescape`: an escaped segment is the written form of what it is read as.
* `Pointer.eq_of_segments`: plain segments are written in one way only.
* `Pointer.isEscaped_iff_eq_descend`, `Pointer.eq_of_isEscaped`: so are escaped ones.
* `Pointer.pieces_child`: a pointer with one more segment has one more piece.
* `Pointer.lookup?_child`: a look-up with one more segment is one step more.
* `Pointer.index?_repr`, `Pointer.eq_repr_of_index?`: the segment of a position.
-/

namespace OpenApiTs.Pointer

/-! ### Segments -/

section Escape

/-- The characters of a segment with its tildes written out. -/
private def escapeTildes (cs : List Char) : List Char :=
  cs.flatMap fun c => if c = '~' then ['~', '0'] else [c]

/-- Characters with their slashes written out. -/
private def escapeSlashes (cs : List Char) : List Char :=
  cs.flatMap fun c => if c = '/' then ['~', '1'] else [c]

private theorem escapeTildes_cons_of_ne {c : Char} (h : c ≠ '~') (cs : List Char) :
    escapeTildes (c :: cs) = c :: escapeTildes cs := by
  rw [escapeTildes, List.flatMap_cons, if_neg h]
  rfl

private theorem escapeSlashes_cons_of_ne {c : Char} (h : c ≠ '/') (cs : List Char) :
    escapeSlashes (c :: cs) = c :: escapeSlashes cs := by
  rw [escapeSlashes, List.flatMap_cons, if_neg h]
  rfl

private theorem toList_escape (segment : String) :
    (escape segment).toList = escapeSlashes (escapeTildes segment.toList) := by
  rw [escape, Text.toList_replaceChar, Text.toList_replaceChar]
  rfl

theorem slash_not_mem_escape (segment : String) : '/' ∉ (escape segment).toList := by
  rw [toList_escape, escapeSlashes, List.mem_flatMap]
  rintro ⟨c, -, hc⟩
  split at hc
  · revert hc
    decide
  · next hne => exact hne (List.mem_singleton.mp hc).symm

private theorem replacePair_cons_of_ne {a b c : Char} (h : c ≠ a) (by_ cs : List Char) :
    Text.replacePair a b by_ (c :: cs) = c :: Text.replacePair a b by_ cs := by
  cases cs with
  | nil => rfl
  | cons d rest => rw [Text.replacePair, if_neg fun hpair => h hpair.1]

private theorem replacePair_escapeTildes :
    (cs : List Char) → Text.replacePair '~' '0' ['~'] (escapeTildes cs) = cs
  | [] => rfl
  | c :: cs => by
      by_cases h : c = '~'
      · subst h
        change Text.replacePair '~' '0' ['~'] ('~' :: '0' :: escapeTildes cs) = _
        rw [Text.replacePair, if_pos ⟨rfl, rfl⟩, replacePair_escapeTildes cs]
        rfl
      · rw [escapeTildes_cons_of_ne h, replacePair_cons_of_ne h, replacePair_escapeTildes cs]

/-- Slashes are read back from a text whose tildes are all written out. -/
private theorem replacePair_escapeSlashes :
    (cs : List Char) →
      Text.replacePair '~' '1' ['/'] (escapeSlashes (escapeTildes cs)) = escapeTildes cs
  | [] => rfl
  | c :: cs => by
      by_cases htilde : c = '~'
      · subst htilde
        change Text.replacePair '~' '1' ['/'] ('~' :: '0' :: escapeSlashes (escapeTildes cs)) = _
        rw [Text.replacePair, if_neg (by decide), replacePair_cons_of_ne (by decide),
          replacePair_escapeSlashes cs]
        rfl
      · rw [escapeTildes_cons_of_ne htilde]
        by_cases hslash : c = '/'
        · subst hslash
          change Text.replacePair '~' '1' ['/'] ('~' :: '1' :: escapeSlashes (escapeTildes cs)) = _
          rw [Text.replacePair, if_pos ⟨rfl, rfl⟩, replacePair_escapeSlashes cs]
          rfl
        · rw [escapeSlashes_cons_of_ne hslash, replacePair_cons_of_ne htilde,
            replacePair_escapeSlashes cs]

/-- The written form of a segment is read back. -/
theorem unescape_escape (segment : String) : unescape (escape segment) = segment := by
  rw [unescape, toList_escape, replacePair_escapeSlashes, replacePair_escapeTildes,
    String.ofList_toList]

/-- Nothing is replaced if what would be put in is not there afterwards. -/
private theorem replacePair_eq_self {a b c : Char} :
    (cs : List Char) → c ∉ Text.replacePair a b [c] cs → Text.replacePair a b [c] cs = cs
  | [], _ => rfl
  | [_], _ => rfl
  | d :: e :: rest, h => by
      rw [Text.replacePair] at h ⊢
      split at h
      · exact absurd List.mem_cons_self h
      · next hpair =>
        have hrest : c ∉ Text.replacePair a b [c] (e :: rest) := fun hmem =>
          h (List.mem_cons_of_mem d hmem)
        rw [if_neg hpair, replacePair_eq_self (e :: rest) hrest]

/-- A segment that is read without tildes and slashes is written as it is read. -/
theorem unescape_eq_self {segment : String} (htilde : '~' ∉ (unescape segment).toList)
    (hslash : '/' ∉ (unescape segment).toList) : unescape segment = segment := by
  rw [unescape, String.toList_ofList] at htilde hslash
  rw [replacePair_eq_self _ htilde] at hslash
  rw [unescape, replacePair_eq_self _ htilde, replacePair_eq_self _ hslash, String.ofList_toList]

/-! A tilde that stands for itself is read as well. Without such tildes a segment is written in one
way only. -/

/-- Every tilde begins the written form of a tilde or of a slash. -/
def TildesEscaped : List Char → Prop
  | [] => True
  | c :: cs => (c = '~' → cs.head? = some '0' ∨ cs.head? = some '1') ∧ TildesEscaped cs

instance decidableTildesEscaped : (cs : List Char) → Decidable (TildesEscaped cs)
  | [] => .isTrue trivial
  | c :: cs =>
    have := decidableTildesEscaped cs
    inferInstanceAs
      (Decidable ((c = '~' → cs.head? = some '0' ∨ cs.head? = some '1') ∧ TildesEscaped cs))

private theorem tildesEscaped_cons_of_ne {c : Char} (h : c ≠ '~') {cs : List Char} :
    TildesEscaped (c :: cs) ↔ TildesEscaped cs :=
  and_iff_right fun heq => absurd heq h

/-- A slash is no part of a written form. -/
private theorem tildesEscaped_append_slash (after : List Char) :
    (before : List Char) →
      (TildesEscaped (before ++ '/' :: after) ↔ TildesEscaped before ∧ TildesEscaped after)
  | [] => (tildesEscaped_cons_of_ne (by decide)).trans (and_iff_right trivial).symm
  | c :: before => by
      have hhead : ∀ d ≠ '/', (before ++ '/' :: after).head? = some d ↔ before.head? = some d := by
        intro d hd
        cases before with
        | nil => exact ⟨fun h => absurd (Option.some.inj h).symm hd, nofun⟩
        | cons => exact Iff.rfl
      rw [List.cons_append, TildesEscaped, TildesEscaped, hhead '0' (by decide),
        hhead '1' (by decide), tildesEscaped_append_slash after before, and_assoc]

private theorem tildesEscaped_escapeTildes :
    (cs : List Char) → TildesEscaped (escapeSlashes (escapeTildes cs))
  | [] => trivial
  | c :: cs => by
      have ih := tildesEscaped_escapeTildes cs
      by_cases htilde : c = '~'
      · subst htilde
        exact ⟨fun _ => .inl rfl, (tildesEscaped_cons_of_ne (by decide)).mpr ih⟩
      · rw [escapeTildes_cons_of_ne htilde]
        by_cases hslash : c = '/'
        · subst hslash
          exact ⟨fun _ => .inr rfl, (tildesEscaped_cons_of_ne (by decide)).mpr ih⟩
        · rw [escapeSlashes_cons_of_ne hslash]
          exact (tildesEscaped_cons_of_ne htilde).mpr ih

/-- Characters that are read as a segment are written as they were. -/
private theorem escapeSlashes_replacePair :
    (cs : List Char) → TildesEscaped cs → '/' ∉ cs →
      escapeSlashes (escapeTildes
        (Text.replacePair '~' '0' ['~'] (Text.replacePair '~' '1' ['/'] cs))) = cs
  | [], _, _ => rfl
  | [c], h, hslash => by
      have htilde : c ≠ '~' := fun heq => nomatch h.1 heq
      change escapeSlashes (escapeTildes [c]) = [c]
      rw [escapeTildes_cons_of_ne htilde,
        escapeSlashes_cons_of_ne fun heq => hslash (heq ▸ List.mem_cons_self)]
      rfl
  | c :: d :: rest, h, hslash => by
      have hrest : '/' ∉ rest := fun hmem =>
        hslash (List.mem_cons_of_mem _ (List.mem_cons_of_mem _ hmem))
      by_cases htilde : c = '~'
      · subst htilde
        rcases h.1 rfl with hd | hd
        · obtain rfl := Option.some.inj hd
          have ih := escapeSlashes_replacePair rest h.2.2 hrest
          rw [Text.replacePair, if_neg (by decide), replacePair_cons_of_ne (c := '0') (by decide),
            Text.replacePair, if_pos ⟨rfl, rfl⟩]
          exact congrArg (fun cs => '~' :: '0' :: cs) ih
        · obtain rfl := Option.some.inj hd
          have ih := escapeSlashes_replacePair rest h.2.2 hrest
          rw [Text.replacePair, if_pos ⟨rfl, rfl⟩]
          change escapeSlashes (escapeTildes (Text.replacePair '~' '0' ['~'] ('/' :: _))) = _
          rw [replacePair_cons_of_ne (by decide), escapeTildes_cons_of_ne (by decide)]
          exact congrArg (fun cs => '~' :: '1' :: cs) ih
      · have ih := escapeSlashes_replacePair (d :: rest) h.2 fun hmem =>
          hslash (List.mem_cons_of_mem _ hmem)
        rw [replacePair_cons_of_ne htilde, replacePair_cons_of_ne htilde,
          escapeTildes_cons_of_ne htilde,
          escapeSlashes_cons_of_ne fun heq => hslash (heq ▸ List.mem_cons_self), ih]

/-- A segment whose tildes are escaped is the written form of what it is read as. -/
theorem escape_unescape {segment : String} (h : TildesEscaped segment.toList)
    (hslash : '/' ∉ segment.toList) : escape (unescape segment) = segment := by
  rw [← String.toList_inj, toList_escape, unescape, String.toList_ofList]
  exact escapeSlashes_replacePair _ h hslash

end Escape

/-! ### Look-up -/

theorem pieces_ne_nil (pointer : String) : Text.pieces pointer '/' ≠ [] := by
  rw [Text.pieces, List.splitOn_eq_splitOnP]
  exact fun hnil => List.splitOnP_ne_nil _ _ (List.map_eq_nil_iff.mp hnil)

/-- A text is told by its pieces. -/
theorem pieces_injective {a b : String} (h : Text.pieces a '/' = Text.pieces b '/') : a = b := by
  have hpieces := List.map_injective_iff.mpr (fun _ _ => String.ofList_inj.mp) h
  have hjoin := congrArg ['/'].intercalate hpieces
  rw [List.intercalate_splitOn, List.intercalate_splitOn] at hjoin
  exact String.toList_inj.mp hjoin

/-- Texts that are joined by a slash are cut there. -/
theorem pieces_append (a b : String) :
    Text.pieces (a ++ "/" ++ b) '/' = Text.pieces a '/' ++ Text.pieces b '/' := by
  have hlist : (a ++ "/" ++ b).toList = a.toList ++ '/' :: b.toList := by
    rw [String.toList_append, String.toList_append, List.append_assoc]
    rfl
  rw [Text.pieces, hlist, List.splitOn_eq_splitOnP, List.splitOnP_append_cons _ _ rfl,
    List.map_append]
  rfl

private theorem exists_splitOn_eq_tail {piece : List Char} {rest : List (List Char)}
    (hne : rest ≠ []) :
    (cs : List Char) → cs.splitOn '/' = piece :: rest →
      ∃ after : List Char, after.splitOn '/' = rest
  | [], h => by
      cases h
      exact absurd rfl hne
  | c :: cs, h => by
      rw [List.splitOn_eq_splitOnP, List.splitOnP_cons_eq_if_modifyHead,
        ← List.splitOn_eq_splitOnP] at h
      split at h
      · exact ⟨cs, (List.cons.inj h).2⟩
      · cases hsplit : cs.splitOn '/' with
        | nil =>
          rw [hsplit] at h
          cases h
        | cons first more =>
          rw [hsplit] at h
          obtain rfl := (List.cons.inj h).2
          exact exists_splitOn_eq_tail hne cs hsplit

/-- The last pieces of a text are those of another text. -/
private theorem exists_pieces_eq {after : List String} (hne : after ≠ []) :
    (before : List String) → {pointer : String} → Text.pieces pointer '/' = before ++ after →
      ∃ rest, Text.pieces rest '/' = after
  | [], pointer, h => ⟨pointer, h⟩
  | piece :: before, pointer, h => by
      obtain ⟨_, more, hsplit, -, hmore⟩ := List.map_eq_cons_iff.mp h
      have hmore' : more ≠ [] := by
        rintro rfl
        exact List.append_ne_nil_of_right_ne_nil before hne hmore.symm
      obtain ⟨rest, hrest⟩ := exists_splitOn_eq_tail hmore' pointer.toList hsplit
      have hpieces : Text.pieces (String.ofList rest) '/' = before ++ after := by
        rw [Text.pieces, String.toList_ofList, hrest]
        exact hmore
      exact exists_pieces_eq hne before hpieces

private theorem slash_not_mem_splitOn :
    (cs : List Char) → ∀ piece ∈ cs.splitOn '/', '/' ∉ piece
  | [], piece, h => by
      rw [List.splitOn_nil, List.mem_singleton] at h
      exact h ▸ List.not_mem_nil
  | c :: cs, piece, h => by
      have ih := slash_not_mem_splitOn cs
      rw [List.splitOn_cons_eq_if_modifyHead] at h
      split at h
      · rcases List.mem_cons.mp h with rfl | h
        · exact List.not_mem_nil
        · exact ih piece h
      · next hc =>
        cases hsplit : cs.splitOn '/' with
        | nil => exact absurd hsplit (List.splitOn_ne_nil _ _)
        | cons first rest =>
          rw [hsplit] at h ih
          rcases List.mem_cons.mp h with rfl | h
          · refine List.not_mem_cons_of_ne_of_not_mem (fun heq => hc (beq_iff_eq.mpr heq.symm)) ?_
            exact ih first List.mem_cons_self
          · exact ih piece (List.mem_cons_of_mem _ h)

/-- No piece of a text has a slash. -/
theorem slash_not_mem_of_mem_pieces {text piece : String} (h : piece ∈ Text.pieces text '/') :
    '/' ∉ piece.toList := by
  obtain ⟨cs, hcs, rfl⟩ := List.mem_map.mp h
  rw [String.toList_ofList]
  exact slash_not_mem_splitOn _ cs hcs

/-- What has more pieces than a pointer, and begins with its pieces, stands below it. -/
theorem exists_of_pieces_eq_append {pointer base : String} {after : List String} (hne : after ≠ [])
    (h : Text.pieces pointer '/' = Text.pieces base '/' ++ after) :
    ∃ rest, pointer = base ++ "/" ++ rest ∧ Text.pieces rest '/' = after := by
  obtain ⟨rest, hrest⟩ := exists_pieces_eq hne (Text.pieces base '/') h
  exact ⟨rest, pieces_injective (by rw [pieces_append, hrest, h]), hrest⟩

/-- The written form of a segment is one piece. -/
theorem pieces_escape (segment : String) : Text.pieces (escape segment) '/' = [escape segment] := by
  rw [Text.pieces, List.splitOn_eq_splitOnP, List.splitOnP_eq_singleton fun c hc => ?_,
    List.map_singleton, String.ofList_toList]
  exact beq_eq_false_iff_ne.mpr fun he => slash_not_mem_escape segment (he ▸ hc)

theorem pieces_child (pointer segment : String) :
    Text.pieces (child pointer segment) '/' = Text.pieces pointer '/' ++ [escape segment] := by
  rw [child, pieces_append, pieces_escape]

/-- No pointer is its own with one more segment. -/
theorem child_ne_self (pointer segment : String) : child pointer segment ≠ pointer := by
  intro h
  have hpieces := pieces_child pointer segment
  rw [h] at hpieces
  exact List.cons_ne_nil _ _ (List.self_eq_append_right.mp hpieces)

/-- A pointer with one more segment is that of its segment below its pointer only. -/
theorem child_inj {pointer pointer' segment segment' : String}
    (h : child pointer segment = child pointer' segment') :
    pointer = pointer' ∧ segment = segment' := by
  have hpieces := pieces_child pointer segment
  rw [h, pieces_child] at hpieces
  obtain ⟨hfront, hlast⟩ :=
    List.append_inj' hpieces (List.length_singleton.trans List.length_singleton.symm)
  have hescape : escape segment' = escape segment := List.singleton_inj.mp hlast
  refine ⟨(pieces_injective hfront).symm, ?_⟩
  rw [← unescape_escape segment, ← hescape, unescape_escape]

theorem segments_child (pointer segment : String) :
    segments (child pointer segment) = segments pointer ++ [escape segment] := by
  rw [segments, pieces_child, List.tail_append_of_ne_nil (pieces_ne_nil pointer)]
  rfl

theorem child_descend (pointer segment : String) (names : List String) :
    child (descend pointer names) segment = descend pointer (names ++ [segment]) := by
  rw [descend, descend, List.foldl_append]
  rfl

theorem pieces_descend (pointer : String) :
    (names : List String) →
      Text.pieces (descend pointer names) '/' = Text.pieces pointer '/' ++ names.map escape
  | [] => (List.append_nil _).symm
  | name :: names => by
      rw [descend, List.foldl_cons]
      exact (pieces_descend (child pointer name) names).trans
        (by rw [pieces_child, List.append_assoc]; rfl)

theorem segments_descend (pointer : String) (names : List String) :
    segments (descend pointer names) = segments pointer ++ names.map escape := by
  rw [segments, pieces_descend, List.tail_append_of_ne_nil (pieces_ne_nil pointer)]
  rfl

/-- A canonical pointer begins with the mark of the document. -/
theorem pieces_of_canonical {pointer : String} (h : canonicalize pointer = .ok pointer) :
    Text.pieces pointer '/' = "#" :: segments pointer := by
  unfold canonicalize at h
  split at h
  · next rest hrest =>
    split at h
    · rw [String.toList_inj.mp (show pointer.toList = "#".toList from hrest)]
      decide
    · next c cs =>
      split at h
      · next hslash =>
        subst hslash
        have heq : pointer = "#" ++ "/" ++ String.ofList cs := by
          rw [← String.toList_inj, hrest, String.toList_append, String.toList_ofList]
          rfl
        rw [segments, heq, pieces_append]
        rfl
      · cases h
  · split at h <;> cases h

/-! ### Escaped pointers -/

/-- Every tilde in a pointer begins the written form of a tilde or of a slash. -/
def IsEscaped (pointer : String) : Prop := TildesEscaped pointer.toList

instance : DecidablePred IsEscaped := fun pointer => decidableTildesEscaped pointer.toList

private theorem tildesEscaped_intercalate :
    (pieces : List (List Char)) →
      (TildesEscaped (['/'].intercalate pieces) ↔ ∀ piece ∈ pieces, TildesEscaped piece)
  | [] => iff_of_true trivial nofun
  | [piece] => by rw [List.intercalate_singleton, List.forall_mem_singleton]
  | piece :: next :: rest => by
      rw [List.intercalate_cons_cons, List.append_assoc, List.singleton_append,
        tildesEscaped_append_slash, tildesEscaped_intercalate (next :: rest),
        List.forall_mem_cons (a := piece)]

/-- The tildes of a pointer are those of its pieces. -/
theorem isEscaped_iff {pointer : String} :
    IsEscaped pointer ↔ ∀ piece ∈ Text.pieces pointer '/', TildesEscaped piece.toList := by
  have hjoin := tildesEscaped_intercalate (pointer.toList.splitOn '/')
  rw [List.intercalate_splitOn] at hjoin
  rw [IsEscaped, hjoin, Text.pieces, List.forall_mem_map]
  exact forall₂_congr fun piece _ => by rw [String.toList_ofList]

/-- A segment adds no tilde that stands for itself. -/
theorem isEscaped_child {pointer segment : String} :
    IsEscaped (child pointer segment) ↔ IsEscaped pointer := by
  rw [isEscaped_iff, isEscaped_iff, pieces_child]
  simp only [List.forall_mem_append, List.forall_mem_singleton]
  refine and_iff_left ?_
  rw [toList_escape]
  exact tildesEscaped_escapeTildes _

theorem isEscaped_descend {pointer : String} :
    (names : List String) → (IsEscaped (descend pointer names) ↔ IsEscaped pointer)
  | [] => Iff.rfl
  | _ :: names => (isEscaped_descend names).trans isEscaped_child

/-- The canonical pointers whose tildes are escaped are those that are built of what their segments
are read as. -/
theorem isEscaped_iff_eq_descend {pointer : String} (h : canonicalize pointer = .ok pointer) :
    IsEscaped pointer ↔ pointer = descend "#" ((segments pointer).map unescape) := by
  constructor
  · intro hescaped
    have hwritten : ((segments pointer).map unescape).map escape = segments pointer := by
      rw [List.map_map]
      refine (List.map_congr_left fun segment hsegment => ?_).trans (List.map_id _)
      have hpiece := List.mem_of_mem_tail hsegment
      exact escape_unescape (isEscaped_iff.mp hescaped segment hpiece)
        (slash_not_mem_of_mem_pieces hpiece)
    refine pieces_injective ?_
    rw [pieces_of_canonical h, pieces_descend, hwritten]
    rfl
  · intro hbuilt
    rw [hbuilt]
    exact (isEscaped_descend _).mpr (by decide)

/-- A pointer is told by what its segments are read as if its tildes are escaped. -/
theorem eq_of_isEscaped {pointer pointer' : String} (h : canonicalize pointer = .ok pointer)
    (h' : canonicalize pointer' = .ok pointer') (hescaped : IsEscaped pointer)
    (hescaped' : IsEscaped pointer')
    (hsegments : (segments pointer).map unescape = (segments pointer').map unescape) :
    pointer = pointer' := by
  rw [(isEscaped_iff_eq_descend h).mp hescaped, (isEscaped_iff_eq_descend h').mp hescaped',
    hsegments]

/-- A canonical pointer whose segments are read as those of another one is that pointer, if these
have no tildes and slashes. -/
theorem eq_of_segments {pointer target : String} (h : canonicalize pointer = .ok pointer)
    (htarget : canonicalize target = .ok target)
    (hplain : ∀ segment ∈ segments target, '~' ∉ segment.toList ∧ '/' ∉ segment.toList)
    (hsegments : (segments pointer).map unescape = segments target) : pointer = target := by
  refine pieces_injective ?_
  rw [pieces_of_canonical h, pieces_of_canonical htarget, ← hsegments]
  refine congrArg _ ((List.map_id _).symm.trans (List.map_congr_left fun segment hmem => ?_))
  have hread := hplain (unescape segment) (hsegments ▸ List.mem_map_of_mem hmem)
  exact (unescape_eq_self hread.1 hread.2).symm

/-- A look-up with one more segment is one step more. -/
theorem lookup?_child (root : Json) (pointer segment : String) :
    lookup? root (child pointer segment) = (lookup? root pointer).bind (step? · segment) := by
  rw [lookup?, segments_child, List.map_append, List.map_singleton, unescape_escape,
    List.foldlM_append]
  change (List.foldlM step? root _).bind (fun value => List.foldlM step? value [segment]) = _
  refine congrArg _ (funext fun value => ?_)
  rw [List.foldlM_cons]
  exact Option.bind_fun_some _

/-! ### Positions -/

/-- The digits of a positive number begin with another digit than zero. -/
private theorem head?_toDigits_ne (n : Nat) (h : 0 < n) :
    (Nat.toDigits 10 n).head? ≠ some '0' := by
  induction n using Nat.strongRecOn with
  | ind n ih =>
    by_cases hlt : n < 10
    · rw [Nat.toDigits_of_lt_base hlt, List.head?_cons]
      have hdigit : ∀ k < 10, 0 < k → some k.digitChar ≠ some '0' := by decide
      exact hdigit n hlt h
    · rw [Nat.toDigits_of_base_le (by decide) (Nat.le_of_not_lt hlt),
        List.head?_append_of_ne_nil _ Nat.toDigits_ne_nil]
      exact ih (n / 10) (by omega) (by omega)

/-- The segment of a position leads to the position. -/
theorem index?_repr (n : Nat) : index? n.repr = some n := by
  have hdigits : (Nat.toDigits 10 n).any (fun c => !('0' ≤ c && c ≤ '9')) = false := by
    rw [List.any_eq_false]
    intro c hc
    have hdigit := Nat.isDigit_of_mem_toDigits (by decide) (by decide) hc
    simpa [Char.isDigit, Char.le_def] using hdigit
  have hzero : ¬((Nat.toDigits 10 n).head? = some '0' ∧ 1 < (Nat.toDigits 10 n).length) := by
    rintro ⟨hhead, hlength⟩
    rcases Nat.eq_zero_or_pos n with rfl | hpos
    · exact absurd hlength (by decide)
    · exact head?_toDigits_ne n hpos hhead
  have hvalue : (Nat.toDigits 10 n).foldl (fun n c => n * 10 + (c.toNat - 48)) 0 = n := by
    have hfold := Nat.ofDigitChars_ten_toDigits (n := n)
    rw [Nat.ofDigitChars_eq_foldl] at hfold
    simp only [Nat.mul_comm] at hfold
    exact hfold
  unfold index?
  dsimp only
  rw [Nat.toList_repr, if_neg, if_neg hzero, hvalue]
  rw [hdigits, List.isEmpty_iff]
  exact fun h => h.elim Nat.toDigits_ne_nil Bool.false_ne_true

/-- The digit that a character stands for is written as the character. -/
private theorem digitChar_toNat {c : Char} (h : '0' ≤ c) (h' : c ≤ '9') :
    (c.toNat - 48).digitChar = c := by
  have hge : 48 ≤ c.toNat := h
  have hle : c.toNat ≤ 57 := h'
  rw [← Char.toNat_inj, Nat.toNat_digitChar_of_lt_ten (by omega)]
  omega

/-- Digits that are read after a positive number are written after it. -/
private theorem toDigits_foldl :
    (cs : List Char) → (∀ c ∈ cs, '0' ≤ c ∧ c ≤ '9') → {n : Nat} → 0 < n →
      Nat.toDigits 10 (cs.foldl (fun n c => n * 10 + (c.toNat - 48)) n) = Nat.toDigits 10 n ++ cs
  | [], _, _, _ => (List.append_nil _).symm
  | c :: cs, hdigits, n, hn => by
      obtain ⟨hge, hle⟩ := hdigits c List.mem_cons_self
      have hlt : c.toNat - 48 < 10 := by
        have hnat : c.toNat ≤ 57 := hle
        omega
      have hnext := toDigits_foldl cs (fun d hd => hdigits d (List.mem_cons_of_mem _ hd))
        (show 0 < n * 10 + (c.toNat - 48) by omega)
      rw [List.foldl_cons, hnext, Nat.mul_comm n 10,
        ← Nat.toDigits_append_toDigits (by decide) hn hlt, Nat.toDigits_of_lt_base hlt,
        digitChar_toNat hge hle, List.append_assoc]
      rfl

/-- A position has one segment only. -/
theorem eq_repr_of_index? {segment : String} {i : Nat} (h : index? segment = some i) :
    segment = i.repr := by
  rw [← String.toList_inj, Nat.toList_repr]
  unfold index? at h
  dsimp only at h
  split at h
  · cases h
  · next hdigits =>
    split at h
    · cases h
    · next hzero =>
      rw [not_or, Bool.not_eq_true, Bool.not_eq_true, List.any_eq_false] at hdigits
      obtain rfl := Option.some.inj h
      have hdigit : ∀ c ∈ segment.toList, '0' ≤ c ∧ c ≤ '9' := fun c hc => by
        simpa using hdigits.2 c hc
      generalize segment.toList = cs at hdigits hzero hdigit ⊢
      cases cs with
      | nil => exact nomatch hdigits.1
      | cons c cs =>
        obtain ⟨hge, hle⟩ := hdigit c List.mem_cons_self
        have hrest := fun d hd => hdigit d (List.mem_cons_of_mem c hd)
        by_cases hc : c = '0'
        · -- Nothing comes after a leading zero.
          subst hc
          have hnil : cs = [] := by
            refine List.eq_nil_of_length_eq_zero ?_
            have hlength : ¬1 < cs.length + 1 := fun hlt => hzero ⟨rfl, hlt⟩
            omega
          rw [hnil]
          rfl
        · have hpos : 0 < 0 * 10 + (c.toNat - 48) := by
            have hnat : 48 ≤ c.toNat := hge
            have hne : c.toNat ≠ 48 := fun heq => hc (Char.toNat_inj.mp heq)
            omega
          have hlt : 0 * 10 + (c.toNat - 48) < 10 := by
            have hnat : c.toNat ≤ 57 := hle
            omega
          rw [List.foldl_cons, toDigits_foldl cs hrest hpos, Nat.toDigits_of_lt_base hlt,
            Nat.zero_mul, Nat.zero_add, digitChar_toNat hge hle]
          rfl
theorem repr_injective {m n : Nat} (h : m.repr = n.repr) : m = n := by
  have hindex := index?_repr m
  rw [h, index?_repr] at hindex
  exact (Option.some.inj hindex).symm

end OpenApiTs.Pointer
