import OpenApiTs.Generation.Context
import OpenApiTs.Proofs.Pointers

/-!
# Pointers into excluded schemas

A pointer is hidden if it is that of a component schema that the filter excludes, or leads further
into one. The name of the component is read from its written form, so a component is hidden under
all the ways to write its name. A pointer that is extended by a segment gets hidden only if it was
hidden before, or if it was the pointer of all component schemas.

## Main definitions

* `Filter.Hides`: a filter hides a pointer.

## Main results

* `Setting.excludes_iff`: the test of a run decides what is hidden.
* `Filter.Hides.of_child`: how a pointer gets hidden.
-/

namespace OpenApiTs

/-- The pointer is that of a component schema whose name the filter does not admit, or is below
it. -/
def Filter.Hides (filter : Filter) (pointer : String) : Prop :=
  ∃ segment below, Text.pieces pointer '/' =
      Text.pieces Setting.componentSchemas '/' ++ segment :: below ∧
    filter.admitsSchema (Pointer.unescape segment) = false

namespace Setting

/-- A run excludes a pointer exactly if its filter hides it. -/
theorem excludes_iff {run : Setting} {pointer : String} :
    run.excludes pointer = true ↔ run.filter.Hides pointer := by
  unfold excludes
  constructor
  · intro h
    split at h
    · next rest hrest =>
      obtain ⟨cs, hcs, rfl⟩ := Option.map_eq_some_iff.mp hrest
      have hpointer : pointer = componentSchemas ++ "/" ++ String.ofList cs := by
        rw [← String.toList_inj, ← List.append_eq_of_isPrefixOf?_eq_some hcs]
        simp only [String.toList_append, String.toList_ofList]
      have hpieces := Pointer.pieces_append componentSchemas (String.ofList cs)
      rw [← hpointer] at hpieces
      cases hsegments : Text.pieces (String.ofList cs) '/' with
      | nil => exact absurd hsegments (Pointer.pieces_ne_nil _)
      | cons segment below =>
        rw [hsegments] at h hpieces
        exact ⟨segment, below, hpieces, Bool.not_eq_true' _ ▸ h⟩
    · cases h
  · rintro ⟨segment, below, hpieces, hadmits⟩
    obtain ⟨rest, rfl, hrest⟩ :=
      Pointer.exists_of_pieces_eq_append (List.cons_ne_nil _ _) hpieces
    have hdrop : Text.dropPrefix? (componentSchemas ++ "/" ++ rest) (componentSchemas ++ "/") =
        some rest := by
      refine Option.map_eq_some_iff.mpr
        ⟨rest.toList, List.isPrefixOf?_eq_some_iff_append_eq.mpr ?_, String.ofList_toList⟩
      simp only [String.toList_append]
    rw [hdrop]
    dsimp only
    rw [hrest, List.headD_cons, hadmits]
    rfl

/-- A component is excluded exactly if the filter does not admit its name. -/
theorem excludes_component (run : Setting) (name : String) :
    run.excludes (Pointer.child componentSchemas name) = !run.filter.admitsSchema name := by
  have hpieces := Pointer.pieces_child componentSchemas name
  rw [Bool.eq_iff_iff, excludes_iff, Bool.not_eq_true']
  constructor
  · rintro ⟨segment, below, hpieces', hadmits⟩
    have hsegment := List.append_cancel_left (hpieces.symm.trans hpieces')
    rw [← Pointer.unescape_escape name, (List.cons.inj hsegment).1]
    exact hadmits
  · exact fun hadmits => ⟨_, [], hpieces, by rw [Pointer.unescape_escape]; exact hadmits⟩

end Setting

namespace Filter.Hides

variable {filter : Filter} {pointer : String}

/-- What is below a pointer that is not hidden is not hidden either, apart from the component
schemas themselves. -/
theorem of_child {segment : String} (h : filter.Hides (Pointer.child pointer segment)) :
    filter.Hides pointer ∨ pointer = Setting.componentSchemas := by
  obtain ⟨name, below, hpieces, hadmits⟩ := h
  have hfront := congrArg List.dropLast hpieces
  rw [Pointer.pieces_child, List.dropLast_concat] at hfront
  rcases List.eq_nil_or_concat below with rfl | ⟨before, last, rfl⟩
  · rw [List.dropLast_concat] at hfront
    exact .inr (Pointer.pieces_injective hfront)
  · rw [List.concat_eq_append, ← List.cons_append, ← List.append_assoc,
      List.dropLast_concat] at hfront
    exact .inl ⟨name, before, hfront, hadmits⟩

/-- No part of a path is hidden. -/
theorem not_path (path : String) (names : List String) :
    ¬filter.Hides (Pointer.descend "#/paths" (path :: names)) := by
  rintro ⟨segment, below, hpieces, -⟩
  have hsegments := Pointer.segments_descend "#/paths" (path :: names)
  rw [Pointer.segments, hpieces, List.tail_append_of_ne_nil (Pointer.pieces_ne_nil _)] at hsegments
  have hcomponents : (Text.pieces Setting.componentSchemas '/').tail = ["components", "schemas"] :=
    by decide
  have hpaths : Pointer.segments "#/paths" = ["paths"] := by decide
  rw [hcomponents, hpaths] at hsegments
  exact absurd (List.cons.inj hsegments).1 (by decide)

end Filter.Hides

end OpenApiTs
