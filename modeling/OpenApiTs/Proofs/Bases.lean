import OpenApiTs.Proofs.Termination

/-!
# What an interface can extend

An examination takes a pointer that is under examination for good, so that intersections can extend
one another in a circle. What it finds is the greatest set of pointers each of which suits the set:
it is not excluded and stands for an object, or for an intersection all of whose entries are
references into the set or merged into the body.

## Main definitions

* `SchemaNode.Fits`, `Schema.Suits`: entries and schemas that suit a set of pointers.
* `Setting.Extendable`: the greatest set of pointers that suit it.

## Main results

* `Setting.isExtendable_eq_true_iff`: an examination decides the set.
-/

namespace OpenApiTs

/-- An entry of an intersection leaves it an object type, given the pointers that do. -/
def SchemaNode.Fits (good : String → Prop) : SchemaNode → Prop
  | .reference pointer => good pointer
  | .schema part => part.isMergeable = true
  | .boolean allowed => allowed = true

/-- A schema is declared as an object type, given the pointers of those that are. -/
def Schema.Suits (good : String → Prop) (s : Schema) : Prop :=
  s.isNullable = false ∧
    (s.shape = .object ∨ s.shape = .intersection ∧ ∀ node ∈ s.allOf, node.Fits good)

theorem SchemaNode.Fits.mono {good good' : String → Prop} (hgood : ∀ P, good P → good' P)
    {node : SchemaNode} (h : node.Fits good) : node.Fits good' := by
  cases node with
  | reference pointer => exact hgood pointer h
  | schema _ | boolean _ => exact h

theorem Schema.Suits.mono {good good' : String → Prop} (hgood : ∀ P, good P → good' P)
    {s : Schema} (h : s.Suits good) : s.Suits good' :=
  ⟨h.1, h.2.imp id fun ⟨hshape, hfits⟩ => ⟨hshape, fun node hn => (hfits node hn).mono hgood⟩⟩

namespace Setting

variable {run : Setting}

/-- A pointer is not excluded and stands for a schema that suits a set of pointers. -/
def Admits (run : Setting) (good : String → Prop) (pointer : String) : Prop :=
  run.excludes pointer = false ∧ ∃ s, run.tree.resolve pointer pointer = .ok s ∧ s.Suits good

theorem Admits.mono {good good' : String → Prop} (hgood : ∀ P, good P → good' P)
    {pointer : String} (h : run.Admits good pointer) : run.Admits good' pointer := by
  obtain ⟨hx, s, hs, hsuits⟩ := h
  exact ⟨hx, s, hs, hsuits.mono hgood⟩

/-- A pointer is in a set all of whose pointers suit it, and so in the greatest one. -/
def Extendable (run : Setting) (pointer : String) : Prop :=
  ∃ good : String → Prop, good pointer ∧ ∀ P, good P → run.Admits good P

theorem Extendable.admits {pointer : String} (h : run.Extendable pointer) :
    run.Admits run.Extendable pointer := by
  obtain ⟨good, hpointer, hgood⟩ := h
  exact (hgood pointer hpointer).mono fun P hP => ⟨good, hP, hgood⟩

/-! ### Whatever is in the set is found good -/

section Complete

variable {examine : Examination} {location : String}

/-- Entries that fit the set are found good if its pointers are. -/
theorem entriesExtendable_of_fits
    (hexamine : ∀ base seen, run.Extendable base →
      ∃ seen', examine base seen = .ok (true, seen')) :
    (nodes : List SchemaNode) → (∀ node ∈ nodes, node.Fits run.Extendable) →
      (i : Nat) → (seen : List String) →
      ∃ seen', entriesExtendable examine location i nodes seen = .ok (true, seen')
  | [], _, _, seen => ⟨seen, rfl⟩
  | .reference pointer :: rest, hfits, i, seen => by
      obtain ⟨(hbase : run.Extendable pointer), hrest⟩ := List.forall_mem_cons.mp hfits
      obtain ⟨-, s, hs, -⟩ := hbase.admits
      have hcanonical : DocumentTree.canonicalize pointer (Pointer.child location i.repr) =
          .ok pointer :=
        DocumentTree.canonicalize_eq_ok_iff.mpr (DocumentTree.canonical_of_resolve hs)
      obtain ⟨seen₁, hfound⟩ := hexamine pointer seen hbase
      rw [entriesExtendable, hcanonical]
      dsimp only [bind, Except.bind]
      rw [hfound]
      exact entriesExtendable_of_fits hexamine rest hrest (i + 1) seen₁
  | .schema part :: rest, hfits, i, seen => by
      obtain ⟨(hpart : part.isMergeable = true), hrest⟩ := List.forall_mem_cons.mp hfits
      rw [entriesExtendable, if_pos hpart]
      exact entriesExtendable_of_fits hexamine rest hrest (i + 1) seen
  | .boolean allowed :: rest, hfits, i, seen => by
      obtain ⟨(hallowed : allowed = true), hrest⟩ := List.forall_mem_cons.mp hfits
      rw [entriesExtendable, if_pos hallowed]
      exact entriesExtendable_of_fits hexamine rest hrest (i + 1) seen

/-- An examination of a pointer in the set succeeds, whatever has been seen before. -/
theorem examine_of_extendable :
    (bound : Nat) → (pointer : String) → (seen : List String) → run.Extendable pointer →
      ∃ seen', run.examine bound pointer seen = .ok (true, seen')
  | 0, _, seen, _ => ⟨seen, rfl⟩
  | bound + 1, pointer, seen, hpointer => by
      obtain ⟨hx, s, hs, hnull, hshape⟩ := hpointer.admits
      rw [examine, hx, if_neg Bool.false_ne_true]
      split
      · exact ⟨seen, rfl⟩
      · rw [hs]
        dsimp only [bind, Except.bind]
        rw [hnull, if_neg Bool.false_ne_true]
        rcases hshape with hobject | ⟨hintersection, hfits⟩
        · rw [hobject]
          exact ⟨_, rfl⟩
        · rw [hintersection]
          exact entriesExtendable_of_fits
            (fun base seen hbase => examine_of_extendable bound base seen hbase) s.allOf hfits 0 _

end Complete

/-! ### Whatever is found good is in the set -/

/-- What an examination adds to the pointers seen suits all that are seen at its end. -/
def Grows (run : Setting) (seen seen' : List String) : Prop :=
  seen ⊆ seen' ∧ ∀ P ∈ seen', P ∈ seen ∨ run.Admits (· ∈ seen') P

theorem Grows.refl (seen : List String) : run.Grows seen seen :=
  ⟨List.Subset.refl seen, fun _ => .inl⟩

theorem Grows.trans {seen seen' seen'' : List String} (h : run.Grows seen seen')
    (h' : run.Grows seen' seen'') : run.Grows seen seen'' := by
  refine ⟨List.Subset.trans h.1 h'.1, fun P hP => ?_⟩
  rcases h'.2 P hP with hP | hP
  · exact (h.2 P hP).imp id fun hadmits => hadmits.mono h'.1
  · exact .inr hP

/-- A pointer that suits what is seen at the end can be taken as seen before. -/
theorem Grows.cons {pointer : String} {seen seen' : List String}
    (h : run.Grows (pointer :: seen) seen') (hpointer : run.Admits (· ∈ seen') pointer) :
    run.Grows seen seen' := by
  refine ⟨(List.cons_subset.mp h.1).2, fun P hP => ?_⟩
  rcases h.2 P hP with hmem | hadmits
  · rcases List.mem_cons.mp hmem with rfl | hmem
    · exact .inr hpointer
    · exact .inl hmem
  · exact .inr hadmits

section Sound

variable {examine : Examination} {location : String}

theorem grows_of_entries :
    (nodes : List SchemaNode) → {i : Nat} → {seen seen' : List String} →
      (∀ base ∈ SchemaNode.listReferences nodes, ∀ seen₁ seen₂, seen ⊆ seen₁ →
        examine base seen₁ = .ok (true, seen₂) → base ∈ seen₂ ∧ run.Grows seen₁ seen₂) →
      entriesExtendable examine location i nodes seen = .ok (true, seen') →
      run.Grows seen seen' ∧ ∀ node ∈ nodes, node.Fits (· ∈ seen')
  | [], _, seen, _, _, h => by
      cases h
      exact ⟨.refl seen, List.forall_mem_nil _⟩
  | .reference pointer :: rest, i, seen, seen', hexamine, h => by
      obtain ⟨base, hcanonical, h⟩ := bind_eq_ok_iff.mp h
      cases DocumentTree.canonicalize_eq hcanonical
      obtain ⟨⟨found, seen''⟩, hfound, h⟩ := bind_eq_ok_iff.mp h
      dsimp only at h
      split at h
      · next hgood =>
        subst hgood
        obtain ⟨hbase, hgrows⟩ := hexamine pointer List.mem_cons_self seen seen''
          (List.Subset.refl seen) hfound
        obtain ⟨hgrows', hfits⟩ := grows_of_entries rest (fun b hb seen₁ seen₂ hseen =>
          hexamine b (List.mem_cons_of_mem pointer hb) seen₁ seen₂
            (List.Subset.trans hgrows.1 hseen)) h
        exact ⟨hgrows.trans hgrows', List.forall_mem_cons.mpr ⟨hgrows'.1 hbase, hfits⟩⟩
      · cases h
  | .schema part :: rest, i, seen, seen', hexamine, h => by
      rw [entriesExtendable] at h
      split at h
      · next hpart =>
        obtain ⟨hgrows, hfits⟩ := grows_of_entries rest
          (fun b hb => hexamine b (List.mem_append_right _ hb)) h
        exact ⟨hgrows, List.forall_mem_cons.mpr ⟨hpart, hfits⟩⟩
      · cases h
  | .boolean allowed :: rest, i, seen, seen', hexamine, h => by
      rw [entriesExtendable] at h
      split at h
      · next hallowed =>
        obtain ⟨hgrows, hfits⟩ := grows_of_entries rest
          (fun b hb => hexamine b (List.mem_append_right _ hb)) h
        exact ⟨hgrows, List.forall_mem_cons.mpr ⟨hallowed, hfits⟩⟩
      · cases h

/-- An examination that is not cut off adds only pointers that suit what is seen at its end. -/
theorem grows_of_examine :
    (bound : Nat) → (pointer : String) → (seen seen' : List String) →
      run.tree.ahead seen pointer < bound →
      run.examine bound pointer seen = .ok (true, seen') →
      pointer ∈ seen' ∧ run.Grows seen seen'
  | 0, _, _, _, hroom, _ => absurd hroom (Nat.not_lt_zero _)
  | bound + 1, pointer, seen, seen', hroom, h => by
      rw [examine] at h
      split at h
      · cases h
      next hx =>
      have hadmitted := Bool.eq_false_iff.mpr hx
      split at h
      · next hseen =>
        cases h
        exact ⟨List.contains_iff_mem.mp hseen, .refl seen⟩
      next hnew =>
      obtain ⟨s, hs, h⟩ := bind_eq_ok_iff.mp h
      split at h
      · cases h
      next hnull =>
      have hnullable := Bool.eq_false_iff.mpr hnull
      split at h
      · next hshape =>
        cases h
        exact ⟨List.mem_cons_self, (Grows.refl _).cons
          ⟨hadmitted, s, hs, hnullable, .inl hshape⟩⟩
      · next hshape =>
        have hreferences := (Schema.references_subset_iff.mp
          (DocumentTree.references_subset_of_resolve hs)).2.2.2.2.2
        obtain ⟨hgrows, hfits⟩ := grows_of_entries s.allOf (fun base hbase seen₁ seen₂ hseen =>
          grows_of_examine bound base seen₁ seen₂ (Nat.lt_of_lt_of_le
            (DocumentTree.ahead_lt (List.Subset.trans (List.subset_cons_self _ _) hseen)
              (hseen List.mem_cons_self) (mt List.contains_iff_mem.mpr hnew)
              (hreferences hbase)) (Nat.le_of_lt_succ hroom))) h
        exact ⟨hgrows.1 List.mem_cons_self, hgrows.cons
          ⟨hadmitted, s, hs, hnullable, .inr ⟨hshape, hfits⟩⟩⟩
      · cases h

end Sound

/-- An examination finds a pointer good exactly if it is in the greatest set of pointers that suit
it. -/
theorem isExtendable_eq_true_iff {pointer : String} :
    run.isExtendable pointer = .ok true ↔ run.Extendable pointer := by
  constructor
  · intro h
    obtain ⟨⟨good, seen⟩, hfound, h⟩ := bind_eq_ok_iff.mp h
    cases h
    obtain ⟨hmem, -, hgood⟩ :=
      grows_of_examine run.tree.bound pointer [] seen DocumentTree.ahead_lt_bound hfound
    exact ⟨(· ∈ seen), hmem, fun P hP => (hgood P hP).resolve_left List.not_mem_nil⟩
  · intro hpointer
    obtain ⟨seen, hfound⟩ := examine_of_extendable run.tree.bound pointer [] hpointer
    rw [isExtendable, hfound]
    rfl

/-- An examination that gives a verdict decides the set. -/
theorem isExtendable_iff {pointer : String} {good : Bool}
    (h : run.isExtendable pointer = .ok good) : good = true ↔ run.Extendable pointer := by
  rw [← isExtendable_eq_true_iff, h, Except.ok.injEq]

end Setting

end OpenApiTs
