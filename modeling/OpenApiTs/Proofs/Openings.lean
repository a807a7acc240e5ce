import OpenApiTs.Generation.Schema

/-!
# Openings of nodes

Which declarations the type of a node names outside of brackets: the target of a reference, the
declaration of a node that is used by its name, and what the branches of a union in its place name.
Types of arrays, objects and scalars name none. A declaration unfolds to the target of a reference,
to what its branches name or are declared as, and to what the entries of an intersection name.

This is said of the document alone, without names and texts.

## Main definitions

* `Shows`, `ShowsBranch`, `ShowsEntry`: the pointers that the type of a node names, of a branch of a
  union, and of an entry of an intersection.
* `Unfolds`: the pointers that the declaration of a node unfolds to.
* `InRow`: a relation that a node of a row has to its place.

## Main results

* `shows_union_iff`: a union in its place names what its branches name.
-/

namespace OpenApiTs

/-! ### What types name -/

/-- Where the branch at a position of a union stands. -/
def Schema.branchLocation (s : Schema) (location : String) (i : Nat) : String :=
  Pointer.child (Pointer.child location s.branchKeyword) i.repr

/-- The type of a node at a location names the declaration of a target outside of brackets. -/
inductive Shows (run : Setting) : SchemaNode → String → String → Prop
  | reference {reference location} (hx : run.excludes reference = false) :
      Shows run (.reference reference) location reference
  | wrapped {s reference location} (hs : s.placement = .wrapped reference)
      (hx : run.excludes reference = false) : Shows run (.schema s) location reference
  | byName {s location} (hs : s.placement = .byName) : Shows run (.schema s) location location
  | branch {s location node target} {i : Nat} (hp : s.placement = .inPlace) (hs : s.shape = .union)
      (hi : s.branches[i]? = some node) (h : Shows run node (s.branchLocation location i) target) :
      Shows run (.schema s) location target

/-- The type of a branch names its own declaration if it needs one, and what it shows otherwise. -/
inductive ShowsBranch (run : Setting) : SchemaNode → String → String → Prop
  | declared {s location} (hs : s.needsDeclaration = true) :
      ShowsBranch run (.schema s) location location
  | inPlace {node location target} (hs : ∀ s, node = .schema s → s.needsDeclaration = false)
      (h : Shows run node location target) : ShowsBranch run node location target

/-- The type of an entry of an intersection, unless its fields are merged, names what it shows. -/
def ShowsEntry (run : Setting) (node : SchemaNode) (location target : String) : Prop :=
  (∀ s, node = .schema s → s.isMergeable = false) ∧ Shows run node location target

/-- The declaration of a node at a pointer unfolds to that of a target: as the target of the
reference that it is, in a branch of a union, or in an entry of an intersection. -/
inductive Unfolds (run : Setting) (pointer : String) : SchemaNode → String → Prop
  | link {target s} (hs : run.tree.resolve pointer pointer = .ok s) (hb : s.isBlank = false)
      (hx : run.excludes target = false) : Unfolds run pointer (.reference target) target
  | branch {s node target} {i : Nat} (hs : s.shape = .union) (hi : s.branches[i]? = some node)
      (h : ShowsBranch run node (s.branchLocation pointer i) target) :
      Unfolds run pointer (.schema s) target
  | entry {s node target} {i : Nat} (hs : s.shape.maker = .object) (hi : s.allOf[i]? = some node)
      (h : ShowsEntry run node (Pointer.child (Pointer.child pointer "allOf") i.repr) target) :
      Unfolds run pointer (.schema s) target

namespace Schema

variable {s : Schema}

/-- The branches of a union in its place need no declarations. -/
theorem needsDeclaration_of_inPlace (hp : s.placement = .inPlace) (hs : s.shape = .union)
    {i : Nat} {b : Schema} (hi : s.branches[i]? = some (.schema b)) :
    b.needsDeclaration = false := by
  rw [placement, hs] at hp
  dsimp only at hp
  split at hp
  · next hinline =>
    rw [isInlineUnion, Bool.and_eq_true, Bool.not_eq_true', List.any_eq_false] at hinline
    exact Bool.eq_false_iff.mpr (hinline.2 _ (List.mem_of_getElem? hi))
  · cases hp

theorem placement_of_object (hs : s.shape = .object) : s.placement = .inPlace := by
  rw [placement, hs]

end Schema

section Shows

variable {run : Setting} {s : Schema} {location target : String}

theorem shows_reference_iff {reference : String} :
    Shows run (.reference reference) location target ↔
      run.excludes reference = false ∧ target = reference := by
  constructor
  · rintro (hx | _)
    exact ⟨hx, rfl⟩
  · rintro ⟨hx, rfl⟩
    exact .reference hx

theorem not_shows_boolean {allowed : Bool} : ¬Shows run (.boolean allowed) location target := nofun

theorem shows_wrapped_iff {reference : String} (hs : s.placement = .wrapped reference) :
    Shows run (.schema s) location target ↔
      run.excludes reference = false ∧ target = reference := by
  constructor
  · intro h
    cases h with
    | wrapped hs' hx =>
      rw [hs] at hs'
      cases hs'
      exact ⟨hx, rfl⟩
    | byName hs' | branch hs' =>
      rw [hs] at hs'
      cases hs'
  · rintro ⟨hx, rfl⟩
    exact .wrapped hs hx

theorem shows_byName_iff (hs : s.placement = .byName) :
    Shows run (.schema s) location target ↔ target = location := by
  constructor
  · intro h
    cases h with
    | byName => rfl
    | wrapped hs' | branch hs' =>
      rw [hs] at hs'
      cases hs'
  · rintro rfl
    exact .byName hs

/-- Only unions name anything in their place. -/
theorem not_shows_of_inPlace (hp : s.placement = .inPlace) (hs : s.shape ≠ .union) :
    ¬Shows run (.schema s) location target := by
  intro h
  cases h with
  | wrapped hs' | byName hs' =>
    rw [hp] at hs'
    cases hs'
  | branch _ hs' => exact hs hs'

theorem shows_union_iff (hp : s.placement = .inPlace) (hs : s.shape = .union) :
    Shows run (.schema s) location target ↔
      ∃ (i : Nat) (node : SchemaNode), s.branches[i]? = some node ∧
        ShowsBranch run node (s.branchLocation location i) target := by
  constructor
  · intro h
    cases h with
    | wrapped hs' | byName hs' =>
      rw [hp] at hs'
      cases hs'
    | branch _ _ hi h =>
      refine ⟨_, _, hi, .inPlace (fun b hb => ?_) h⟩
      subst hb
      exact Schema.needsDeclaration_of_inPlace hp hs hi
  · rintro ⟨i, node, hi, h⟩
    cases h with
    | declared hneeds =>
      rw [Schema.needsDeclaration_of_inPlace hp hs hi] at hneeds
      cases hneeds
    | inPlace _ h => exact .branch hp hs hi h

theorem showsEntry_reference_iff {reference : String} :
    ShowsEntry run (.reference reference) location target ↔
      run.excludes reference = false ∧ target = reference :=
  (and_iff_right nofun).trans shows_reference_iff

theorem not_showsEntry_boolean {allowed : Bool} :
    ¬ShowsEntry run (.boolean allowed) location target := fun h => not_shows_boolean h.2

theorem not_showsEntry_of_isMergeable (hs : s.isMergeable = true) :
    ¬ShowsEntry run (.schema s) location target := by
  rintro ⟨h, -⟩
  rw [h s rfl] at hs
  cases hs

theorem showsEntry_schema_iff (hs : s.isMergeable = false) :
    ShowsEntry run (.schema s) location target ↔ Shows run (.schema s) location target := by
  refine and_iff_right fun b hb => ?_
  cases hb
  exact hs

end Shows

/-! ### Rows of nodes -/

/-- A node of a row from position `i` on, below a location, stands in a relation to its place. -/
def InRow (R : SchemaNode → String → Prop) (location : String) (i : Nat)
    (nodes : List SchemaNode) : Prop :=
  ∃ (j : Nat) (node : SchemaNode), nodes[j]? = some node ∧
    R node (Pointer.child location (i + j).repr)

section InRow

variable {R : SchemaNode → String → Prop} {location : String} {i : Nat} {node : SchemaNode}
  {nodes : List SchemaNode}

theorem not_inRow_nil : ¬InRow R location i [] := fun ⟨_, _, h, _⟩ => nomatch h

theorem inRow_cons :
    InRow R location i (node :: nodes) ↔
      R node (Pointer.child location i.repr) ∨ InRow R location (i + 1) nodes := by
  constructor
  · rintro ⟨j, n, hj, h⟩
    cases j with
    | zero =>
      cases hj
      exact .inl h
    | succ j =>
      rw [← Nat.add_assoc, Nat.add_right_comm] at h
      exact .inr ⟨j, n, hj, h⟩
  · rintro (h | ⟨j, n, hj, h⟩)
    · exact ⟨0, node, rfl, h⟩
    · rw [Nat.add_right_comm, Nat.add_assoc] at h
      exact ⟨j + 1, n, hj, h⟩

theorem inRow_zero_iff :
    InRow R location 0 nodes ↔
      ∃ (j : Nat) (node : SchemaNode), nodes[j]? = some node ∧
        R node (Pointer.child location j.repr) := by
  simp only [InRow, Nat.zero_add]

end InRow

/-! ### What declarations unfold to -/

section Unfolds

variable {run : Setting} {s : Schema} {pointer target : String}

theorem unfolds_reference_iff {reference : String} (hs : run.tree.resolve pointer pointer = .ok s) :
    Unfolds run pointer (.reference reference) target ↔
      s.isBlank = false ∧ run.excludes reference = false ∧ target = reference := by
  constructor
  · rintro (⟨hs', hb, hx⟩ | _ | _)
    rw [hs] at hs'
    cases hs'
    exact ⟨hb, hx, rfl⟩
  · rintro ⟨hb, hx, rfl⟩
    exact .link hs hb hx

theorem not_unfolds_boolean {allowed : Bool} : ¬Unfolds run pointer (.boolean allowed) target :=
  nofun

theorem unfolds_union_iff (hs : s.shape = .union) :
    Unfolds run pointer (.schema s) target ↔
      InRow (ShowsBranch run · · target) (Pointer.child pointer s.branchKeyword) 0 s.branches := by
  rw [inRow_zero_iff]
  constructor
  · intro h
    cases h with
    | branch _ hi h => exact ⟨_, _, hi, h⟩
    | entry hs' =>
      rw [hs] at hs'
      cases hs'
  · rintro ⟨i, node, hi, h⟩
    exact .branch hs hi h

theorem unfolds_object_iff (hs : s.shape.maker = .object) :
    Unfolds run pointer (.schema s) target ↔
      InRow (ShowsEntry run · · target) (Pointer.child pointer "allOf") 0 s.allOf := by
  rw [inRow_zero_iff]
  constructor
  · intro h
    cases h with
    | branch hs' =>
      rw [hs'] at hs
      cases hs
    | entry _ hi h => exact ⟨_, _, hi, h⟩
  · rintro ⟨i, node, hi, h⟩
    exact .entry hs hi h

/-- Only unions, intersections and objects unfold to anything. -/
theorem not_unfolds_of_maker (hs : s.shape.maker = .enumeration ∨ s.shape.maker = .alias) :
    ¬Unfolds run pointer (.schema s) target := by
  intro h
  cases h with
  | branch hs' =>
    rw [hs'] at hs
    exact hs.elim nofun nofun
  | entry hs' =>
    rw [hs'] at hs
    exact hs.elim nofun nofun

end Unfolds

end OpenApiTs
