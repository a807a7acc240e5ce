import Mathlib.Data.List.Nodup
import Mathlib.Data.List.Perm.Basic
import Mathlib.Data.List.Perm.Subperm
import OpenApiTs.Emission

/-!
# Emission loses nothing

The walk reaches every position, and finishes each that it reaches exactly once. A position that
the walk has entered and not yet left stays open during everything that happens below it, so the
bound on the depth of visits is never met.

## Main definitions

* `Emission.Walk.Proper`: the invariant of a walk.
* `Emission.Walk.Extends`: what a visit preserves: positions are reached for good, and the same
  positions are open after it as before.

## Main results

* `Emission.visit_extends`: a visit.
* `Emission.order_perm`: the order of emission is a permutation of the declarations.
-/

namespace OpenApiTs.Emission

namespace Walk

/-- Positions are reached once and finished once, after they are reached. -/
structure Proper (n : Nat) (w : Walk) : Prop where
  reached_nodup : w.reached.Nodup
  reached_lt : ∀ i ∈ w.reached, i < n
  finished_nodup : w.finished.Nodup
  finished_reached : ∀ i ∈ w.finished, i ∈ w.reached

/-- What has been reached stays reached, and the same positions are open. -/
structure Extends (w w' : Walk) : Prop where
  reached : w.reached ⊆ w'.reached
  length_le : w.reached.length ≤ w'.reached.length
  open_iff : ∀ i, (i ∈ w'.reached ∧ i ∉ w'.finished) ↔ i ∈ w.reached ∧ i ∉ w.finished

theorem Extends.refl (w : Walk) : w.Extends w :=
  ⟨List.Subset.refl _, Nat.le_refl _, fun _ => Iff.rfl⟩

theorem Extends.trans {w w' w'' : Walk} (h : w.Extends w') (h' : w'.Extends w'') : w.Extends w'' :=
  ⟨List.Subset.trans h.reached h'.reached, Nat.le_trans h.length_le h'.length_le,
    fun i => (h'.open_iff i).trans (h.open_iff i)⟩

variable {n : Nat} {w : Walk}

theorem proper_empty : Proper n {} := ⟨List.nodup_nil, nofun, List.nodup_nil, nofun⟩

theorem Proper.length_le (h : w.Proper n) : w.reached.length ≤ n := by
  have hsubset : w.reached ⊆ List.range n := fun i hi => List.mem_range.mpr (h.reached_lt i hi)
  simpa using (List.subperm_of_subset h.reached_nodup hsubset).length_le

/-- A new position is reached. -/
theorem Proper.enter (h : w.Proper n) {i : Nat} (hi : i < n) (hnew : i ∉ w.reached) :
    Proper n { w with reached := i :: w.reached } where
  reached_nodup := List.nodup_cons.mpr ⟨hnew, h.reached_nodup⟩
  reached_lt := List.forall_mem_cons.mpr ⟨hi, h.reached_lt⟩
  finished_nodup := h.finished_nodup
  finished_reached j hj := List.mem_cons_of_mem i (h.finished_reached j hj)

end Walk

theorem lt_of_mem_dependencies {types : List Declaration} {i j : Nat}
    (h : j ∈ dependencies types i) : j < types.length := by
  obtain ⟨name, -, hj⟩ := List.mem_filterMap.mp h
  exact (List.findIdx?_eq_some_iff_getElem.mp hj).1

/-! ### Visits -/

variable {types : List Declaration} {n : Nat}

/-- A list of visits does what each visit does, as long as there is room for the first. -/
theorem foldl_extends {visit : Walk → Nat → Walk} {bound : Nat}
    (hvisit : ∀ w i, w.Proper n → i < n → n < bound + w.reached.length →
      (visit w i).Proper n ∧ w.Extends (visit w i) ∧ i ∈ (visit w i).reached) :
    (is : List Nat) → (∀ i ∈ is, i < n) → {w : Walk} → w.Proper n →
      n < bound + w.reached.length →
      (is.foldl visit w).Proper n ∧ w.Extends (is.foldl visit w) ∧
        ∀ i ∈ is, i ∈ (is.foldl visit w).reached
  | [], _, w, hw, _ => ⟨hw, .refl w, nofun⟩
  | i :: is, hlt, w, hw, hroom => by
      obtain ⟨hw', hext, hi⟩ := hvisit w i hw (hlt i List.mem_cons_self) hroom
      obtain ⟨hw'', hext', his⟩ := foldl_extends hvisit is
        (fun j hj => hlt j (List.mem_cons_of_mem i hj)) hw'
        (Nat.lt_of_lt_of_le hroom (Nat.add_le_add_left hext.length_le bound))
      exact ⟨hw'', hext.trans hext', List.forall_mem_cons.mpr ⟨hext'.reached hi, his⟩⟩

/-- A visit reaches its position and leaves the same positions open. There is room for it: each
visit around it has reached a position of its own. -/
theorem visit_extends :
    (bound : Nat) → {w : Walk} → {i : Nat} → w.Proper types.length → i < types.length →
      types.length < bound + w.reached.length →
      (visit types bound w i).Proper types.length ∧ w.Extends (visit types bound w i) ∧
        i ∈ (visit types bound w i).reached
  | 0, w, _, hw, _, hroom => by
      have := hw.length_le
      omega
  | bound + 1, w, i, hw, hi, hroom => by
      rw [visit]
      split
      · next h => exact ⟨hw, .refl w, List.contains_iff_mem.mp h⟩
      · next h =>
        have hnew : i ∉ w.reached := mt List.contains_iff_mem.mpr h
        have hnot : i ∉ w.finished := fun h => hnew (hw.finished_reached i h)
        have hentered := hw.enter hi hnew
        obtain ⟨hp, hext, -⟩ := foldl_extends
          (fun w' j hw' hj hroom' => visit_extends bound hw' hj hroom')
          (dependencies types i) (fun j hj => lt_of_mem_dependencies hj) hentered (by
            rw [List.length_cons]
            omega)
        -- The position itself is open below, and is the one that is closed now.
        obtain ⟨hreached, hopen⟩ :=
          (hext.open_iff i).mpr ⟨List.mem_cons_self, hnot⟩
        refine ⟨⟨hp.reached_nodup, hp.reached_lt, ?_, ?_⟩, ⟨?_, ?_, ?_⟩, hreached⟩
        · exact hp.finished_nodup.append (List.nodup_singleton i)
            (List.disjoint_singleton.mpr hopen)
        · intro j hj
          rcases List.mem_append.mp hj with hj | hj
          · exact hp.finished_reached j hj
          · rw [List.mem_singleton.mp hj]
            exact hreached
        · exact fun j hj => hext.reached (List.mem_cons_of_mem i hj)
        · exact Nat.le_trans (Nat.le_succ _) hext.length_le
        · intro j
          have hj := hext.open_iff j
          simp only [List.mem_append, List.mem_cons, List.not_mem_nil, or_false, not_or] at hj ⊢
          constructor
          · rintro ⟨hr, hf, hne⟩
            obtain ⟨hr, hf⟩ := hj.mp ⟨hr, hf⟩
            exact ⟨hr.resolve_left hne, hf⟩
          · rintro ⟨hr, hf⟩
            obtain ⟨hr', hf'⟩ := hj.mpr ⟨.inr hr, hf⟩
            exact ⟨hr', hf', by rintro rfl; exact hnew hr⟩

/-! ### The order -/

/-- The walk starts with nothing open, so in the end everything is finished. -/
theorem positions_perm (types : List Declaration) :
    (positions types).Perm (List.range types.length) := by
  obtain ⟨hp, hext, hall⟩ := foldl_extends
    (fun w i hw hi hroom => visit_extends (types.length + 1) hw hi hroom) (List.range types.length)
    (fun i hi => List.mem_range.mp hi) Walk.proper_empty (by omega)
  refine (List.perm_ext_iff_of_nodup hp.finished_nodup List.nodup_range).mpr fun i => ?_
  constructor
  · exact fun hi => List.mem_range.mpr (hp.reached_lt i (hp.finished_reached i hi))
  · intro hi
    by_contra hnot
    exact List.not_mem_nil ((hext.open_iff i).mp ⟨hall i hi, hnot⟩).1

theorem mem_positions_iff {i : Nat} : i ∈ positions types ↔ i < types.length :=
  (positions_perm types).mem_iff.trans List.mem_range

theorem filterMap_getElem?_range {α : Type} :
    (l : List α) → (List.range l.length).filterMap (fun i => l[i]?) = l
  | [] => rfl
  | a :: l => by
      rw [List.length_cons, List.range_succ_eq_map, List.filterMap_cons, List.filterMap_map]
      exact congrArg (a :: ·) (filterMap_getElem?_range l)

/-- The order of emission holds every declaration, as often as it is given. -/
theorem order_perm (types : List Declaration) : (order types).Perm types := by
  have hperm := (positions_perm types).filterMap fun i => types[i]?
  rw [filterMap_getElem?_range] at hperm
  exact hperm

end OpenApiTs.Emission
