import Mathlib.Logic.Relation
import OpenApiTs.Proofs.Emission

/-!
# Dependencies come first

Whenever the walk leaves a position, each position that it depends on is finished already or still
open. What is open at that moment leads to the position by a path of dependencies. So a dependency
comes later than its dependent only if it leads back to it; and where every dependency stands before
its dependent already, nothing is moved.

## Main definitions

* `Emission.DependsOn`: one position depends on another.
* `Emission.rank`: the place of a position in the order of emission.
* `Emission.Walk.Timely`: the invariant of a walk.
* `Emission.Closed`: declarations that depend on no others.

## Main results

* `Emission.visit_timely`: a visit.
* `Emission.order_append`: closed declarations are emitted before those that are given after them.
* `Emission.order_correct`: the order of emission is a permutation in which dependencies come first,
  and which moves nothing that need not be moved.
-/

namespace OpenApiTs

/-- A declaration has a name or exports it. -/
def Declaration.Bears (d : Declaration) (name : String) : Prop :=
  name ∈ d.exports ∨ d.name = name

namespace Emission

open Relation (ReflTransGen TransGen)

variable {types : List Declaration} {i j : Nat}

/-! ### Dependencies between positions -/

/-- The declaration at one position depends on a name that the declaration at the other position is
the first to bear. -/
def DependsOn (types : List Declaration) (i j : Nat) : Prop :=
  ∃ t u name, types[i]? = some t ∧ name ∈ t.dependencies ∧ types[j]? = some u ∧ u.Bears name ∧
    ∀ k v, k < j → types[k]? = some v → ¬v.Bears name

theorem bearer?_eq_some_iff {name : String} :
    bearer? types name = some j ↔ ∃ u, types[j]? = some u ∧ u.Bears name ∧
      ∀ k v, k < j → types[k]? = some v → ¬v.Bears name := by
  have hbears : ∀ t : Declaration,
      (t.exports.contains name || t.name == name) = true ↔ t.Bears name := fun t => by
    rw [Bool.or_eq_true, List.contains_iff_mem, beq_iff_eq, Declaration.Bears]
  rw [bearer?, List.findIdx?_eq_some_iff_getElem]
  constructor
  · rintro ⟨hj, hu, hfirst⟩
    refine ⟨types[j], List.getElem?_eq_getElem hj, (hbears _).mp hu, fun k v hk hv => ?_⟩
    obtain ⟨hk', rfl⟩ := List.getElem?_eq_some_iff.mp hv
    exact mt (hbears _).mpr (hfirst k hk)
  · rintro ⟨u, hu, hname, hfirst⟩
    obtain ⟨hj, rfl⟩ := List.getElem?_eq_some_iff.mp hu
    exact ⟨hj, (hbears _).mpr hname, fun k hk =>
      mt (hbears _).mp (hfirst k _ hk (List.getElem?_eq_getElem (Nat.lt_trans hk hj)))⟩

theorem mem_dependencies_iff : j ∈ dependencies types i ↔ DependsOn types i j := by
  rw [dependencies, List.mem_filterMap]
  constructor
  · rintro ⟨name, hname, hj⟩
    cases ht : types[i]? with
    | none => simp [ht] at hname
    | some t =>
      rw [ht] at hname
      obtain ⟨u, hu⟩ := bearer?_eq_some_iff.mp hj
      exact ⟨t, u, name, ht, hname, hu⟩
  · rintro ⟨t, u, name, ht, hname, hu⟩
    rw [ht]
    exact ⟨name, hname, bearer?_eq_some_iff.mpr ⟨u, hu⟩⟩

/-! ### What a visit finishes -/

/-- Before each finished position stands everything that it depends on, except for what leads back
to it. -/
def Walk.Timely (types : List Declaration) (w : Walk) : Prop :=
  ∀ before i after, w.finished = before ++ i :: after → ∀ j, DependsOn types i j →
    j ∈ before ∨ ReflTransGen (DependsOn types) j i

/-- Every open position leads to a given one. -/
def Walk.LeadsTo (types : List Declaration) (w : Walk) (i : Nat) : Prop :=
  ∀ o ∈ w.reached, o ∉ w.finished → ReflTransGen (DependsOn types) o i

theorem Walk.LeadsTo.extend {w w' : Walk} (h : w.LeadsTo types i) (hext : w.Extends w') :
    w'.LeadsTo types i := fun o hr hf =>
  have ho := (hext.open_iff o).mp ⟨hr, hf⟩
  h o ho.1 ho.2

/-- The position that is finished last is timely if everything that it depends on is reached. -/
theorem Walk.Timely.finish {w : Walk} (h : w.Timely types) (hopen : w.LeadsTo types i)
    (hreached : ∀ j, DependsOn types i j → j ∈ w.reached) :
    Walk.Timely types { w with finished := w.finished ++ [i] } := by
  intro before k after hsplit j hj
  have hlast : DependsOn types i j →
      j ∈ w.finished ∨ ReflTransGen (DependsOn types) j i := fun hj => by
    by_cases hf : j ∈ w.finished
    · exact .inl hf
    · exact .inr (hopen j (hreached j hj) hf)
  rcases List.append_eq_append_iff.mp hsplit with ⟨mid, hbefore, hend⟩ | ⟨mid, hfinished, hend⟩
  · obtain ⟨rfl, ⟨rfl, -⟩⟩ : mid = [] ∧ k = i ∧ after = [] := by
      cases mid <;> simp_all
    rw [List.append_nil] at hbefore
    exact hbefore ▸ hlast hj
  · cases mid with
    | nil =>
      rw [List.append_nil] at hfinished
      obtain ⟨rfl, -⟩ := List.cons.inj hend
      exact hfinished ▸ hlast hj
    | cons m rest =>
      obtain ⟨rfl, -⟩ := List.cons.inj hend
      exact h before k rest hfinished j hj

/-- A list of visits is timely if each visit is, in every walk whose open positions lead to its
position. -/
private theorem foldl_timely {visit : Walk → Nat → Walk} {n bound : Nat}
    (hextends : ∀ w i, w.Proper n → i < n → n < bound + w.reached.length →
      (visit w i).Proper n ∧ w.Extends (visit w i) ∧ i ∈ (visit w i).reached)
    (hvisit : ∀ w i, w.Proper n → i < n → n < bound + w.reached.length → w.Timely types →
      w.LeadsTo types i → (visit w i).Timely types) :
    (is : List Nat) → (∀ i ∈ is, i < n) → {w : Walk} → w.Proper n →
      n < bound + w.reached.length → w.Timely types → (∀ i ∈ is, w.LeadsTo types i) →
      (is.foldl visit w).Timely types
  | [], _, _, _, _, hw, _ => hw
  | i :: is, hlt, w, hp, hroom, hw, hlead => by
      obtain ⟨hi, his⟩ := List.forall_mem_cons.mp hlt
      obtain ⟨hleadi, hleadis⟩ := List.forall_mem_cons.mp hlead
      obtain ⟨hp', hext, -⟩ := hextends w i hp hi hroom
      exact foldl_timely hextends hvisit is his hp'
        (Nat.lt_of_lt_of_le hroom (Nat.add_le_add_left hext.length_le bound))
        (hvisit w i hp hi hroom hw hleadi) fun j hj => (hleadis j hj).extend hext

/-- A visit is timely if all that is open leads to its position. Inside, the position itself is open
besides, and all of these lead on to what it depends on. -/
theorem visit_timely :
    (bound : Nat) → {w : Walk} → {i : Nat} → w.Proper types.length → i < types.length →
      types.length < bound + w.reached.length → w.Timely types → w.LeadsTo types i →
      (visit types bound w i).Timely types
  | 0, w, _, hp, _, hroom, _, _ => by
      have := hp.length_le
      omega
  | bound + 1, w, i, hp, hi, hroom, hw, hlead => by
      rw [visit]
      split
      · exact hw
      · next h =>
        have hnew : i ∉ w.reached := mt List.contains_iff_mem.mpr h
        have hentered := hp.enter hi hnew
        have hroom' : types.length < bound + (i :: w.reached).length := by
          rw [List.length_cons]
          omega
        have hlt : ∀ j ∈ dependencies types i, j < types.length := fun j => lt_of_mem_dependencies
        have hleads : Walk.LeadsTo types { w with reached := i :: w.reached } i := fun o ho hf => by
          rcases List.mem_cons.mp ho with rfl | ho
          · exact .refl
          · exact hlead o ho hf
        obtain ⟨-, hext, hreached⟩ := foldl_extends
          (fun w' j hp' hj hroom' => visit_extends bound hp' hj hroom') (dependencies types i) hlt
          hentered hroom'
        refine Walk.Timely.finish ?_ (hleads.extend hext) fun j hj =>
          hreached j (mem_dependencies_iff.mpr hj)
        exact foldl_timely (fun w' j hp' hj hroom' => visit_extends bound hp' hj hroom')
          (fun w' j hp' hj hroom' => visit_timely bound hp' hj hroom') (dependencies types i) hlt
          hentered hroom' hw fun j hj o ho hf =>
            (hleads o ho hf).tail (mem_dependencies_iff.mp hj)

/-- In the order of emission, before each position stands everything that it depends on, except for
what leads back to it. -/
theorem positions_timely {before after : List Nat} (h : positions types = before ++ i :: after)
    (hj : DependsOn types i j) : j ∈ before ∨ ReflTransGen (DependsOn types) j i :=
  foldl_timely (w := {}) (fun w i hp hi hroom => visit_extends (types.length + 1) hp hi hroom)
    (fun w i hp hi hroom => visit_timely (types.length + 1) hp hi hroom) (List.range types.length)
    (fun i hi => List.mem_range.mp hi) Walk.proper_empty (by omega)
    (fun before i after h => by simp at h) (fun _ _ _ ho => nomatch ho) before i after h j hj

/-! ### Orders that are kept -/

private theorem foldl_visit_of_reached {bound : Nat} {w : Walk} :
    (js : List Nat) → (∀ j ∈ js, j ∈ w.reached) → js.foldl (visit types bound) w = w
  | [], _ => rfl
  | j :: js, h => by
      obtain ⟨hj, hjs⟩ := List.forall_mem_cons.mp h
      have hvisit : visit types bound w j = w := by
        cases bound with
        | zero => rfl
        | succ bound => rw [visit, if_pos (List.contains_iff_mem.mpr hj)]
      rw [List.foldl_cons, hvisit]
      exact foldl_visit_of_reached js hjs

/-- Where every dependency stands before its dependent, or is the dependent itself, positions are
finished one after the other. -/
theorem positions_eq_range (h : ∀ i j, DependsOn types i j → j ≤ i) :
    positions types = List.range types.length := by
  have key : ∀ k, ∃ reached, (∀ j, j ∈ reached ↔ j < k) ∧
      (List.range k).foldl (visit types (types.length + 1)) {} = ⟨reached, List.range k⟩ := by
    intro k
    induction k with
    | zero => exact ⟨[], fun j => by simp, rfl⟩
    | succ k ih =>
      obtain ⟨reached, hreached, hfold⟩ := ih
      have hmem : ∀ j, j ∈ k :: reached ↔ j < k + 1 := fun j => by
        rw [List.mem_cons, hreached]
        omega
      refine ⟨k :: reached, hmem, ?_⟩
      have hnew : reached.contains k = false :=
        Bool.eq_false_iff.mpr (mt List.contains_iff_mem.mp fun hk =>
          Nat.lt_irrefl k ((hreached k).mp hk))
      rw [List.range_succ, List.foldl_append, hfold, List.foldl_cons, List.foldl_nil, visit]
      dsimp only
      rw [hnew, if_neg Bool.false_ne_true, foldl_visit_of_reached]
      intro j hj
      exact (hmem j).mpr (Nat.lt_succ_of_le (h k j (mem_dependencies_iff.mp hj)))
  obtain ⟨reached, -, hfold⟩ := key types.length
  rw [positions, hfold]

/-! ### Further declarations -/

/-- Every dependency of a declaration is borne among the declarations. -/
def Closed (types : List Declaration) : Prop :=
  ∀ t ∈ types, ∀ name ∈ t.dependencies, ∃ u ∈ types, u.Bears name

section Append

variable {more : List Declaration}

/-- A name that is borne among declarations stands for the same one if others follow. -/
theorem bearer?_append {name : String} (h : ∃ u ∈ types, u.Bears name) :
    bearer? (types ++ more) name = bearer? types name := by
  obtain ⟨u, hu, hname⟩ := h
  have hbears : (u.exports.contains name || u.name == name) = true := by
    rw [Bool.or_eq_true, List.contains_iff_mem, beq_iff_eq]
    exact hname
  cases hfind : bearer? types name with
  | none =>
    have hnot := List.findIdx?_eq_none_iff.mp hfind u hu
    rw [hbears] at hnot
    cases hnot
  | some j =>
    rw [bearer?] at hfind ⊢
    rw [List.findIdx?_append, hfind]
    rfl

theorem dependencies_append (hclosed : Closed types) (hi : i < types.length) :
    dependencies (types ++ more) i = dependencies types i := by
  rw [dependencies, dependencies, List.getElem?_append_left hi, List.getElem?_eq_getElem hi]
  exact List.filterMap_congr fun name hname =>
    bearer?_append (hclosed _ (List.getElem_mem hi) name hname)

/-- Two lists of visits do the same if each visit does, as long as there is room for the first. -/
private theorem foldl_congr {visit visit' : Walk → Nat → Walk} {n bound : Nat}
    (hextends : ∀ w i, w.Proper n → i < n → n < bound + w.reached.length →
      (visit w i).Proper n ∧ w.Extends (visit w i) ∧ i ∈ (visit w i).reached)
    (hsame : ∀ w i, w.Proper n → i < n → n < bound + w.reached.length → visit' w i = visit w i) :
    (is : List Nat) → (∀ i ∈ is, i < n) → {w : Walk} → w.Proper n →
      n < bound + w.reached.length → is.foldl visit' w = is.foldl visit w
  | [], _, _, _, _ => rfl
  | i :: is, hlt, w, hp, hroom => by
      obtain ⟨hi, his⟩ := List.forall_mem_cons.mp hlt
      obtain ⟨hp', hext, -⟩ := hextends w i hp hi hroom
      rw [List.foldl_cons, List.foldl_cons, hsame w i hp hi hroom]
      exact foldl_congr hextends hsame is his hp'
        (Nat.lt_of_lt_of_le hroom (Nat.add_le_add_left hext.length_le bound))

/-- A visit does the same if other declarations follow and deeper visits are allowed. -/
theorem visit_append (hclosed : Closed types) (more : List Declaration) (extra : Nat) :
    (bound : Nat) → {w : Walk} → {i : Nat} → w.Proper types.length → i < types.length →
      types.length < bound + w.reached.length →
      visit (types ++ more) (bound + extra) w i = visit types bound w i
  | 0, w, _, hp, _, hroom => by
      have := hp.length_le
      omega
  | bound + 1, w, i, hp, hi, hroom => by
      rw [Nat.add_right_comm, visit, visit]
      split
      · rfl
      · next h =>
        have hentered := hp.enter hi (mt List.contains_iff_mem.mpr h)
        have hroom' : types.length < bound + (i :: w.reached).length := by
          rw [List.length_cons]
          omega
        dsimp only
        rw [dependencies_append hclosed hi, foldl_congr
          (fun w' j hp' hj hroom' => visit_extends bound hp' hj hroom')
          (fun w' j hp' hj hroom' => visit_append hclosed more extra bound hp' hj hroom')
          (dependencies types i) (fun j => lt_of_mem_dependencies) hentered hroom']

end Append

/-- A visit finishes positions after those that are finished. -/
theorem finished_visit : (bound : Nat) → (w : Walk) → (i : Nat) →
    w.finished <+: (visit types bound w i).finished
  | 0, _, _ => List.prefix_refl _
  | bound + 1, w, i => by
      rw [visit]
      split
      · exact List.prefix_refl _
      · exact (finished_foldl bound (dependencies types i)
          { w with reached := i :: w.reached }).trans (List.prefix_append _ [i])
where
  finished_foldl (bound : Nat) : (is : List Nat) → (w : Walk) →
      w.finished <+: (is.foldl (visit types bound) w).finished
    | [], _ => List.prefix_refl _
    | i :: is, w => (finished_visit bound w i).trans (finished_foldl bound is _)

/-- Declarations that depend on no others are emitted first if others are given after them, in the
same order. -/
theorem order_append (hclosed : Closed types) (more : List Declaration) :
    order types <+: order (types ++ more) := by
  have hpositions : positions types <+: positions (types ++ more) := by
    have hsame := foldl_congr (w := {}) (n := types.length)
      (fun w i hp hi hroom => visit_extends (types.length + 1) hp hi hroom)
      (fun w i hp hi hroom => visit_append hclosed more more.length
        (types.length + 1) hp hi hroom)
      (List.range types.length) (fun i hi => List.mem_range.mp hi) Walk.proper_empty (by omega)
    have hbound : (types ++ more).length + 1 = types.length + 1 + more.length := by
      rw [List.length_append, Nat.add_right_comm]
    rw [positions, ← hsame, positions, hbound, List.length_append, List.range_add,
      List.foldl_append]
    exact finished_visit.finished_foldl _ _ _
  have hentries : order types = (positions types).filterMap fun i => (types ++ more)[i]? :=
    List.filterMap_congr fun i hi =>
      (List.getElem?_append_left (mem_positions_iff.mp hi)).symm
  rw [hentries]
  exact hpositions.filterMap _

/-! ### The order -/

/-- The place of a position in the order of emission. -/
def rank (types : List Declaration) (i : Nat) : Nat := (positions types).idxOf i

private theorem getElem?_filterMap {α β : Type} {f : α → Option β} :
    (l : List α) → (∀ a ∈ l, (f a).isSome) → (k : Nat) → (l.filterMap f)[k]? = l[k]?.bind f
  | [], _, _ => rfl
  | a :: l, h, k => by
      obtain ⟨ha, hl⟩ := List.forall_mem_cons.mp h
      obtain ⟨b, hb⟩ := Option.isSome_iff_exists.mp ha
      rw [List.filterMap_cons_some hb]
      cases k with
      | zero => exact hb.symm
      | succ k => exact getElem?_filterMap l hl k

/-- The declaration at a position is emitted at its rank. -/
theorem getElem?_order_rank (hi : i < types.length) : (order types)[rank types i]? = types[i]? := by
  have hmem := mem_positions_iff.mpr hi
  rw [order, getElem?_filterMap]
  · rw [rank, List.getElem?_eq_getElem (List.idxOf_lt_length_iff.mpr hmem), List.getElem_idxOf]
    rfl
  · intro j hj
    rw [List.getElem?_eq_getElem (mem_positions_iff.mp hj)]
    rfl

/-- A dependency that does not lead back to its dependent is emitted before it. -/
theorem rank_lt (hj : DependsOn types i j) (hne : j ≠ i) (hback : ¬TransGen (DependsOn types) j i) :
    rank types j < rank types i := by
  have hi : i ∈ positions types := by
    obtain ⟨t, u, name, ht, -⟩ := hj
    exact mem_positions_iff.mpr (List.getElem?_eq_some_iff.mp ht).1
  obtain ⟨before, after, hsplit⟩ := List.append_of_mem hi
  have hbefore : i ∉ before := fun hmem => by
    have hnodup := (positions_perm types).nodup_iff.mpr List.nodup_range
    rw [hsplit] at hnodup
    exact (List.nodup_append.mp hnodup).2.2 i hmem i List.mem_cons_self rfl
  rcases positions_timely hsplit hj with hmem | hpath
  · rw [rank, rank, hsplit, List.idxOf_append_of_mem hmem, List.idxOf_append_of_notMem hbefore]
    exact Nat.lt_add_right _ (List.idxOf_lt_length_iff.mpr hmem)
  · rcases Relation.reflTransGen_iff_eq_or_transGen.mp hpath with heq | hpath
    · exact absurd heq.symm hne
    · exact absurd hpath hback

/-- The order of emission holds every declaration as often as it is given, each position at a rank
of its own. A dependency comes before its dependent unless it is the dependent or leads back to it.
If every dependency stands at an earlier position or at that of its dependent, the order is the one
given. -/
theorem order_correct (types : List Declaration) :
    (order types).Perm types ∧
      (∀ i < types.length, (order types)[rank types i]? = types[i]?) ∧
      (∀ i < types.length, ∀ j < types.length, rank types i = rank types j → i = j) ∧
      (∀ i j, DependsOn types i j → j ≠ i → ¬TransGen (DependsOn types) j i →
        rank types j < rank types i) ∧
      ((∀ i j, DependsOn types i j → j ≤ i) → order types = types) := by
  refine ⟨order_perm types, fun i hi => getElem?_order_rank hi, fun i hi j hj h => ?_,
    fun i j => rank_lt, fun h => ?_⟩
  · exact (List.idxOf_inj (mem_positions_iff.mpr hi)).mp h
  · rw [order, positions_eq_range h, filterMap_getElem?_range]

/-- A cycle of two declarations, and a third one that the second of them depends on. -/
def cycleTypes : List Declaration :=
  [ { name := "A", content := "", dependencies := ["B"], kind := .interface, source := "#/a" },
    { name := "B", content := "", dependencies := ["A", "C"], kind := .interface, source := "#/b" },
    { name := "C", content := "", kind := .interface, source := "#/c" } ]

/-- What the cycle depends on comes before it, since nothing leads back. -/
theorem order_correct_cycleTypes :
    (order cycleTypes).Perm cycleTypes ∧ (order cycleTypes)[rank cycleTypes 2]? = cycleTypes[2]? ∧
      DependsOn cycleTypes 1 2 ∧ ¬TransGen (DependsOn cycleTypes) 2 1 ∧
      rank cycleTypes 2 < rank cycleTypes 1 := by
  obtain ⟨hperm, hrank, -, hfirst, -⟩ := order_correct cycleTypes
  have hdepends : DependsOn cycleTypes 1 2 := mem_dependencies_iff.mp (by decide)
  have hback : ¬TransGen (DependsOn cycleTypes) 2 1 := fun hpath => by
    obtain ⟨j, hj, -⟩ := Relation.TransGen.head'_iff.mp hpath
    exact absurd (mem_dependencies_iff.mpr hj) List.not_mem_nil
  exact ⟨hperm, hrank 2 (by decide), hdepends, hback, hfirst 1 2 hdepends (by decide) hback⟩

end Emission

end OpenApiTs
