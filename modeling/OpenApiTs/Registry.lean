import OpenApiTs.Declaration
import OpenApiTs.Json.Basic

/-!
# Registry of declarations

The declarations of a run in the order in which their names were claimed. Names are never given
out twice: if a base name is taken, the smallest number from two on that makes it free is put
after it. Names are not released, and places are neither removed nor reordered.

## Main definitions

* `Registry`: places for declarations and the names taken.
* `Registry.uniqueName`: the free name for a base.
* `Registry.reserve`, `Registry.claimExport`, `Registry.register`, `Registry.fulfill`: the changes.
* `Registry.declarations`: the finished declarations.

## Main results

* `Registry.firstFree?_eq_some`, `Registry.firstFree?_eq_none_iff`: which number makes a base free.
* `Registry.uniqueName_not_taken`: a name that is given out is not in use.
-/

namespace OpenApiTs

/-- Places for declarations and the names taken. -/
structure Registry where
  /-- The places in the order of their claims; a place is empty until its declaration is made. -/
  slots : List (String × Option Declaration) := []
  /-- Every name in use, names of further exports included. -/
  taken : List String := []
  /-- How many numbers are tried for a base. -/
  cap : Nat := Nat.pow 2 32 - 1
  deriving DecidableEq, Repr

/-- No number makes a base free. -/
structure NameExhausted where
  base : String
  attempts : Nat
  deriving DecidableEq, Repr

namespace Registry

/-- The largest number that is ever put after a base. -/
def maxNumber : Nat := Nat.pow 2 64 - 1

/-- A base with a number after it. -/
def numbered (base : String) (n : Nat) : String := base ++ n.repr

/-- The first of `count` numbers from `n` on that makes the base free. -/
def firstFree? (taken : List String) (base : String) : Nat → Nat → Option String
  | 0, _ => none
  | count + 1, n =>
    if taken.contains (numbered base n) then firstFree? taken base count (n + 1)
    else some (numbered base n)

/-- How many numbers are tried for a base. -/
def attempts (r : Registry) : Nat := min (r.cap + 1) maxNumber - 1

/-- The free name for a base. -/
def uniqueName (r : Registry) (base : String) : Except NameExhausted String :=
  if r.taken.contains base then
    match firstFree? r.taken base r.attempts 2 with
    | some name => .ok name
    | none => .error ⟨base, r.attempts⟩
  else .ok base

/-- The name that is found is free, and carries the smallest number that makes it so. -/
theorem firstFree?_eq_some {taken : List String} {base name : String} {count n : Nat}
    (h : firstFree? taken base count n = some name) :
    name ∉ taken ∧ ∃ m, n ≤ m ∧ m < n + count ∧ name = numbered base m ∧
      ∀ k, n ≤ k → k < m → numbered base k ∈ taken := by
  induction count generalizing n with
  | zero => cases h
  | succ count ih =>
    rw [firstFree?] at h
    split at h
    · next hn =>
      obtain ⟨hname, m, hnm, hm, rfl, hk⟩ := ih h
      refine ⟨hname, m, by omega, by omega, rfl, fun k hnk hkm => ?_⟩
      rcases Nat.eq_or_lt_of_le hnk with rfl | hlt
      · exact List.contains_iff_mem.mp hn
      · exact hk k hlt hkm
    · next hn =>
      obtain rfl := Option.some.inj h
      exact ⟨mt List.contains_iff_mem.mpr hn, n, by omega, by omega, rfl, fun k _ _ => by omega⟩

/-- No name is found exactly if all numbers lead to taken names. -/
theorem firstFree?_eq_none_iff {taken : List String} {base : String} {count n : Nat} :
    firstFree? taken base count n = none ↔
      ∀ k, n ≤ k → k < n + count → numbered base k ∈ taken := by
  induction count generalizing n with
  | zero => exact ⟨fun _ k _ _ => by omega, fun _ => rfl⟩
  | succ count ih =>
    rw [firstFree?]
    split
    · next hn =>
      rw [ih]
      refine ⟨fun h k hnk hk => ?_, fun h k hnk hk => h k (by omega) (by omega)⟩
      rcases Nat.eq_or_lt_of_le hnk with rfl | hlt
      · exact List.contains_iff_mem.mp hn
      · exact h k hlt (by omega)
    · next hn =>
      refine ⟨fun h => absurd h (Option.some_ne_none _), fun h => ?_⟩
      exact absurd (List.contains_iff_mem.mpr (h n (Nat.le_refl n) (by omega))) hn

/-- The name for a base is free. -/
theorem uniqueName_not_taken {r : Registry} {base name : String}
    (h : r.uniqueName base = .ok name) : name ∉ r.taken := by
  rw [uniqueName] at h
  split at h
  · split at h
    · next hfree =>
      cases h
      exact (firstFree?_eq_some hfree).1
    · cases h
  · next hbase =>
    cases h
    exact mt List.contains_iff_mem.mpr hbase

/-- The registry with a name taken. -/
def take (r : Registry) (name : String) : Registry :=
  { r with taken := if r.taken.contains name then r.taken else name :: r.taken }

@[simp] theorem mem_taken_take {r : Registry} {name n : String} :
    n ∈ (r.take name).taken ↔ n = name ∨ n ∈ r.taken := by
  rw [take]
  dsimp only
  split
  · next h => exact ⟨.inr, fun hn => hn.elim (fun hn => hn ▸ List.contains_iff_mem.mp h) id⟩
  · exact List.mem_cons

/-- The registry with the place of a name set. -/
def setSlot (r : Registry) (name : String) (slot : Option Declaration) : Registry :=
  { r with slots := Entries.put name slot r.slots }

/-- Claims the free name for a base and a place for its declaration. -/
def reserve (r : Registry) (base : String) : Except NameExhausted (String × Registry) := do
  let name ← r.uniqueName base
  pure (name, (r.take name).setSlot name none)

/-- Claims the free name for a base without a place. -/
def claimExport (r : Registry) (base : String) : Except NameExhausted (String × Registry) := do
  let name ← r.uniqueName base
  pure (name, r.take name)

/-- Claims the free name for a base and puts a finished declaration into its place. -/
def register (r : Registry) (base : String) (d : Declaration) :
    Except NameExhausted (String × Registry) := do
  let name ← r.uniqueName base
  pure (name, (r.take name).setSlot name (some (d.rename name)))

/-- Puts a declaration into the place of a name, which is claimed if nobody has claimed it. -/
def fulfill (r : Registry) (name : String) (d : Declaration) : Registry :=
  let r := if (Entries.get? name r.slots).isSome then r else r.take name
  r.setSlot name (some (d.rename name))

/-- The finished declaration of a name. -/
def lookup? (r : Registry) (name : String) : Option Declaration :=
  (Entries.get? name r.slots).join

/-- Whether a name has a place. -/
def contains (r : Registry) (name : String) : Bool := (Entries.get? name r.slots).isSome

/-- The finished declarations in the order of their places. -/
def declarations (r : Registry) : List Declaration := r.slots.filterMap Prod.snd

end Registry

end OpenApiTs
