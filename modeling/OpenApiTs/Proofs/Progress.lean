import OpenApiTs.Proofs.Outcome
import OpenApiTs.Proofs.Registry

/-!
# The order of a run's state

A pointer is named and marked as being visited in one step, and its declaration is put into its
place when the visit ends. In between, any number of other pointers can be named and declared. At
all times the empty places are those of the pointers being visited, and nothing else is open.

## Main definitions

* `Progress.Orderly`: the invariant of the state.
* `Progress.begun`, `Progress.finished`, `Progress.declared`: the states after a pointer is named,
  after its visit ends, and after a declaration without a pointer is made.

## Main results

* `Progress.Orderly.begun`, `Progress.Orderly.finished`, `Progress.Orderly.declared`: the changes
  keep the invariant and lead to later states.
* `Gen.run_begin`, `Gen.run_finish`, `Gen.run_declare`: the steps of a run are these changes.
-/

namespace OpenApiTs

namespace Progress

/-- Pointers have names of their own, a named pointer has a place, and a place is empty exactly if
it is that of a pointer being visited. -/
structure Orderly (p : Progress) : Prop where
  coherent : p.registry.Coherent
  injective : ∀ {P Q name}, p.name? P = some name → p.name? Q = some name → P = Q
  placed : ∀ {P name}, p.name? P = some name → name ∈ Entries.keys p.registry.slots
  pending_iff : ∀ {name}, Entries.get? name p.registry.slots = some none ↔
    ∃ P ∈ p.visiting, p.name? P = some name
  visiting_named : ∀ P ∈ p.visiting, (p.name? P).isSome

variable {p : Progress} {registry : Registry} {pointer name base : String} {d : Declaration}

theorem orderly_empty : Orderly {} where
  coherent := Registry.coherent_empty
  injective h := nomatch h
  placed h := nomatch h
  pending_iff := ⟨nofun, fun ⟨_, h, _⟩ => nomatch h⟩
  visiting_named _ h := nomatch h

/-! ### Changes -/

/-- The state after a pointer is named and its visit begins. -/
def begun (p : Progress) (registry : Registry) (pointer name : String) : Progress where
  registry := registry
  names := Entries.put pointer name p.names
  visiting := Names.add p.visiting pointer

/-- The state after a declaration is put into its place and the visit of its pointer ends. -/
def finished (p : Progress) (pointer name : String) (d : Declaration) : Progress where
  registry := p.registry.fulfill name (d.dropDependency name)
  names := p.names
  visiting := p.visiting.filter (· != pointer)

/-- The state after a name is claimed and a declaration is put into its place. -/
def declared (p : Progress) (registry : Registry) (name : String) (d : Declaration) : Progress :=
  { p with registry := registry.fulfill name (d.dropDependency name) }

theorem name?_begun (P : String) :
    (p.begun registry pointer name).name? P = if pointer = P then some name else p.name? P :=
  Entries.get?_put pointer name p.names P

/-- A finished declaration can be looked up. -/
theorem lookup?_finished (p : Progress) (pointer name : String) (d : Declaration) :
    (p.finished pointer name d).registry.lookup? name =
      some ((d.dropDependency name).rename name) :=
  (Registry.lookup?_fulfill p.registry (d.dropDependency name) name).trans (if_pos rfl)

theorem visiting_begun (h : pointer ∉ p.visiting) :
    (p.begun registry pointer name).visiting = p.visiting ++ [pointer] := by
  rw [begun, Names.add, if_neg (mt List.contains_iff_mem.mp h)]

/-- The place of the declaration is filled, and the other places are as they were. -/
theorem get?_declared (h : p.registry.reserve base = .ok (name, registry)) (d : Declaration)
    (n : String) :
    Entries.get? n (p.declared registry name d).registry.slots =
      if name = n then some (some ((d.dropDependency name).rename name))
      else Entries.get? n p.registry.slots := by
  refine (Registry.get?_fulfill registry (d.dropDependency name) n).trans ?_
  rw [Registry.get?_reserve h]
  split <;> rfl

namespace Orderly

theorem not_mem_visiting (hp : p.Orderly) (h : p.name? pointer = none) :
    pointer ∉ p.visiting := fun hmem => by
  have := hp.visiting_named pointer hmem
  rw [h] at this
  cases this

/-- The name of a pointer is taken. -/
theorem taken (hp : p.Orderly) (h : p.name? pointer = some name) : name ∈ p.registry.taken :=
  hp.coherent.key_taken (hp.placed h)

theorem name?_ne_of_reserve (hp : p.Orderly) (h : p.registry.reserve base = .ok (name, registry))
    (P : String) : p.name? P ≠ some name :=
  fun hP => (hp.coherent.slots_reserve h).1 (hp.taken hP)

theorem keys_prefix_reserve (hp : p.Orderly) (h : p.registry.reserve base = .ok (name, registry)) :
    Entries.keys p.registry.slots <+: Entries.keys registry.slots := by
  rw [(hp.coherent.slots_reserve h).2.1, Entries.keys, Entries.keys, List.map_append]
  exact List.prefix_append _ _

/-- A declaration is found where it was before a reservation. -/
private theorem lookup?_of_reserve (hp : p.Orderly)
    (h : p.registry.reserve base = .ok (name, registry)) {n : String}
    (hd : p.registry.lookup? n = some d) : name ≠ n ∧ registry.lookup? n = some d := by
  have hne : name ≠ n := by
    rintro rfl
    have hkey : name ∈ Entries.keys p.registry.slots := by
      rw [← Entries.get?_isSome_iff]
      rw [Registry.lookup?, Option.join_eq_some_iff] at hd
      rw [hd]
      rfl
    exact (hp.coherent.slots_reserve h).1 (hp.coherent.key_taken hkey)
  rw [Registry.lookup?_reserve h, if_neg hne]
  exact ⟨hne, hd⟩

/-! ### The begin of a visit -/

section Begun

variable (hp : p.Orderly) (hnew : p.name? pointer = none)
  (h : p.registry.reserve base = .ok (name, registry))
include hp hnew h

theorem le_begun : p ≤ p.begun registry pointer name where
  names {P n} hP := by
    have hne : pointer ≠ P := by
      rintro rfl
      rw [hnew] at hP
      cases hP
    rw [name?_begun, if_neg hne]
    exact hP
  lookup hd := (lookup?_of_reserve hp h hd).2
  taken hn := ((hp.coherent.slots_reserve h).2.2 _).mpr (.inr hn)
  places := hp.keys_prefix_reserve h

/-- The new place is empty, as its pointer is visited now, and nothing changes for the others. -/
private theorem pending_begun {n : String} :
    Entries.get? n registry.slots = some none ↔
      ∃ P ∈ (p.begun registry pointer name).visiting,
        (p.begun registry pointer name).name? P = some n := by
  simp only [Registry.get?_reserve h, visiting_begun (hp.not_mem_visiting hnew), name?_begun]
  split
  · next hn =>
    subst hn
    exact iff_of_true rfl ⟨pointer, List.mem_append_right _ List.mem_cons_self, if_pos rfl⟩
  · next hn =>
    rw [hp.pending_iff]
    constructor
    · rintro ⟨P, hP, hname⟩
      have hne : pointer ≠ P := by
        rintro rfl
        exact hp.not_mem_visiting hnew hP
      exact ⟨P, List.mem_append_left _ hP, (if_neg hne).trans hname⟩
    · rintro ⟨P, hP, hname⟩
      split at hname
      · exact absurd (Option.some.inj hname) hn
      · next hne =>
        exact ⟨P, (List.mem_append.mp hP).resolve_right fun hP =>
          hne (List.mem_singleton.mp hP).symm, hname⟩

theorem begun :
    (p.begun registry pointer name).Orderly ∧ p ≤ p.begun registry pointer name := by
  -- The new name belongs to no other pointer, since names of pointers are taken.
  have hother := hp.name?_ne_of_reserve h
  refine ⟨⟨hp.coherent.reserve h, ?_, ?_, hp.pending_begun hnew h, ?_⟩, hp.le_begun hnew h⟩
  · intro P Q n hP hQ
    rw [name?_begun] at hP hQ
    split at hP <;> split at hQ
    · next hP' hQ' => exact hP'.symm.trans hQ'
    · cases hP
      exact absurd hQ (hother Q)
    · cases hQ
      exact absurd hP (hother P)
    · exact hp.injective hP hQ
  · intro P n hP
    rw [name?_begun] at hP
    split at hP
    · cases hP
      exact Registry.mem_keys_reserve h
    · exact (hp.le_begun hnew h).places.subset (hp.placed hP)
  · intro P hP
    rw [name?_begun]
    split
    · rfl
    · next hne =>
      rw [visiting_begun (hp.not_mem_visiting hnew)] at hP
      exact hp.visiting_named P ((List.mem_append.mp hP).resolve_right fun hP =>
        hne (List.mem_singleton.mp hP).symm)

end Begun

/-! ### The end of a visit -/

section Finished

variable (hp : p.Orderly) (hname : p.name? pointer = some name) (hv : pointer ∈ p.visiting)
include hp hname hv

theorem get?_of_visiting : Entries.get? name p.registry.slots = some none :=
  hp.pending_iff.mpr ⟨pointer, hv, hname⟩

theorem le_finished (d : Declaration) : p ≤ p.finished pointer name d where
  names := id
  lookup {n d'} hd' := by
    refine (Registry.lookup?_fulfill p.registry (d.dropDependency name) n).trans ?_
    rw [if_neg]
    · exact hd'
    · rintro rfl
      rw [Registry.lookup?, hp.get?_of_visiting hname hv] at hd'
      cases hd'
  taken hn := Registry.taken_fulfill (hp.placed hname) (d.dropDependency name) ▸ hn
  places :=
    (Registry.Coherent.keys_fulfill (hp.get?_of_visiting hname hv) (d.dropDependency name)) ▸
      List.prefix_rfl

/-- The place is filled, as its pointer is not visited any more, and nothing changes for the
others. -/
private theorem pending_finished (d : Declaration) {n : String} :
    Entries.get? n (p.finished pointer name d).registry.slots = some none ↔
      ∃ P ∈ (p.finished pointer name d).visiting, p.name? P = some n := by
  refine (Registry.get?_fulfill p.registry (d.dropDependency name) n).congr_left.trans ?_
  split
  · next hn =>
    subst hn
    refine iff_of_false nofun ?_
    rintro ⟨P, hP, hPn⟩
    exact bne_iff_ne.mp (List.mem_filter.mp hP).2 (hp.injective hPn hname)
  · next hn =>
    rw [hp.pending_iff]
    refine ⟨fun ⟨P, hP, hPn⟩ => ⟨P, List.mem_filter.mpr ⟨hP, bne_iff_ne.mpr ?_⟩, hPn⟩,
      fun ⟨P, hP, hPn⟩ => ⟨P, (List.mem_filter.mp hP).1, hPn⟩⟩
    rintro rfl
    rw [hname] at hPn
    exact hn (Option.some.inj hPn)

theorem finished (hd : d.Draft) (hw : p.registry.Withholds d.exports) :
    (p.finished pointer name d).Orderly ∧ p ≤ p.finished pointer name d := by
  have hle := hp.le_finished hname hv d
  have hcoherent :=
    hp.coherent.fulfill (hp.get?_of_visiting hname hv) (hd.dropDependency name) hw
  exact ⟨⟨hcoherent, hp.injective, fun hP => hle.places.subset (hp.placed hP),
    hp.pending_finished hname hv d, fun P hP => hp.visiting_named P (List.mem_filter.mp hP).1⟩, hle⟩

end Finished

/-! ### Declarations without pointers -/

section Declared

variable (hp : p.Orderly) (h : p.registry.reserve base = .ok (name, registry))
include hp h

theorem le_declared (d : Declaration) : p ≤ p.declared registry name d where
  names := id
  lookup {n d'} hd' := by
    obtain ⟨hne, hlookup⟩ := lookup?_of_reserve hp h hd'
    refine (Registry.lookup?_fulfill registry (d.dropDependency name) n).trans ?_
    rw [if_neg hne]
    exact hlookup
  taken {n} hn := by
    change n ∈ (registry.fulfill name (d.dropDependency name)).taken
    rw [Registry.taken_fulfill (Registry.mem_keys_reserve h)]
    exact ((hp.coherent.slots_reserve h).2.2 n).mpr (.inr hn)
  places := by
    change _ <+: Entries.keys (registry.fulfill name (d.dropDependency name)).slots
    rw [Registry.Coherent.keys_fulfill (Registry.get?_reserve_self h)]
    exact hp.keys_prefix_reserve h

theorem declared (hd : d.Draft) (hnil : d.exports = []) :
    (p.declared registry name d).Orderly ∧ p ≤ p.declared registry name d := by
  have hle := hp.le_declared h d
  have hwithholds : registry.Withholds (d.dropDependency name).exports := by
    change registry.Withholds d.exports
    rw [hnil]
    exact .nil
  have hcoherent := (hp.coherent.reserve h).fulfill (Registry.get?_reserve_self h)
    (hd.dropDependency name) hwithholds
  refine ⟨⟨hcoherent, hp.injective, fun hP => hle.places.subset (hp.placed hP), ?_,
    hp.visiting_named⟩, hle⟩
  intro n
  rw [get?_declared h]
  split
  · next hn =>
    subst hn
    exact iff_of_false nofun fun ⟨P, _, hPn⟩ => hp.name?_ne_of_reserve h P hPn
  · exact hp.pending_iff

end Declared

/-! ### Names without places -/

/-- A claim without a place takes a name and changes nothing else. -/
theorem claimed (hp : p.Orderly) (h : p.registry.claimExport base = .ok (name, registry)) :
    ({ p with registry := registry } : Progress).Orderly ∧
      p ≤ ({ p with registry := registry } : Progress) := by
  have hcoherent := hp.coherent.claimExport h
  obtain ⟨-, rfl⟩ := Registry.claimExport_eq_ok_iff.mp h
  exact ⟨⟨hcoherent, hp.injective, hp.placed, hp.pending_iff, hp.visiting_named⟩,
    ⟨id, id, fun hn => Registry.mem_taken_take.mpr (.inr hn), List.prefix_rfl⟩⟩

end Orderly

end Progress

/-! ### Steps of a run -/

namespace Gen

variable {p : Progress} {run : Setting} {pointer raw name : String} {d : Declaration}

theorem run_claim (f : Registry → Except NameExhausted (String × Registry)) (p : Progress) :
    (claim f).run.run p =
      match f p.registry with
      | .ok (name, registry) => (.ok name, { p with registry := registry })
      | .error ⟨base, attempts⟩ => (.error (.exhausted base attempts), p) := by
  unfold claim
  rw [run_bind]
  change (match f p.registry with
    | .ok (name, registry) => do
      set { p with registry := registry }
      Pure.pure name
    | .error ⟨base, attempts⟩ => throw (.exhausted base attempts) : Gen String).run.run p = _
  rcases f p.registry with ⟨base, attempts⟩ | ⟨name, registry⟩ <;> rfl

theorem run_begin (p : Progress) :
    (begin run pointer raw).run.run p =
      match p.registry.reserve (run.config.naming.typeName raw) with
      | .ok (name, registry) => (.ok name, p.begun registry pointer name)
      | .error ⟨base, attempts⟩ => (.error (.exhausted base attempts), p) := by
  unfold begin
  rw [run_bind, run_claim]
  rcases p.registry.reserve (run.config.naming.typeName raw) with
    ⟨base, attempts⟩ | ⟨name, registry⟩ <;> rfl

theorem run_finish (p : Progress) :
    (finish pointer name d).run.run p = (.ok (), p.finished pointer name d) := rfl

theorem run_declare (make : String → Declaration) (p : Progress) :
    (declare run raw make).run.run p =
      match p.registry.reserve (run.config.naming.typeName raw) with
      | .ok (name, registry) => (.ok name, p.declared registry name (make name))
      | .error ⟨base, attempts⟩ => (.error (.exhausted base attempts), p) := by
  unfold declare
  rw [run_bind, run_claim]
  rcases p.registry.reserve (run.config.naming.typeName raw) with
    ⟨base, attempts⟩ | ⟨name, registry⟩ <;> rfl

theorem run_nameOf? (pointer : String) (p : Progress) :
    (nameOf? pointer).run.run p = (.ok (p.name? pointer), p) := rfl

end Gen

end OpenApiTs
