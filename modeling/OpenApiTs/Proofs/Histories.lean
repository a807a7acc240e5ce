import OpenApiTs.Proofs.Registry

/-!
# Histories of a registry

A registry can be changed by any sequence of actions, with any names and declarations, some of which
find no name and so change nothing. Whatever an action does, it does by taking a name and by setting
the place of a taken name to nothing or to a declaration of that name. So after every history the
places have names that are taken and hold declarations of these names, and no later action releases
a name or moves a place. What name an action finds depends on the names that are taken alone.

## Main definitions

* `Registry.Action`: an action on a registry.
* `Registry.Action.outcome`, `Registry.after`: what an action answers and leaves, and the registry
  after a history.
* `Registry.Consistent`: the invariant of all histories.
* `Registry.Grows`: what one registry keeps of another.
* `Registry.FirstFree`: the free name for a base.

## Main results

* `Registry.uniqueName_eq_error_iff`: when no name is found.
* `Registry.Action.grows_outcome`: one action keeps the invariant, the names taken and the places.
* `Registry.laws_after`: the laws of a registry after any history.
-/

namespace OpenApiTs.Registry

/-! ### Actions -/

/-- An action on a registry. -/
inductive Action where
  | uniqueName (base : String)
  | reserve (base : String)
  | claimExport (base : String)
  | register (base : String) (d : Declaration)
  | fulfill (name : String) (d : Declaration)

namespace Action

/-- The base that an action finds a name for. -/
def base? : Action → Option String
  | .uniqueName base | .reserve base | .claimExport base | .register base _ => some base
  | .fulfill _ _ => none

/-- The answer of a claim and the registry that it leaves: the old one if no name is found. -/
def settle (r : Registry) :
    Except NameExhausted (String × Registry) → Except NameExhausted (Option String) × Registry
  | .ok (name, s) => (.ok (some name), s)
  | .error e => (.error e, r)

/-- What an action answers, a name if it finds one for a base, and the registry that it leaves. -/
def outcome (r : Registry) : Action → Except NameExhausted (Option String) × Registry
  | .uniqueName base => ((r.uniqueName base).map some, r)
  | .reserve base => settle r (r.reserve base)
  | .claimExport base => settle r (r.claimExport base)
  | .register base d => settle r (r.register base d)
  | .fulfill name d => (.ok none, r.fulfill name d)

end Action

/-- The registry after a history of actions, some of which may have found no name. -/
def after (r : Registry) (actions : List Action) : Registry :=
  actions.foldl (fun r a => (a.outcome r).2) r

/-! ### Invariant and growth -/

/-- Places have distinct names, which are taken, and hold declarations of these names. -/
structure Consistent (r : Registry) : Prop where
  keys_nodup : (Entries.keys r.slots).Nodup
  keys_taken : ∀ name ∈ Entries.keys r.slots, name ∈ r.taken
  named : ∀ name d, (name, some d) ∈ r.slots → d.name = name

/-- The second registry has all names taken and all places of the first, these in front and in the
same order. -/
structure Grows (r s : Registry) : Prop where
  cap_eq : s.cap = r.cap
  taken : r.taken ⊆ s.taken
  places : Entries.keys r.slots <+: Entries.keys s.slots

variable {r s t : Registry} {base name : String} {d : Declaration}

theorem Grows.rfl : r.Grows r := ⟨Eq.refl _, List.Subset.refl _, List.prefix_rfl⟩

theorem Grows.trans (h : r.Grows s) (h' : s.Grows t) : r.Grows t :=
  ⟨h'.cap_eq.trans h.cap_eq, List.Subset.trans h.taken h'.taken, h.places.trans h'.places⟩

theorem consistent_empty (cap : Nat) : Consistent { cap := cap } :=
  ⟨List.nodup_nil, (fun _ h => nomatch h), fun _ _ h => nomatch h⟩

theorem Consistent.take (hr : r.Consistent) (name : String) : (r.take name).Consistent :=
  ⟨hr.keys_nodup, fun n hn => mem_taken_take.mpr (.inr (hr.keys_taken n hn)), hr.named⟩

theorem grows_take (r : Registry) (name : String) : r.Grows (r.take name) :=
  ⟨rfl, fun _ hn => mem_taken_take.mpr (.inr hn), List.prefix_rfl⟩

/-- A taken name has a place from now on, with nothing or with a declaration of that name in it. -/
theorem Consistent.setSlot (hr : r.Consistent) (hname : name ∈ r.taken)
    {slot : Option Declaration} (hslot : ∀ d, slot = some d → d.name = name) :
    (r.setSlot name slot).Consistent := by
  refine ⟨Entries.nodup_keys_put hr.keys_nodup, fun n hn => ?_, fun n d hmem => ?_⟩
  · change n ∈ Entries.keys (Entries.put name slot r.slots) at hn
    rw [Entries.keys_put] at hn
    split at hn
    · exact hr.keys_taken n hn
    · rcases List.mem_append.mp hn with hn | hn
      · exact hr.keys_taken n hn
      · exact List.mem_singleton.mp hn ▸ hname
  · rcases Entries.mem_put hmem with heq | hmem
    · obtain ⟨rfl, hd⟩ := Prod.mk.inj heq
      exact hslot d hd.symm
    · exact hr.named n d hmem

theorem grows_setSlot (r : Registry) (name : String) (slot : Option Declaration) :
    r.Grows (r.setSlot name slot) := by
  refine ⟨rfl, List.Subset.refl _, ?_⟩
  change _ <+: Entries.keys (Entries.put name slot r.slots)
  rw [Entries.keys_put]
  split
  · exact List.prefix_rfl
  · exact List.prefix_append _ _

/-! ### Names that are found -/

/-- A name is free, and is the base, or the base is taken and the name carries the smallest number
from two on that makes it free. -/
def FirstFree (r : Registry) (base name : String) : Prop :=
  name ∉ r.taken ∧ (name = base ∨ base ∈ r.taken ∧ ∃ n, 2 ≤ n ∧ name = numbered base n ∧
    ∀ k, 2 ≤ k → k < n → numbered base k ∈ r.taken)

theorem firstFree_uniqueName (h : r.uniqueName base = .ok name) : r.FirstFree base name := by
  refine ⟨uniqueName_not_taken h, ?_⟩
  rw [uniqueName] at h
  split at h
  · next hbase =>
    split at h
    · next hfound =>
      cases h
      obtain ⟨-, n, hn, -, hname, hk⟩ := firstFree?_eq_some hfound
      exact .inr ⟨List.contains_iff_mem.mp hbase, n, hn, hname, hk⟩
    · cases h
  · cases h
    exact .inl rfl

/-- As many numbers are tried as the registry allows, unless that is the largest number of all. -/
theorem attempts_eq (hcap : r.cap < maxNumber) : r.attempts = r.cap := by
  rw [attempts]
  omega

/-- No name is found exactly if the base and its numbered forms are taken, from two on and as many
as the registry allows. -/
theorem uniqueName_eq_error_iff (hcap : r.cap < maxNumber) {e : NameExhausted} :
    r.uniqueName base = .error e ↔ e = ⟨base, r.cap⟩ ∧ base ∈ r.taken ∧
      ∀ n, 2 ≤ n → n ≤ r.cap + 1 → numbered base n ∈ r.taken := by
  rw [uniqueName, attempts_eq hcap]
  split
  · next hbase =>
    split
    · next hfound =>
      obtain ⟨hfree, n, hn, hlt, rfl, -⟩ := firstFree?_eq_some hfound
      exact iff_of_false (fun heq => by cases heq) fun h => hfree (h.2.2 n hn (by omega))
    · next hfound =>
      have htaken := firstFree?_eq_none_iff.mp hfound
      rw [Except.error.injEq, eq_comm]
      exact (and_iff_left ⟨List.contains_iff_mem.mp hbase,
        fun n hn hle => htaken n hn (by omega)⟩).symm
  · next hbase =>
    exact iff_of_false (fun heq => by cases heq) fun h => hbase (List.contains_iff_mem.mpr h.2.1)

/-! ### Outcomes of actions -/

namespace Action

variable {a : Action}

private theorem settle_bind (r : Registry) (base : String) (f : String → Registry) :
    settle r (do
      let name ← r.uniqueName base
      pure (name, f name)) =
      match r.uniqueName base with
      | .ok name => (.ok (some name), f name)
      | .error e => (.error e, r) := by
  cases r.uniqueName base <;> rfl

/-- An action that finds no name changes nothing. One that finds a name leaves everything as it is,
or takes the name, or takes it and sets its place to nothing or to a declaration of that name. -/
theorem outcome_eq (r : Registry) (h : a.base? = some base) :
    ∃ s : String → Registry,
      a.outcome r = (match r.uniqueName base with
        | .ok name => (.ok (some name), s name)
        | .error e => (.error e, r)) ∧
      ∀ name, a = .uniqueName base ∧ s name = r ∨ s name = r.take name ∨
        ∃ slot, (∀ d, slot = some d → d.name = name) ∧
          s name = (r.take name).setSlot name slot := by
  cases a with
  | uniqueName _ =>
    cases h
    refine ⟨fun _ => r, ?_, fun _ => .inl ⟨rfl, rfl⟩⟩
    change ((r.uniqueName base).map some, r) = _
    cases r.uniqueName base <;> rfl
  | reserve _ =>
    cases h
    exact ⟨_, settle_bind r base _, fun _ => .inr (.inr ⟨none, nofun, rfl⟩)⟩
  | claimExport _ =>
    cases h
    exact ⟨_, settle_bind r base _, fun _ => .inr (.inl rfl)⟩
  | register _ d =>
    cases h
    exact ⟨_, settle_bind r base _, fun name => .inr (.inr
      ⟨some (d.rename name), fun _ hd => Option.some.inj hd ▸ rfl, rfl⟩)⟩
  | fulfill _ _ => cases h

/-- One action keeps the invariant, the names taken and the places. -/
theorem grows_outcome (hr : r.Consistent) (a : Action) :
    (a.outcome r).2.Consistent ∧ r.Grows (a.outcome r).2 := by
  have htake (name : String) : (r.take name).Consistent ∧ r.Grows (r.take name) :=
    ⟨hr.take name, grows_take r name⟩
  have hset {t : Registry} (ht : t.Consistent ∧ r.Grows t) {name : String} (hname : name ∈ t.taken)
      {slot : Option Declaration} (hslot : ∀ d, slot = some d → d.name = name) :
      (t.setSlot name slot).Consistent ∧ r.Grows (t.setSlot name slot) :=
    ⟨ht.1.setSlot hname hslot, ht.2.trans (grows_setSlot t name slot)⟩
  cases hbase : a.base? with
  | some base =>
    obtain ⟨s, heq, hs⟩ := outcome_eq r hbase
    rw [heq]
    cases r.uniqueName base with
    | error e => exact ⟨hr, .rfl⟩
    | ok name =>
      change (s name).Consistent ∧ r.Grows (s name)
      rcases hs name with ⟨-, hname⟩ | hname | ⟨slot, hslot, hname⟩ <;> rw [hname]
      · exact ⟨hr, .rfl⟩
      · exact htake name
      · exact hset (htake name) (mem_taken_take.mpr (.inl rfl)) hslot
  | none =>
    cases a with
    | uniqueName _ | reserve _ | claimExport _ | register _ _ => cases hbase
    | fulfill name d =>
      change (r.fulfill name d).Consistent ∧ r.Grows (r.fulfill name d)
      have hslot : ∀ d', some (d.rename name) = some d' → d'.name = name := fun _ hd =>
        Option.some.inj hd ▸ rfl
      rw [Registry.fulfill]
      split
      · next hplace =>
        exact hset ⟨hr, .rfl⟩ (hr.keys_taken name (Entries.get?_isSome_iff.mp hplace)) hslot
      · exact hset (htake name) (mem_taken_take.mpr (.inl rfl)) hslot

end Action

/-- A history keeps what each of its actions keeps. -/
theorem grows_after :
    (actions : List Action) → {r : Registry} → r.Consistent →
      (after r actions).Consistent ∧ r.Grows (after r actions)
  | [], _, hr => ⟨hr, .rfl⟩
  | a :: actions, _, hr => by
      obtain ⟨hs, hgrows⟩ := Action.grows_outcome hr a
      obtain ⟨ht, hgrows'⟩ := grows_after actions hs
      exact ⟨ht, hgrows.trans hgrows'⟩

/-! ### Laws -/

/-- Finished declarations bear the names of their places. -/
theorem Consistent.map_name_declarations (hr : r.Consistent) :
    (r.declarations.map Declaration.name).Sublist (Entries.keys r.slots) := by
  have hnamed : ∀ e ∈ r.slots, ∀ d, e.2 = some d → d.name = e.1 := fun e he d hd =>
    hr.named e.1 d (by rw [← hd]; exact he)
  rw [declarations, Entries.keys]
  generalize r.slots = slots at hnamed
  induction slots with
  | nil => exact List.Sublist.slnil
  | cons e rest ih =>
    obtain ⟨hd, hrest⟩ := List.forall_mem_cons.mp hnamed
    obtain ⟨name, slot⟩ := e
    cases slot with
    | none => exact (ih hrest).cons name
    | some d =>
      have hname : d.name = name := hd d rfl
      subst hname
      exact (ih hrest).cons_cons _

/-- After any history from an empty registry, names of places are taken, and finished declarations
bear the names of their places, so that no two have the same name. No further history releases a
name, or removes or moves a place. A further action that finds a name for a base finds the free one,
which is taken from then on if it is claimed. It finds none exactly if the base and the numbered
forms that the registry allows are taken, and then it changes nothing. -/
theorem laws_after (cap : Nat) (hcap : cap < maxNumber) (actions : List Action) :
    let r := after { cap := cap } actions
    (∀ name ∈ Entries.keys r.slots, name ∈ r.taken) ∧
    (∀ name d, (name, some d) ∈ r.slots → d.name = name) ∧
    (r.declarations.map Declaration.name).Nodup ∧
    (∀ more, r.taken ⊆ (after { cap := cap } (actions ++ more)).taken ∧
      Entries.keys r.slots <+: Entries.keys (after { cap := cap } (actions ++ more)).slots) ∧
    ∀ a base, Action.base? a = some base →
      ((∃ name, (a.outcome r).1 = .ok (some name)) ∨ ∃ e, (a.outcome r).1 = .error e) ∧
      (∀ name, (a.outcome r).1 = .ok (some name) → r.FirstFree base name ∧
        (a ≠ .uniqueName base → name ∈ (a.outcome r).2.taken)) ∧
      (∀ e, (a.outcome r).1 = .error e ↔ e = ⟨base, cap⟩ ∧ base ∈ r.taken ∧
        ∀ n, 2 ≤ n → n ≤ cap + 1 → numbered base n ∈ r.taken) ∧
      ∀ e, (a.outcome r).1 = .error e → (a.outcome r).2 = r := by
  intro r
  obtain ⟨hr, hgrows⟩ := grows_after actions (consistent_empty cap)
  have hcapr : r.cap = cap := hgrows.cap_eq
  refine ⟨hr.keys_taken, hr.named, hr.keys_nodup.sublist hr.map_name_declarations, fun more => ?_,
    fun a base hbase => ?_⟩
  · have hmore := (grows_after more hr).2
    rw [after, List.foldl_append]
    exact ⟨hmore.taken, hmore.places⟩
  · obtain ⟨s, heq, hs⟩ := Action.outcome_eq r hbase
    have herror {e : NameExhausted} : r.uniqueName base = .error e ↔ _ :=
      uniqueName_eq_error_iff (hcapr ▸ hcap)
    rw [hcapr] at herror
    rw [heq]
    cases hfound : r.uniqueName base with
    | error e =>
      refine ⟨.inr ⟨e, rfl⟩, nofun, fun e' => ?_, fun _ _ => rfl⟩
      rw [← herror, hfound]
      exact ⟨fun h => congrArg _ (Except.error.inj h), fun h => congrArg _ (Except.error.inj h)⟩
    | ok name =>
      refine ⟨.inl ⟨name, rfl⟩, fun n hn => ?_, fun e' => ?_, nofun⟩
      · cases hn
        refine ⟨firstFree_uniqueName hfound, fun hne => ?_⟩
        change name ∈ (s name).taken
        rcases hs name with ⟨ha, -⟩ | hname | ⟨slot, -, hname⟩
        · exact absurd ha hne
        · exact hname ▸ mem_taken_take.mpr (.inl rfl)
        · exact hname ▸ mem_taken_take.mpr (.inl rfl)
      · rw [← herror, hfound]
        exact ⟨nofun, nofun⟩

/-- Declarations under one base, with a name claimed directly in numbered form between them. -/
def cappedActions : List Action := [
  .register "T" { content := "a", kind := .union, source := "#/a" },
  .claimExport "T3",
  .reserve "T",
  .fulfill "T2" { content := "b", kind := .union, source := "#/b" }]

/-- With two numbers to try, the base has no further name, and another base is free. -/
theorem laws_after_cappedActions :
    let r := after { cap := 2 } cappedActions
    2 < maxNumber ∧ r.declarations.map Declaration.name = ["T", "T2"] ∧
      (r.declarations.map Declaration.name).Nodup ∧
      Action.outcome r (.reserve "T") = (.error ⟨"T", 2⟩, r) ∧ r.FirstFree "T3" "T32" := by
  intro r
  have hcap : 2 < maxNumber := by decide
  obtain ⟨-, -, hnodup, -, hlaw⟩ := laws_after 2 hcap cappedActions
  obtain ⟨-, -, herror, hsame⟩ := hlaw (.reserve "T") "T" rfl
  have htaken : ∀ n, 2 ≤ n → n ≤ 2 + 1 → numbered "T" n ∈ r.taken := fun n hn hle => by
    obtain rfl | rfl : n = 2 ∨ n = 3 := by omega
    · decide +kernel
    · decide +kernel
  have hfails := (herror ⟨"T", 2⟩).mpr ⟨rfl, by decide +kernel, htaken⟩
  have hfound : (Action.outcome r (.claimExport "T3")).1 = .ok (some "T32") := by decide +kernel
  exact ⟨hcap, by decide +kernel, hnodup, Prod.ext hfails (hsame _ hfails),
    ((hlaw (.claimExport "T3") "T3" rfl).2.1 "T32" hfound).1⟩

end OpenApiTs.Registry
