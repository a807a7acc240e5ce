import Mathlib.Data.List.Nodup
import OpenApiTs.Registry

/-!
# Coherence of the registry

A registry is coherent if its places have distinct names, every name that it exports or has
promised is taken, no such name stands twice, and every finished declaration bears the name of its
place and exports it first. The changes that a run makes keep a registry coherent: a reserved name
is new to everything, and a place is filled once, with names that nobody else exports.

## Main definitions

* `Declaration.Draft`: a declaration as a maker gives it, before it has a name.
* `Declaration.Presents`: a declaration under its name.
* `Registry.exported`: the names that are exported or promised.
* `Registry.Coherent`: the invariant of a registry.
* `Registry.Withholds`: names that a declaration can bring along.

## Main results

* `Entries.prefix_of_keys`: entries under the same keys as others and more are those and more.
* `Registry.Coherent.reserve`, `Registry.Coherent.claimExport`, `Registry.Coherent.fulfill`: the
  changes keep the invariant.
-/

namespace OpenApiTs

/-! ### Entries under distinct keys -/

namespace Entries

variable {α : Type} {key k : String} {value v : α}

theorem get?_eq_none_iff {entries : List (String × α)} :
    get? key entries = none ↔ key ∉ keys entries := by
  induction entries with
  | nil => simp [get?, keys]
  | cons e rest ih =>
    by_cases h : e.1 = key
    · simp [get?, keys, h]
    · have h' : ¬key = e.1 := Ne.symm h
      simpa [get?, keys, h, h'] using ih

theorem get?_isSome_iff {entries : List (String × α)} :
    (get? key entries).isSome ↔ key ∈ keys entries := by
  rw [Option.isSome_iff_ne_none, ne_eq, get?_eq_none_iff, not_not]

theorem mem_of_get? {entries : List (String × α)} (h : get? key entries = some value) :
    (key, value) ∈ entries := by
  induction entries with
  | nil => cases h
  | cons e rest ih =>
    obtain ⟨k, v⟩ := e
    rw [get?] at h
    split at h
    · next hk =>
      cases h
      rw [hk]
      exact List.mem_cons_self
    · exact List.mem_cons_of_mem _ (ih h)

theorem get?_append_of_some (more : List (String × α)) :
    {entries : List (String × α)} → get? key entries = some value →
      get? key (entries ++ more) = some value
  | (k, v) :: rest, h => by
      rw [List.cons_append]
      rw [get?] at h ⊢
      split
      · next hk => rwa [if_pos hk] at h
      · next hk => exact get?_append_of_some more (by rwa [if_neg hk] at h)

theorem get?_filter (keep : String → Bool) (h : keep key = true) :
    (entries : List (String × α)) →
      get? key (entries.filter fun e => keep e.1) = get? key entries
  | [] => rfl
  | (k, v) :: rest => by
      by_cases hk : k = key
      · rw [List.filter_cons_of_pos (hk ▸ h), get?, get?, if_pos hk, if_pos hk]
      · rw [List.filter_cons, get?, if_neg hk, ← get?_filter keep h rest]
        split
        · rw [get?, if_neg hk]
        · rfl

/-- An entry that is left out can as well have another value. -/
theorem filter_put (keep : String → Bool) (h : keep key = false) (value : α) :
    (entries : List (String × α)) →
      (put key value entries).filter (fun e => keep e.1) = entries.filter fun e => keep e.1
  | [] => by simp [put, h]
  | (k, v) :: rest => by
      rw [put]
      split
      · next hk => simp [hk, h]
      · rw [List.filter_cons, List.filter_cons, filter_put keep h value rest]

theorem filter_put_of_keep (keep : String → Bool) (h : keep key = true) (value : α) :
    (entries : List (String × α)) →
      (put key value entries).filter (fun e => keep e.1) =
        put key value (entries.filter fun e => keep e.1)
  | [] => by simp [put, h]
  | (k, v) :: rest => by
      rw [put]
      split
      · next hk => simp [put, hk, h]
      · next hk =>
        rw [List.filter_cons, List.filter_cons, filter_put_of_keep keep h value rest]
        split
        · rw [put, if_neg hk]
        · rfl

theorem get?_eq_some_iff {entries : List (String × α)} (hnd : (keys entries).Nodup) :
    get? key entries = some value ↔ (key, value) ∈ entries := by
  refine ⟨mem_of_get?, fun h => ?_⟩
  induction entries with
  | nil => cases h
  | cons e rest ih =>
    obtain ⟨hk, hnd'⟩ := List.nodup_cons.mp hnd
    rcases List.mem_cons.mp h with rfl | h
    · simp [get?]
    · have hne : e.1 ≠ key := fun he => hk (he ▸ List.mem_map_of_mem (f := Prod.fst) h)
      rw [get?, if_neg hne]
      exact ih hnd' h

theorem put_of_not_mem {entries : List (String × α)} (h : key ∉ keys entries) :
    put key value entries = entries ++ [(key, value)] := by
  induction entries with
  | nil => rfl
  | cons e rest ih =>
    simp only [keys, List.map_cons, List.mem_cons, not_or] at h
    rw [put, if_neg (Ne.symm h.1), ih h.2, List.cons_append]

theorem mem_put {e : String × α} :
    {entries : List (String × α)} → e ∈ put key value entries → e = (key, value) ∨ e ∈ entries
  | [], h => .inl (List.mem_singleton.mp h)
  | (k, v) :: rest, h => by
      rw [put] at h
      split at h
      · next hk =>
        subst hk
        exact (List.mem_cons.mp h).imp id (List.mem_cons_of_mem _)
      · rcases List.mem_cons.mp h with rfl | h
        · exact .inr List.mem_cons_self
        · exact (mem_put h).imp id (List.mem_cons_of_mem _)

/-- An update keeps keys distinct. -/
theorem nodup_keys_put {entries : List (String × α)} (h : (keys entries).Nodup) :
    (keys (put key value entries)).Nodup := by
  rw [keys_put]
  split
  · exact h
  · next hnew => exact h.append (List.nodup_singleton key) (List.disjoint_singleton.mpr hnew)

/-- Entries are the first of others if their keys are, and their values are found there. -/
theorem prefix_of_keys :
    {entries entries' : List (String × α)} → (keys entries').Nodup →
      keys entries <+: keys entries' → (∀ e ∈ entries, get? e.1 entries' = some e.2) →
      entries <+: entries'
  | [], _, _, _, _ => List.nil_prefix
  | (_, _) :: _, [], _, hkeys, _ => nomatch List.prefix_nil.mp hkeys
  | (k, v) :: rest, (k', v') :: rest', hnd, hkeys, hget => by
      have hfresh := List.nodup_cons.mp hnd
      obtain ⟨rfl, hrest⟩ : k = k' ∧ keys rest <+: keys rest' := List.cons_prefix_cons.mp hkeys
      have hget' := List.forall_mem_cons.mp hget
      obtain rfl : v' = v := by simpa [get?] using hget'.1
      refine List.cons_prefix_cons.mpr ⟨rfl, prefix_of_keys hfresh.2 hrest fun e he => ?_⟩
      have hmem : e.1 ∈ keys rest' := hrest.subset (List.mem_map_of_mem he)
      have hne : k ≠ e.1 := fun heq => hfresh.1 (show k ∈ keys rest' from heq ▸ hmem)
      rw [← hget'.2 e he, get?, if_neg hne]

/-- An update of a key that is there changes one entry and nothing around it. -/
theorem exists_put_eq {entries : List (String × α)} (value : α)
    (h : get? key entries = some v) :
    ∃ before after, entries = before ++ (key, v) :: after ∧
      put key value entries = before ++ (key, value) :: after := by
  induction entries with
  | nil => cases h
  | cons e rest ih =>
    obtain ⟨k', v'⟩ := e
    by_cases hk : k' = key
    · subst hk
      rw [get?, if_pos rfl] at h
      cases h
      exact ⟨[], rest, rfl, by rw [put, if_pos rfl, List.nil_append]⟩
    · rw [get?, if_neg hk] at h
      obtain ⟨before, after, hrest, hput⟩ := ih h
      exact ⟨(k', v') :: before, after, by rw [hrest, List.cons_append],
        by rw [put, if_neg hk, hput, List.cons_append]⟩

end Entries

/-! ### Declarations before and after they are named -/

/-- How many names a declaration exports besides its own: an enumeration exports the union of its
values. -/
def DeclarationKind.companions : DeclarationKind → Nat
  | .enumeration => 1
  | .interface | .union => 0

namespace Declaration

/-- A declaration as its maker gives it: without a name, and with the companions of its kind. -/
structure Draft (d : Declaration) : Prop where
  name : d.name = ""
  exports : d.exports.length = d.kind.companions

/-- A declaration under its name, which it exports before its companions. -/
structure Presents (d : Declaration) (name : String) : Prop where
  name_eq : d.name = name
  exports_eq : ∃ companions, d.exports = name :: companions ∧
    companions.length = d.kind.companions

/-- A draft exports its new name first, and then what it exported before. -/
theorem exports_rename_of_name_eq_nil {d : Declaration} {name : String} (hd : d.name = "")
    (h : name ∉ d.exports) : (d.rename name).exports = name :: d.exports := by
  simp only [rename, hd, ne_eq, not_true_eq_false, false_and, if_false, List.contains_iff_mem, h]

/-- A draft keeps its exports under its new name. -/
theorem mem_exports_rename_of_mem {d : Declaration} {name n : String} (hd : d.name = "")
    (h : n ∈ d.exports) : n ∈ (d.rename name).exports := by
  simp only [rename, hd, ne_eq, not_true_eq_false, false_and, if_false]
  split
  · exact h
  · exact List.mem_cons_of_mem _ h

theorem Draft.presents_rename {d : Declaration} (hd : d.Draft) {name : String}
    (h : name ∉ d.exports) : (d.rename name).Presents name where
  name_eq := rfl
  exports_eq := ⟨d.exports, exports_rename_of_name_eq_nil hd.name h, hd.exports⟩

theorem Draft.dropDependency {d : Declaration} (hd : d.Draft) (name : String) :
    (d.dropDependency name).Draft :=
  ⟨hd.name, hd.exports⟩

end Declaration

/-! ### Coherent registries -/

namespace Registry

/-- The names that a place exports, or the one that it promises to export. -/
def slotNames : String × Option Declaration → List String
  | (name, none) => [name]
  | (_, some d) => d.exports

/-- The names that are exported or promised. -/
def exported (r : Registry) : List String := r.slots.flatMap slotNames

/-- Places have distinct names, nothing is exported twice, all that is exported is taken, and
finished declarations bear the names of their places. -/
structure Coherent (r : Registry) : Prop where
  keys_nodup : (Entries.keys r.slots).Nodup
  exported_nodup : r.exported.Nodup
  exported_taken : ∀ name ∈ r.exported, name ∈ r.taken
  presents : ∀ name d, (name, some d) ∈ r.slots → d.Presents name

/-- Names are taken, each once, and no place exports them: a declaration can bring them along. -/
structure Withholds (r : Registry) (names : List String) : Prop where
  nodup : names.Nodup
  taken : ∀ n ∈ names, n ∈ r.taken
  unexported : ∀ n ∈ names, n ∉ r.exported

variable {r s : Registry} {name base : String} {d : Declaration}

theorem Withholds.nil : r.Withholds [] :=
  ⟨List.nodup_nil, List.forall_mem_nil _, List.forall_mem_nil _⟩

theorem coherent_empty : Coherent {} :=
  ⟨List.nodup_nil, List.nodup_nil, fun _ h => absurd h List.not_mem_nil,
    fun _ _ h => absurd h List.not_mem_nil⟩

namespace Coherent

theorem key_mem_exported (hr : r.Coherent) (h : name ∈ Entries.keys r.slots) :
    name ∈ r.exported := by
  obtain ⟨⟨k, slot⟩, hmem, rfl⟩ := List.mem_map.mp h
  refine List.mem_flatMap.mpr ⟨(k, slot), hmem, ?_⟩
  cases slot with
  | none => exact List.mem_singleton.mpr rfl
  | some d =>
    obtain ⟨companions, hexports, -⟩ := (hr.presents k d hmem).exports_eq
    rw [slotNames, hexports]
    exact List.mem_cons_self

theorem key_taken (hr : r.Coherent) (h : name ∈ Entries.keys r.slots) : name ∈ r.taken :=
  hr.exported_taken name (hr.key_mem_exported h)

theorem lookup?_eq_some_iff (hr : r.Coherent) :
    r.lookup? name = some d ↔ (name, some d) ∈ r.slots := by
  rw [lookup?, Option.join_eq_some_iff, Entries.get?_eq_some_iff hr.keys_nodup]

end Coherent

/-! ### Changes -/

theorem reserve_eq_ok_iff :
    r.reserve base = .ok (name, s) ↔
      r.uniqueName base = .ok name ∧ s = (r.take name).setSlot name none := by
  unfold reserve
  cases r.uniqueName base with
  | error e => exact ⟨nofun, fun h => nomatch h.1⟩
  | ok n =>
    change Except.ok (n, (r.take n).setSlot n none) = .ok (name, s) ↔ _
    simp only [Except.ok.injEq, Prod.mk.injEq]
    exact ⟨fun ⟨hn, hs⟩ => ⟨hn, hn ▸ hs.symm⟩, fun ⟨hn, hs⟩ => ⟨hn, hn ▸ hs.symm⟩⟩

theorem claimExport_eq_ok_iff :
    r.claimExport base = .ok (name, s) ↔ r.uniqueName base = .ok name ∧ s = r.take name := by
  unfold claimExport
  cases r.uniqueName base with
  | error e => exact ⟨nofun, fun h => nomatch h.1⟩
  | ok n =>
    change Except.ok (n, r.take n) = .ok (name, s) ↔ _
    simp only [Except.ok.injEq, Prod.mk.injEq]
    exact ⟨fun ⟨hn, hs⟩ => ⟨hn, hn ▸ hs.symm⟩, fun ⟨hn, hs⟩ => ⟨hn, hn ▸ hs.symm⟩⟩

/-- A reservation leaves every place as it was and adds an empty one. -/
theorem get?_reserve (h : r.reserve base = .ok (name, s)) (n : String) :
    Entries.get? n s.slots = if name = n then some none else Entries.get? n r.slots := by
  obtain ⟨-, rfl⟩ := reserve_eq_ok_iff.mp h
  exact Entries.get?_put name none r.slots n

theorem get?_reserve_self (h : r.reserve base = .ok (name, s)) :
    Entries.get? name s.slots = some none := by
  rw [get?_reserve h, if_pos rfl]

theorem mem_keys_reserve (h : r.reserve base = .ok (name, s)) : name ∈ Entries.keys s.slots := by
  rw [← Entries.get?_isSome_iff, get?_reserve_self h]
  rfl

theorem lookup?_reserve (h : r.reserve base = .ok (name, s)) (n : String) :
    s.lookup? n = if name = n then none else r.lookup? n := by
  rw [lookup?, get?_reserve h]
  split <;> rfl

/-- What a filled place holds, and that the other places are as they were. -/
theorem get?_fulfill (r : Registry) (d : Declaration) (n : String) :
    Entries.get? n (r.fulfill name d).slots =
      if name = n then some (some (d.rename name)) else Entries.get? n r.slots := by
  rw [fulfill]
  split <;> exact Entries.get?_put name (some (d.rename name)) r.slots n

theorem lookup?_fulfill (r : Registry) (d : Declaration) (n : String) :
    (r.fulfill name d).lookup? n = if name = n then some (d.rename name) else r.lookup? n := by
  rw [lookup?, get?_fulfill]
  split <;> rfl

/-- No name is taken for a place that is there. -/
theorem taken_fulfill (h : name ∈ Entries.keys r.slots) (d : Declaration) :
    (r.fulfill name d).taken = r.taken := by
  rw [fulfill, if_pos (Entries.get?_isSome_iff.mpr h)]
  rfl

/-- What a reservation does: a new place at the end, under a name that nobody has. -/
theorem Coherent.slots_reserve (hr : r.Coherent) (h : r.reserve base = .ok (name, s)) :
    name ∉ r.taken ∧ s.slots = r.slots ++ [(name, none)] ∧
      ∀ n, n ∈ s.taken ↔ n = name ∨ n ∈ r.taken := by
  obtain ⟨hname, rfl⟩ := reserve_eq_ok_iff.mp h
  have hfree := uniqueName_not_taken hname
  exact ⟨hfree, Entries.put_of_not_mem fun hmem => hfree (hr.key_taken hmem),
    fun _ => mem_taken_take⟩

namespace Coherent

theorem reserve (hr : r.Coherent) (h : r.reserve base = .ok (name, s)) : s.Coherent := by
  obtain ⟨hfree, hslots, htaken⟩ := hr.slots_reserve h
  have hexported : s.exported = r.exported ++ [name] := by
    rw [exported, hslots, List.flatMap_append]
    rfl
  refine ⟨?_, ?_, ?_, ?_⟩
  · rw [hslots, Entries.keys, List.map_append]
    exact hr.keys_nodup.append (List.nodup_singleton name)
      (List.disjoint_singleton.mpr fun hmem => hfree (hr.key_taken hmem))
  · rw [hexported]
    exact hr.exported_nodup.append (List.nodup_singleton name)
      (List.disjoint_singleton.mpr fun hmem => hfree (hr.exported_taken name hmem))
  · intro n hn
    rw [hexported, List.mem_append, List.mem_singleton] at hn
    exact (htaken n).mpr (hn.symm.imp_right (hr.exported_taken n))
  · intro n d hmem
    rw [hslots, List.mem_append, List.mem_singleton] at hmem
    rcases hmem with hmem | hmem
    · exact hr.presents n d hmem
    · cases hmem

theorem claimExport (hr : r.Coherent) (h : r.claimExport base = .ok (name, s)) : s.Coherent := by
  obtain ⟨-, rfl⟩ := claimExport_eq_ok_iff.mp h
  exact ⟨hr.keys_nodup, hr.exported_nodup,
    fun n hn => mem_taken_take.mpr (.inr (hr.exported_taken n hn)), hr.presents⟩

/-- A claimed name is taken, and no place exports it. -/
theorem claimExport_fresh (hr : r.Coherent) (h : r.claimExport base = .ok (name, s)) :
    name ∈ s.taken ∧ name ∉ s.exported := by
  obtain ⟨hname, rfl⟩ := claimExport_eq_ok_iff.mp h
  exact ⟨mem_taken_take.mpr (.inl rfl),
    fun hmem => uniqueName_not_taken hname (hr.exported_taken name hmem)⟩

theorem withholds_claimExport (hr : r.Coherent) (h : r.claimExport base = .ok (name, s)) :
    s.Withholds [name] := by
  obtain ⟨htaken, hexported⟩ := hr.claimExport_fresh h
  exact ⟨List.nodup_singleton name, List.forall_mem_singleton.mpr htaken,
    List.forall_mem_singleton.mpr hexported⟩

/-- The place of a promised name, which is filled where it stands. -/
theorem slots_fulfill (h : Entries.get? name r.slots = some none) (d : Declaration) :
    ∃ before after, r.slots = before ++ (name, none) :: after ∧
      (r.fulfill name d).slots = before ++ (name, some (d.rename name)) :: after ∧
        (r.fulfill name d).taken = r.taken := by
  obtain ⟨before, after, hslots, hput⟩ := Entries.exists_put_eq (some (d.rename name)) h
  have heq : r.fulfill name d = r.setSlot name (some (d.rename name)) := by
    rw [fulfill, h]
    rfl
  exact ⟨before, after, hslots, by rw [heq]; exact hput, by rw [heq]; rfl⟩

theorem keys_fulfill (h : Entries.get? name r.slots = some none) (d : Declaration) :
    Entries.keys (r.fulfill name d).slots = Entries.keys r.slots := by
  obtain ⟨before, after, hslots, hslots', -⟩ := slots_fulfill h d
  rw [hslots, hslots', Entries.keys, Entries.keys, List.map_append, List.map_append]
  rfl

/-- A promised place is filled with a declaration whose companions are taken and are exported by
nobody else. -/
theorem fulfill (hr : r.Coherent) (h : Entries.get? name r.slots = some none) (hd : d.Draft)
    (hw : r.Withholds d.exports) : (r.fulfill name d).Coherent := by
  obtain ⟨before, after, hslots, hslots', htaken⟩ := slots_fulfill h d
  have hname : name ∈ r.exported :=
    hr.key_mem_exported (Entries.get?_isSome_iff.mp (by rw [h]; rfl))
  have hne : name ∉ d.exports := fun hmem => hw.unexported name hmem hname
  have hexports : (d.rename name).exports = name :: d.exports :=
    Declaration.exports_rename_of_name_eq_nil hd.name hne
  have hold : r.exported = before.flatMap slotNames ++ name :: after.flatMap slotNames := by
    rw [exported, hslots, List.flatMap_append]
    rfl
  have hnew : (r.fulfill name d).exported =
      before.flatMap slotNames ++ (name :: d.exports ++ after.flatMap slotNames) := by
    rw [exported, hslots', List.flatMap_append, ← hexports]
    rfl
  have hperm : (r.fulfill name d).exported.Perm (r.exported ++ d.exports) := by
    rw [hnew, hold, List.append_assoc, List.cons_append, List.cons_append]
    exact List.Perm.append_left _ (List.Perm.cons _ List.perm_append_comm)
  refine ⟨?_, ?_, ?_, ?_⟩
  · have hkeys : Entries.keys (r.fulfill name d).slots = Entries.keys r.slots := by
      rw [hslots, hslots', Entries.keys, Entries.keys, List.map_append, List.map_append]
      rfl
    rw [hkeys]
    exact hr.keys_nodup
  · exact hperm.nodup_iff.mpr (hr.exported_nodup.append hw.nodup fun n hn hn' =>
      hw.unexported n hn' hn)
  · intro n hn
    rw [htaken]
    exact (List.mem_append.mp (hperm.mem_iff.mp hn)).elim (hr.exported_taken n)
      (hw.taken n)
  · intro n d' hmem
    rw [hslots', List.mem_append, List.mem_cons] at hmem
    rcases hmem with hmem | heq | hmem
    · exact hr.presents n d' (hslots ▸ List.mem_append_left _ hmem)
    · cases heq
      exact hd.presents_rename hne
    · exact hr.presents n d'
        (hslots ▸ List.mem_append_right _ (List.mem_cons_of_mem _ hmem))

end Coherent

end Registry

end OpenApiTs
