import OpenApiTs.Proofs.Names
import OpenApiTs.Proofs.Progress
import OpenApiTs.Proofs.Recursion
import OpenApiTs.Proofs.Texts

/-!
# Laws of types

A law says where nodes stand and what holds of their types, and follows the rules by which types
are made. A run obeys every law: each finished declaration was made, by the rules, for a node that
stands where the law says, from types for which the law holds. This is stated once here for the
state, and shown to be kept by the two steps that put declarations into their places.

## Main definitions

* `UseLaw`: a law.
* `UseLaw.Made`: a declaration that was made under a law.
* `UseLaw.Sound`: the state of a run under a law.
* `UseLaw.Ready`: a sound state in which fewer than a given number of texts of the document have no
  name as pointers, so that fewer references can nest.

## Main results

* `UseLaw.Sound.begun`, `UseLaw.Sound.finished`, `UseLaw.Sound.declared`: the changes keep a state
  sound.
* `UseLaw.Ready.declaring`: naming a pointer, making its declaration and putting it into its place.
* `UseLaw.Ready.declare`: putting a declaration of an operation into its place.
-/

namespace OpenApiTs

/-! ### Room for references -/

/-- How many texts of the document are pointers without a name. -/
def Setting.unnamed (run : Setting) (p : Progress) : Nat :=
  run.tree.root.texts.countP fun text => (p.name? text).isNone

namespace Setting

variable {run : Setting} {p q : Progress}

theorem unnamed_le_texts : run.unnamed p ≤ run.tree.texts := by
  rw [run.tree.texts_eq, ← Json.length_texts]
  exact List.countP_le_length

private theorem isNone_of_imp {text : String}
    (h : (p.name? text).isSome → (q.name? text).isSome) (hq : (q.name? text).isNone = true) :
    (p.name? text).isNone = true := by
  rw [Option.isNone_iff_eq_none] at hq ⊢
  by_contra hp
  have hsome := h (Option.isSome_iff_ne_none.mpr hp)
  rw [hq] at hsome
  cases hsome

/-- In a state in which all that had names have names, no more texts are without one. -/
theorem unnamed_le_of_imp (h : ∀ text, (p.name? text).isSome → (q.name? text).isSome) :
    run.unnamed q ≤ run.unnamed p :=
  List.countP_mono_left fun text _ => isNone_of_imp (h text)

/-- A text that gets a name is no longer counted. -/
theorem unnamed_lt_of_imp (h : ∀ text, (p.name? text).isSome → (q.name? text).isSome)
    {text : String} (htext : text ∈ run.tree.root.texts) (hp : p.name? text = none)
    (hq : (q.name? text).isSome) : run.unnamed q < run.unnamed p := by
  refine countP_lt_countP (fun text _ => isNone_of_imp (h text)) htext ?_ ?_
  · rw [Bool.eq_false_iff, Ne, Option.isNone_iff_eq_none]
    exact Option.isSome_iff_ne_none.mp hq
  · rw [hp]
    rfl

private theorem isSome_of_le (h : p ≤ q) (text : String) (hp : (p.name? text).isSome) :
    (q.name? text).isSome := by
  obtain ⟨name, hname⟩ := Option.isSome_iff_exists.mp hp
  exact Option.isSome_of_mem (h.names hname)

theorem unnamed_le_of_le (h : p ≤ q) : run.unnamed q ≤ run.unnamed p :=
  unnamed_le_of_imp (isSome_of_le h)

theorem unnamed_lt_of_named (h : p ≤ q) {text : String} (htext : text ∈ run.tree.root.texts)
    (hp : p.name? text = none) (hq : (q.name? text).isSome) : run.unnamed q < run.unnamed p :=
  unnamed_lt_of_imp (isSome_of_le h) htext hp hq

end Setting

/-! ### Laws -/

/-- Where nodes stand, which references are followed, and what holds of types. Parts of a node and
what references find stand in their places, the references among the nodes are followed, and
whatever the rules make of types for which the law holds obeys it too. -/
structure UseLaw (run : Setting) where
  At : SchemaNode → String → Prop
  Refers : String → Prop := fun _ => True
  at_part : ∀ {s location node place}, At (.schema s) location → s.HasPart location node place →
    At node place
  refers_of_at : ∀ {reference location}, At (.reference reference) location → Refers reference := by
    exact fun _ => trivial
  at_origin : ∀ {pointer from_ node}, Refers pointer → run.excludes pointer = false →
    run.origin pointer from_ = .ok node → At node pointer
  Holds : Progress → UseRelation
  holds_of_use : ∀ {p node location use}, At node location →
    NodeUse run p (Holds p) node location use → Holds p node location use

namespace UseLaw

variable {run : Setting} (law : UseLaw run)

/-- A declaration as it stands in its place under its name. -/
inductive Made (p : Progress) (name : String) : Declaration → Prop
  | node {pointer node d} (hn : p.name? pointer = some name) (hat : law.At node pointer)
      (h : Makes run p (law.Holds p) pointer name node d) :
      Made p name ((d.dropDependency name).rename name)
  | synthesized {d} (h : Synthesizes run p (law.Holds p) name d) :
      Made p name ((d.dropDependency name).rename name)

/-- The declaration of a pointer as it stands in its place under its name. -/
def MadeAt (p : Progress) (pointer name : String) (d : Declaration) : Prop :=
  ∃ node d', law.At node pointer ∧ Makes run p (law.Holds p) pointer name node d' ∧
    d = (d'.dropDependency name).rename name

/-- The state is orderly, all names taken are given by the naming rules, a pointer with a name is
that of a node, and every declaration was made under the law, that of a pointer for the pointer,
also as seen from any later state. -/
structure Sound (p : Progress) : Prop where
  orderly : p.Orderly
  given : ∀ name ∈ p.registry.taken, run.config.naming.Gives name
  stands : ∀ {pointer name}, p.name? pointer = some name → ∃ node, law.At node pointer
  made : ∀ {name d}, p.registry.lookup? name = some d → ∀ q, p ≤ q → law.Made q name d
  made_at : ∀ {pointer name d}, p.name? pointer = some name → p.registry.lookup? name = some d →
    ∀ q, p ≤ q → law.MadeAt q pointer name d

/-- A sound state in which fewer than `k` texts have no name as pointers. -/
structure Ready (k : Nat) (p : Progress) : Prop extends law.Sound p where
  room : run.unnamed p < k

variable {law} {j k : Nat} {p : Progress} {pointer raw : String} {node : SchemaNode}

theorem sound_empty : law.Sound {} :=
  ⟨Progress.orderly_empty, nofun, (fun h => nomatch h), (fun h => nomatch h), fun h => nomatch h⟩

/-- The name of a place is reserved for no built-in type. -/
theorem Sound.unreserved (h : law.Sound p) :
    ∀ name ∈ Entries.keys p.registry.slots, name ∉ Naming.reserved :=
  fun name hname => (h.given name (h.orderly.coherent.key_taken hname)).not_reserved

/-- A reserved name is given by the naming rules. -/
theorem Sound.given_reserve (h : law.Sound p) {name : String} {registry : Registry}
    (hreserve : p.registry.reserve (run.config.naming.typeName raw) = .ok (name, registry)) :
    run.config.naming.Gives name ∧ ∀ n ∈ registry.taken, run.config.naming.Gives n := by
  have hname : run.config.naming.Gives name :=
    Registry.gives_uniqueName (.converted trivial) (Registry.reserve_eq_ok_iff.mp hreserve).1
  refine ⟨hname, fun n hn => ?_⟩
  rcases ((h.orderly.coherent.slots_reserve hreserve).2.2 n).mp hn with rfl | hn
  · exact hname
  · exact h.given n hn

/-- A sound state is ready for as many nested references as the document allows. -/
theorem Sound.ready (h : law.Sound p) : law.Ready run.tree.bound p :=
  ⟨h, by
    have := run.unnamed_le_texts (p := p)
    rw [DocumentTree.bound]
    omega⟩

theorem Ready.mono (h : law.Ready j p) (hjk : j ≤ k) : law.Ready k p :=
  ⟨h.toSound, Nat.lt_of_lt_of_le h.room hjk⟩

/-- A claim of a name without a place. -/
theorem keeps_claim {base : String} (hbase : run.config.naming.Gives base) :
    Gen.Keeps (law.Ready k) (Gen.claim fun r => r.claimExport base) fun _ _ => True := by
  intro p hp
  unfold Gen.KeepsFrom
  rw [Gen.run_claim]
  cases hclaim : p.registry.claimExport base with
  | error e => exact ⟨hp, le_refl p⟩
  | ok claimed =>
    obtain ⟨name, registry⟩ := claimed
    obtain ⟨horderly, hle⟩ := hp.orderly.claimed hclaim
    have hlookup : ∀ n, registry.lookup? n = p.registry.lookup? n := fun n => by
      obtain ⟨-, rfl⟩ := Registry.claimExport_eq_ok_iff.mp hclaim
      rfl
    refine ⟨⟨⟨horderly, fun n hn => ?_, hp.stands, fun {n d} hd q hq => ?_,
      fun {P n d} hn hd q hq => ?_⟩, hp.room⟩, hle, rfl, fun _ _ => trivial⟩
    · obtain ⟨hname, rfl⟩ := Registry.claimExport_eq_ok_iff.mp hclaim
      rcases Registry.mem_taken_take.mp hn with rfl | hn
      · exact Registry.gives_uniqueName hbase hname
      · exact hp.given n hn
    · exact hp.made (hlookup n ▸ hd) q (le_trans hle hq)
    · exact hp.made_at hn (hlookup n ▸ hd) q (le_trans hle hq)

/-- A pointer gets its name in a state in which nothing is declared under that name. -/
theorem Sound.begun (h : law.Sound p) (hnew : p.name? pointer = none)
    (hat : law.At node pointer) {name : String} {registry : Registry}
    (hreserve : p.registry.reserve (run.config.naming.typeName raw) = .ok (name, registry)) :
    law.Sound (p.begun registry pointer name) := by
  obtain ⟨horderly, hle⟩ := h.orderly.begun hnew hreserve
  have hlookup {n : String} {d : Declaration} (hd : registry.lookup? n = some d) :
      name ≠ n ∧ p.registry.lookup? n = some d := by
    rw [Registry.lookup?_reserve hreserve] at hd
    split at hd
    · cases hd
    · next hne => exact ⟨hne, hd⟩
  refine ⟨horderly, (h.given_reserve hreserve).2, fun {P n} hn => ?_,
    fun {n d} hd q hq => ?_, fun {P n d} hn hd q hq => ?_⟩
  · rw [Progress.name?_begun] at hn
    split at hn
    · next heq => exact ⟨node, heq ▸ hat⟩
    · exact h.stands hn
  · exact h.made (hlookup hd).2 q (le_trans hle hq)
  · obtain ⟨hne, hd⟩ := hlookup hd
    rw [Progress.name?_begun] at hn
    split at hn
    · exact absurd (Option.some.inj hn) hne
    · exact h.made_at hn hd q (le_trans hle hq)

/-- A declaration that is made for a pointer under the law is put into the pointer's place. -/
theorem Sound.finished (h : law.Sound p) {name : String} {d : Declaration}
    (hname : p.name? pointer = some name) (hvisited : pointer ∈ p.visiting)
    (hat : law.At node pointer)
    (hmakes : ∀ q, p ≤ q → Makes run q (law.Holds q) pointer name node d)
    (hw : p.registry.Withholds d.exports) :
    law.Sound (p.finished pointer name d) ∧ p ≤ p.finished pointer name d := by
  obtain ⟨horderly, hle⟩ :=
    h.orderly.finished hname hvisited (hmakes p (le_refl p)).draft hw
  have hlookup : ∀ n, (p.finished pointer name d).registry.lookup? n =
      if name = n then some ((d.dropDependency name).rename name)
      else p.registry.lookup? n := Registry.lookup?_fulfill p.registry _
  refine ⟨⟨horderly, ?_, h.stands, fun {n d'} hd' q hq => ?_, fun {P n d'} hn hd' q hq => ?_⟩,
    hle⟩
  · change ∀ n ∈ (p.registry.fulfill name (d.dropDependency name)).taken, _
    rw [Registry.taken_fulfill (h.orderly.placed hname)]
    exact h.given
  · rw [hlookup] at hd'
    split at hd'
    · next hn =>
      subst hn
      cases hd'
      exact .node (hq.names (hle.names hname)) hat (hmakes q (le_trans hle hq))
    · exact h.made hd' q (le_trans hle hq)
  · change p.name? P = some n at hn
    rw [hlookup] at hd'
    split at hd'
    · next heq =>
      subst heq
      cases hd'
      obtain rfl := h.orderly.injective hn hname
      exact ⟨node, d, hat, hmakes q (le_trans hle hq), rfl⟩
    · exact h.made_at hn hd' q (le_trans hle hq)

/-- A declaration that is made under the law gets a name and a place without a pointer. -/
theorem Sound.declared (h : law.Sound p) {name : String} {registry : Registry} {d : Declaration}
    (hreserve : p.registry.reserve (run.config.naming.typeName raw) = .ok (name, registry))
    (hmake : ∀ q, p ≤ q → Synthesizes run q (law.Holds q) name d) :
    law.Sound (p.declared registry name d) ∧ p ≤ p.declared registry name d := by
  have hsynth := hmake p (le_refl p)
  obtain ⟨horderly, hle⟩ := h.orderly.declared hreserve hsynth.draft hsynth.exports_eq_nil
  have hlookup {n : String} {d' : Declaration}
      (hd' : (p.declared registry name d).registry.lookup? n = some d') :
      name = n ∧ d' = (d.dropDependency name).rename name ∨ p.registry.lookup? n = some d' := by
    rw [show (p.declared registry name d).registry.lookup? n = _ from
      Registry.lookup?_fulfill registry _ n, Registry.lookup?_reserve hreserve] at hd'
    split at hd'
    · next hn =>
      cases hd'
      exact .inl ⟨hn, rfl⟩
    · exact .inr hd'
  refine ⟨⟨horderly, ?_, h.stands, fun {n d'} hd' q hq => ?_, fun {P n d'} hn hd' q hq => ?_⟩,
    hle⟩
  · have hkey : name ∈ Entries.keys registry.slots := by
      rw [(h.orderly.coherent.slots_reserve hreserve).2.1, Entries.keys, List.map_append]
      exact List.mem_append_right _ List.mem_cons_self
    change ∀ n ∈ (registry.fulfill name (d.dropDependency name)).taken, _
    rw [Registry.taken_fulfill hkey]
    exact (h.given_reserve hreserve).2
  · rcases hlookup hd' with ⟨rfl, rfl⟩ | hd'
    · exact .synthesized (hmake q (le_trans hle hq))
    · exact h.made hd' q (le_trans hle hq)
  · change p.name? P = some n at hn
    rcases hlookup hd' with ⟨rfl, -⟩ | hd'
    · exact absurd (h.orderly.taken hn) (h.orderly.coherent.slots_reserve hreserve).1
    · exact h.made_at hn hd' q (le_trans hle hq)

/-- The declaration of a pointer, from its name to its place. Less room is needed inside if naming
the pointer uses some up. -/
theorem Ready.declaring {make : String → Gen Declaration} (hp : law.Ready k p)
    (hnew : p.name? pointer = none) (hat : law.At node pointer) (hjk : j ≤ k)
    (hroom : ∀ q, p ≤ q → (q.name? pointer).isSome → run.unnamed q < j)
    (hmake : ∀ name, run.config.naming.Gives name →
      Gen.Keeps (law.Ready j) (make name) fun d q => Makes run q (law.Holds q) pointer name node d)
    (hclaims : ∀ name q d q', run.config.naming.Gives name → law.Ready j q →
      (make name).run.run q = (.ok d, q') → q'.registry.Withholds d.exports) :
    Gen.KeepsFrom (law.Ready k) p
      (do
        let name ← Gen.begin run pointer raw
        let d ← make name
        Gen.finish pointer name d
        pure name)
      fun name q => q.name? pointer = some name := by
  unfold Gen.KeepsFrom
  rw [Gen.run_bind, Gen.run_begin]
  cases hreserve : p.registry.reserve (run.config.naming.typeName raw) with
  | error e => exact ⟨hp, le_refl p⟩
  | ok claimed =>
    obtain ⟨name, registry⟩ := claimed
    obtain ⟨-, hle⟩ := hp.orderly.begun hnew hreserve
    have hname : (p.begun registry pointer name).name? pointer = some name := by
      rw [Progress.name?_begun, if_pos rfl]
    have hready : law.Ready j (p.begun registry pointer name) :=
      ⟨hp.begun hnew hat hreserve, hroom _ hle (by rw [hname]; rfl)⟩
    have hgiven := (hp.given_reserve hreserve).1
    have hmade := hmake name hgiven _ hready
    unfold Gen.KeepsFrom at hmade
    dsimp only
    rw [Gen.run_bind]
    rcases hrun : (make name).run.run (p.begun registry pointer name) with ⟨failure | d, q⟩ <;>
      rw [hrun] at hmade
    · exact ⟨hmade.1.mono hjk, le_trans hle hmade.2⟩
    · obtain ⟨hq, hle', hvisiting, hmakes⟩ := hmade
      have hwithholds := hclaims name _ d q hgiven hready hrun
      have hnot := hp.orderly.not_mem_visiting hnew
      have hvisiting' : q.visiting = p.visiting ++ [pointer] :=
        hvisiting.trans (Progress.visiting_begun hnot)
      obtain ⟨hsound, hle''⟩ := hq.toSound.finished (hle'.names hname)
        (hvisiting' ▸ List.mem_append_right _ List.mem_cons_self) hat hmakes hwithholds
      have hpq := le_trans hle (le_trans hle' hle'')
      refine ⟨⟨hsound, Nat.lt_of_le_of_lt (Setting.unnamed_le_of_le hpq) hp.room⟩, hpq, ?_,
        fun r hr => hr.names (hle''.names (hle'.names hname))⟩
      change q.visiting.filter (· != pointer) = p.visiting
      have hkeep : ∀ P ∈ p.visiting, (P != pointer) = true := fun P hP =>
        bne_iff_ne.mpr fun he => hnot (he ▸ hP)
      rw [hvisiting', List.filter_append, List.filter_eq_self.mpr hkeep]
      simp

/-- The declaration of an operation, from its name to its place. -/
theorem Ready.declare {make : String → Declaration} (hp : law.Ready k p)
    (hmake : ∀ name q, p ≤ q → Synthesizes run q (law.Holds q) name (make name)) :
    Gen.KeepsFrom (law.Ready k) p (Gen.declare run raw make) fun name q =>
      q.registry.lookup? name = some (((make name).dropDependency name).rename name) := by
  unfold Gen.KeepsFrom
  rw [Gen.run_declare]
  cases hreserve : p.registry.reserve (run.config.naming.typeName raw) with
  | error e => exact ⟨hp, le_refl p⟩
  | ok claimed =>
    obtain ⟨name, registry⟩ := claimed
    obtain ⟨hsound, hle⟩ := hp.toSound.declared hreserve (hmake name)
    refine ⟨⟨hsound, Nat.lt_of_le_of_lt (Setting.unnamed_le_of_le hle) hp.room⟩, hle, rfl,
      fun q hq => hq.lookup ?_⟩
    exact (Registry.lookup?_fulfill registry _ name).trans (if_pos rfl)

end UseLaw

end OpenApiTs
