import Mathlib.Data.List.Forall2
import Mathlib.Order.Defs.PartialOrder
import OpenApiTs.Generation.Context

/-!
# Outcomes of computations

A computation of a run starts in a state and ends in a later one, with a value or with a failure.
What is known of a state stays true in every later state: names of pointers, finished declarations
and names taken are never lost. So a fact about the value of a computation is stated for all states
later than the one in which the value was found, and survives whatever the run does next.

## Main definitions

* `Progress.Extended`: one state is later than another, written `p ≤ q`.
* `Gen.KeepsFrom`, `Gen.Keeps`: a computation keeps an invariant, leaves the visits under way as
  they were, and gives values with a property.

## Main results

* `Gen.Keeps.pure`, `Gen.Keeps.bind`, `Gen.Keeps.map`, `Gen.Keeps.ofExcept`, `Gen.Keeps.mapM`: the
  rules for the ways in which computations are put together.
* `Gen.run_bind_eq_ok_iff`: when a combined computation succeeds.
-/

namespace OpenApiTs

/-- A chain of results succeeds exactly if each of its steps does. -/
theorem bind_eq_ok_iff {ε α β : Type} {x : Except ε α} {f : α → Except ε β} {y : β} :
    x >>= f = .ok y ↔ ∃ a, x = .ok a ∧ f a = .ok y := by
  cases x with
  | error e => exact ⟨nofun, fun ⟨_, h, _⟩ => nomatch h⟩
  | ok a => exact ⟨fun h => ⟨a, rfl, h⟩, fun ⟨_, h, h'⟩ => by cases h; exact h'⟩

theorem map_eq_ok_iff {ε α β : Type} {x : Except ε α} {f : α → β} {y : β} :
    x.map f = .ok y ↔ ∃ a, x = .ok a ∧ f a = y := by
  cases x with
  | error e => exact ⟨nofun, fun ⟨_, h, _⟩ => nomatch h⟩
  | ok a => exact ⟨fun h => ⟨a, rfl, Except.ok.inj h⟩, fun ⟨_, h, h'⟩ => by cases h; exact h' ▸ rfl⟩

/-- A result that gives a value when its failure is forgotten succeeds with this value. -/
theorem eq_ok_of_toOption {ε α : Type} {x : Except ε α} {a : α} (h : x.toOption = some a) :
    x = .ok a := by
  cases x with
  | error e => cases h
  | ok b => exact congrArg Except.ok (Option.some.inj h)

/-- A chain of results depends on its further steps only for the value of the first. -/
theorem bind_congr_of_eq_ok {ε α β : Type} {x : Except ε α} {f g : α → Except ε β}
    (h : ∀ a, x = .ok a → f a = g a) : x >>= f = x >>= g := by
  cases x with
  | error e => rfl
  | ok a => exact h a rfl

/-! ### Later states -/

/-- A state that knows everything that another one knows. -/
structure Progress.Extended (p q : Progress) : Prop where
  names : ∀ {pointer name}, p.name? pointer = some name → q.name? pointer = some name
  lookup : ∀ {name d}, p.registry.lookup? name = some d → q.registry.lookup? name = some d
  taken : ∀ {name}, name ∈ p.registry.taken → name ∈ q.registry.taken
  places : Entries.keys p.registry.slots <+: Entries.keys q.registry.slots

instance : Preorder Progress where
  le := Progress.Extended
  le_refl _ := ⟨id, id, id, List.prefix_rfl⟩
  le_trans _ _ _ h h' :=
    ⟨fun hn => h'.names (h.names hn), fun hd => h'.lookup (h.lookup hd),
      fun ht => h'.taken (h.taken ht), h.places.trans h'.places⟩

namespace Gen

variable {α β : Type} {I : Progress → Prop} {p : Progress}

/-! ### Runs of combined computations -/

theorem run_bind (m : Gen α) (f : α → Gen β) (p : Progress) :
    (m >>= f).run.run p =
      match m.run.run p with
      | (.ok x, q) => (f x).run.run q
      | (.error failure, q) => (.error failure, q) := by
  unfold ExceptT.run StateT.run
  simp only [bind, ExceptT.bind, ExceptT.mk, StateT.bind, ExceptT.bindCont]
  rcases m p with ⟨_ | _, q⟩ <;> rfl

/-- A combined computation succeeds exactly if its parts do one after the other. -/
theorem run_bind_eq_ok_iff {m : Gen α} {f : α → Gen β} {y : β} {r : Progress} :
    (m >>= f).run.run p = (.ok y, r) ↔
      ∃ x q, m.run.run p = (.ok x, q) ∧ (f x).run.run q = (.ok y, r) := by
  rw [run_bind]
  rcases m.run.run p with ⟨failure | x, q⟩
  · exact ⟨nofun, fun ⟨_, _, h, _⟩ => nomatch h⟩
  · exact ⟨fun h => ⟨x, q, rfl, h⟩, fun ⟨_, _, h, h'⟩ => by cases h; exact h'⟩

/-- A changed result fails exactly if the computation does. -/
theorem run_map_eq_error_iff {f : α → β} {m : Gen α} {failure : Failure} {q : Progress} :
    (f <$> m).run.run p = (.error failure, q) ↔ m.run.run p = (.error failure, q) := by
  rw [map_eq_pure_bind, run_bind]
  rcases m.run.run p with ⟨_ | x, r⟩
  · exact ⟨fun h => by cases h; rfl, fun h => by cases h; rfl⟩
  · exact ⟨nofun, nofun⟩

theorem run_map_eq_ok_iff {f : α → β} {m : Gen α} {y : β} {q : Progress} :
    (f <$> m).run.run p = (.ok y, q) ↔ ∃ x, m.run.run p = (.ok x, q) ∧ f x = y := by
  rw [map_eq_pure_bind, run_bind_eq_ok_iff]
  constructor
  · rintro ⟨x, r, hm, hpure⟩
    cases hpure
    exact ⟨x, hm, rfl⟩
  · rintro ⟨x, hm, rfl⟩
    exact ⟨x, q, hm, rfl⟩

/-- A computation that goes on from a result succeeds exactly if the result is a value from which it
does. -/
theorem run_ofExcept_bind_eq_ok_iff {e : Except Failure α} {f : α → Gen β} {y : β} {r : Progress} :
    (ofExcept e >>= f).run.run p = (.ok y, r) ↔ ∃ x, e = .ok x ∧ (f x).run.run p = (.ok y, r) := by
  cases e with
  | error failure => exact ⟨nofun, fun ⟨_, h, _⟩ => nomatch h⟩
  | ok x => exact ⟨fun h => ⟨x, rfl, h⟩, fun ⟨_, hx, h⟩ => by cases hx; exact h⟩

/-! ### Computations that keep an invariant -/

/-- An outcome of a computation from `p`: a later state with the invariant. Without a failure, the
same visits are under way as before, and the value has the property in every later state. -/
def Kept (I : Progress → Prop) (p : Progress) (R : α → Progress → Prop) :
    Except Failure α × Progress → Prop
  | (.ok x, q) => I q ∧ p ≤ q ∧ q.visiting = p.visiting ∧ ∀ r, q ≤ r → R x r
  | (.error _, q) => I q ∧ p ≤ q

/-- From `p`, the computation keeps the invariant and gives values with the property. -/
@[irreducible]
def KeepsFrom (I : Progress → Prop) (p : Progress) (m : Gen α) (R : α → Progress → Prop) : Prop :=
  Kept I p R (m.run.run p)

/-- From every state with the invariant, the computation keeps it. -/
def Keeps (I : Progress → Prop) (m : Gen α) (R : α → Progress → Prop) : Prop :=
  ∀ p, I p → KeepsFrom I p m R

theorem KeepsFrom.pure {R : α → Progress → Prop} {x : α} (hp : I p) (h : ∀ r, p ≤ r → R x r) :
    KeepsFrom I p (Pure.pure x : Gen α) R := by
  unfold KeepsFrom
  exact ⟨hp, le_refl p, rfl, h⟩

theorem KeepsFrom.weaken {J : Progress → Prop} {m : Gen α} {R S : α → Progress → Prop}
    (h : KeepsFrom I p m R) (hI : ∀ q, I q → J q) (hR : ∀ x r, R x r → S x r) :
    KeepsFrom J p m S := by
  unfold KeepsFrom at h ⊢
  rcases hrun : m.run.run p with ⟨failure | x, q⟩ <;> rw [hrun] at h
  · exact ⟨hI q h.1, h.2⟩
  · exact ⟨hI q h.1, h.2.1, h.2.2.1, fun r hr => hR x r (h.2.2.2 r hr)⟩

/-- What is known of a computation that succeeds. -/
theorem KeepsFrom.of_ok {m : Gen α} {R : α → Progress → Prop} {x : α} {q : Progress}
    (h : KeepsFrom I p m R) (hrun : m.run.run p = (.ok x, q)) :
    I q ∧ p ≤ q ∧ q.visiting = p.visiting ∧ ∀ r, q ≤ r → R x r := by
  unfold KeepsFrom at h
  rw [hrun] at h
  exact h

/-- What is known of a value holds in states that come later than the first one. -/
theorem KeepsFrom.later {m : Gen α} {R : α → Progress → Prop} (h : KeepsFrom I p m R) :
    KeepsFrom I p m fun x r => p ≤ r ∧ R x r := by
  unfold KeepsFrom at h ⊢
  rcases hrun : m.run.run p with ⟨failure | x, q⟩ <;> rw [hrun] at h
  · exact h
  · exact ⟨h.1, h.2.1, h.2.2.1, fun r hr => ⟨le_trans h.2.1 hr, h.2.2.2 r hr⟩⟩

/-- What every value has that the computation gives from `p` holds beside what is known of it. -/
theorem KeepsFrom.and_of_ok {m : Gen α} {R : α → Progress → Prop} {S : α → Prop}
    (h : KeepsFrom I p m R) (hS : ∀ {x q}, m.run.run p = (.ok x, q) → S x) :
    KeepsFrom I p m fun x r => S x ∧ R x r := by
  unfold KeepsFrom at h ⊢
  rcases hrun : m.run.run p with ⟨failure | x, q⟩ <;> rw [hrun] at h
  · exact h
  · exact ⟨h.1, h.2.1, h.2.2.1, fun r hr => ⟨hS hrun, h.2.2.2 r hr⟩⟩

/-- What the first computation gives stays true while the second one runs. -/
theorem KeepsFrom.bind {m : Gen α} {f : α → Gen β} {R : α → Progress → Prop}
    {S : β → Progress → Prop} (hm : KeepsFrom I p m R)
    (hf : ∀ x q, I q → p ≤ q → (∀ r, q ≤ r → R x r) → KeepsFrom I q (f x) S) :
    KeepsFrom I p (m >>= f) S := by
  unfold KeepsFrom at hm ⊢
  rw [run_bind]
  rcases hrun : m.run.run p with ⟨failure | x, q⟩ <;> rw [hrun] at hm
  · exact hm
  · obtain ⟨hq, hpq, hv, hx⟩ := hm
    have h := hf x q hq hpq hx
    unfold KeepsFrom at h
    dsimp only
    rcases hrun' : (f x).run.run q with ⟨failure | y, q'⟩ <;> rw [hrun'] at h
    · exact ⟨h.1, le_trans hpq h.2⟩
    · exact ⟨h.1, le_trans hpq h.2.1, h.2.2.1.trans hv, h.2.2.2⟩

/-- A result that does not depend on the state leaves it as it is. -/
theorem KeepsFrom.ofExcept_bind {e : Except Failure α} {f : α → Gen β} {S : β → Progress → Prop}
    (hp : I p) (h : ∀ x, e = .ok x → KeepsFrom I p (f x) S) :
    KeepsFrom I p (Gen.ofExcept e >>= f) S := by
  unfold KeepsFrom
  rw [run_bind]
  cases e with
  | error failure => exact ⟨hp, le_refl p⟩
  | ok x =>
    have hx := h x rfl
    unfold KeepsFrom at hx
    exact hx

namespace Keeps

theorem weaken {m : Gen α} {R S : α → Progress → Prop} (h : Keeps I m R)
    (hR : ∀ x r, R x r → S x r) : Keeps I m S :=
  fun p hp => (h p hp).weaken (fun _ => id) hR

theorem pure {R : α → Progress → Prop} {x : α} (h : ∀ r, R x r) :
    Keeps I (Pure.pure x : Gen α) R :=
  fun _ hp => .pure hp fun r _ => h r

theorem ofExcept {R : α → Progress → Prop} {e : Except Failure α}
    (h : ∀ x r, e = .ok x → R x r) : Keeps I (Gen.ofExcept e) R := by
  intro p hp
  unfold KeepsFrom
  cases e with
  | error failure => exact ⟨hp, le_refl p⟩
  | ok x => exact ⟨hp, le_refl p, rfl, fun r _ => h x r rfl⟩

theorem bind {m : Gen α} {f : α → Gen β} {R : α → Progress → Prop} {S : β → Progress → Prop}
    (hm : Keeps I m R) (hf : ∀ x, Keeps I (f x) fun y r => R x r → S y r) :
    Keeps I (m >>= f) S := by
  refine fun p hp => (hm p hp).bind fun x q hq _ hx => ?_
  exact (hf x q hq).later.weaken (fun _ => id) fun y r ⟨hr, h⟩ => h (hx r hr)

theorem map {m : Gen α} {f : α → β} {R : α → Progress → Prop} {S : β → Progress → Prop}
    (hm : Keeps I m R) (h : ∀ x r, R x r → S (f x) r) : Keeps I (f <$> m) S := by
  rw [map_eq_pure_bind]
  exact hm.bind fun x => .pure fun r => h x r

/-- What every value of a computation has, from whatever state, holds beside what is known of it. -/
theorem and_of_ok {m : Gen α} {R : α → Progress → Prop} {S : α → Prop} (h : Keeps I m R)
    (hS : ∀ {p x q}, m.run.run p = (.ok x, q) → S x) : Keeps I m fun x r => S x ∧ R x r :=
  fun p hp => (h p hp).and_of_ok hS

/-- A list of computations keeps what each of them keeps; the values correspond to the entries. -/
theorem mapM {f : α → Gen β} {R : α → β → Progress → Prop} :
    (l : List α) → (∀ a ∈ l, Keeps I (f a) (R a)) →
      Keeps I (l.mapM f) fun ys r => List.Forall₂ (fun a y => R a y r) l ys
  | [], _ => by
      rw [List.mapM_nil]
      exact .pure fun _ => .nil
  | a :: l, h => by
      rw [List.mapM_cons]
      refine (h a List.mem_cons_self).bind fun y => ?_
      refine (mapM l fun b hb => h b (List.mem_cons_of_mem a hb)).bind fun ys => ?_
      exact .pure fun r hys hy => .cons hy hys

end Keeps

end Gen

end OpenApiTs
