import Mathlib.Data.List.Basic

/-!
# Recursions without a bound

A recursion is given by its body, which calls itself through the function that it is handed. The
recursion ends at an argument if all calls made there end and their results settle the result: a
finite tree of calls, with no bound on its depth. A computation whose failures are passed on depends
on each call that it makes, so that a call without an end leaves its result unsettled.

## Main definitions

* `Recursion`: the body of a recursion.
* `Recursion.Ends`: the recursion ends at an argument with a result.
* `Recursion.EndsIn`: a computation that calls the recursion ends with a result.

## Main results

* `Recursion.Ends.unique`, `Recursion.EndsIn.unique`: a recursion ends with at most one result.
* `Recursion.ends_of_measure`: a recursion whose calls have smaller measures ends, with the result
  of its bounded iterates.
* `countP_lt_countP`: what a measure that counts entries of a list loses.
-/

namespace OpenApiTs

/-- Entries that are counted no longer, at least one of them, make the count smaller. -/
theorem countP_lt_countP {α : Type} {P Q : α → Bool} {l : List α}
    (h : ∀ a ∈ l, P a = true → Q a = true) {a : α} (ha : a ∈ l) (hP : P a = false)
    (hQ : Q a = true) : l.countP P < l.countP Q := by
  obtain ⟨before, after, rfl⟩ := List.append_of_mem ha
  have hbefore : before.countP P ≤ before.countP Q :=
    List.countP_mono_left fun x hx => h x (List.mem_append_left _ hx)
  have hafter : after.countP P ≤ after.countP Q :=
    List.countP_mono_left fun x hx => h x (List.mem_append_right _ (List.mem_cons_of_mem a hx))
  rw [List.countP_append, List.countP_append, List.countP_cons_of_pos hQ,
    List.countP_cons_of_neg (Bool.eq_false_iff.mp hP)]
  omega

/-- The body of a recursion: the result at an argument, given the results of calls. -/
abbrev Recursion (X Y : Type) := (X → Y) → X → Y

namespace Recursion

variable {X Y Z : Type} {body : Recursion X Y}

/-- The results of the calls among `S` settle a result: it is the same whatever the others are. -/
def Settled (S : X → Prop) (f : X → Y) (m : (X → Y) → Z) (z : Z) : Prop :=
  ∀ g : X → Y, (∀ x, S x → g x = f x) → m g = z

/-- The recursion ends at an argument with a result. -/
inductive Ends (body : Recursion X Y) : X → Y → Prop
  | intro {x : X} {y : Y} (S : X → Prop) (f : X → Y) (calls : ∀ x', S x' → Ends body x' (f x'))
      (settled : Settled S f (fun g => body g x) y) : Ends body x y

/-- A computation that calls the recursion ends with a result. -/
def EndsIn (body : Recursion X Y) (m : (X → Y) → Z) (z : Z) : Prop :=
  ∃ S f, (∀ x, S x → body.Ends x (f x)) ∧ Settled S f m z

/-- Settled results agree if the results that they depend on do. -/
private theorem Settled.unique {S S' : X → Prop} {f f' : X → Y} {m : (X → Y) → Z} {z z' : Z}
    (h : Settled S f m z) (h' : Settled S' f' m z') (hf : ∀ x, S x → S' x → f x = f' x) :
    z = z' := by
  classical
  let g : X → Y := fun x => if S x then f x else f' x
  have hg : ∀ x, S x → g x = f x := fun x hx => if_pos hx
  have hg' : ∀ x, S' x → g x = f' x := fun x hx' => by
    by_cases hx : S x
    · exact (hg x hx).trans (hf x hx hx')
    · exact if_neg hx
  exact (h g hg).symm.trans (h' g hg')

/-- A recursion ends at an argument with at most one result. -/
theorem Ends.unique {x : X} {y y' : Y} (h : body.Ends x y) (h' : body.Ends x y') : y = y' := by
  induction h generalizing y' with
  | intro S f _ settled ih =>
    obtain ⟨S', f', calls', settled'⟩ := h'
    exact settled.unique settled' fun x' hx hx' => ih x' hx (calls' x' hx')

theorem EndsIn.unique {m : (X → Y) → Z} {z z' : Z} (h : body.EndsIn m z) (h' : body.EndsIn m z') :
    z = z' := by
  obtain ⟨S, f, calls, settled⟩ := h
  obtain ⟨S', f', calls', settled'⟩ := h'
  exact settled.unique settled' fun x hx hx' => (calls x hx).unique (calls' x hx')

/-- A computation that calls a recursion that ends everywhere ends. -/
theorem EndsIn.of_ends {f : X → Y} (h : ∀ x, body.Ends x (f x)) (m : (X → Y) → Z) :
    body.EndsIn m (m f) :=
  ⟨fun _ => True, f, fun x _ => h x, fun _ hg => congrArg m (funext fun x => hg x trivial)⟩

/-- A recursion whose body at an argument depends only on calls of smaller measure ends there, with
the result of every iterate whose bound is above the measure. -/
theorem ends_of_measure (μ : X → Nat) (iterate : Nat → X → Y)
    (hiterate : ∀ n x, iterate (n + 1) x = body (iterate n) x)
    (hbody : ∀ n x g, (∀ x', μ x' < μ x → g x' = iterate n x') →
      body g x = body (iterate n) x) :
    ∀ n x, μ x < n → body.Ends x (iterate n x)
  | 0, _, hn => absurd hn (Nat.not_lt_zero _)
  | n + 1, x, hn => by
      refine .intro (fun x' => μ x' < μ x) (iterate n) (fun x' hx' => ?_) fun g hg => ?_
      · exact ends_of_measure μ iterate hiterate hbody n x' (by omega)
      · rw [hiterate]
        exact hbody n x g hg

end Recursion

end OpenApiTs
