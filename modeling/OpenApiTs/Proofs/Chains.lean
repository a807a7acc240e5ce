import Mathlib.Logic.Relation
import OpenApiTs.Proofs.Recursion
import OpenApiTs.Proofs.Texts
import OpenApiTs.Reference.Resolver

/-!
# Chains of references

A reference stands for what is at the end of its chain: the schema found there, the schema that
states nothing for a boolean or a chain that repeats a pointer, and otherwise the failure of the
pointer at which the chain breaks. This is said here without a bound and without a memory. The
schemas that a resolver remembers are those of such chains, so what it has resolved before makes no
difference to what it resolves.

## Main definitions

* `DocumentTree.Link`, `DocumentTree.Passes`: one step of a chain, and the pointers of a chain with
  the places that name them.
* `DocumentTree.Stops`: what a chain ends with at a pointer.
* `DocumentTree.Resolves`: what a reference stands for.
* `Resolver.loop`: the loop of a resolver.
* `Resolver.after`: a resolver after earlier calls.

## Main results

* `DocumentTree.Resolves.unique`: a reference stands for at most one thing.
* `Resolver.resolve_after`: whatever was resolved before, a resolver ends with what the reference
  stands for.
-/

namespace OpenApiTs

open Relation (ReflTransGen TransGen)

namespace DocumentTree

/-! ### What a reference stands for -/

/-- The node at a pointer is a reference to the next pointer of the chain. -/
def Link (tree : DocumentTree) (pointer next : String) : Prop :=
  ∃ value reference, Pointer.lookup? tree.root pointer = some value ∧
    SchemaNode.decode value = .ok (.reference reference) ∧
    Pointer.canonicalize reference = .ok next

/-- The chain of a reference that stands at `from_` passes a pointer, which is named at a place: the
first pointer at `from_`, each other one at the pointer before it. -/
inductive Passes (tree : DocumentTree) (reference from_ : String) : String → String → Prop
  | first {pointer} (h : Pointer.canonicalize reference = .ok pointer) :
      Passes tree reference from_ pointer from_
  | next {pointer place next} (h : Passes tree reference from_ pointer place)
      (hlink : tree.Link pointer next) : Passes tree reference from_ next pointer

/-- A chain ends at a pointer that is named at a place, with a result. -/
inductive Stops (tree : DocumentTree) (pointer place : String) : Except Failure Schema → Prop
  | schema {value s} (hvalue : Pointer.lookup? tree.root pointer = some value)
      (hnode : SchemaNode.decode value = .ok (.schema s)) : Stops tree pointer place (.ok s)
  | boolean {value allowed} (hvalue : Pointer.lookup? tree.root pointer = some value)
      (hnode : SchemaNode.decode value = .ok (.boolean allowed)) :
      Stops tree pointer place (.ok {})
  | missing (hvalue : Pointer.lookup? tree.root pointer = none) :
      Stops tree pointer place (.error (.unresolved pointer place))
  | undecodable {value error} (hvalue : Pointer.lookup? tree.root pointer = some value)
      (hnode : SchemaNode.decode value = .error error) :
      Stops tree pointer place (.error (.unsupported pointer (.undecodable error)))
  | malformed {value reference fault}
      (hvalue : Pointer.lookup? tree.root pointer = some value)
      (hnode : SchemaNode.decode value = .ok (.reference reference))
      (hfault : Pointer.canonicalize reference = .error fault) :
      Stops tree pointer place (.error (.unsupported pointer (.reference reference fault)))

/-- What the reference that stands at `from_` stands for, or why it stands for nothing. -/
inductive Resolves (tree : DocumentTree) (reference from_ : String) : Except Failure Schema → Prop
  | malformed {fault} (h : Pointer.canonicalize reference = .error fault) :
      Resolves tree reference from_ (.error (.unsupported from_ (.reference reference fault)))
  | stopped {pointer place result} (h : tree.Passes reference from_ pointer place)
      (hstop : tree.Stops pointer place result) : Resolves tree reference from_ result
  | repeated {pointer place} (h : tree.Passes reference from_ pointer place)
      (hcycle : TransGen tree.Link pointer pointer) : Resolves tree reference from_ (.ok {})

/-! ### A chain is a line -/

section Line

variable {tree : DocumentTree} {reference pointer place from_ P place' : String}

theorem link_unique {n m : String} (hn : tree.Link pointer n) (hm : tree.Link pointer m) :
    n = m := by
  obtain ⟨value, target, hvalue, hnode, hnext⟩ := hn
  obtain ⟨value', target', hvalue', hnode', hnext'⟩ := hm
  cases hvalue.symm.trans hvalue'
  cases hnode.symm.trans hnode'
  exact Except.ok.inj (hnext.symm.trans hnext')

/-- A chain from a pointer that it repeats stays among pointers that it repeats. -/
theorem repeated_of_links (h : TransGen tree.Link pointer pointer)
    (hlinks : ReflTransGen tree.Link pointer P) : TransGen tree.Link P P := by
  induction hlinks with
  | refl => exact h
  | tail _ hlink ih =>
    obtain ⟨_, hfirst, hrest⟩ := TransGen.head'_iff.mp ih
    rw [link_unique hfirst hlink] at hrest
    exact TransGen.tail' hrest hlink

theorem Passes.links (h : tree.Passes reference from_ P place)
    (hfirst : Pointer.canonicalize reference = .ok pointer) :
    ReflTransGen tree.Link pointer P := by
  induction h with
  | first h =>
    cases hfirst.symm.trans h
    exact .refl
  | next _ hlink ih => exact ih.tail hlink

theorem Passes.exists_first (h : tree.Passes reference from_ P place) :
    ∃ pointer, Pointer.canonicalize reference = .ok pointer := by
  induction h with
  | first h => exact ⟨_, h⟩
  | next _ _ ih => exact ih

/-- Of two pointers on a chain, one is further on than the other. -/
theorem Passes.total (h : tree.Passes reference from_ pointer place)
    (h' : tree.Passes reference from_ P place') :
    ReflTransGen tree.Link pointer P ∨ ReflTransGen tree.Link P pointer := by
  obtain ⟨first, hfirst⟩ := h.exists_first
  exact ReflTransGen.total_of_right_unique (fun _ _ _ hn hm => link_unique hn hm)
    (h.links hfirst) (h'.links hfirst)

/-- The end of a chain has no link. -/
theorem Stops.not_link {result : Except Failure Schema} (h : tree.Stops pointer place result) :
    ¬tree.Link pointer P := by
  rintro ⟨value, target, hvalue, hnode, hnext⟩
  cases h with
  | schema hvalue' hnode' | boolean hvalue' hnode' | undecodable hvalue' hnode' =>
    cases hvalue.symm.trans hvalue'
    cases hnode.symm.trans hnode'
  | missing hvalue' => cases hvalue.symm.trans hvalue'
  | malformed hvalue' hnode' hfault =>
    cases hvalue.symm.trans hvalue'
    cases hnode.symm.trans hnode'
    cases hnext.symm.trans hfault

theorem Stops.not_repeated {result : Except Failure Schema} (h : tree.Stops pointer place result) :
    ¬TransGen tree.Link pointer pointer := fun hcycle => by
  obtain ⟨_, hlink, -⟩ := TransGen.head'_iff.mp hcycle
  exact h.not_link hlink

theorem Stops.eq_of_links {result : Except Failure Schema} (h : tree.Stops pointer place result)
    (hlinks : ReflTransGen tree.Link pointer P) : P = pointer := by
  rcases ReflTransGen.cases_head hlinks with heq | ⟨_, hlink, -⟩
  · exact heq.symm
  · exact absurd hlink h.not_link

theorem Stops.unique {r r' : Except Failure Schema} (h : tree.Stops pointer place r)
    (h' : tree.Stops pointer place r') : r = r' := by
  cases h <;> cases h' <;> simp_all

/-- The end of a chain is named at one place: with two, the end would be repeated. -/
theorem Passes.place_unique (h : tree.Passes reference from_ pointer place)
    (h' : tree.Passes reference from_ pointer place')
    (hcycle : ¬TransGen tree.Link pointer pointer) : place = place' := by
  cases h with
  | first hfirst =>
    cases h' with
    | first => rfl
    | next h' hlink' => exact absurd (TransGen.tail' (h'.links hfirst) hlink') hcycle
  | next h hlink =>
    cases h' with
    | first hfirst => exact absurd (TransGen.tail' (h.links hfirst) hlink) hcycle
    | next h' hlink' =>
      -- One of the two places is further on; if it is another one, it lies beyond the end.
      have hbeyond : ∀ {Q Q'}, tree.Link Q pointer → tree.Link Q' pointer →
          ReflTransGen tree.Link Q Q' → Q = Q' := by
        intro Q Q' hQ hQ' hlinks
        rcases ReflTransGen.cases_head hlinks with heq | ⟨_, hnext, hrest⟩
        · exact heq
        · rw [link_unique hnext hQ] at hrest
          exact absurd (TransGen.tail' hrest hQ') hcycle
      rcases h.total h' with hlinks | hlinks
      · exact hbeyond hlink hlink' hlinks
      · exact (hbeyond hlink' hlink hlinks).symm

/-- A chain that ends repeats nothing. -/
theorem Stops.not_repeated_of_passes {result : Except Failure Schema}
    (hstop : tree.Stops pointer place result) (h : tree.Passes reference from_ pointer place)
    (h' : tree.Passes reference from_ P place') : ¬TransGen tree.Link P P := fun hcycle => by
  rcases h.total h' with hlinks | hlinks
  · cases hstop.eq_of_links hlinks
    exact hstop.not_repeated hcycle
  · exact hstop.not_repeated (repeated_of_links hcycle hlinks)

/-- A reference stands for at most one thing. -/
theorem Resolves.unique {r r' : Except Failure Schema} (h : tree.Resolves reference from_ r)
    (h' : tree.Resolves reference from_ r') : r = r' := by
  cases h with
  | malformed h =>
    cases h' with
    | malformed h' =>
      cases h.symm.trans h'
      rfl
    | stopped h' | repeated h' =>
      obtain ⟨_, hfirst⟩ := h'.exists_first
      cases h.symm.trans hfirst
  | stopped h hstop =>
    cases h' with
    | malformed h' =>
      obtain ⟨_, hfirst⟩ := h.exists_first
      cases h'.symm.trans hfirst
    | stopped h' hstop' =>
      rcases h.total h' with hlinks | hlinks
      · cases hstop.eq_of_links hlinks
        cases h.place_unique h' hstop.not_repeated
        exact hstop.unique hstop'
      · cases hstop'.eq_of_links hlinks
        cases h.place_unique h' hstop.not_repeated
        exact hstop.unique hstop'
    | repeated h' hcycle => exact absurd hcycle (hstop.not_repeated_of_passes h h')
  | repeated h hcycle =>
    cases h' with
    | malformed h' =>
      obtain ⟨_, hfirst⟩ := h.exists_first
      cases h'.symm.trans hfirst
    | stopped h' hstop => exact absurd hcycle (hstop.not_repeated_of_passes h' h)
    | repeated => rfl

end Line

/-! ### Passing on -/

section Passes

variable {tree : DocumentTree} {reference pointer place from_ P place' : String}
  {result : Except Failure Schema}

theorem Link.canonical (h : tree.Link P pointer) : Pointer.canonicalize pointer = .ok pointer := by
  obtain ⟨_, _, -, -, hnext⟩ := h
  rwa [← Pointer.canonicalize_eq hnext] at hnext

theorem Passes.canonical (h : tree.Passes reference from_ pointer place) :
    Pointer.canonicalize pointer = .ok pointer := by
  cases h with
  | first h => rwa [← Pointer.canonicalize_eq h] at h
  | next _ hlink => exact hlink.canonical

theorem Passes.of_links (hfirst : Pointer.canonicalize reference = .ok pointer)
    (hlinks : ReflTransGen tree.Link pointer P) (from_ : String) :
    ∃ place, tree.Passes reference from_ P place := by
  induction hlinks with
  | refl => exact ⟨from_, .first hfirst⟩
  | tail _ hlink ih =>
    obtain ⟨place, hpass⟩ := ih
    exact ⟨_, .next hpass hlink⟩

theorem Passes.trans (h : tree.Passes reference from_ pointer place)
    (h' : tree.Passes pointer place P place') : tree.Passes reference from_ P place' := by
  induction h' with
  | first hfirst =>
    cases h.canonical.symm.trans hfirst
    exact h
  | next _ hlink ih => exact .next ih hlink

/-- A reference stands for what each pointer of its chain stands for at the place that names it. -/
theorem Resolves.of_passes (h : tree.Passes reference from_ pointer place)
    (hr : tree.Resolves pointer place result) : tree.Resolves reference from_ result := by
  cases hr with
  | malformed hfault => cases h.canonical.symm.trans hfault
  | stopped h' hstop => exact .stopped (h.trans h') hstop
  | repeated h' hcycle => exact .repeated (h.trans h') hcycle

/-- Where a chain ends with a schema, it does so wherever the end is named. -/
theorem Stops.move {s : Schema} (h : tree.Stops pointer place (.ok s)) (place' : String) :
    tree.Stops pointer place' (.ok s) := by
  cases h with
  | schema hvalue hnode => exact .schema hvalue hnode
  | boolean hvalue hnode => exact .boolean hvalue hnode

/-- The pointers of a chain with a schema stand for that schema, wherever they are named. -/
theorem Resolves.of_links {s : Schema} (h : tree.Resolves reference from_ (.ok s))
    (hfirst : Pointer.canonicalize reference = .ok pointer)
    (hlinks : ReflTransGen tree.Link pointer P) (place : String) :
    tree.Resolves P place (.ok s) := by
  obtain ⟨_, hpass⟩ := Passes.of_links hfirst hlinks from_
  have hP := hpass.canonical
  cases h with
  | stopped hQ hstop =>
    rcases hpass.total hQ with hon | hback
    · obtain ⟨place', hQ'⟩ := Passes.of_links hP hon place
      exact .stopped hQ' (hstop.move place')
    · cases hstop.eq_of_links hback
      exact .stopped (.first hP) (hstop.move place)
  | repeated hQ hcycle =>
    rcases hpass.total hQ with hon | hback
    · obtain ⟨place', hQ'⟩ := Passes.of_links hP hon place
      exact .repeated hQ' hcycle
    · exact .repeated (.first hP) (repeated_of_links hcycle hback)

end Passes

/-! ### The room for a chain -/

section Room

variable {tree : DocumentTree} {chain chain' : List String} {pointer next : String}

/-- How many texts of the document a chain has not passed. -/
def unpassed (tree : DocumentTree) (chain : List String) : Nat :=
  tree.root.texts.countP fun text => !chain.contains text

/-- A bound on the pointers that a chain can still pass from a pointer on. Only the first pointer of
a chain can be no text of the document. -/
def ahead (tree : DocumentTree) (chain : List String) (pointer : String) : Nat :=
  tree.unpassed chain + if pointer ∈ tree.root.texts then 0 else 1

theorem ahead_lt_bound : tree.ahead chain pointer < tree.bound := by
  have hle : tree.unpassed chain ≤ tree.texts := by
    rw [tree.texts_eq, ← Json.length_texts]
    exact List.countP_le_length
  rw [ahead, bound]
  split <;> omega

/-- A chain that passes a new pointer has less ahead at a text of the document. -/
theorem ahead_lt (hchain : chain ⊆ chain') (hmem : pointer ∈ chain') (hnew : pointer ∉ chain)
    (hnext : next ∈ tree.root.texts) : tree.ahead chain' next < tree.ahead chain pointer := by
  have hcount : ∀ text ∈ tree.root.texts, (!chain'.contains text) = true →
      (!chain.contains text) = true := by
    intro text _ h
    rw [Bool.not_eq_true', Bool.eq_false_iff, Ne, List.contains_iff_mem] at h ⊢
    exact fun htext => h (hchain htext)
  rw [ahead, ahead, if_pos hnext]
  split
  · next htext =>
    refine countP_lt_countP hcount htext ?_ ?_
    · rw [Bool.not_eq_false', List.contains_iff_mem]
      exact hmem
    · rw [Bool.not_eq_true', Bool.eq_false_iff, Ne, List.contains_iff_mem]
      exact hnew
  · have hle : tree.unpassed chain' ≤ tree.unpassed chain := List.countP_mono_left hcount
    omega

end Room

/-! ### Nodes at pointers -/

section Node

variable {tree : DocumentTree} {pointer place : String}

theorem lookup_eq (hcanonical : Pointer.canonicalize pointer = .ok pointer) :
    tree.lookup pointer place =
      match Pointer.lookup? tree.root pointer with
      | some value => .ok value
      | none => .error (.unresolved pointer place) := by
  rw [lookup, canonicalize, hcanonical]
  rfl

/-- The node at a pointer ends the chain or is a reference, to a pointer or to none. -/
theorem node_cases (hcanonical : Pointer.canonicalize pointer = .ok pointer) (place : String) :
    (∃ failure, tree.node pointer place = .error failure ∧
      tree.Stops pointer place (.error failure)) ∨
    (∃ s, tree.node pointer place = .ok (.schema s) ∧ tree.Stops pointer place (.ok s)) ∨
    (∃ allowed, tree.node pointer place = .ok (.boolean allowed) ∧
      tree.Stops pointer place (.ok {})) ∨
    (∃ target failure, tree.node pointer place = .ok (.reference target) ∧
      canonicalize target pointer = .error failure ∧
      tree.Stops pointer place (.error failure)) ∨
    ∃ target next, tree.node pointer place = .ok (.reference target) ∧
      canonicalize target pointer = .ok next ∧ tree.Link pointer next ∧
      next ∈ tree.root.texts := by
  cases hvalue : Pointer.lookup? tree.root pointer with
  | none =>
    refine .inl ⟨_, ?_, .missing hvalue⟩
    rw [node, lookup_eq hcanonical, hvalue]
    rfl
  | some value =>
    have hlookup : tree.lookup pointer place = .ok value := by
      rw [lookup_eq hcanonical, hvalue]
    cases hdecode : SchemaNode.decode value with
    | error error =>
      refine .inl ⟨.unsupported pointer (.undecodable error), ?_, .undecodable hvalue hdecode⟩
      rw [node, hlookup]
      dsimp only [bind, Except.bind]
      rw [hdecode]
      rfl
    | ok n =>
      have hnode : tree.node pointer place = .ok n := by
        rw [node, hlookup]
        dsimp only [bind, Except.bind]
        rw [hdecode]
        rfl
      cases n with
      | schema s => exact .inr (.inl ⟨s, hnode, .schema hvalue hdecode⟩)
      | boolean allowed => exact .inr (.inr (.inl ⟨allowed, hnode, .boolean hvalue hdecode⟩))
      | reference target =>
        cases hnext : Pointer.canonicalize target with
        | error fault =>
          refine .inr (.inr (.inr (.inl ⟨target, _, hnode, ?_, .malformed hvalue hdecode hnext⟩)))
          rw [canonicalize, hnext]
        | ok next =>
          refine .inr (.inr (.inr (.inr ⟨target, next, hnode, ?_, ⟨_, _, hvalue, hdecode, hnext⟩,
            ?_⟩)))
          · rw [canonicalize, hnext]
          · rw [Pointer.canonicalize_eq hnext]
            exact references_subset_of_node hnode List.mem_cons_self

end Node

end DocumentTree

namespace Resolver

open DocumentTree

/-! ### The loop of a resolver -/

/-- One turn of the loop, with the pointers that the chain has passed, the pointer at hand, and the
place that names it. -/
def loop (r : Resolver) :
    Recursion (List String × String × String) (Except Failure (Schema × List String)) :=
  fun again (chain, pointer, from_) =>
    match Entries.get? pointer r.known with
    | some s => return (s, chain)
    | none =>
      if chain.contains pointer then return ({}, chain)
      else do
        match ← r.tree.node pointer from_ with
        | .reference next => do
          let next ← DocumentTree.canonicalize next pointer
          again (pointer :: chain, next, pointer)
        | .schema s => return (s, pointer :: chain)
        | .boolean _ => return ({}, pointer :: chain)

/-- The loop for a reference that stands at `from_`, from its first pointer on. -/
def search (reference from_ : String)
    (again : List String × String × String → Except Failure (Schema × List String)) :
    Except Failure (Schema × List String) := do
  let pointer ← DocumentTree.canonicalize reference from_
  again ([], pointer, from_)

/-- A resolver after earlier calls, with references and the places where they stand. -/
def after (tree : DocumentTree) (calls : List (String × String)) : Resolver :=
  calls.foldl (fun r call => (r.resolve call.1 call.2).2) { tree }

variable {r : Resolver} {reference pointer place from_ : String} {chain : List String}

theorem follow_succ (steps : Nat) (x : List String × String × String) :
    r.follow (steps + 1) x.1 x.2.1 x.2.2 =
      r.loop (fun x => r.follow steps x.1 x.2.1 x.2.2) x := rfl

/-- The loop ends, since every turn passes another text of the document. -/
theorem ends_loop (x : List String × String × String) :
    r.loop.Ends x (r.follow r.tree.bound x.1 x.2.1 x.2.2) := by
  refine Recursion.ends_of_measure (fun x => r.tree.ahead x.1 x.2.1)
    (fun steps x => r.follow steps x.1 x.2.1 x.2.2) follow_succ ?_ _ x ahead_lt_bound
  rintro steps ⟨chain, pointer, from_⟩ g hg
  unfold loop
  dsimp only
  split
  · rfl
  · split
    · rfl
    · next hnew =>
      refine bind_congr_of_eq_ok fun node hnode => ?_
      cases node with
      | schema s | boolean allowed => rfl
      | reference target =>
        refine bind_congr_of_eq_ok fun next hnext => hg _ ?_
        refine ahead_lt (List.subset_cons_self _ _) List.mem_cons_self
          (fun hmem => hnew (List.contains_iff_mem.mpr hmem)) ?_
        rw [canonicalize_eq hnext]
        exact references_subset_of_node hnode List.mem_cons_self

/-! ### What a resolver knows -/

/-- A resolver knows for a pointer only what it stands for, wherever it is named. -/
def Truthful (r : Resolver) : Prop :=
  ∀ pointer s, Entries.get? pointer r.known = some s →
    ∀ place, r.tree.Resolves pointer place (.ok s)

/-- What the loop gives is what the reference stands for, and the pointers passed are on its
chain. -/
theorem follow_spec (hr : r.Truthful) :
    (steps : Nat) → (chain : List String) → (pointer place : String) →
      r.tree.Passes reference from_ pointer place →
      (∀ P ∈ chain, TransGen r.tree.Link P pointer) → r.tree.ahead chain pointer < steps →
      r.tree.Resolves reference from_ ((r.follow steps chain pointer place).map Prod.fst) ∧
        ∀ s passed, r.follow steps chain pointer place = .ok (s, passed) →
          ∀ P ∈ passed, P ∈ chain ∨ ReflTransGen r.tree.Link pointer P
  | 0, _, _, _, _, _, hroom => absurd hroom (Nat.not_lt_zero _)
  | steps + 1, chain, pointer, place, hpass, hchain, hroom => by
      rw [follow]
      split
      · next s hknown =>
        refine ⟨.of_passes hpass (hr pointer s hknown place), ?_⟩
        rintro _ _ ⟨⟩ P hP
        exact .inl hP
      · split
        · next hmem =>
          refine ⟨.repeated hpass (hchain pointer (List.contains_iff_mem.mp hmem)), ?_⟩
          rintro _ _ ⟨⟩ P hP
          exact .inl hP
        · next hnew =>
          have hself : ∀ P ∈ pointer :: chain, P ∈ chain ∨ ReflTransGen r.tree.Link pointer P := by
            intro P hP
            rcases List.mem_cons.mp hP with rfl | hP
            · exact .inr .refl
            · exact .inl hP
          rcases r.tree.node_cases hpass.canonical place with
            ⟨failure, hnode, hstop⟩ | ⟨s, hnode, hstop⟩ | ⟨allowed, hnode, hstop⟩ |
            ⟨target, failure, hnode, hnext, hstop⟩ | ⟨target, next, hnode, hnext, hlink, htext⟩
          · rw [hnode]
            exact ⟨.stopped hpass hstop, nofun⟩
          · rw [hnode]
            refine ⟨.stopped hpass hstop, ?_⟩
            rintro _ _ ⟨⟩
            exact hself
          · rw [hnode]
            refine ⟨.stopped hpass hstop, ?_⟩
            rintro _ _ ⟨⟩
            exact hself
          · rw [hnode]
            dsimp only [bind, Except.bind]
            rw [hnext]
            exact ⟨.stopped hpass hstop, nofun⟩
          · rw [hnode]
            dsimp only [bind, Except.bind]
            rw [hnext]
            have hlinked : ∀ P ∈ pointer :: chain, TransGen r.tree.Link P next := by
              intro P hP
              rcases List.mem_cons.mp hP with rfl | hP
              · exact .single hlink
              · exact (hchain P hP).tail hlink
            have hahead : r.tree.ahead (pointer :: chain) next < r.tree.ahead chain pointer :=
              ahead_lt (List.subset_cons_self _ _) List.mem_cons_self
                (fun hmem => hnew (List.contains_iff_mem.mpr hmem)) htext
            obtain ⟨hresolves, hpassed⟩ := follow_spec hr steps (pointer :: chain) next pointer
              (.next hpass hlink) hlinked (by omega)
            refine ⟨hresolves, fun s passed heq P hP => ?_⟩
            rcases hpassed s passed heq P hP with hP | hP
            · exact hself P hP
            · exact .inr (.head hlink hP)

theorem get?_learn {s : Schema} {P : String} :
    (passed : List String) → {s' : Schema} →
      Entries.get? P (r.learn passed s).known = some s' →
      P ∈ passed ∧ s' = s ∨ Entries.get? P r.known = some s'
  | [], _, h => .inr h
  | pointer :: rest, s', h => by
      change Entries.get? P (Entries.put pointer s (r.learn rest s).known) = some s' at h
      rw [Entries.get?_put] at h
      split at h
      · next heq =>
        cases h
        exact .inl ⟨heq ▸ List.mem_cons_self, rfl⟩
      · rcases get?_learn rest h with ⟨hP, heq⟩ | h
        · exact .inl ⟨List.mem_cons_of_mem _ hP, heq⟩
        · exact .inr h

/-- A resolver that knows the truth gives what a reference stands for, and learns nothing but the
truth from it. -/
theorem resolve_spec (hr : r.Truthful) (reference from_ : String) :
    r.tree.Resolves reference from_ (r.resolve reference from_).1 ∧
      (r.resolve reference from_).2.Truthful ∧ (r.resolve reference from_).2.tree = r.tree := by
  unfold resolve
  cases hfirst : Pointer.canonicalize reference with
  | error fault =>
    rw [DocumentTree.canonicalize, hfirst]
    exact ⟨.malformed hfirst, hr, rfl⟩
  | ok pointer =>
    rw [DocumentTree.canonicalize, hfirst]
    obtain ⟨hresolves, hpassed⟩ := follow_spec hr r.tree.bound [] pointer from_ (.first hfirst)
      nofun ahead_lt_bound
    dsimp only [bind, Except.bind]
    cases hfollow : r.follow r.tree.bound [] pointer from_ with
    | error failure =>
      rw [hfollow] at hresolves
      exact ⟨hresolves, hr, rfl⟩
    | ok answer =>
      obtain ⟨s, passed⟩ := answer
      rw [hfollow] at hresolves
      refine ⟨hresolves, fun P s' hknown place => ?_, rfl⟩
      rcases get?_learn passed hknown with ⟨hP, rfl⟩ | hknown
      · have hlinks := (hpassed _ _ hfollow P hP).resolve_left List.not_mem_nil
        exact hresolves.of_links hfirst hlinks place
      · exact hr P s' hknown place

theorem after_spec (tree : DocumentTree) (calls : List (String × String)) :
    (after tree calls).Truthful ∧ (after tree calls).tree = tree := by
  have key : ∀ (calls : List (String × String)) (r : Resolver), r.Truthful → r.tree = tree →
      (calls.foldl (fun r call => (r.resolve call.1 call.2).2) r).Truthful ∧
        (calls.foldl (fun r call => (r.resolve call.1 call.2).2) r).tree = tree := by
    intro calls
    induction calls with
    | nil => exact fun _ hr htree => ⟨hr, htree⟩
    | cons call rest ih =>
      intro r hr htree
      obtain ⟨-, hr', htree'⟩ := resolve_spec hr call.1 call.2
      exact ih _ hr' (htree'.trans htree)
  exact key calls { tree } nofun rfl

/-- Without a memory, the loop gives what a run finds for a reference. -/
theorem map_follow (tree : DocumentTree) :
    (steps : Nat) → (chain : List String) → (pointer place : String) →
      (({ tree } : Resolver).follow steps chain pointer place).map Prod.fst =
        tree.follow steps chain pointer place
  | 0, _, _, _ => rfl
  | steps + 1, chain, pointer, place => by
      rw [follow, DocumentTree.follow]
      dsimp only [Entries.get?]
      split
      · rfl
      · cases tree.node pointer place with
        | error failure => rfl
        | ok node =>
          cases node with
          | schema s | boolean allowed => rfl
          | reference target =>
            dsimp only [bind, Except.bind]
            cases DocumentTree.canonicalize target pointer with
            | error failure => rfl
            | ok next => exact map_follow tree steps (pointer :: chain) next pointer

theorem resolve_fresh (tree : DocumentTree) (reference from_ : String) :
    (({ tree } : Resolver).resolve reference from_).1 = tree.resolve reference from_ := by
  unfold resolve DocumentTree.resolve
  cases DocumentTree.canonicalize reference from_ with
  | error failure => rfl
  | ok pointer =>
    dsimp only [bind, Except.bind]
    rw [← map_follow]
    cases ({ tree } : Resolver).follow tree.bound [] pointer from_ <;> rfl

/-- After any calls, failed ones among them, a resolver gives for a reference what a fresh one
gives, which is what a run finds, and what the reference stands for and nothing else. Its loop ends
without a bound on the turns. -/
theorem resolve_after (tree : DocumentTree) (calls : List (String × String))
    (reference from_ : String) :
    (∃ answer, (after tree calls).loop.EndsIn (search reference from_) answer ∧
      answer.map Prod.fst = ((after tree calls).resolve reference from_).1) ∧
    ((after tree calls).resolve reference from_).1 =
      (({ tree } : Resolver).resolve reference from_).1 ∧
    (({ tree } : Resolver).resolve reference from_).1 = tree.resolve reference from_ ∧
    ∀ result, tree.Resolves reference from_ result ↔
      result = (({ tree } : Resolver).resolve reference from_).1 := by
  obtain ⟨htruthful, htree⟩ := after_spec tree calls
  have hfresh : tree.Resolves reference from_ (({ tree } : Resolver).resolve reference from_).1 :=
    (resolve_spec (r := { tree }) nofun reference from_).1
  have hafter := (resolve_spec htruthful reference from_).1
  rw [htree] at hafter
  refine ⟨⟨_, .of_ends ends_loop _, ?_⟩, hafter.unique hfresh, resolve_fresh tree reference from_,
    fun result => ⟨fun h => h.unique hfresh, fun h => h ▸ hfresh⟩⟩
  unfold search resolve
  cases DocumentTree.canonicalize reference from_ with
  | error failure => rfl
  | ok pointer =>
    dsimp only [bind, Except.bind]
    cases (after tree calls).follow (after tree calls).tree.bound [] pointer from_ <;> rfl

end Resolver

namespace DocumentTree

variable {tree : DocumentTree} {reference pointer from_ : String} {s : Schema}

theorem canonicalize_eq_ok_iff :
    canonicalize reference from_ = .ok pointer ↔ Pointer.canonicalize reference = .ok pointer := by
  unfold canonicalize
  cases Pointer.canonicalize reference with
  | ok _ => simp only [Except.ok.injEq]
  | error _ => exact iff_of_false nofun nofun

/-- What a run finds for a reference is what the reference stands for. -/
theorem resolves_resolve (tree : DocumentTree) (reference from_ : String) :
    tree.Resolves reference from_ (tree.resolve reference from_) := by
  rw [← Resolver.resolve_fresh]
  exact (Resolver.resolve_spec (r := { tree }) nofun reference from_).1

/-- A run finds for a pointer without a link what the chain ends with there. -/
theorem resolve_of_stops (hcanonical : Pointer.canonicalize pointer = .ok pointer)
    {result : Except Failure Schema} (hstop : tree.Stops pointer from_ result) :
    tree.resolve pointer from_ = result :=
  (tree.resolves_resolve pointer from_).unique (.stopped (.first hcanonical) hstop)

theorem canonical_of_resolve (h : tree.resolve pointer from_ = .ok s) :
    Pointer.canonicalize pointer = .ok pointer := by
  obtain ⟨target, htarget, -⟩ := bind_eq_ok_iff.mp h
  obtain rfl := canonicalize_eq htarget
  exact canonicalize_eq_ok_iff.mp htarget

/-- The pointers on the way to a schema stand for that schema, wherever they are named. -/
theorem resolve_of_links (h : tree.resolve pointer from_ = .ok s) {P : String}
    (hlinks : ReflTransGen tree.Link pointer P) (place : String) :
    tree.resolve P place = .ok s := by
  have hresolves := h ▸ tree.resolves_resolve pointer from_
  exact (tree.resolves_resolve P place).unique
    (hresolves.of_links (canonical_of_resolve h) hlinks place)

end DocumentTree

end OpenApiTs
