import OpenApiTs.Proofs.Agreement
import OpenApiTs.Proofs.Calls
import OpenApiTs.Proofs.Chains
import OpenApiTs.Proofs.Pointers

/-!
# Runs end

A run has four recursions that are not over the parts of a node: references are followed anywhere in
the document, bases of interfaces are examined through references, chains of references are
resolved, and members of enumerations are numbered until a name is free. Each of them ends on every
document, whatever its references are, because what it does next is counted off against something
finite: a text of the document that gets a name or is marked as seen, or a name that is in use. The
bounds in the definitions are never reached.

## Main definitions

* `Gen.referring`, `Setting.examining`, `Enumeration.numbering`: the recursions, beside
  `Resolver.loop`.
* `Call.performWith`: the computation of a call, given how references are used.

## Main results

* `Gen.ends_referring`, `Setting.ends_examining`, `Enumeration.ends_numbering`: the recursions end.
* `Gen.refer_eq_referAt`, `Setting.examine_eq`: larger bounds make no difference.
* `Setting.run_ends`: so do all entry points and makers.
-/

namespace OpenApiTs

/-! ### References -/

/-- How references are used, given the outcomes by reference, location and state. -/
def Refer.ofOutcomes (f : String × String × Progress → Except Failure TypeUse × Progress) : Refer :=
  fun reference location => ExceptT.mk fun p => f (reference, location, p)

/-- The outcomes of uses of references. -/
def Refer.outcomes (refer : Refer) (x : String × String × Progress) :
    Except Failure TypeUse × Progress :=
  (refer x.1 x.2.1).run.run x.2.2

namespace Gen

variable {run : Setting}

variable (run) in
/-- The use of a reference, which uses the references in its target. -/
def referring : Recursion (String × String × Progress) (Except Failure TypeUse × Progress) :=
  fun again => Refer.outcomes fun reference location =>
    referenceWith run (Refer.ofOutcomes again) reference location

theorem outcomes_referAt_succ (bound : Nat) (x : String × String × Progress) :
    Refer.outcomes (referAt run (bound + 1)) x =
      referring run (Refer.outcomes (referAt run bound)) x := rfl

/-- A tree has what it has itself, for each of its texts and for references from outside. -/
theorem sameAt_self (reference : String) :
    run.SameAt True (· ∈ run.tree.root.texts) run.tree reference where
  origin _ := .rfl
  resolve _ := .rfl
  null := .rfl
  extendable := .rfl
  follows hnode := Setting.textual_origin hnode

/-- Uses of references lose no names. -/
theorem lasting_referAt {S : Progress → Prop} (hS : Progress.Lasting S) :
    (bound : Nat) → (reference location : String) →
      Agree True S S (referAt run bound reference location) (referAt run bound reference location)
  | 0, _, _ => .pure _
  | bound + 1, reference, _ =>
    agree_referenceWith (fun r _ => sameAt_self r) (fun _ _ _ => lasting_referAt hS bound _ _) hS
      (fun _ _ _ hp => hS.begun hp.1) (fun _ => id) (fun _ => id) (sameAt_self reference)

/-- The room for uses of references inside the target of one: an unnamed text is counted until it is
named, and a reference to begin with need not be a text of the document. -/
def room (run : Setting) (x : String × String × Progress) : Nat :=
  run.unnamed x.2.2 + if x.1 ∈ run.tree.root.texts then 0 else 1

theorem room_lt_bound (x : String × String × Progress) : room run x < run.tree.bound := by
  have hle := run.unnamed_le_texts (p := x.2.2)
  rw [room, DocumentTree.bound]
  split <;> omega

/-- A reference that is followed gets a name first, which leaves less room. -/
theorem unnamed_begun_lt_room {reference location name : String} {p : Progress}
    {registry : Registry} (hnew : p.name? reference = none) :
    run.unnamed (p.begun registry reference name) < room run (reference, location, p) := by
  have hnamed : ((p.begun registry reference name).name? reference).isSome := by
    rw [Progress.name?_begun, if_pos rfl]
    rfl
  rw [room]
  split
  · next htext => exact Setting.unnamed_lt_of_imp Progress.isSome_begun htext hnew hnamed
  · exact Nat.lt_succ_of_le (Setting.unnamed_le_of_imp Progress.isSome_begun)

/-- Uses of references end in every state, with the outcome for every bound above the room. -/
theorem ends_referAt {bound : Nat} (x : String × String × Progress) (hx : room run x < bound) :
    (referring run).Ends x (Refer.outcomes (referAt run bound) x) := by
  refine Recursion.ends_of_measure (room run) (fun bound => Refer.outcomes (referAt run bound))
    outcomes_referAt_succ ?_ bound x hx
  rintro bound ⟨reference, location, p⟩ g hg
  have hS : Progress.Lasting fun q => run.unnamed q < room run (reference, location, p) :=
    fun q r hq hle => Nat.lt_of_le_of_lt (Setting.unnamed_le_of_imp hle) hq
  have hr : (Refer.ofOutcomes g).Agree True (· ∈ run.tree.root.texts)
      (fun q => run.unnamed q < room run (reference, location, p)) (referAt run bound) := by
    intro target htext place q hq
    have hroom : room run (target, place, q) < room run (reference, location, p) := by
      rw [room, if_pos htext]
      exact hq
    have heq : (Refer.ofOutcomes g target place).run.run q =
        (referAt run bound target place).run.run q := hg (target, place, q) hroom
    rw [heq]
    exact lasting_referAt hS bound target place q hq
  have hagree : Agree True (· = p) (fun _ => True)
      (referenceWith run (Refer.ofOutcomes g) reference location)
      (referenceWith run (referAt run bound) reference location) :=
    agree_referenceWith (fun r _ => sameAt_self r) hr hS
      (fun q registry name hq => hq.1 ▸ unnamed_begun_lt_room (hq.1 ▸ hq.2)) (fun _ _ => trivial)
      (fun _ _ => trivial) (sameAt_self reference)
  exact (hagree p rfl).1 (.inl trivial)

theorem ends_referring (x : String × String × Progress) :
    (referring run).Ends x (Refer.outcomes (refer run) x) :=
  ends_referAt x (room_lt_bound x)

/-- Any larger bound would do. -/
theorem refer_eq_referAt {bound : Nat} (h : run.tree.bound ≤ bound) :
    refer run = referAt run bound := by
  funext reference location
  refine ExceptT.ext (funext fun p => ?_)
  let x := (reference, location, p)
  exact (ends_referring x).unique (ends_referAt x (Nat.lt_of_lt_of_le (room_lt_bound x) h))

end Gen

/-! ### Bases of interfaces -/

namespace Setting

variable {run : Setting} {examine examine' : Examination} {location : String}

variable (run) in
/-- The examination of a pointer, which examines the references of an intersection. -/
def examining : Recursion (String × List String) (Except Failure (Bool × List String)) :=
  fun again (pointer, seen) => do
    if run.excludes pointer then return (false, seen)
    if seen.contains pointer then return (true, seen)
    let seen := pointer :: seen
    let s ← run.tree.resolve pointer pointer
    if s.isNullable then return (false, seen)
    match s.shape with
    | .object => return (true, seen)
    | .intersection =>
      entriesExtendable (fun base seen => again (base, seen)) (Pointer.child pointer "allOf") 0
        s.allOf seen
    | _ => return (false, seen)

variable (run) in
theorem examine_succ (bound : Nat) (x : String × List String) :
    run.examine (bound + 1) x.1 x.2 = examining run (fun x => run.examine bound x.1 x.2) x := rfl

/-- Entries lose nothing seen if the examination of a base does not. -/
theorem subset_of_entriesExtendable
    (hgrows : ∀ base seen good seen', examine base seen = .ok (good, seen') → seen ⊆ seen') :
    (nodes : List SchemaNode) → {i : Nat} → {seen seen' : List String} → {good : Bool} →
      entriesExtendable examine location i nodes seen = .ok (good, seen') → seen ⊆ seen'
  | [], _, _, _, _, h => by
      cases h
      exact List.Subset.refl _
  | .reference pointer :: rest, i, seen, seen', good, h => by
      obtain ⟨base, -, h⟩ := bind_eq_ok_iff.mp h
      obtain ⟨⟨good', seen''⟩, hbase, h⟩ := bind_eq_ok_iff.mp h
      have hseen := hgrows base seen good' seen'' hbase
      dsimp only at h
      split at h
      · exact List.Subset.trans hseen (subset_of_entriesExtendable hgrows rest h)
      · cases h
        exact hseen
  | .schema part :: rest, i, seen, seen', good, h => by
      rw [entriesExtendable] at h
      split at h
      · exact subset_of_entriesExtendable hgrows rest h
      · cases h
        exact List.Subset.refl _
  | .boolean allowed :: rest, i, seen, seen', good, h => by
      rw [entriesExtendable] at h
      split at h
      · exact subset_of_entriesExtendable hgrows rest h
      · cases h
        exact List.Subset.refl _

/-- An examination loses nothing seen. -/
theorem subset_of_examine :
    (bound : Nat) → (pointer : String) → (seen : List String) → (good : Bool) →
      (seen' : List String) → run.examine bound pointer seen = .ok (good, seen') → seen ⊆ seen'
  | 0, _, _, _, _, h => by
      cases h
      exact List.Subset.refl _
  | bound + 1, pointer, seen, good, seen', h => by
      rw [examine] at h
      split at h
      · cases h
        exact List.Subset.refl _
      · split at h
        · cases h
          exact List.Subset.refl _
        · obtain ⟨s, -, h⟩ := bind_eq_ok_iff.mp h
          have hcons := List.subset_cons_self pointer seen
          split at h
          · cases h
            exact hcons
          · split at h
            · cases h
              exact hcons
            · exact List.Subset.trans hcons
                (subset_of_entriesExtendable (subset_of_examine bound) _ h)
            · cases h
              exact hcons

/-- Entries depend on examinations only for their references, and only with what is seen by then. -/
theorem entriesExtendable_congr
    (hgrows : ∀ base seen good seen', examine' base seen = .ok (good, seen') → seen ⊆ seen') :
    (nodes : List SchemaNode) → {i : Nat} → {seen : List String} →
      (∀ base ∈ SchemaNode.listReferences nodes, ∀ seen', seen ⊆ seen' →
        examine base seen' = examine' base seen') →
      entriesExtendable examine location i nodes seen =
        entriesExtendable examine' location i nodes seen
  | [], _, _, _ => rfl
  | .reference pointer :: rest, i, seen, h => by
      refine bind_congr_of_eq_ok fun base hbase => ?_
      obtain rfl := DocumentTree.canonicalize_eq hbase
      rw [h base List.mem_cons_self seen (List.Subset.refl _)]
      refine bind_congr_of_eq_ok fun (good, seen') hgood => ?_
      have hrest := entriesExtendable_congr hgrows rest (i := i + 1) fun b hb seen'' hseen =>
        h b (List.mem_cons_of_mem base hb) seen''
          (List.Subset.trans (hgrows base seen good seen' hgood) hseen)
      dsimp only
      rw [hrest]
  | .schema part :: rest, i, seen, h => by
      rw [entriesExtendable, entriesExtendable, entriesExtendable_congr hgrows rest
        fun b hb => h b (List.mem_append_right _ hb)]
  | .boolean allowed :: rest, i, seen, h => by
      rw [entriesExtendable, entriesExtendable, entriesExtendable_congr hgrows rest
        fun b hb => h b (List.mem_append_right _ hb)]

/-- An examination depends on others only for pointers that have less ahead. -/
theorem examining_congr (bound : Nat) (x : String × List String)
    (again : String × List String → Except Failure (Bool × List String))
    (hagain : ∀ x', run.tree.ahead x'.2 x'.1 < run.tree.ahead x.2 x.1 →
      again x' = run.examine bound x'.1 x'.2) :
    examining run again x = examining run (fun x => run.examine bound x.1 x.2) x := by
  obtain ⟨pointer, seen⟩ := x
  unfold examining
  dsimp only
  split
  · rfl
  · split
    · rfl
    · next hnew =>
      refine bind_congr_of_eq_ok fun s hs => ?_
      split
      · rfl
      · split
        · rfl
        · refine entriesExtendable_congr (subset_of_examine bound) _
            fun base hbase seen' hseen => ?_
          have htext : base ∈ run.tree.root.texts := DocumentTree.references_subset_of_resolve hs
            ((Schema.references_subset_iff.mp (List.Subset.refl _)).2.2.2.2.2 hbase)
          exact hagain (base, seen') (DocumentTree.ahead_lt
            (List.Subset.trans (List.subset_cons_self _ _) hseen) (hseen List.mem_cons_self)
            (fun hmem => hnew (List.contains_iff_mem.mpr hmem)) htext)
        · rfl

/-- Examinations end, whatever has been seen, with the result for every bound above what is
ahead. -/
theorem ends_examine {bound : Nat} (x : String × List String)
    (hx : run.tree.ahead x.2 x.1 < bound) :
    (examining run).Ends x (run.examine bound x.1 x.2) :=
  Recursion.ends_of_measure (fun x : String × List String => run.tree.ahead x.2 x.1)
    (fun bound (x : String × List String) => run.examine bound x.1 x.2) (examine_succ run)
    examining_congr bound x hx

theorem ends_examining (x : String × List String) :
    (examining run).Ends x (run.examine run.tree.bound x.1 x.2) :=
  ends_examine x DocumentTree.ahead_lt_bound

/-- Any larger bound would do. -/
theorem examine_eq {bound : Nat} (h : run.tree.bound ≤ bound) (pointer : String)
    (seen : List String) : run.examine run.tree.bound pointer seen =
      run.examine bound pointer seen :=
  (ends_examining (pointer, seen)).unique
    (ends_examine (pointer, seen) (Nat.lt_of_lt_of_le DocumentTree.ahead_lt_bound h))

end Setting

/-! ### Members of enumerations -/

namespace Enumeration

variable {used : List String} {member : String}

/-- The search for the first number that makes a member name free. -/
def numbering (used : List String) (member : String) : Recursion Nat String :=
  fun again n =>
    if used.contains (member ++ n.repr) then again (n + 1) else member ++ n.repr

open Classical in
/-- How many of the names used have a number from `n` on. -/
noncomputable def clashes (used : List String) (member : String) (n : Nat) : Nat :=
  used.countP fun name => decide (∃ k, n ≤ k ∧ name = member ++ k.repr)

open Classical in
theorem clashes_succ_lt {n : Nat} (h : used.contains (member ++ n.repr)) :
    clashes used member (n + 1) < clashes used member n := by
  refine countP_lt_countP (fun name _ hname => ?_) (List.contains_iff_mem.mp h) ?_ ?_
  · obtain ⟨k, hk, rfl⟩ := of_decide_eq_true hname
    exact decide_eq_true ⟨k, by omega, rfl⟩
  · refine decide_eq_false ?_
    rintro ⟨k, hk, heq⟩
    have hnk : n = k := Pointer.repr_injective ((String.append_right_inj member).mp heq)
    omega
  · exact decide_eq_true ⟨n, Nat.le_refl n, rfl⟩

/-- One more number to try makes no difference if there are as many as names are used. -/
theorem firstFree_succ :
    (count n : Nat) → clashes used member n ≤ count →
      firstFree used member (count + 1) n = firstFree used member count n
  | 0, n, hle => by
      change numbering used member (firstFree used member 0) n = member ++ n.repr
      unfold numbering
      split
      · next h =>
        have := clashes_succ_lt h
        omega
      · rfl
  | count + 1, n, hle => by
      change numbering used member (firstFree used member (count + 1)) n =
        numbering used member (firstFree used member count) n
      unfold numbering
      split
      · next h =>
        have := clashes_succ_lt h
        exact firstFree_succ count (n + 1) (by omega)
      · rfl

/-- The search for a free name ends. -/
theorem ends_numbering (n : Nat) :
    (numbering used member).Ends n (firstFree used member used.length n) := by
  have hle : clashes used member n ≤ used.length := List.countP_le_length
  rw [← firstFree_succ used.length n hle]
  refine Recursion.ends_of_measure (clashes used member) (firstFree used member) (fun _ _ => rfl)
    (fun count n g hg => ?_) _ n (Nat.lt_succ_of_le hle)
  unfold numbering
  split
  · next h => exact hg (n + 1) (clashes_succ_lt h)
  · rfl

end Enumeration

/-! ### Entry points and makers -/

/-- The computation of a call, given how references are used. -/
def Call.performWith (run : Setting) (refer : Refer) : Call → Gen Call.Answer
  | .ensureNamed pointer from_ => .inl <$> Gen.ensureNamedWith run refer pointer from_
  | .reference pointer location => .inr <$> refer pointer location
  | .typeOf node location hint => .inr <$> (node.part run refer).use refer location hint
  | .inlineType s location hint =>
    .inr <$> Gen.useSchema run refer s (s.parts run refer) location hint
  | .generateNamed s pointer raw =>
    .inl <$> Gen.declareSchema run refer s (s.parts run refer) pointer raw

theorem Call.perform_eq (run : Setting) (call : Call) :
    call.perform run = call.performWith run (Gen.refer run) := by
  cases call <;> rfl

namespace Setting

open Gen

/-- On every document and with every configuration, uses of references end in every state, and so do
the entry points, the makers of all shapes, examinations of bases, chains of references from every
memory, and searches for the names of enumeration members. The results are those of the bounded
definitions. -/
theorem run_ends (run : Setting) :
    (∀ x, (referring run).Ends x (Refer.outcomes (refer run) x)) ∧
    (∀ (call : Call) p, (referring run).EndsIn
      (fun again => (call.performWith run (Refer.ofOutcomes again)).run.run p)
      (call.outcome run p)) ∧
    (∀ s pointer name raw p, (referring run).EndsIn
      (fun again => (makeDeclaration run (Refer.ofOutcomes again) s
        (s.parts run (Refer.ofOutcomes again)) pointer name raw).run.run p)
      ((makeDeclaration run (refer run) s (s.parts run (refer run)) pointer name raw).run.run p)) ∧
    (∀ x, (examining run).Ends x (run.examine run.tree.bound x.1 x.2)) ∧
    (∀ r : Resolver, ∀ x, r.loop.Ends x (r.follow r.tree.bound x.1 x.2.1 x.2.2)) ∧
    ∀ used member n, (Enumeration.numbering used member).Ends n
      (Enumeration.firstFree used member used.length n) := by
  refine ⟨ends_referring, fun call p => ?_, fun s pointer name raw p => ?_, ends_examining,
    fun r => Resolver.ends_loop, fun _ _ => Enumeration.ends_numbering⟩
  · rw [Call.outcome, Call.perform_eq]
    exact .of_ends ends_referring
      fun again => (call.performWith run (Refer.ofOutcomes again)).run.run p
  · exact .of_ends ends_referring fun again => (makeDeclaration run (Refer.ofOutcomes again) s
      (s.parts run (Refer.ofOutcomes again)) pointer name raw).run.run p

end Setting

end OpenApiTs
