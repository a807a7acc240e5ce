import OpenApiTs.Generation.Reference
import OpenApiTs.Proofs.Progress
import OpenApiTs.Proofs.Rendering
import OpenApiTs.Proofs.Texts

/-!
# Where references matter

What a run makes of a node depends on how references are used only for the references in the node,
and only in the states in which they are reached. So two ways of using references that agree there
make the same of the node. One of them can follow references for ever elsewhere. Nor does it depend
on the document tree, except for what the tree has for these references. Of two trees, the second
can have what the first lacks if the failures of the first run are of no interest.

## Main definitions

* `Same`, `Gen.Agree`: two results are the same, and two computations have the same outcome from
  given states, and end in given states; strictly, or unless the first fails.
* `Setting.SameAt`, `Setting.SameFor`: two trees have the same for a reference, and for all
  references of a kind.
* `Refer.Agree`, `Part.Agree`, `Answers.Agree`, `Parts.Agree`: agreement of uses and of answers.
* `Progress.Lasting`: what stays true while names are added.

## Main results

* `Gen.agree_makeDeclaration`, `Gen.agree_declareSchema`, `Gen.agree_useSchema`: makers of
  declarations and of types that are given answers that agree.
* `Gen.agree_part`, `Gen.agree_parts`: nodes have answers that agree.
* `Gen.agree_referenceWith`: uses of a reference agree if uses inside its target do.
-/

namespace OpenApiTs

/-! ### Computations that agree -/

/-- Two results are the same. Unless results are compared strictly, the first can also be a
failure. -/
def Same {ε α : Type} (strict : Prop) (e e' : Except ε α) : Prop :=
  (strict ∨ ∃ x, e = .ok x) → e = e'

/-- A property of states stays true while pointers get names. -/
def Progress.Lasting (S : Progress → Prop) : Prop :=
  ∀ p q, S p → (∀ pointer, (p.name? pointer).isSome → (q.name? pointer).isSome) → S q

theorem Progress.isSome_begun {p : Progress} {registry : Registry} {pointer name : String}
    (P : String) (h : (p.name? P).isSome) : ((p.begun registry pointer name).name? P).isSome := by
  rw [Progress.name?_begun]
  split
  · rfl
  · exact h

theorem Progress.Lasting.begun {S : Progress → Prop} (hS : Progress.Lasting S) {p : Progress}
    {registry : Registry} {pointer name : String} (h : S p) : S (p.begun registry pointer name) :=
  hS p _ h Progress.isSome_begun

section Same

variable {ε α β : Type} {strict : Prop} {e e' : Except ε α}

theorem Same.rfl : Same strict e e := fun _ => Eq.refl e

theorem Same.ok {x : α} (h : Same strict e e') (he : e = .ok x) : e' = .ok x :=
  (h (.inr ⟨x, he⟩)).symm.trans he

theorem Same.bind {f f' : α → Except ε β} (h : Same strict e e')
    (hf : ∀ x, e = .ok x → Same strict (f x) (f' x)) : Same strict (e >>= f) (e' >>= f') := by
  intro hcompared
  cases e with
  | error failure =>
    obtain rfl := h (hcompared.imp_right fun ⟨_, hx⟩ => nomatch hx)
    exact Eq.refl _
  | ok x =>
    obtain rfl := h (.inr ⟨x, Eq.refl _⟩)
    exact hf x (Eq.refl _) hcompared

end Same

/-- A run on another tree. -/
abbrev Setting.on (run : Setting) (tree : DocumentTree) : Setting := { run with tree := tree }

namespace Gen

/-- Two computations have the same outcome from the states with `S`, which is a state with `S'`
unless it is a failure. Unless outcomes are compared strictly, the first can also fail. -/
def Agree {α : Type} (strict : Prop) (S S' : Progress → Prop) (m m' : Gen α) : Prop :=
  ∀ p, S p → ((strict ∨ ∃ x q, m.run.run p = (.ok x, q)) → m.run.run p = m'.run.run p) ∧
    ∀ x q, m.run.run p = (.ok x, q) → S' q

section Rules

variable {α β : Type} {strict : Prop} {S S' S'' : Progress → Prop}

namespace Agree

theorem pure (x : α) : Agree strict S S (Pure.pure x) (Pure.pure x) := fun p hp =>
  ⟨fun _ => rfl, fun x q h => by cases h; exact hp⟩

theorem ofExcept_bind {e e' : Except Failure α} {f f' : α → Gen β} (he : Same strict e e')
    (h : ∀ x, e = .ok x → Agree strict S S' (f x) (f' x)) :
    Agree strict S S' (Gen.ofExcept e >>= f) (Gen.ofExcept e' >>= f') := by
  cases e with
  | error failure =>
    refine fun p _ => ⟨fun hcompared => ?_, nofun⟩
    obtain rfl := he (hcompared.imp_right fun ⟨_, _, hx⟩ => nomatch hx)
    rfl
  | ok x =>
    obtain rfl := he.ok rfl
    exact h x rfl

theorem weaken {m m' : Gen α} (h : Agree strict S S' m m') (hS : ∀ p, S' p → S'' p) :
    Agree strict S S'' m m' :=
  fun p hp => ⟨(h p hp).1, fun x q hq => hS q ((h p hp).2 x q hq)⟩

theorem bind {m m' : Gen α} {f f' : α → Gen β} (hm : Agree strict S S' m m')
    (hf : ∀ x, Agree strict S' S'' (f x) (f' x)) :
    Agree strict S S'' (m >>= f) (m' >>= f') := by
  intro p hp
  obtain ⟨heq, hq⟩ := hm p hp
  rw [run_bind, run_bind]
  rcases hrun : m.run.run p with ⟨failure | x, q⟩
  · refine ⟨fun hcompared => ?_, nofun⟩
    rw [← heq (hcompared.imp_right fun ⟨_, _, hx⟩ => nomatch hx), hrun]
  · rw [← heq (.inr ⟨x, q, hrun⟩), hrun]
    exact hf x q (hq x q hrun)

theorem map {m m' : Gen α} (hm : Agree strict S S' m m') (f : α → β) :
    Agree strict S S' (f <$> m) (f <$> m') := by
  rw [map_eq_pure_bind, map_eq_pure_bind]
  exact hm.bind fun x => .pure (f x)

theorem mapM {f f' : α → Gen β} :
    (l : List α) → (∀ a ∈ l, Agree strict S S (f a) (f' a)) →
      Agree strict S S (l.mapM f) (l.mapM f')
  | [], _ => .pure []
  | a :: l, h => by
      obtain ⟨ha, hl⟩ := List.forall_mem_cons.mp h
      rw [List.mapM_cons, List.mapM_cons]
      exact ha.bind fun b => (mapM l hl).bind fun bs => .pure (b :: bs)

/-- Where nothing is said about states, a computation agrees with itself. -/
theorem rfl {m : Gen α} : Agree strict (fun _ => True) (fun _ => True) m m :=
  fun _ _ => ⟨fun _ => Eq.refl _, fun _ _ _ => trivial⟩

end Agree

variable {run : Setting} {tree' : DocumentTree} {pointer raw name : String}

theorem agree_claim (hS : Progress.Lasting S)
    (f : Registry → Except NameExhausted (String × Registry)) :
    Agree strict S S (claim f) (claim f) := by
  refine fun p hp => ⟨fun _ => rfl, fun x q h => hS p q hp ?_⟩
  rw [run_claim] at h
  split at h
  · cases h
    exact fun _ => id
  · cases h

theorem agree_begin (hbegun : ∀ p registry name, S p → S' (p.begun registry pointer name)) :
    Agree strict S S' (begin run pointer raw) (begin (run.on tree') pointer raw) := by
  refine fun p hp => ⟨fun _ => rfl, fun name q h => ?_⟩
  rw [run_begin] at h
  split at h
  · cases h
    exact hbegun p _ _ hp
  · cases h

theorem agree_finish (hS : Progress.Lasting S) (d : Declaration) :
    Agree strict S S (finish pointer name d) (finish pointer name d) := by
  refine fun p hp => ⟨fun _ => rfl, fun x q h => hS p q hp ?_⟩
  rw [run_finish] at h
  cases h
  exact fun _ => id

/-- A pointer that has a name keeps it; otherwise it gets one. -/
theorem agree_named {m m' : Gen String} (hnamed : ∀ p, S p → S' p)
    (h : Agree strict (fun p => S p ∧ p.name? pointer = none) S' m m') :
    Agree strict S S'
      (do
        match ← nameOf? pointer with
        | some name => pure name
        | none => m)
      (do
        match ← nameOf? pointer with
        | some name => pure name
        | none => m') := by
  intro p hp
  rw [run_bind, run_bind, run_nameOf?]
  cases hname : p.name? pointer with
  | some name =>
    refine ⟨fun _ => rfl, fun x q hq => ?_⟩
    cases hq
    exact hnamed p hp
  | none => exact h p ⟨hp, hname⟩

/-- A declaration that is made with room `S` for the references in it. -/
theorem agree_declaring (hS : Progress.Lasting S')
    (hbegun : ∀ p registry name, S p → S' (p.begun registry pointer name))
    {make make' : String → Gen Declaration}
    (h : ∀ name, Agree strict S' S' (make name) (make' name)) :
    Agree strict S S'
      (do
        let name ← begin run pointer raw
        let d ← make name
        finish pointer name d
        pure name)
      (do
        let name ← begin (run.on tree') pointer raw
        let d ← make' name
        finish pointer name d
        pure name) :=
  (agree_begin hbegun).bind fun name => (h name).bind fun d =>
    (agree_finish hS d).bind fun _ => .pure name

end Rules

end Gen

/-! ### Trees that have the same -/

namespace Setting

variable (strict : Prop) (T : String → Prop) (run : Setting) (tree' : DocumentTree)

/-- What a run finds for a reference, it finds on another tree too: the node at the target and the
schema that the reference stands for, whether uses add null, and whether the target is a base of
interfaces. The references in the node are among those with `T`. -/
structure SameAt (reference : String) : Prop where
  origin : ∀ from_, Same strict (run.origin reference from_) ((run.on tree').origin reference from_)
  resolve : ∀ from_, Same strict (run.tree.resolve reference from_) (tree'.resolve reference from_)
  null : Same strict (Gen.needsNullAtUse run reference)
    (Gen.needsNullAtUse (run.on tree') reference)
  extendable : Same strict (run.isExtendable reference) ((run.on tree').isExtendable reference)
  follows : ∀ {from_ node}, run.origin reference from_ = .ok node → ∀ r ∈ node.references, T r

/-- The other tree has the same for all references with `T`. -/
def SameFor : Prop := ∀ reference, T reference → run.SameAt strict T tree' reference

end Setting

/-! ### Answers that agree -/

section Answers

variable (strict : Prop) (T : String → Prop) (S : Progress → Prop)

/-- Two uses of references agree for those with `T`, from the states with `S`. -/
def Refer.Agree (refer refer' : Refer) : Prop :=
  ∀ reference, T reference → ∀ location,
    Gen.Agree strict S S (refer reference location) (refer' reference location)

/-- The answers of a schema agree. -/
structure Answers.Agree (answers answers' : Answers) : Prop where
  use : ∀ location hint,
    Gen.Agree strict S S (answers.use location hint) (answers'.use location hint)
  declare : ∀ pointer raw,
    Gen.Agree strict S S (answers.declare pointer raw) (answers'.declare pointer raw)
  collect : ∀ location owner body, Gen.Agree strict S S (answers.collect location owner body)
    (answers'.collect location owner body)

/-- The answers of a node agree. -/
inductive Part.Agree : Part → Part → Prop
  | reference {pointer} (h : T pointer) : Agree (.reference pointer) (.reference pointer)
  | boolean (allowed) : Agree (.boolean allowed) (.boolean allowed)
  | inline {s answers answers'} (hs : ∀ reference ∈ Schema.references s, T reference)
      (h : Answers.Agree strict S answers answers') :
      Agree (.inline s answers) (.inline s answers')

/-- The answers of all parts of a schema agree. -/
structure Parts.Agree (parts parts' : Parts) : Prop where
  properties : List.Forall₂ (fun e e' => e.1 = e'.1 ∧ Part.Agree strict T S e.2 e'.2)
    parts.properties parts'.properties
  additional : Option.Rel (Part.Agree strict T S) parts.additional parts'.additional
  items : Option.Rel (Part.Agree strict T S) parts.items parts'.items
  oneOf : List.Forall₂ (Part.Agree strict T S) parts.oneOf parts'.oneOf
  anyOf : List.Forall₂ (Part.Agree strict T S) parts.anyOf parts'.anyOf
  allOf : List.Forall₂ (Part.Agree strict T S) parts.allOf parts'.allOf

end Answers

namespace Gen

variable {run : Setting} {tree' : DocumentTree} {strict : Prop} {T : String → Prop}
  {S : Progress → Prop} {refer refer' : Refer}
  {s : Schema} {part part' : Part} {parts parts' : Parts}

section Uses

variable (hr : refer.Agree strict T S refer')
include hr

theorem agree_use (h : part.Agree strict T S part') (location hint : String) :
    Agree strict S S (part.use refer location hint) (part'.use refer' location hint) := by
  cases h with
  | reference hT => exact hr _ hT location
  | boolean allowed => exact .pure _
  | inline _ h => exact h.use location hint

theorem agree_field (h : part.Agree strict T S part') (owner name : String) (required : Bool)
    (location : String) :
    Agree strict S S (field run refer owner name part required location)
      (field (run.on tree') refer' owner name part' required location) := by
  refine (agree_use hr h location _).bind fun use => ?_
  cases h <;> exact .pure _

theorem agree_collectFields (s : Schema) (location owner : String) :
    {properties properties' : List (String × Part)} →
      List.Forall₂ (fun e e' => e.1 = e'.1 ∧ Part.Agree strict T S e.2 e'.2) properties
        properties' →
      (body : Body) →
      Agree strict S S (collectFields run refer s location owner properties body)
        (collectFields (run.on tree') refer' s location owner properties' body)
  | [], [], .nil, body => .pure body
  | (name, part) :: rest, (_, part') :: rest', .cons h hrest, body => by
      obtain ⟨rfl, hpart⟩ := h
      exact (agree_field hr hpart owner name _ _).bind fun f =>
        agree_collectFields s location owner hrest _

theorem agree_additionalUse (h : parts.Agree strict T S parts') (location owner : String) :
    Agree strict S S (additionalUse refer parts location owner)
      (additionalUse refer' parts' location owner) := by
  have hadditional := h.additional
  unfold additionalUse
  cases hp : parts.additional <;> cases hp' : parts'.additional <;> rw [hp, hp'] at hadditional
  · exact .pure none
  · cases hadditional
  · cases hadditional
  · obtain ⟨hpart⟩ := hadditional
    have hpresent := (agree_use hr hpart (Pointer.child location "additionalProperties")
      (Naming.compose [owner, "Value"])).map some
    cases hpart with
    | reference hT => exact hpresent
    | boolean allowed =>
      cases allowed with
      | true => exact hpresent
      | false => exact .pure none
    | inline h => exact hpresent

theorem agree_collect (h : parts.Agree strict T S parts') (s : Schema) (location owner : String)
    (body : Body) :
    Agree strict S S (collect run refer s parts location owner body)
      (collect (run.on tree') refer' s parts' location owner body) := by
  refine (agree_collectFields hr s _ owner h.properties body).bind fun body' => ?_
  refine (agree_additionalUse hr h location owner).bind fun index => ?_
  cases index <;> exact .pure _

theorem agree_record (h : parts.Agree strict T S parts') (location owner : String) :
    Agree strict S S (record refer parts location owner) (record refer' parts' location owner) := by
  have hallowed := (agree_additionalUse hr h location owner).bind fun index =>
    Agree.pure (index.getD .unknown).record
  have hadditional := h.additional
  unfold record
  cases hp : parts.additional <;> cases hp' : parts'.additional <;> rw [hp, hp'] at hadditional
  · exact hallowed
  · cases hadditional
  · cases hadditional
  · obtain ⟨hpart⟩ := hadditional
    cases hpart with
    | reference hT => exact hallowed
    | boolean allowed =>
      cases allowed with
      | true => exact hallowed
      | false => exact .pure _
    | inline h => exact hallowed

theorem agree_inlineObject (h : parts.Agree strict T S parts') (s : Schema)
    (location hint : String) :
    Agree strict S S (inlineObject run refer s parts location hint)
      (inlineObject (run.on tree') refer' s parts' location hint) := by
  unfold inlineObject
  split
  · exact agree_record hr h location hint
  · exact (agree_collect hr h s location hint {}).bind fun body => .pure _

/-! ### Scalars, arrays and literals -/

theorem agree_plainUse (h : parts.Agree strict T S parts') (s : Schema)
    (location hint : String) :
    Agree strict S S (plainUse run refer s parts location hint)
      (plainUse (run.on tree') refer' s parts' location hint) := by
  have hitems := h.items
  unfold plainUse
  split
  · cases hp : parts.items <;> cases hp' : parts'.items <;> rw [hp, hp'] at hitems
    · exact .pure _
    · cases hitems
    · cases hitems
    · obtain ⟨hpart⟩ := hitems
      exact (agree_use hr hpart _ _).bind fun use => .pure _
  all_goals exact .pure _

theorem agree_plainDeclaration (h : parts.Agree strict T S parts') (s : Schema)
    (pointer name raw : String) :
    Agree strict S S (plainDeclaration run refer s parts pointer name raw)
      (plainDeclaration (run.on tree') refer' s parts' pointer name raw) :=
  (agree_plainUse hr h s pointer raw).bind fun _ => .pure _

end Uses

/-! ### Declarations -/

theorem agree_enumerationDeclaration (hS : Progress.Lasting S) (s : Schema)
    (pointer name : String) :
    Agree strict S S (enumerationDeclaration run s pointer name)
      (enumerationDeclaration run s pointer name) := by
  unfold enumerationDeclaration
  dsimp only
  split
  · exact (agree_claim hS _).bind fun valuesName => .pure _
  · exact .pure _

section Alias

variable {S₀ S' : Progress → Prop} {pointer raw : String}

/-- The declaration of a pointer by a type from states in which its naming leads to `S`. -/
theorem agree_declareAlias (hS : Progress.Lasting S)
    (hbegun : ∀ p registry name, S₀ p → S (p.begun registry pointer name)) {use use' : Gen TypeUse}
    (h : Agree strict S S use use') (raw : String) :
    Agree strict S₀ S (declareAlias run pointer raw use) (declareAlias run pointer raw use') :=
  (agree_begin hbegun).bind fun name => h.bind fun _ => (agree_finish hS _).bind fun _ => .pure name

end Alias

/-! ### What references find -/

/-- The declaration of what a reference finds at its target. -/
def declareFound (run : Setting) (refer : Refer) (pointer raw : String) : SchemaNode → Gen String
  | .reference target => declareAlias run pointer raw (chainUse run refer pointer target)
  | .boolean allowed => declareAlias run pointer raw (pure (.ofBoolean allowed))
  | .schema s => declareSchema run refer s (s.parts run refer) pointer raw

theorem ofExcept_bind {α β : Type} (e : Except Failure α) (f : α → Except Failure β) :
    ofExcept (e >>= f) = ofExcept e >>= fun x => ofExcept (f x) := by
  cases e <;> rfl

/-- A target without a name is declared as what the reference finds there. -/
theorem ensureNamedWith_eq (run : Setting) (refer : Refer) (reference from_ : String) :
    ensureNamedWith run refer reference from_ =
      (do
        let pointer ← ofExcept (DocumentTree.canonicalize reference from_)
        match ← nameOf? pointer with
        | some name => pure name
        | none => do
          let node ← ofExcept (run.origin pointer from_)
          declareFound run refer pointer (Naming.compose [Pointer.last pointer]) node) := by
  unfold ensureNamedWith
  refine congrArg _ (funext fun pointer => congrArg _ (funext fun name => ?_))
  cases name with
  | some name => rfl
  | none =>
    dsimp only
    unfold Setting.origin
    rw [ofExcept_bind, bind_assoc]
    refine congrArg _ (funext fun value => ?_)
    cases (value.member? "$ref").bind Json.string? with
    | some target => rfl
    | none =>
      cases value.bool? with
      | some allowed => rfl
      | none =>
        rw [ofExcept_bind, bind_assoc]
        rfl

section Trees

variable (hsame : run.SameFor strict T tree')
include hsame

/-! ### Names of branches -/

/-- The schema that a node stands for is the same if it is for the references in the node. -/
theorem same_schemaOf {node : SchemaNode}
    (hnode : ∀ reference ∈ node.references, T reference) (location : String) :
    Same strict (run.tree.schemaOf node location) (tree'.schemaOf node location) := by
  cases node with
  | reference pointer => exact (hsame pointer (hnode pointer List.mem_cons_self)).resolve location
  | boolean _ | schema _ => exact .rfl

theorem same_firstLiteral? (location : String) :
    (properties : List (String × SchemaNode)) →
      (∀ e ∈ properties, ∀ reference ∈ e.2.references, T reference) →
      Same strict (firstLiteral? run location properties)
        (firstLiteral? (run.on tree') location properties)
  | [], _ => .rfl
  | (name, node) :: rest, h => by
      refine (same_schemaOf hsame (h _ List.mem_cons_self) _).bind fun property _ => ?_
      split
      · exact .rfl
      · exact same_firstLiteral? location rest fun e he => h e (List.mem_cons_of_mem _ he)

/-- A branch has the same raw name if the references in it lead to the same. -/
theorem same_branchName {discriminator : Option String}
    {branch : Schema} (hbranch : ∀ reference ∈ branch.references, T reference) {unionName : String}
    {position : Nat} {location : String} :
    Same strict (branchName run discriminator branch unionName position location)
      (branchName (run.on tree') discriminator branch unionName position location) := by
  have hproperties : ∀ e ∈ branch.properties, ∀ reference ∈ e.2.references, T reference :=
    fun e he reference hr => by
      have hpart : branch.HasPart location e.2 _ := .property he
      exact hbranch reference (Schema.references_part hpart (List.Subset.refl _) hr)
  refine Same.bind (same_firstLiteral? hsame _ _ fun e he => ?_) fun literal _ => .rfl
  split at he
  · obtain ⟨node, hnode, rfl⟩ := Option.map_eq_some_iff.mp (Option.mem_toList.mp he)
    exact hproperties _ (Entries.mem_of_get? hnode)
  · exact hproperties e he

variable (hr : refer.Agree strict T S refer')
include hr

/-! ### Intersections -/

theorem agree_composeEntry (h : part.Agree strict T S part') (raw location : String) (i : Nat)
    (c : Composition) :
    Agree strict S S (composeEntry run refer raw location i part c)
      (composeEntry (run.on tree') refer' raw location i part' c) := by
  unfold composeEntry
  cases h with
  | reference hT =>
    refine Agree.ofExcept_bind .rfl fun pointer hpointer => ?_
    obtain rfl := DocumentTree.canonicalize_eq hpointer
    refine Agree.ofExcept_bind (hsame _ hT).extendable fun objectLike _ => ?_
    refine (hr _ hT _).bind fun base => ?_
    split <;> exact .pure _
  | boolean allowed => cases allowed <;> exact .pure _
  | inline _ h =>
    dsimp only
    split
    · exact (h.collect _ raw c.body).bind fun body => .pure _
    · exact (h.use _ _).bind fun use => .pure _

theorem agree_composeEntries (raw location : String) :
    {entries entries' : List Part} → List.Forall₂ (Part.Agree strict T S) entries entries' →
      (i : Nat) → (c : Composition) →
      Agree strict S S (composeEntries run refer raw location i entries c)
        (composeEntries (run.on tree') refer' raw location i entries' c)
  | [], [], .nil, _, c => .pure c
  | _ :: _, _ :: _, .cons h hrest, i, c =>
      (agree_composeEntry hsame hr h raw location i c).bind fun c' =>
        agree_composeEntries raw location hrest (i + 1) c'

theorem agree_objectDeclaration (h : parts.Agree strict T S parts') (s : Schema)
    (pointer name raw : String) :
    Agree strict S S (objectDeclaration run refer s parts pointer name raw)
      (objectDeclaration (run.on tree') refer' s parts' pointer name raw) := by
  unfold objectDeclaration
  dsimp only
  split
  · exact (agree_record hr h pointer raw).bind fun use => .pure _
  · refine (agree_composeEntries hsame hr raw _ h.allOf 0 {}).bind fun c => ?_
    refine (agree_collect hr h s pointer raw c.body).bind fun body => ?_
    split <;> exact .pure _

/-! ### Unions -/

theorem agree_branchUse (h : part.Agree strict T S part') (discriminator : Option String)
    (unionName location : String) (i : Nat) :
    Agree strict S S (branchUse run refer discriminator unionName location i part)
      (branchUse (run.on tree') refer' discriminator unionName location i part') := by
  unfold branchUse
  cases h with
  | reference hT => exact hr _ hT location
  | boolean allowed => exact .pure _
  | inline hs h =>
    dsimp only
    split
    · refine Agree.ofExcept_bind (same_branchName hsame hs) fun raw _ => ?_
      exact (h.declare location raw).bind fun name => .pure _
    · exact h.use location _

theorem agree_addBranches (discriminator : Option String) (unionName location : String) :
    {branches branches' : List Part} → List.Forall₂ (Part.Agree strict T S) branches branches' →
      (i : Nat) → (m : Members) →
      Agree strict S S (addBranches run refer discriminator unionName location i branches m)
        (addBranches (run.on tree') refer' discriminator unionName location i branches' m)
  | [], [], .nil, _, m => .pure m
  | _ :: _, _ :: _, .cons h hrest, i, m =>
      (agree_branchUse hsame hr h discriminator unionName _ i).bind fun use =>
        agree_addBranches discriminator unionName location hrest (i + 1) (m.add use)

theorem agree_unionUse (h : parts.Agree strict T S parts') (s : Schema)
    (location unionName : String) :
    Agree strict S S (unionUse run refer s parts location unionName)
      (unionUse (run.on tree') refer' s parts' location unionName) := by
  have hbranches : List.Forall₂ (Part.Agree strict T S) (parts.branches s) (parts'.branches s) := by
    unfold Parts.branches
    split
    · exact h.oneOf
    · exact h.anyOf
  exact (agree_addBranches hsame hr _ unionName _ hbranches 0 _).bind fun m => .pure m.use

theorem agree_unionDeclaration (h : parts.Agree strict T S parts') (s : Schema)
    (pointer name raw : String) :
    Agree strict S S (unionDeclaration run refer s parts pointer name raw)
      (unionDeclaration (run.on tree') refer' s parts' pointer name raw) :=
  (agree_unionUse hsame hr h s pointer raw).bind fun _ => .pure _

/-! ### Declarations and uses -/

variable (hS : Progress.Lasting S)
include hS

theorem agree_makeDeclaration (h : parts.Agree strict T S parts') (s : Schema)
    (pointer name raw : String) :
    Agree strict S S (makeDeclaration run refer s parts pointer name raw)
      (makeDeclaration (run.on tree') refer' s parts' pointer name raw) := by
  unfold makeDeclaration
  split
  · exact agree_objectDeclaration hsame hr h s pointer name raw
  · exact agree_unionDeclaration hsame hr h s pointer name raw
  · exact agree_enumerationDeclaration hS s pointer name
  · exact agree_plainDeclaration hr h s pointer name raw

/-- The declaration of a schema from states in which the naming of its pointer leads to `S`. -/
theorem agree_declareSchema {S₀ S' : Progress → Prop} {pointer : String}
    (hbegun : ∀ p registry name, S₀ p ∧ p.name? pointer = none → S (p.begun registry pointer name))
    (hnamed : ∀ p, S₀ p → S' p) (hS' : ∀ p, S p → S' p)
    (h : parts.Agree strict T S parts') (s : Schema) (raw : String) :
    Agree strict S₀ S' (declareSchema run refer s parts pointer raw)
      (declareSchema (run.on tree') refer' s parts' pointer raw) :=
  agree_named hnamed ((agree_declaring hS hbegun fun name =>
    agree_makeDeclaration hsame hr hS h s pointer name raw).weaken hS')

theorem agree_useSchema (h : parts.Agree strict T S parts') {s : Schema}
    (hs : ∀ reference ∈ s.references, T reference) (location hint : String) :
    Agree strict S S (useSchema run refer s parts location hint)
      (useSchema (run.on tree') refer' s parts' location hint) := by
  unfold useSchema
  split
  · next reference hplacement =>
    have hpart : s.HasPart location (.reference reference)
        (Pointer.descend location ["allOf", "0"]) :=
      .allOf (i := 0) (Schema.allOf_of_wrapped hplacement)
    have hreference := Schema.references_part hpart (List.Subset.refl _) List.mem_cons_self
    exact (hr _ (hs _ hreference) _).bind fun use => .pure _
  · refine Agree.bind ?_ fun use => .pure _
    unfold inPlaceUse
    split
    · exact agree_unionUse hsame hr h s location hint
    · exact agree_inlineObject hr h s location hint
    · exact agree_plainUse hr h s location hint
  · exact (agree_declareSchema hsame hr hS (fun p registry name hp => hS.begun hp.1)
      (fun _ => id) (fun _ => id) h s hint).bind fun name => .pure _

theorem agree_answers (h : parts.Agree strict T S parts') {s : Schema}
    (hs : ∀ reference ∈ s.references, T reference) :
    (answers run refer s parts).Agree strict S (answers (run.on tree') refer' s parts') where
  use location hint := agree_useSchema hsame hr hS h hs location hint
  declare _ raw := agree_declareSchema hsame hr hS (fun _ _ _ hp => hS.begun hp.1) (fun _ => id)
    (fun _ => id) h s raw
  collect location owner body := agree_collect hr h s location owner body

/-! ### Nodes -/

-- The hypotheses are used by the block as a whole, not by each of its theorems.
set_option linter.unusedSectionVars false in
mutual

/-- A node whose references are among those for which uses agree has answers that agree. -/
theorem agree_part :
    (node : SchemaNode) → (∀ reference ∈ node.references, T reference) →
      (node.part run refer).Agree strict T S (node.part (run.on tree') refer')
  | .reference pointer, hT => .reference (hT pointer List.mem_cons_self)
  | .boolean allowed, _ => .boolean allowed
  | .schema s, hT => .inline hT (agree_answers hsame hr hS (agree_parts s hT) hT)

theorem agree_parts :
    (s : Schema) → (∀ reference ∈ s.references, T reference) →
      (s.parts run refer).Agree strict T S (s.parts (run.on tree') refer')
  | ⟨_, _, _, _, properties, _, additional, items, oneOf, anyOf, allOf, _, _, _, _, _, _, _⟩, hT =>
    by
      simp only [Schema.references, List.mem_append, or_imp, forall_and] at hT
      obtain ⟨⟨⟨⟨⟨hproperties, hadditional⟩, hitems⟩, honeOf⟩, hanyOf⟩, hallOf⟩ := hT
      exact
        { properties := agree_tableParts properties hproperties
          additional := agree_optionPart additional hadditional
          items := agree_optionPart items hitems
          oneOf := agree_listParts oneOf honeOf
          anyOf := agree_listParts anyOf hanyOf
          allOf := agree_listParts allOf hallOf }

private theorem agree_tableParts :
    (table : List (String × SchemaNode)) →
      (∀ reference ∈ SchemaNode.tableReferences table, T reference) →
      List.Forall₂ (fun e e' => e.1 = e'.1 ∧ Part.Agree strict T S e.2 e'.2)
        (SchemaNode.tableParts run refer table) (SchemaNode.tableParts (run.on tree') refer' table)
  | [], _ => .nil
  | (_, node) :: rest, hT =>
    .cons ⟨rfl, agree_part node fun r hmem => hT r (List.mem_append_left _ hmem)⟩
      (agree_tableParts rest fun r hmem => hT r (List.mem_append_right _ hmem))

private theorem agree_listParts :
    (nodes : List SchemaNode) → (∀ reference ∈ SchemaNode.listReferences nodes, T reference) →
      List.Forall₂ (Part.Agree strict T S) (SchemaNode.listParts run refer nodes)
        (SchemaNode.listParts (run.on tree') refer' nodes)
  | [], _ => .nil
  | node :: rest, hT =>
    .cons (agree_part node fun r hmem => hT r (List.mem_append_left _ hmem))
      (agree_listParts rest fun r hmem => hT r (List.mem_append_right _ hmem))

private theorem agree_optionPart :
    (node : Option SchemaNode) → (∀ reference ∈ SchemaNode.optionReferences node, T reference) →
      Option.Rel (Part.Agree strict T S) (SchemaNode.optionPart run refer node)
        (SchemaNode.optionPart (run.on tree') refer' node)
  | none, _ => .none
  | some node, hT => .some (agree_part node hT)

end

/-! ### References -/

section References

variable {S₀ S' : Progress → Prop} {reference from_ : String}
  (hbegun : ∀ p registry name, S₀ p ∧ p.name? reference = none →
    S (p.begun registry reference name))
  (hnamed : ∀ p, S₀ p → S' p) (hS' : ∀ p, S p → S' p)
  (hreference : run.SameAt strict T tree' reference)
include hbegun hnamed hS' hreference

/-- What a reference finds is declared in the same way if it is followed in the same way. -/
theorem agree_declareFound {node : SchemaNode} (hnode : ∀ r ∈ node.references, T r)
    (raw : String) :
    Agree strict (fun p => S₀ p ∧ p.name? reference = none) S'
      (declareFound run refer reference raw node)
      (declareFound (run.on tree') refer' reference raw node) := by
  cases node with
  | reference target =>
    refine (agree_declareAlias hS hbegun ?_ raw).weaken hS'
    refine Agree.ofExcept_bind (hreference.resolve reference) fun s _ => ?_
    split
    · exact .pure _
    · exact hr target (hnode target List.mem_cons_self) reference
  | boolean allowed => exact (agree_declareAlias hS hbegun (.pure _) raw).weaken hS'
  | schema s =>
    exact agree_declareSchema hsame hr hS (fun p registry name hp => hbegun p registry name hp.1)
      (fun p hp => hnamed p hp.1) hS' (agree_parts hsame hr hS s hnode) s raw

/-- The naming of a target, which is followed only if it has no name yet. -/
theorem agree_ensureNamedWith :
    Agree strict S₀ S' (ensureNamedWith run refer reference from_)
      (ensureNamedWith (run.on tree') refer' reference from_) := by
  rw [ensureNamedWith_eq, ensureNamedWith_eq]
  refine Agree.ofExcept_bind .rfl fun pointer hpointer => ?_
  obtain rfl := DocumentTree.canonicalize_eq hpointer
  refine agree_named hnamed (Agree.ofExcept_bind (hreference.origin from_) fun node hnode => ?_)
  exact agree_declareFound hsame hr hS hbegun hnamed hS' hreference (hreference.follows hnode) _

/-- Uses of a reference agree if the uses of the references in its target agree, from the states in
which the target has a name. -/
theorem agree_referenceWith :
    Agree strict S₀ S' (referenceWith run refer reference from_)
      (referenceWith (run.on tree') refer' reference from_) := by
  refine Agree.ofExcept_bind .rfl fun pointer hpointer => ?_
  obtain rfl := DocumentTree.canonicalize_eq hpointer
  rw [show (run.on tree').excludes pointer = run.excludes pointer from rfl]
  split
  · exact (Agree.pure _).weaken hnamed
  · refine (agree_ensureNamedWith hsame hr hS hbegun hnamed hS' hreference).bind fun name => ?_
    exact Agree.ofExcept_bind hreference.null fun null _ => .pure _

end References

end Trees

end Gen

end OpenApiTs
