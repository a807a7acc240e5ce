import OpenApiTs.Proofs.Termination
import OpenApiTs.Proofs.Written

/-!
# Trees that are alike where references lead

What a run finds for a reference depends on the document tree only at the target, and from there at
the targets of the references in it. What an object holds under the keys for paths and components is
of no interest there, since no field of a schema, a parameter, a body or a response has such a key.
So two trees that have the same at these targets, up to these keys, have the same for all references
that lead from one to the other, and the same becomes of them in a run.

## Main definitions

* `Json.bare`: an object without what it holds under these keys.
* `Json.Alike`, `Json.AlikeBehind`: two trees have the same at a pointer, and two values behind
  names.
* `DocumentTree.Matches`: two trees have the same at the targets of a closed set of references.

## Main results

* `Json.AlikeBehind.put`: objects that differ under one of these keys.
* `Record.decode_bare`, `SchemaNode.decode_bare`: these keys are passed over.
* `DocumentTree.Matches.sameFor`: what a run finds on trees that match.
* `Gen.agree_refer`, `Gen.agree_ensureNamed`, `Gen.agree_components`: runs on trees that match.
-/

namespace OpenApiTs

open Relation (TransGen)

/-! ### Values up to paths and components -/

namespace Json

/-- Whether a document holds its paths or its component schemas under a key. -/
def isContainer (key : String) : Bool := ["paths", "components", "schemas"].contains key

/-- A value without what it holds under these keys. -/
def bare : Json → Json
  | .object members => .object (members.filter fun m => !isContainer m.1)
  | value => value

theorem member?_bare {key : String} (hkey : isContainer key = false) (value : Json) :
    value.bare.member? key = value.member? key := by
  cases value with
  | object members =>
    exact Entries.get?_filter (fun k => !isContainer k) (by rw [hkey]; rfl) members
  | null | bool _ | number _ | string _ | array _ => rfl

theorem bool?_bare (value : Json) : value.bare.bool? = value.bool? := by cases value <;> rfl

/-- Two trees have the same at a pointer, up to paths and components. Unless they are compared
strictly, the first can also have nothing there. -/
def Alike (strict : Prop) (root root' : Json) (pointer : String) : Prop :=
  (Pointer.lookup? root pointer).map bare = (Pointer.lookup? root' pointer).map bare ∨
    ¬strict ∧ Pointer.lookup? root pointer = none

/-! Two objects that differ under one of these keys have the same behind all names but this key, and
behind the key what the values there have. -/

section Put

variable {strict : Prop} {key : String} {members : List (String × Json)} {value : Json}

theorem bare_put (hkey : isContainer key = true) (value : Json) (members : List (String × Json)) :
    (object (Entries.put key value members)).bare = (object members).bare :=
  congrArg object (Entries.filter_put (fun k => !isContainer k) (by rw [hkey]; rfl) value
    members)

/-- Two values have the same behind names, as trees have at a pointer. -/
def AlikeBehind (strict : Prop) (value value' : Json) (names : List String) : Prop :=
  (names.foldlM Pointer.step? value).map bare = (names.foldlM Pointer.step? value').map bare ∨
    ¬strict ∧ names.foldlM Pointer.step? value = none

theorem AlikeBehind.put (hkey : isContainer key = true)
    (hpresent : strict → (Entries.get? key members).isSome) {names : List String}
    (h : ∀ {rest old}, names = key :: rest → Entries.get? key members = some old →
      AlikeBehind strict old value rest) :
    AlikeBehind strict (object members) (object (Entries.put key value members)) names := by
  cases names with
  | nil => exact .inl (congrArg some (bare_put hkey value members).symm)
  | cons name rest =>
    have hput : Pointer.step? (object (Entries.put key value members)) name =
        if key = name then some value else Entries.get? name members :=
      Entries.get?_put key value members name
    rw [AlikeBehind, List.foldlM_cons, List.foldlM_cons, hput]
    split
    · next heq =>
      subst heq
      cases hold : Entries.get? key members with
      | none =>
        have hlenient : ¬strict := fun hstrict => by simpa [hold] using hpresent hstrict
        exact .inr ⟨hlenient, by rw [Pointer.step?, hold]; rfl⟩
      | some old =>
        rw [Pointer.step?, hold]
        exact h rfl hold
    · exact .inl rfl

end Put

end Json

/-- Paths and components are passed over where a part is read. -/
theorem Record.decode_bare {α : Type} {r : Record Json α}
    (hr : ∀ f ∈ r.fields, Json.isContainer f.key = false) (value : Json) :
    r.decode .json value.bare = r.decode .json value := by
  cases value with
  | object members =>
    exact ofMembers_filter (fun key => !Json.isContainer key)
      (fun f hf => by rw [hr f hf]; rfl) members
  | null | bool _ | number _ | string _ | array _ => rfl

/-- Paths and components are passed over where a schema is read. -/
theorem SchemaNode.decode_bare (value : Json) :
    SchemaNode.decode value.bare = SchemaNode.decode value := by
  cases value with
  | object members =>
    have hget : Entries.get? "$ref" (members.filter fun m => !Json.isContainer m.1) =
        Entries.get? "$ref" members :=
      Entries.get?_filter (fun key => !Json.isContainer key) (by decide) members
    have hreadings : Schema.record.ofMembers
        (Schema.memberReadings (members.filter fun m => !Json.isContainer m.1)) =
          Schema.record.ofMembers (Schema.memberReadings members) := by
      have hfields : ∀ f ∈ Schema.record.fields, (!Json.isContainer f.key) = true := by decide
      rw [Schema.memberReadings_eq, Schema.memberReadings_eq,
        ← Record.ofMembers_filter (fun key => !Json.isContainer key) hfields
          (members.map fun m => (m.1, Schema.readings m.2)), List.filter_map]
      rfl
    rw [Json.bare, SchemaNode.decode_object, SchemaNode.decode_object, hget, hreadings]
  | null | bool _ | number _ | string _ | array _ => rfl

/-! ### Trees that match -/

/-- Two trees have the same at the targets of the references with `T`, and the references in the
nodes there are among them. -/
structure DocumentTree.Matches (strict : Prop) (T : String → Prop) (tree tree' : DocumentTree) :
    Prop where
  alike : ∀ {reference}, T reference → Pointer.canonicalize reference = .ok reference →
    Json.Alike strict tree.root tree'.root reference
  closed : ∀ {reference value node}, T reference → Pointer.canonicalize reference = .ok reference →
    Pointer.lookup? tree.root reference = some value → SchemaNode.decode value = .ok node →
    ∀ r ∈ node.references, T r

namespace DocumentTree

variable {strict : Prop} {T : String → Prop} {tree tree' : DocumentTree}
  {reference pointer place from_ P next : String}

/-- A look-up on both trees, and what is made of the values. -/
theorem same_lookup_bind {β : Type}
    (halike : Pointer.canonicalize reference = .ok reference →
      Json.Alike strict tree.root tree'.root reference) {f f' : Json → Except Failure β}
    (hf : ∀ value value', Pointer.lookup? tree.root reference = some value →
      value.bare = value'.bare → Same strict (f value) (f' value')) :
    Same strict (tree.lookup reference from_ >>= f) (tree'.lookup reference from_ >>= f') := by
  cases hcanonical : Pointer.canonicalize reference with
  | error fault =>
    unfold lookup canonicalize
    rw [hcanonical]
    exact .rfl
  | ok target =>
    obtain rfl := Pointer.canonicalize_eq hcanonical
    rw [lookup_eq hcanonical, lookup_eq hcanonical]
    rcases halike hcanonical with heq | ⟨hlenient, hnone⟩
    · cases hvalue : Pointer.lookup? tree.root target with
      | none =>
        rw [hvalue] at heq
        rw [Option.map_eq_none_iff.mp heq.symm]
        exact .rfl
      | some value =>
        rw [hvalue] at heq
        obtain ⟨value', hvalue', hbare⟩ := Option.map_eq_some_iff.mp heq.symm
        rw [hvalue']
        exact hf value value' hvalue hbare.symm
    · rw [hnone]
      exact fun hcompared => hcompared.elim (fun h => absurd h hlenient) fun ⟨_, hx⟩ => nomatch hx

/-- The part that a reference leads to is the same on both trees. -/
theorem same_part {α : Type} {r : Record Json α}
    (hr : ∀ f ∈ r.fields, Json.isContainer f.key = false)
    (halike : Pointer.canonicalize reference = .ok reference →
      Json.Alike strict tree.root tree'.root reference) :
    Same strict (tree.part (r.decode .json) reference from_)
      (tree'.part (r.decode .json) reference from_) := by
  refine same_lookup_bind halike fun value value' _ hbare => ?_
  rw [← Record.decode_bare hr value, hbare, Record.decode_bare hr value']
  exact .rfl

namespace Matches

variable (h : tree.Matches strict T tree')
include h

/-- What a tree has at the target of a reference, the other tree has up to paths and components, so
that it decodes to the same node. -/
theorem exists_value {value : Json} (hT : T reference)
    (hcanonical : Pointer.canonicalize reference = .ok reference)
    (hvalue : Pointer.lookup? tree.root reference = some value) :
    ∃ value', Pointer.lookup? tree'.root reference = some value' ∧
      SchemaNode.decode value' = SchemaNode.decode value := by
  rcases h.alike hT hcanonical with heq | ⟨-, hnone⟩
  · rw [hvalue] at heq
    obtain ⟨value', hvalue', hbare⟩ := Option.map_eq_some_iff.mp heq.symm
    refine ⟨value', hvalue', ?_⟩
    rw [← SchemaNode.decode_bare value', hbare, SchemaNode.decode_bare]
  · cases hvalue.symm.trans hnone

/-- Where trees are compared strictly, what one of them lacks the other lacks. -/
theorem lookup?_eq_none (hstrict : strict) (hT : T reference)
    (hcanonical : Pointer.canonicalize reference = .ok reference)
    (hvalue : Pointer.lookup? tree.root reference = none) :
    Pointer.lookup? tree'.root reference = none := by
  rcases h.alike hT hcanonical with heq | ⟨hlenient, -⟩
  · rw [hvalue] at heq
    exact Option.map_eq_none_iff.mp heq.symm
  · exact absurd hstrict hlenient

/-! ### Chains -/

theorem link (hT : T pointer) (hcanonical : Pointer.canonicalize pointer = .ok pointer)
    (hlink : tree.Link pointer next) : tree'.Link pointer next ∧ T next := by
  obtain ⟨value, target, hvalue, hdecode, hnext⟩ := hlink
  obtain ⟨value', hvalue', hdecode'⟩ := h.exists_value hT hcanonical hvalue
  obtain rfl := Pointer.canonicalize_eq hnext
  exact ⟨⟨value', _, hvalue', hdecode'.trans hdecode, hnext⟩,
    h.closed hT hcanonical hvalue hdecode _ List.mem_cons_self⟩

theorem passes (hT : T reference) (hpasses : tree.Passes reference from_ pointer place) :
    tree'.Passes reference from_ pointer place ∧ T pointer := by
  induction hpasses with
  | first hfirst =>
    obtain rfl := Pointer.canonicalize_eq hfirst
    exact ⟨.first hfirst, hT⟩
  | next hpasses hlink ih =>
    obtain ⟨hpasses', hpointer⟩ := ih
    obtain ⟨hlink', hnext⟩ := h.link hpointer hpasses.canonical hlink
    exact ⟨.next hpasses' hlink', hnext⟩

theorem links (hT : T pointer) (hcanonical : Pointer.canonicalize pointer = .ok pointer)
    (hlinks : TransGen tree.Link pointer P) : TransGen tree'.Link pointer P := by
  have hboth : TransGen tree'.Link pointer P ∧ T P ∧ Pointer.canonicalize P = .ok P := by
    induction hlinks with
    | single hlink =>
      obtain ⟨hlink', hP⟩ := h.link hT hcanonical hlink
      exact ⟨.single hlink', hP, hlink.canonical⟩
    | tail _ hlink ih =>
      obtain ⟨hlinks', hQ, hQcanonical⟩ := ih
      obtain ⟨hlink', hP⟩ := h.link hQ hQcanonical hlink
      exact ⟨hlinks'.tail hlink', hP, hlink.canonical⟩
  exact hboth.1

/-- A chain stops in the same way on the other tree, unless it breaks at a pointer with nothing
there. -/
theorem stops (hT : T pointer) (hcanonical : Pointer.canonicalize pointer = .ok pointer)
    {result : Except Failure Schema} (hcompared : strict ∨ ∃ s, result = .ok s)
    (hstops : tree.Stops pointer place result) : tree'.Stops pointer place result := by
  cases hstops with
  | missing hvalue =>
    exact hcompared.elim (fun hstrict => .missing (h.lookup?_eq_none hstrict hT hcanonical hvalue))
      fun ⟨_, hs⟩ => nomatch hs
  | schema hvalue hnode =>
    obtain ⟨value', hvalue', hdecode⟩ := h.exists_value hT hcanonical hvalue
    exact .schema hvalue' (hdecode.trans hnode)
  | boolean hvalue hnode =>
    obtain ⟨value', hvalue', hdecode⟩ := h.exists_value hT hcanonical hvalue
    exact .boolean hvalue' (hdecode.trans hnode)
  | undecodable hvalue hnode =>
    obtain ⟨value', hvalue', hdecode⟩ := h.exists_value hT hcanonical hvalue
    exact .undecodable hvalue' (hdecode.trans hnode)
  | malformed hvalue hnode hfault =>
    obtain ⟨value', hvalue', hdecode⟩ := h.exists_value hT hcanonical hvalue
    exact .malformed hvalue' (hdecode.trans hnode) hfault

/-- A reference stands for the same on the other tree. -/
theorem resolves (hT : T reference) {result : Except Failure Schema}
    (hcompared : strict ∨ ∃ s, result = .ok s) (hresolves : tree.Resolves reference from_ result) :
    tree'.Resolves reference from_ result := by
  cases hresolves with
  | malformed hfault => exact .malformed hfault
  | stopped hpasses hstops =>
    obtain ⟨hpasses', hpointer⟩ := h.passes hT hpasses
    exact .stopped hpasses' (h.stops hpointer hpasses.canonical hcompared hstops)
  | repeated hpasses hcycle =>
    obtain ⟨hpasses', hpointer⟩ := h.passes hT hpasses
    exact .repeated hpasses' (h.links hpointer hpasses.canonical hcycle)

theorem same_resolve (hT : T reference) :
    Same strict (tree.resolve reference from_) (tree'.resolve reference from_) := fun hcompared =>
  (h.resolves hT hcompared (tree.resolves_resolve reference from_)).unique
    (tree'.resolves_resolve reference from_)

/-- The references in what a reference stands for are among those that are followed. -/
theorem references_of_resolve {s : Schema} (hT : T reference)
    (hs : tree.resolve reference from_ = .ok s) : ∀ r ∈ s.references, T r := by
  have hresolves := hs ▸ tree.resolves_resolve reference from_
  generalize hresult : Except.ok s = result at hresolves
  cases hresolves with
  | malformed => cases hresult
  | stopped hpasses hstops =>
    obtain ⟨-, hpointer⟩ := h.passes hT hpasses
    cases hstops with
    | schema hvalue hnode =>
      cases hresult
      exact h.closed hpointer hpasses.canonical hvalue hnode
    | boolean =>
      cases hresult
      exact nofun
    | missing | undecodable | malformed => cases hresult
  | repeated =>
    cases hresult
    exact nofun

end Matches

end DocumentTree

/-! ### What a run finds -/

namespace Setting

variable {strict : Prop} {T : String → Prop} {run : Setting} {tree' : DocumentTree}
  {reference : String}

/-- The references in an intersection are examined with the same results if bases are. -/
theorem same_entriesExtendable {examine examine' : Examination} {location : String}
    (hexamine : ∀ base seen, T base → Same strict (examine base seen) (examine' base seen)) :
    (nodes : List SchemaNode) → (∀ r ∈ SchemaNode.listReferences nodes, T r) → {i : Nat} →
      {seen : List String} →
      Same strict (entriesExtendable examine location i nodes seen)
        (entriesExtendable examine' location i nodes seen)
  | [], _, _, _ => .rfl
  | .reference pointer :: rest, hT, i, seen => by
      refine Same.bind .rfl fun base hbase => ?_
      obtain rfl := DocumentTree.canonicalize_eq hbase
      refine (hexamine base seen (hT base List.mem_cons_self)).bind fun result _ => ?_
      dsimp only
      split
      · exact same_entriesExtendable hexamine rest fun r hr => hT r (List.mem_cons_of_mem _ hr)
      · exact .rfl
  | .schema part :: rest, hT, i, seen => by
      rw [entriesExtendable, entriesExtendable]
      split
      · exact same_entriesExtendable hexamine rest fun r hr => hT r (List.mem_append_right _ hr)
      · exact .rfl
  | .boolean allowed :: rest, hT, i, seen => by
      rw [entriesExtendable, entriesExtendable]
      split
      · exact same_entriesExtendable hexamine rest fun r hr => hT r (List.mem_append_right _ hr)
      · exact .rfl

section Matches

variable (h : run.tree.Matches strict T tree')
include h

theorem same_examine :
    (bound : Nat) → (pointer : String) → (seen : List String) → T pointer →
      Same strict (run.examine bound pointer seen) ((run.on tree').examine bound pointer seen)
  | 0, _, _, _ => .rfl
  | bound + 1, pointer, seen, hT => by
      rw [examine, examine, show (run.on tree').excludes pointer = run.excludes pointer from rfl]
      split
      · exact .rfl
      · split
        · exact .rfl
        · refine (h.same_resolve hT).bind fun s hs => ?_
          split
          · exact .rfl
          · split
            · exact .rfl
            · refine same_entriesExtendable (same_examine bound) _
                fun r hr => h.references_of_resolve hT hs r ?_
              exact (Schema.references_subset_iff.mp (List.Subset.refl _)).2.2.2.2.2 hr
            · exact .rfl

/-- Whether a target is a base is the same: the larger of the bounds of both trees would do for
each. -/
theorem same_isExtendable (hT : T reference) :
    Same strict (run.isExtendable reference) ((run.on tree').isExtendable reference) := by
  have hexamine := same_examine h (max run.tree.bound tree'.bound) reference [] hT
  rw [← examine_eq (Nat.le_max_left _ _), ← examine_eq (Nat.le_max_right _ _)] at hexamine
  exact hexamine.bind fun result _ => .rfl

theorem same_origin (hT : T reference) (from_ : String) :
    Same strict (run.origin reference from_) ((run.on tree').origin reference from_) := by
  refine DocumentTree.same_lookup_bind (h.alike hT) fun value value' _ hbare => ?_
  have hmember : value'.member? "$ref" = value.member? "$ref" := by
    rw [← Json.member?_bare rfl value', ← hbare, Json.member?_bare rfl]
  have hbool : value'.bool? = value.bool? := by
    rw [← Json.bool?_bare value', ← hbare, Json.bool?_bare]
  rw [hmember, hbool]
  split
  · exact .rfl
  · exact .rfl
  · exact (h.same_resolve hT).bind fun s _ => .rfl

theorem same_needsNullAtUse (hT : T reference) :
    Same strict (Gen.needsNullAtUse run reference)
      (Gen.needsNullAtUse (run.on tree') reference) := by
  refine DocumentTree.same_lookup_bind (h.alike hT) fun value value' _ hbare => ?_
  have hmember : value'.member? "$ref" = value.member? "$ref" := by
    rw [← Json.member?_bare rfl value', ← hbare, Json.member?_bare rfl]
  rw [hmember]
  split
  · exact .rfl
  · exact (h.same_resolve hT).bind fun s _ => .rfl

/-- What a run finds at a target refers only to what is followed. -/
theorem references_of_origin {from_ : String} {node : SchemaNode} (hT : T reference)
    (hnode : run.origin reference from_ = .ok node) : ∀ r ∈ node.references, T r := by
  obtain ⟨value, hlookup, hfound⟩ := bind_eq_ok_iff.mp hnode
  obtain ⟨hcanonical, hvalue⟩ := DocumentTree.lookup?_of_lookup hlookup
  split at hfound
  · next hmember =>
    cases hfound
    exact h.closed hT hcanonical hvalue (DocumentTree.decode_of_member? hmember)
  · cases hfound
    exact nofun
  · obtain ⟨s, hs, hfound⟩ := bind_eq_ok_iff.mp hfound
    cases hfound
    exact h.references_of_resolve hT hs

end Matches

end Setting

/-- On trees that match, a run finds the same for all references that are followed. -/
theorem DocumentTree.Matches.sameFor {strict : Prop} {T : String → Prop} {run : Setting}
    {tree' : DocumentTree} (h : run.tree.Matches strict T tree') :
    run.SameFor strict T tree' := fun _ hT =>
  { origin := Setting.same_origin h hT
    resolve := fun _ => h.same_resolve hT
    null := Setting.same_needsNullAtUse h hT
    extendable := Setting.same_isExtendable h hT
    follows := Setting.references_of_origin h hT }

/-! ### Runs on trees that match -/

namespace Gen

variable {strict : Prop} {T : String → Prop} {run : Setting} {tree' : DocumentTree}
  {reference from_ : String}

/-- References are used in the same way: the larger of the bounds of both trees would do for
each. -/
theorem agree_refer (hsame : run.SameFor strict T tree') :
    (refer run).Agree strict T (fun _ => True) (refer (run.on tree')) := by
  have hlasting : Progress.Lasting fun _ => True := fun _ _ _ _ => trivial
  have hreferAt : ∀ bound, (referAt run bound).Agree strict T (fun _ => True)
      (referAt (run.on tree') bound) := by
    intro bound
    induction bound with
    | zero => exact fun _ _ _ => .pure _
    | succ bound ih =>
      exact fun reference hT _ => agree_referenceWith hsame ih hlasting (fun _ _ _ _ => trivial)
        (fun _ => id) (fun _ => id) (hsame reference hT)
  rw [refer_eq_referAt (Nat.le_max_left run.tree.bound tree'.bound),
    refer_eq_referAt (show (run.on tree').tree.bound ≤ _ from Nat.le_max_right _ _)]
  exact hreferAt _

theorem agree_ensureNamed (hsame : run.SameFor strict T tree') (hT : T reference) :
    Agree strict (fun _ => True) (fun _ => True) (ensureNamed run reference from_)
      (ensureNamed (run.on tree') reference from_) :=
  agree_ensureNamedWith hsame (agree_refer hsame) (fun _ _ _ _ => trivial) (fun _ _ _ _ => trivial)
    (fun _ => id) (fun _ => id) (hsame reference hT)

/-- Component schemas are declared in the same way. -/
theorem agree_components (hsame : run.SameFor strict T tree') :
    (schemas : List (String × SchemaNode)) →
      (∀ e ∈ schemas, T (Pointer.child Setting.componentSchemas e.1)) →
      Agree strict (fun _ => True) (fun _ => True) (components run schemas)
        (components (run.on tree') schemas)
  | [], _ => .pure ()
  | (name, _) :: rest, hT => by
      have hrest := agree_components hsame rest fun e he => hT e (List.mem_cons_of_mem _ he)
      rw [components, components]
      split
      · exact (agree_ensureNamed hsame (hT _ List.mem_cons_self)).bind fun _ => hrest
      · exact hrest

end Gen

end OpenApiTs
