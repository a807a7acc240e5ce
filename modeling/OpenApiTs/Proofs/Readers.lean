import OpenApiTs.Document.Load
import OpenApiTs.Proofs.Decoding

/-!
# Readers give objects with distinct keys

A repeated key in a text keeps its first place and takes its last value, so no object in a value
that was read has a key twice, whether the text was JSON or YAML.

## Main definitions

* `Yaml.Expansion.Gives`: what every value that an expansion gives is like.

## Main results

* `Json.distinctKeys_of_read?`, `Yaml.distinctKeys_of_read?`: the values of texts.
* `Document.exists_tree_of_ofJsonText`, `Document.exists_tree_of_ofYamlText`: the trees of
  documents.
-/

namespace OpenApiTs

namespace Json

theorem distinctKeysElements_iff {elements : List Json} :
    distinctKeysElements elements = true ↔ ∀ x ∈ elements, x.distinctKeys = true := by
  induction elements with
  | nil => exact iff_of_true rfl (List.forall_mem_nil _)
  | cons x rest ih => rw [distinctKeysElements, Bool.and_eq_true, ih, List.forall_mem_cons]

theorem distinctKeysMembers_iff {members : List (String × Json)} :
    distinctKeysMembers members = true ↔ ∀ m ∈ members, m.2.distinctKeys = true := by
  induction members with
  | nil => exact iff_of_true rfl (List.forall_mem_nil _)
  | cons m rest ih => rw [distinctKeysMembers, Bool.and_eq_true, ih, List.forall_mem_cons]

theorem distinctKeys_object_iff {members : List (String × Json)} :
    (Json.object members).distinctKeys = true ↔
      (Entries.keys members).Nodup ∧ ∀ m ∈ members, m.2.distinctKeys = true := by
  rw [distinctKeys, Bool.and_eq_true, decide_eq_true_iff, distinctKeysMembers_iff]

/-- The object of members, of which the last one with a key counts. -/
theorem distinctKeys_collected {members : List (String × Json)}
    (h : ∀ m ∈ members, m.2.distinctKeys = true) :
    (Json.object (members.foldl (fun all (key, x) => Entries.put key x all) [])).distinctKeys =
      true := by
  have key : ∀ (rest : List (String × Json)) {all : List (String × Json)}, rest ⊆ members →
      (Json.object all).distinctKeys = true →
      (Json.object (rest.foldl (fun all (key, x) => Entries.put key x all) all)).distinctKeys =
        true := by
    intro rest
    induction rest with
    | nil => exact fun _ hall => hall
    | cons m rest ih =>
      obtain ⟨k, x⟩ := m
      intro all hsub hall
      obtain ⟨hmem, hsub⟩ := List.cons_subset.mp hsub
      obtain ⟨hnodup, hvalues⟩ := distinctKeys_object_iff.mp hall
      refine ih hsub (distinctKeys_object_iff.mpr ⟨?_, fun e he => ?_⟩)
      · rw [Entries.keys_put]
        split
        · exact hnodup
        · next hnew =>
          exact List.nodup_append.mpr ⟨hnodup, List.nodup_singleton k, fun a ha b hb =>
            fun hab => hnew (List.mem_singleton.mp hb ▸ hab ▸ ha)⟩
      · rcases Entries.mem_put he with rfl | he
        · exact h _ hmem
        · exact hvalues e he
  exact key members (List.Subset.refl _) rfl

namespace Reader

theorem forall_mem_of_items? {α : Type} {closing : Char}
    {item? : List Char → Option (α × List Char)} {P : α → Prop}
    (hitem : ∀ cs x rest, item? cs = some (x, rest) → P x) :
    (count : Nat) → {cs : List Char} → {xs : List α} → {rest : List Char} →
      items? closing item? count cs = some (xs, rest) → ∀ x ∈ xs, P x
  | 0, _, _, _, h => nomatch h
  | count + 1, cs, xs, rest, h => by
      obtain ⟨⟨x, cs'⟩, hx, h⟩ := Option.bind_eq_some_iff.mp h
      have hfirst := hitem _ _ _ hx
      dsimp only at h
      split at h
      · split at h
        · obtain ⟨⟨others, rest'⟩, hothers, h⟩ := Option.bind_eq_some_iff.mp h
          cases h
          exact List.forall_mem_cons.mpr ⟨hfirst, forall_mem_of_items? hitem count hothers⟩
        · split at h
          · cases h
            exact List.forall_mem_singleton.mpr hfirst
          · cases h
      · cases h

theorem of_member? {value? : List Char → Option (Json × List Char)} {P : Json → Prop}
    (hvalue : ∀ cs x rest, value? cs = some (x, rest) → P x) (cs : List Char)
    (m : String × Json) (rest : List Char) (h : member? value? cs = some (m, rest)) : P m.2 := by
  unfold member? at h
  split at h
  · obtain ⟨⟨key, cs'⟩, -, h⟩ := Option.bind_eq_some_iff.mp h
    dsimp only at h
    split at h
    · obtain ⟨⟨x, rest'⟩, hx, h⟩ := Option.bind_eq_some_iff.mp h
      cases h
      exact hvalue _ _ _ hx
    · cases h
  · cases h

theorem distinctKeys_of_value? :
    (depth : Nat) → (cs : List Char) → (x : Json) → (rest : List Char) →
      value? depth cs = some (x, rest) → x.distinctKeys = true
  | depth, cs, x, rest, h => by
      unfold value? at h
      split at h
      · obtain ⟨⟨s, cs'⟩, -, h⟩ := Option.bind_eq_some_iff.mp h
        cases h
        rfl
      · cases h
      · cases h
      · next depth cs =>
        split at h
        · cases h
          rfl
        · obtain ⟨⟨xs, cs'⟩, hxs, h⟩ := Option.map_eq_some_iff.mp h
          cases h
          exact distinctKeysElements_iff.mpr
            (forall_mem_of_items? (distinctKeys_of_value? depth) _ hxs)
      · next depth cs =>
        split at h
        · cases h
          rfl
        · obtain ⟨⟨members, cs'⟩, hmembers, h⟩ := Option.map_eq_some_iff.mp h
          cases h
          exact distinctKeys_collected
            (forall_mem_of_items? (of_member? (distinctKeys_of_value? depth)) _ hmembers)
      · cases h
        rfl
      · cases h
        rfl
      · cases h
        rfl
      · obtain ⟨⟨n, cs'⟩, -, h⟩ := Option.map_eq_some_iff.mp h
        cases h
        rfl

end Reader

theorem distinctKeys_of_read? {depth : Nat} {text : String} {x : Json}
    (h : read? depth text = some x) : x.distinctKeys = true := by
  unfold read? at h
  split at h
  · next hx =>
    split at h
    · cases h
      exact Reader.distinctKeys_of_value? depth _ _ _ hx
    · cases h
  · cases h

end Json

namespace Yaml

/-! ### Scalars -/

theorem distinctKeys_of_float? {text : String} {x : Json} (h : float? text = some x) :
    x.distinctKeys = true := by
  unfold float? at h
  split at h
  · cases h
    rfl
  · obtain ⟨_, -, rfl⟩ := Option.map_eq_some_iff.mp h
    rfl

theorem distinctKeys_of_integerValue? {n : Int} {x : Json} (h : integerValue? n = some x) :
    x.distinctKeys = true := by
  unfold integerValue? at h
  split at h <;> cases h
  rfl

theorem distinctKeys_floatOrText (text : String) : (floatOrText text).distinctKeys = true := by
  unfold floatOrText
  split
  · rfl
  · cases h : float? text with
    | none => rfl
    | some x => exact distinctKeys_of_float? h

theorem distinctKeys_of_scalarValue? {tag : Option Address} {text : String} {plain : Bool}
    {x : Json} (h : scalarValue? tag text plain = some x) : x.distinctKeys = true := by
  have huntagged : ∀ {x}, untagged? text plain = some x → x.distinctKeys = true := by
    intro x h
    unfold untagged? at h
    split at h
    · unfold resolve? at h
      split at h
      · cases h
        rfl
      · split at h
        · cases h
          rfl
        · split at h
          · split at h
            · exact distinctKeys_of_integerValue? h
            · cases h
              exact distinctKeys_floatOrText text
          · cases h
            exact distinctKeys_floatOrText text
    · cases h
      rfl
  unfold scalarValue? at h
  split at h
  · split at h
    · exact huntagged h
    · unfold coreValue? at h
      split at h
      · obtain ⟨_, -, rfl⟩ := Option.map_eq_some_iff.mp h
        rfl
      · split at h
        · obtain ⟨_, -, h⟩ := Option.bind_eq_some_iff.mp h
          exact distinctKeys_of_integerValue? h
        · split at h
          · exact distinctKeys_of_float? h
          · split at h
            · split at h <;> cases h
              rfl
            · cases h
              rfl
  · exact huntagged h

/-! ### Collections -/

theorem distinctKeys_wrap {tag : Option Address} {x : Json} (h : x.distinctKeys = true) :
    (wrap tag x).distinctKeys = true := by
  unfold wrap
  split
  · exact Json.distinctKeys_object_iff.mpr
      ⟨List.nodup_singleton _, List.forall_mem_singleton.mpr h⟩
  · exact h

private theorem distinctKeys_of_mapM_keyText? {pairs : List (Json × Json)}
    {members : List (String × Json)} (hpairs : ∀ e ∈ pairs, e.2.distinctKeys = true)
    (h : (pairs.mapM fun (key, x) => return (← keyText? key, x)) = some members) :
    ∀ m ∈ members, m.2.distinctKeys = true := by
  induction pairs generalizing members with
  | nil =>
    cases h
    exact List.forall_mem_nil _
  | cons e rest ih =>
    obtain ⟨he, hrest⟩ := List.forall_mem_cons.mp hpairs
    rw [List.mapM_cons] at h
    obtain ⟨m, hm, h⟩ := Option.bind_eq_some_iff.mp h
    obtain ⟨members', hmembers, h⟩ := Option.bind_eq_some_iff.mp h
    obtain ⟨text, -, hm⟩ := Option.bind_eq_some_iff.mp hm
    cases hm
    cases h
    exact List.forall_mem_cons.mpr ⟨he, ih hrest hmembers⟩

theorem distinctKeys_of_objectOf? {pairs : List (Json × Json)} {x : Json}
    (hpairs : ∀ e ∈ pairs, e.2.distinctKeys = true) (h : objectOf? pairs = some x) :
    x.distinctKeys = true := by
  unfold objectOf? at h
  split at h
  · cases h
  · obtain ⟨members, hmembers, h⟩ := Option.bind_eq_some_iff.mp h
    cases h
    exact Json.distinctKeys_collected (distinctKeys_of_mapM_keyText? hpairs hmembers)

/-! ### Nodes -/

/-- Whatever an expansion gives has a property. -/
def Expansion.Gives {α : Type} (m : Expansion α) (P : α → Prop) : Prop :=
  ∀ followed x followed', m followed = some (x, followed') → P x

namespace Expansion.Gives

variable {α β : Type} {P : α → Prop} {Q : β → Prop}

theorem pure {x : α} (h : P x) : Gives (Pure.pure x : Expansion α) P := by
  intro n y n' hy
  cases hy
  exact h

theorem bind {m : Expansion α} {f : α → Expansion β} (hm : Gives m P)
    (hf : ∀ x, P x → Gives (f x) Q) : Gives (m >>= f) Q := by
  intro n y n' h
  obtain ⟨⟨x, n''⟩, hx, h⟩ := Option.bind_eq_some_iff.mp h
  exact hf x (hm n x n'' hx) n'' y n' h

theorem bind_any {m : Expansion α} {f : α → Expansion β} (hf : ∀ x, Gives (f x) Q) :
    Gives (m >>= f) Q :=
  bind (P := fun _ => True) (fun _ _ _ _ => trivial) fun x _ => hf x

theorem lift {o : Option α} (h : ∀ x, o = some x → P x) : Gives (o : Expansion α) P := by
  intro n y n' hy
  obtain ⟨x, hx, hy⟩ := Option.bind_eq_some_iff.mp hy
  cases hy
  exact h y hx

theorem mapM {f : α → Expansion β} (hf : ∀ a, Gives (f a) Q) :
    (l : List α) → Gives (l.mapM f) fun ys => ∀ y ∈ ys, Q y
  | [] => by
      rw [List.mapM_nil]
      exact pure (List.forall_mem_nil _)
  | a :: l => by
      rw [List.mapM_cons]
      exact (hf a).bind fun y hy => (mapM hf l).bind fun ys hys =>
        pure (List.forall_mem_cons.mpr ⟨hy, hys⟩)

end Expansion.Gives

open Expansion (Gives)

theorem gives_contents {inner? : Option (Node Nat → Expansion Json)}
    (hinner : ∀ inner, inner? = some inner → ∀ node, Gives (inner node) (·.distinctKeys = true)) :
    (node : Node Nat) → Gives (contents inner? node) (·.distinctKeys = true)
  | .alias _ => fun _ _ _ h => nomatch h
  | .scalar _ tag text plain =>
    (Gives.lift fun _ hx => distinctKeys_of_scalarValue? hx).bind fun _ hx =>
      .pure (distinctKeys_wrap hx)
  | .sequence _ tag items =>
    (Gives.lift hinner).bind fun _ hinner => (Gives.mapM hinner items).bind fun _ hxs =>
      .pure (distinctKeys_wrap (Json.distinctKeysElements_iff.mpr hxs))
  | .mapping _ tag pairs => by
    refine (Gives.lift hinner).bind fun inner hinner => ?_
    have hpair : ∀ e : Node Nat × Node Nat,
        Gives (do return (← inner e.1, ← inner e.2)) fun e : Json × Json =>
          e.2.distinctKeys = true := fun e =>
      (hinner e.1).bind fun key _ => (hinner e.2).bind fun x hx => .pure hx
    exact (Gives.mapM hpair pairs).bind fun members hmembers =>
      (Gives.lift fun x hx => distinctKeys_of_objectOf? hmembers hx).bind fun x hx =>
        .pure (distinctKeys_wrap hx)

theorem gives_follow {anchors : Anchors} {read : Node Nat → Expansion Json}
    (hread : ∀ node, Gives (read node) (·.distinctKeys = true)) :
    (node : Node Nat) → Gives (anchors.follow read node) (·.distinctKeys = true)
  | .alias number => by
    refine .bind_any fun followed => ?_
    have hfound : Gives (do
        set (followed + 1)
        let node ← (anchors.nodes.lookup number : Option (Node Nat))
        read node) (·.distinctKeys = true) := .bind_any fun _ => .bind_any hread
    dsimp only
    split
    · exact .bind_any fun _ => hfound
    · exact hfound
  | .scalar _ _ _ _ | .sequence _ _ _ | .mapping _ _ _ => hread _

theorem gives_expand (anchors : Anchors) :
    (depth : Nat) → (node : Node Nat) →
      Gives (anchors.expand depth node) (·.distinctKeys = true)
  | 0, node => gives_follow (gives_contents fun _ h => by cases h) node
  | depth + 1, node => gives_follow (gives_contents fun _ h => by
      cases h
      exact gives_expand anchors depth) node

theorem distinctKeys_of_read? {text : String} {x : Json} (h : read? text = some x) :
    x.distinctKeys = true := by
  obtain ⟨_, -, h⟩ := Option.bind_eq_some_iff.mp h
  obtain ⟨_, -, h⟩ := Option.bind_eq_some_iff.mp h
  obtain ⟨root, -, h⟩ := Option.bind_eq_some_iff.mp h
  split at h
  · obtain ⟨⟨node, _⟩, -, h⟩ := Option.bind_eq_some_iff.mp h
    obtain ⟨⟨x', _⟩, hx, h⟩ := Option.bind_eq_some_iff.mp h
    cases h
    exact gives_expand _ _ _ _ _ _ hx
  · cases h
    rfl

end Yaml

namespace Document

variable {text : String} {d : Document}

/-- A document from a JSON text comes from a tree with distinct keys. -/
theorem exists_tree_of_ofJsonText (h : ofJsonText text = .ok d) :
    ∃ tree, tree.distinctKeys = true ∧ ofTree tree = .ok d := by
  unfold ofJsonText at h
  split at h
  · next hread => exact ⟨_, Json.distinctKeys_of_read? hread, h⟩
  · cases h

/-- A document from a YAML text comes from a tree with distinct keys. -/
theorem exists_tree_of_ofYamlText (h : ofYamlText text = .ok d) :
    ∃ tree, tree.distinctKeys = true ∧ ofTree tree = .ok d := by
  unfold ofYamlText at h
  split at h
  · next hread => exact ⟨_, Yaml.distinctKeys_of_read? hread, h⟩
  · cases h

end Document

end OpenApiTs
