import Mathlib.Data.List.Find
import OpenApiTs.Proofs.Pointers
import OpenApiTs.Proofs.Texts

/-!
# Where decoded values come from

In a value whose objects have no key twice, the field of a decoded record comes from the member with
its key, the entry of a table from the member with the entry's key, and the entry of a list from the
element at its position.

## Main definitions

* `Json.distinctKeys`: no object in a value has a key twice.
* `Record.HasField`: a field of a record with its key and its decoder.

## Main results

* `Json.distinctKeys_of_lookup?`: what a pointer leads to has no key twice.
* `Record.HasField.of_get?`, `Record.HasField.of_absent`: the member behind a field, or the default.
* `Record.HasField.of_element`, `Record.HasField.of_no_element`: the same for the elements of an
  array.
* `Record.ofMembers_filter`: members that name no field make no difference.
* `Record.ofMembers_put`: the record changes as the value under a key does.
* `exists_member_of_table`, `exists_element_of_list`: the values behind entries.
* `table_filter`: the entries that are kept are those of the members that are kept.
-/

namespace OpenApiTs

/-! ### Distinct keys -/

namespace Json

mutual

/-- No object in a value has a key twice. -/
def distinctKeys : Json → Bool
  | .array elements => distinctKeysElements elements
  | .object members => decide (Entries.keys members).Nodup && distinctKeysMembers members
  | _ => true

/-- No object in the elements of an array has a key twice. -/
def distinctKeysElements : List Json → Bool
  | [] => true
  | value :: rest => value.distinctKeys && distinctKeysElements rest

/-- No object in the members of an object has a key twice. -/
def distinctKeysMembers : List (String × Json) → Bool
  | [] => true
  | (_, value) :: rest => value.distinctKeys && distinctKeysMembers rest

end

theorem nodup_of_distinctKeys {members : List (String × Json)}
    (h : (Json.object members).distinctKeys = true) : (Entries.keys members).Nodup :=
  of_decide_eq_true (Bool.and_eq_true_iff.mp h).1

private theorem distinctKeys_of_mem_elements {value : Json} :
    {elements : List Json} → distinctKeysElements elements = true → value ∈ elements →
      value.distinctKeys = true
  | _ :: _, h, hmem => by
      obtain ⟨hfirst, hrest⟩ := Bool.and_eq_true_iff.mp h
      rcases List.mem_cons.mp hmem with rfl | hmem
      · exact hfirst
      · exact distinctKeys_of_mem_elements hrest hmem

private theorem distinctKeys_of_mem_members {key : String} {value : Json} :
    {members : List (String × Json)} → distinctKeysMembers members = true →
      (key, value) ∈ members → value.distinctKeys = true
  | (_, _) :: _, h, hmem => by
      obtain ⟨hfirst, hrest⟩ := Bool.and_eq_true_iff.mp h
      rcases List.mem_cons.mp hmem with heq | hmem
      · cases heq
        exact hfirst
      · exact distinctKeys_of_mem_members hrest hmem

theorem distinctKeys_of_step? {value part : Json} {segment : String}
    (hkeys : value.distinctKeys = true) (h : Pointer.step? value segment = some part) :
    part.distinctKeys = true := by
  cases value with
  | object members =>
    exact distinctKeys_of_mem_members (Bool.and_eq_true_iff.mp hkeys).2 (Entries.mem_of_get? h)
  | array elements =>
    obtain ⟨i, -, hi⟩ := Option.bind_eq_some_iff.mp h
    exact distinctKeys_of_mem_elements hkeys (List.mem_of_getElem? hi)
  | null | bool _ | number _ | string _ => cases h

private theorem distinctKeys_of_foldlM {part : Json} :
    {segments : List String} → {value : Json} → value.distinctKeys = true →
      segments.foldlM Pointer.step? value = some part → part.distinctKeys = true
  | [], _, hkeys, h => by
      cases h
      exact hkeys
  | segment :: rest, _, hkeys, h => by
      rw [List.foldlM_cons] at h
      obtain ⟨next, hnext, hrest⟩ := Option.bind_eq_some_iff.mp h
      exact distinctKeys_of_foldlM (distinctKeys_of_step? hkeys hnext) hrest

/-- What a pointer leads to has no key twice if the whole has none. -/
theorem distinctKeys_of_lookup? {root value : Json} {pointer : String}
    (hkeys : root.distinctKeys = true) (h : Pointer.lookup? root pointer = some value) :
    value.distinctKeys = true :=
  distinctKeys_of_foldlM hkeys h

end Json

/-! ### Fields -/

section Fields

variable {ι α β γ : Type}

/-- A field leaves a part of the record as it is. -/
def Field.Keeps (f : Field ι α) (proj : α → γ) : Prop :=
  ∀ v x y, f.read v x = .ok y → proj y = proj x

/-- A record has a field under a key: the part of the record that is decoded from the member with
that key, and that no other field changes. -/
structure Record.HasField (r : Record ι α) (key : String) (decode : ι → Except DecodeError β)
    (proj : α → β) : Prop where
  stores : ∃ f, r.fields.find? (fun g => g.key == key) = some f ∧
    ∀ v x y, f.read v x = .ok y → decode v = .ok (proj y)
  keeps : ∀ g ∈ r.fields, g.key = key ∨ g.Keeps proj

namespace Field

variable {key : String} {required : Bool} {decode : ι → Except DecodeError β} {store : β → α → α}

/-- What a field stores is what it decodes. -/
theorem read_stored {proj : α → β} (h : ∀ b x, proj (store b x) = b) (v : ι) (x y : α)
    (hy : (⟨key, required, fun v x => return store (← decode v) x⟩ : Field ι α).read v x = .ok y) :
    decode v = .ok (proj y) := by
  obtain ⟨b, hb, hy⟩ := bind_eq_ok_iff.mp hy
  cases hy
  rw [h]
  exact hb

/-- A field leaves alone what it does not store. -/
theorem keeps_stored {proj : α → γ} (h : ∀ b x, proj (store b x) = proj x) :
    (⟨key, required, fun v x => return store (← decode v) x⟩ : Field ι α).Keeps proj := by
  intro v x y hy
  obtain ⟨b, -, hy⟩ := bind_eq_ok_iff.mp hy
  cases hy
  exact h b x

/-- Reading commutes with a change that storing commutes with. -/
theorem read_change {g : α → α} (h : ∀ b x, store b (g x) = g (store b x)) {v : ι} {x y : α}
    (hy : (⟨key, required, fun v x => return store (← decode v) x⟩ : Field ι α).read v x = .ok y) :
    (⟨key, required, fun v x => return store (← decode v) x⟩ : Field ι α).read v (g x) =
      .ok (g y) := by
  obtain ⟨b, hb, hy⟩ := bind_eq_ok_iff.mp hy
  cases hy
  exact bind_eq_ok_iff.mpr ⟨b, hb, congrArg Except.ok (h b x)⟩

end Field

theorem Record.key_of_find? {r : Record ι α} {key : String} {f : Field ι α}
    (h : r.fields.find? (fun f => f.key == key) = some f) : f.key = key :=
  beq_iff_eq.mp (List.find?_some (p := fun f : Field ι α => f.key == key) h)

/-- The field of a decoded record comes from the member with its key. -/
theorem Record.HasField.of_get? {r : Record ι α} {key : String}
    {decode : ι → Except DecodeError β} {proj : α → β} (hr : r.HasField key decode proj)
    {members : List (String × ι)} (hnodup : (Entries.keys members).Nodup) {v : ι}
    (hget : Entries.get? key members = some v) {y : α} (h : r.ofMembers members = .ok y) :
    decode v = .ok (proj y) := by
  obtain ⟨f, hf, hread⟩ := hr.stores
  have hstore := storeMembers_of_ofMembers h
  clear h
  generalize r.start = start at hstore
  induction members generalizing start with
  | nil => cases hget
  | cons member rest ih =>
    obtain ⟨k, w⟩ := member
    obtain ⟨hfresh, hnodup⟩ := List.nodup_cons.mp hnodup
    rw [Entries.get?] at hget
    rw [storeMembers] at hstore
    split at hget
    · next heq =>
      subst heq
      cases hget
      rw [hf] at hstore
      obtain ⟨x', hx', hstore⟩ := bind_eq_ok_iff.mp hstore
      -- No later member has the key, so what is stored now stays.
      have hrest : proj y = proj x' := by
        refine storeMembers_keeps (P := fun y => proj y = proj x') rest ?_ rfl hstore
        intro g hg m hm hkey x y hx hy
        have hne : g.key ≠ k := fun he => hfresh (List.mem_map.mpr ⟨m, hm, hkey.symm.trans he⟩)
        exact ((hr.keeps g hg).resolve_left hne _ x y hy).trans hx
      rw [hrest]
      exact hread v start x' hx'
    · split at hstore
      · obtain ⟨x', -, hstore⟩ := bind_eq_ok_iff.mp hstore
        exact ih hnodup hget x' hstore
      · exact ih hnodup hget start hstore

/-- A field of a decoded record without a member for it is as it was to begin with. -/
theorem Record.HasField.of_absent {r : Record ι α} {key : String}
    {decode : ι → Except DecodeError β} {proj : α → β} (hr : r.HasField key decode proj)
    {members : List (String × ι)} (hget : Entries.get? key members = none) {y : α}
    (h : r.ofMembers members = .ok y) : proj y = proj r.start := by
  refine storeMembers_keeps (P := fun x => proj x = proj r.start) members ?_ rfl
    (storeMembers_of_ofMembers h)
  intro f hf m hm hkey x y hx hy
  have hne : f.key ≠ key := fun heq => Entries.get?_eq_none_iff.mp hget
    (List.mem_map.mpr ⟨m, hm, hkey.symm.trans heq⟩)
  exact ((hr.keeps f hf).resolve_left hne _ x y hy).trans hx

/-- A field of a decoded record has what all values of its decoder have, also if its key is there
twice. -/
theorem Record.HasField.of_decode {r : Record ι α} {key : String}
    {decode : ι → Except DecodeError β} {proj : α → β} (hr : r.HasField key decode proj)
    {Q : β → Prop} (hdecode : ∀ v b, decode v = .ok b → Q b) (hstart : Q (proj r.start))
    {members : List (String × ι)} {y : α} (h : r.ofMembers members = .ok y) : Q (proj y) := by
  obtain ⟨f, hf, hread⟩ := hr.stores
  replace h := storeMembers_of_ofMembers h
  generalize r.start = start at hstart h
  induction members generalizing start with
  | nil =>
    cases h
    exact hstart
  | cons member rest ih =>
    obtain ⟨k, v⟩ := member
    rw [storeMembers] at h
    split at h
    · next g hg =>
      obtain ⟨x', hx', h⟩ := bind_eq_ok_iff.mp h
      refine ih x' ?_ h
      by_cases hk : k = key
      · subst hk
        cases hf.symm.trans hg
        exact hdecode v _ (hread v start x' hx')
      · have hkeeps :=
          (hr.keeps g (List.mem_of_find?_eq_some hg)).resolve_left (key_of_find? hg ▸ hk)
        rw [hkeeps v start x' hx']
        exact hstart
    · exact ih start hstart h

/-! Elements are stored in the order of the fields, so that the field of a decoded record comes from
the element at the position of its key. -/

private theorem Record.storeElements_spec {r : Record ι α} {key : String}
    {decode : ι → Except DecodeError β} {proj : α → β} {y : α} :
    (fields : List (Field ι α)) → (fields.map Field.key).Nodup → key ∈ fields.map Field.key →
      (∀ g ∈ fields, g.key = key → ∀ v x y, g.read v x = .ok y → decode v = .ok (proj y)) →
      (∀ g ∈ fields, g.key = key ∨ g.Keeps proj) → {done : Nat} → {elements : List ι} → {x : α} →
      r.storeElements done fields elements x = .ok y →
      (∀ v, elements[(fields.map Field.key).idxOf key]? = some v → decode v = .ok (proj y)) ∧
        (elements[(fields.map Field.key).idxOf key]? = none → proj y = proj x)
  | f :: fields, hnodup, hmem, hread, hkeeps, done, elements, x, h => by
      obtain ⟨hfresh, hnodup⟩ := List.nodup_cons.mp hnodup
      obtain ⟨hreadf, hread⟩ := List.forall_mem_cons.mp hread
      obtain ⟨hkeepsf, hkeeps⟩ := List.forall_mem_cons.mp hkeeps
      cases elements with
      | nil =>
        have hy : y = x := storeElements_keeps (P := fun y => y = x) done (f :: fields) []
          (fun _ _ _ hmem => nomatch hmem) rfl h
        exact ⟨nofun, fun _ => congrArg proj hy⟩
      | cons v rest =>
        obtain ⟨x', hx', h⟩ := bind_eq_ok_iff.mp h
        by_cases hkey : f.key = key
        · -- No later field has the key, so what is stored now stays.
          have hrest : proj y = proj x' := by
            refine storeElements_keeps (P := fun y => proj y = proj x') _ fields rest ?_ rfl h
            intro g hg w hw a b ha hb
            have hne : g.key ≠ key := fun he =>
              hfresh (List.mem_map.mpr ⟨g, hg, he.trans hkey.symm⟩)
            exact ((hkeeps g hg).resolve_left hne w a b hb).trans ha
          rw [List.map_cons, hkey, List.idxOf_cons_self, List.getElem?_cons_zero, hrest]
          refine ⟨fun w hw => ?_, nofun⟩
          cases hw
          exact hreadf hkey v x x' hx'
        · have hmem : key ∈ fields.map Field.key :=
            (List.mem_cons.mp hmem).resolve_left (Ne.symm hkey)
          have hx : proj x' = proj x := hkeepsf.resolve_left hkey v x x' hx'
          rw [List.map_cons, List.idxOf_cons_ne _ hkey, List.getElem?_cons_succ, ← hx]
          exact storeElements_spec fields hnodup hmem hread hkeeps h

section Elements

variable {r : Record ι α} {key : String} {decode : ι → Except DecodeError β} {proj : α → β}
  {elements : List ι} {y : α}

private theorem Record.HasField.of_elements (hr : r.HasField key decode proj)
    (hnodup : (r.fields.map Field.key).Nodup) (h : r.ofElements elements = .ok y) :
    (∀ v, elements[(r.fields.map Field.key).idxOf key]? = some v → decode v = .ok (proj y)) ∧
      (elements[(r.fields.map Field.key).idxOf key]? = none → proj y = proj r.start) := by
  obtain ⟨x, hstore, h⟩ := bind_eq_ok_iff.mp h
  have hy : x = y := by
    split at h <;> cases h
    rfl
  subst hy
  obtain ⟨f, hf, hread⟩ := hr.stores
  have hmem := List.mem_of_find?_eq_some hf
  have hkey : f.key = key := key_of_find? hf
  refine storeElements_spec r.fields hnodup (List.mem_map.mpr ⟨f, hmem, hkey⟩) ?_ hr.keeps hstore
  intro g hg hgkey
  rw [List.inj_on_of_nodup_map hnodup hg hmem (hgkey.trans hkey.symm)]
  exact hread

/-- The field of a decoded record comes from the element at its position. -/
theorem Record.HasField.of_element (hr : r.HasField key decode proj)
    (hnodup : (r.fields.map Field.key).Nodup) (h : r.ofElements elements = .ok y) {v : ι}
    (hv : elements[(r.fields.map Field.key).idxOf key]? = some v) : decode v = .ok (proj y) :=
  (hr.of_elements hnodup h).1 v hv

/-- A field of a decoded record without an element for it is as it was to begin with. -/
theorem Record.HasField.of_no_element (hr : r.HasField key decode proj)
    (hnodup : (r.fields.map Field.key).Nodup) (h : r.ofElements elements = .ok y)
    (hnone : elements[(r.fields.map Field.key).idxOf key]? = none) : proj y = proj r.start :=
  (hr.of_elements hnodup h).2 hnone

end Elements

/-! Members that name no field are passed over. -/

theorem Record.storeMembers_filter {r : Record ι α} (keep : String → Bool)
    (hkeep : ∀ f ∈ r.fields, keep f.key = true) :
    (members : List (String × ι)) → (x : α) →
      r.storeMembers (members.filter fun m => keep m.1) x = r.storeMembers members x
  | [], _ => rfl
  | (key, value) :: rest, x => by
      rw [List.filter_cons]
      split
      · rw [storeMembers, storeMembers]
        cases r.fields.find? fun f => f.key == key with
        | none => exact storeMembers_filter keep hkeep rest x
        | some f => exact congrArg _ (funext fun y => storeMembers_filter keep hkeep rest y)
      · next hnot =>
        have hfind : r.fields.find? (fun f => f.key == key) = none :=
          List.find?_eq_none.mpr fun f hf hkey => hnot (beq_iff_eq.mp hkey ▸ hkeep f hf)
        rw [storeMembers, hfind]
        exact storeMembers_filter keep hkeep rest x

theorem Record.ofMembers_filter {r : Record ι α} (keep : String → Bool)
    (hkeep : ∀ f ∈ r.fields, keep f.key = true) (members : List (String × ι)) :
    r.ofMembers (members.filter fun m => keep m.1) = r.ofMembers members := by
  have hmissing : r.missing? (members.filter fun m => keep m.1) = r.missing? members := by
    refine congrArg (Option.map Field.key) (List.find?_congr fun f hf => ?_)
    rw [List.any_filter]
    refine congrArg (fun found => f.required && !found) (List.any_congr rfl fun m => ?_)
    rw [Bool.eq_iff_iff, Bool.and_eq_true, beq_iff_eq]
    exact and_iff_right_of_imp fun hkey => hkey ▸ hkeep f hf
  rw [ofMembers, ofMembers, storeMembers_filter keep hkeep, hmissing]

/-! If the value under a key changes, and reading commutes with the change, so does decoding. -/

section Put

variable {r r' : Record ι α} {key : String} {old new : ι} {g : α → α}
  (hfields : r'.fields = r.fields)
  (hothers : ∀ f ∈ r.fields, f.key ≠ key → ∀ {v x y}, f.read v x = .ok y →
    f.read v (g x) = .ok (g y))
include hfields hothers

private theorem Record.storeMembers_of_not_mem :
    (members : List (String × ι)) → key ∉ Entries.keys members → {x y : α} →
      r.storeMembers members x = .ok y → r'.storeMembers members (g x) = .ok (g y)
  | [], _, _, _, h => by
      cases h
      rfl
  | (k, v) :: rest, hkey, x, y, h => by
      obtain ⟨hne, hrest⟩ := not_or.mp (mt List.mem_cons.mpr hkey)
      rw [storeMembers] at h ⊢
      rw [hfields]
      split at h
      · next f hf =>
        obtain ⟨x', hx', h⟩ := bind_eq_ok_iff.mp h
        have hread := hothers f (List.mem_of_find?_eq_some hf)
          (fun heq => hne (heq.symm.trans (key_of_find? hf))) hx'
        exact bind_eq_ok_iff.mpr ⟨_, hread, storeMembers_of_not_mem rest hrest h⟩
      · exact storeMembers_of_not_mem rest hrest h

variable (hold : ∀ f ∈ r.fields, f.key = key → ∀ {x y}, f.read old x = .ok y →
  f.read new (g x) = .ok (g y))
include hold

theorem Record.storeMembers_put :
    (members : List (String × ι)) → (Entries.keys members).Nodup →
      Entries.get? key members = some old → {x y : α} → r.storeMembers members x = .ok y →
      r'.storeMembers (Entries.put key new members) (g x) = .ok (g y)
  | (k, v) :: rest, hnodup, hget, x, y, h => by
      obtain ⟨hfresh, hrest⟩ := List.nodup_cons.mp hnodup
      rw [Entries.get?] at hget
      rw [Entries.put]
      rw [storeMembers] at h
      split at hget
      · next heq =>
        subst heq
        cases hget
        rw [if_pos rfl, storeMembers, hfields]
        split at h
        · next f hf =>
          obtain ⟨x', hx', h⟩ := bind_eq_ok_iff.mp h
          have hread := hold f (List.mem_of_find?_eq_some hf) (key_of_find? hf) hx'
          exact bind_eq_ok_iff.mpr
            ⟨_, hread, storeMembers_of_not_mem hfields hothers rest hfresh h⟩
        · exact storeMembers_of_not_mem hfields hothers rest hfresh h
      · next hne =>
        rw [if_neg hne, storeMembers, hfields]
        split at h
        · next f hf =>
          obtain ⟨x', hx', h⟩ := bind_eq_ok_iff.mp h
          have hread := hothers f (List.mem_of_find?_eq_some hf)
            (fun heq => hne ((key_of_find? hf).symm.trans heq)) hx'
          exact bind_eq_ok_iff.mpr ⟨_, hread, storeMembers_put rest hrest hget h⟩
        · exact storeMembers_put rest hrest hget h

/-- The record that is decoded changes as the value under the key does. -/
theorem Record.ofMembers_put {members : List (String × ι)} (hnodup : (Entries.keys members).Nodup)
    (hget : Entries.get? key members = some old) (hstart : r'.start = g r.start) {y : α}
    (h : r.ofMembers members = .ok y) :
    r'.ofMembers (Entries.put key new members) = .ok (g y) := by
  have hmem : key ∈ Entries.keys members :=
    Entries.get?_isSome_iff.mp (Option.isSome_of_mem hget)
  have hmissing : r'.missing? (Entries.put key new members) = r.missing? members := by
    have hany : ∀ (ms : List (String × ι)) (k : String),
        (ms.any fun m => m.1 == k) = (Entries.keys ms).contains k := fun ms k => by
      rw [Entries.keys, List.contains_eq_any_beq, List.any_map]
      exact List.any_congr rfl fun m => Bool.beq_comm
    unfold missing?
    simp only [hany, Entries.keys_put, if_pos hmem, hfields]
  obtain ⟨x, hstore, hend⟩ := bind_eq_ok_iff.mp h
  have hstore' := storeMembers_put hfields hothers hold members hnodup hget hstore
  unfold ofMembers
  rw [hstart, hmissing]
  refine bind_eq_ok_iff.mpr ⟨g x, hstore', ?_⟩
  split at hend
  · cases hend
  · cases hend
    rfl

end Put

end Fields

/-! ### Tables and lists -/

section Entries

variable {ι ε β : Type} {f : ι → Except ε β}

/-- Each entry of a table comes from a member with its key. -/
theorem exists_member_of_table {members : List (String × ι)} {table : List (String × β)}
    (h : members.foldlM (fun all (m : String × ι) => return Entries.put m.1 (← f m.2) all) [] =
      (.ok table : Except ε _)) :
    ∀ e ∈ table, ∃ v, (e.1, v) ∈ members ∧ f v = .ok e.2 := by
  have key : ∀ (rest : List (String × ι)) {all : List (String × β)}, rest ⊆ members →
      (∀ e ∈ all, ∃ v, (e.1, v) ∈ members ∧ f v = .ok e.2) →
      rest.foldlM (fun all (m : String × ι) => return Entries.put m.1 (← f m.2) all) all =
        (.ok table : Except ε _) →
      ∀ e ∈ table, ∃ v, (e.1, v) ∈ members ∧ f v = .ok e.2 := by
    intro rest
    induction rest with
    | nil =>
      intro all _ hall h
      cases h
      exact hall
    | cons member rest ih =>
      obtain ⟨k, w⟩ := member
      intro all hsub hall h
      rw [List.foldlM_cons] at h
      obtain ⟨all', hput, h⟩ := bind_eq_ok_iff.mp h
      obtain ⟨b, hb, hput⟩ := bind_eq_ok_iff.mp hput
      cases hput
      obtain ⟨hmem, hsub⟩ := List.cons_subset.mp hsub
      refine ih hsub (fun e he => ?_) h
      rcases Entries.mem_put he with rfl | he
      · exact ⟨w, hmem, hb⟩
      · exact hall e he
  exact key members (List.Subset.refl _) (List.forall_mem_nil _) h

/-- The entries of a table have distinct keys, also if members have not. -/
theorem nodup_keys_of_table {members : List (String × ι)} {table : List (String × β)}
    (h : members.foldlM (fun all (m : String × ι) => return Entries.put m.1 (← f m.2) all) [] =
      (.ok table : Except ε _)) : (Entries.keys table).Nodup := by
  have key : ∀ (members : List (String × ι)) (all : List (String × β)), (Entries.keys all).Nodup →
      members.foldlM (fun all (m : String × ι) => return Entries.put m.1 (← f m.2) all) all =
        (.ok table : Except ε _) → (Entries.keys table).Nodup := by
    intro members
    induction members with
    | nil =>
      intro all hall h
      cases h
      exact hall
    | cons member rest ih =>
      intro all hall h
      rw [List.foldlM_cons] at h
      obtain ⟨all', hput, h⟩ := bind_eq_ok_iff.mp h
      obtain ⟨b, -, hput⟩ := bind_eq_ok_iff.mp hput
      cases hput
      exact ih _ (Entries.nodup_keys_put hall) h
  exact key members [] List.nodup_nil h

/-- A table of some of the members has the entries of those. -/
theorem table_filter (keep : String → Bool) {members : List (String × ι)}
    {table : List (String × β)}
    (h : members.foldlM (fun all (m : String × ι) => return Entries.put m.1 (← f m.2) all) [] =
      (.ok table : Except ε _)) :
    (members.filter fun m => keep m.1).foldlM
        (fun all (m : String × ι) => return Entries.put m.1 (← f m.2) all) [] =
      (.ok (table.filter fun e => keep e.1) : Except ε _) := by
  have key : ∀ (members : List (String × ι)) (all : List (String × β)),
      members.foldlM (fun all (m : String × ι) => return Entries.put m.1 (← f m.2) all) all =
        (.ok table : Except ε _) →
      (members.filter fun m => keep m.1).foldlM
          (fun all (m : String × ι) => return Entries.put m.1 (← f m.2) all)
          (all.filter fun e => keep e.1) =
        (.ok (table.filter fun e => keep e.1) : Except ε _) := by
    intro members
    induction members with
    | nil =>
      intro all h
      cases h
      rfl
    | cons member rest ih =>
      obtain ⟨k, v⟩ := member
      intro all h
      rw [List.foldlM_cons] at h
      obtain ⟨all', hput, h⟩ := bind_eq_ok_iff.mp h
      obtain ⟨b, hb, hput⟩ := bind_eq_ok_iff.mp hput
      cases hput
      have hrest := ih _ h
      rw [List.filter_cons]
      split
      · next hkeep =>
        rw [Entries.filter_put_of_keep keep hkeep] at hrest
        rw [List.foldlM_cons]
        exact bind_eq_ok_iff.mpr ⟨_, bind_eq_ok_iff.mpr ⟨b, hb, rfl⟩, hrest⟩
      · next hdrop =>
        rw [Entries.filter_put keep (Bool.eq_false_iff.mpr hdrop)] at hrest
        exact hrest
  exact key members [] h

/-- Each entry of a list comes from the element at its position. -/
theorem exists_element_of_list :
    {elements : List ι} → {list : List β} → elements.mapM f = (.ok list : Except ε _) →
      {i : Nat} → {b : β} → list[i]? = some b → ∃ v, elements[i]? = some v ∧ f v = .ok b
  | [], list, h, i, b, hi => by
      cases h
      cases hi
  | v :: rest, list, h, i, b, hi => by
      rw [List.mapM_cons] at h
      obtain ⟨b', hb', h⟩ := bind_eq_ok_iff.mp h
      obtain ⟨list', hlist, h⟩ := bind_eq_ok_iff.mp h
      cases h
      cases i with
      | zero =>
        cases hi
        exact ⟨v, rfl, hb'⟩
      | succ i => exact exists_element_of_list hlist hi

end Entries

end OpenApiTs
