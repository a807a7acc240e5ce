import OpenApiTs.Proofs.Answers
import OpenApiTs.Proofs.Law

/-!
# Makers obey the rules

A maker is given the answers of the parts of a schema. If the answers obey a law, then so does what
the maker makes of them: each maker follows its rule, and keeps the state sound.

## Main definitions

* `UseLaw.Follows`: references are used as the rules say.
* `UseLaw.Answered`, `UseLaw.NodeAnswered`, `UseLaw.PartsAnswered`: answers that obey a law.

## Main results

* `UseLaw.keeps_collect`, `UseLaw.keeps_record`, `UseLaw.keeps_inlineObject`,
  `UseLaw.keeps_plainUse`, `UseLaw.keeps_unionUse`: the makers of types.
* `UseLaw.keeps_makeDeclaration`: the makers of declarations.
* `UseLaw.claims_makeDeclaration`: the names that a maker claims are exported by nobody else.
-/

namespace OpenApiTs

open Gen (Keeps KeepsFrom)

namespace UseLaw

variable {run : Setting} (law : UseLaw run) (k : Nat) (refer : Refer)
  (A : SchemaNode → String → Prop)

/-! ### Answers -/

/-- References at the places where `A` says that nodes stand are used as the rules say. -/
structure Follows : Prop where
  part : ∀ {s location node place}, A (.schema s) location → s.HasPart location node place →
    A node place
  stands : ∀ {node location}, A node location → law.At node location
  refers : ∀ {reference location}, A (.reference reference) location →
    Keeps (law.Ready k) (refer reference location) fun use p => ReferenceUse run p reference use

/-- The answers of a schema obey the law. -/
structure Answered (s : Schema) (answers : Answers) : Prop where
  use : ∀ {location} hint, A (.schema s) location →
    Keeps (law.Ready k) (answers.use location hint) fun use p =>
      law.Holds p (.schema s) location use
  declare : ∀ {location} raw, A (.schema s) location →
    Keeps (law.Ready k) (answers.declare location raw) fun name p =>
      p.name? location = some name
  collect : ∀ {location} owner body, A (.schema s) location →
    Keeps (law.Ready k) (answers.collect location owner body) fun body' p =>
      Collects run (law.Holds p) s location body body'

/-- The answers in the part of a node obey the law. -/
abbrev NodeAnswered : SchemaNode → Part → Prop := NodeAnswers (law.Answered k A)

/-- The answers in all parts of a schema obey the law. -/
abbrev PartsAnswered : Schema → Parts → Prop := PartsAnswers (law.Answered k A)

section Makers

variable {law k refer A} {s : Schema} {parts : Parts} {node : SchemaNode} {part : Part}
  {location : String}

theorem keeps_partUse (hf : law.Follows k refer A) (h : law.NodeAnswered k A node part)
    (ha : A node location) (hint : String) :
    Keeps (law.Ready k) (part.use refer location hint) fun use p =>
      law.Holds p node location use := by
  cases h with
  | reference pointer =>
    exact (hf.refers ha).weaken fun use p h => law.holds_of_use (hf.stands ha) (.reference h)
  | boolean allowed =>
    exact .pure fun p => law.holds_of_use (hf.stands ha) (.boolean allowed location)
  | schema h => exact h.use hint ha

/-! ### Bodies -/

theorem keeps_field (hf : law.Follows k refer A) (h : law.NodeAnswered k A node part)
    (ha : A node location) (owner name : String) (required : Bool) :
    Keeps (law.Ready k) (Gen.field run refer owner name part required location) fun f p =>
      ∃ use, law.Holds p node location use ∧
        f = ⟨run.config.naming.fieldName name, !required, use, node.fieldDocs run⟩ := by
  refine (keeps_partUse hf h ha _).bind fun use => .pure fun p huse => ⟨use, huse, ?_⟩
  cases h <;> rfl

theorem keeps_collectFields (hf : law.Follows k refer A) (s : Schema) (location owner : String) :
    {properties : List (String × SchemaNode)} → {parts : List (String × Part)} →
      List.Forall₂ (fun e part => e.1 = part.1 ∧ law.NodeAnswered k A e.2 part.2)
        properties parts →
      (∀ e ∈ properties, A e.2 (Pointer.child location e.1)) → (body : Body) →
      Keeps (law.Ready k) (Gen.collectFields run refer s location owner parts body)
        fun body' p => Fields run (law.Holds p) s location properties body body'
  | [], [], .nil, _, body => .pure fun _ => .nil body
  | (name, node) :: rest, (_, part) :: _, .cons h hrest, ha, body => by
      obtain ⟨rfl, hnode⟩ := h
      have ha' : A node (Pointer.child location name) := ha (name, node) List.mem_cons_self
      refine (keeps_field hf hnode ha' owner name (s.isRequired name)).bind fun f => ?_
      refine (keeps_collectFields hf s location owner hrest
        (fun e he => ha e (List.mem_cons_of_mem _ he)) _).weaken ?_
      rintro body' p hbody ⟨use, huse, rfl⟩
      exact .cons huse hbody

theorem keeps_additionalUse (hf : law.Follows k refer A) (hs : A (.schema s) location)
    (h : law.PartsAnswered k A s parts) (owner : String) :
    Keeps (law.Ready k) (Gen.additionalUse refer parts location owner) fun use p =>
      AdditionalUse (law.Holds p) location s.additional use := by
  unfold Gen.additionalUse
  split
  · next hp =>
    rw [h.additional_eq_none hp]
    exact .pure fun _ => .absent
  · next hp =>
    obtain ⟨node, hn, hnode⟩ := h.exists_additional hp
    cases hnode
    rw [hn]
    exact .pure fun _ => .forbidden
  · next part hallowed hp =>
    obtain ⟨node, hn, hnode⟩ := h.exists_additional hp
    rw [hn]
    refine (keeps_partUse hf hnode (hf.part hs (.additional hn)) _).map fun use p huse =>
      .present ?_ huse
    rintro rfl
    cases hnode
    exact hallowed rfl

theorem keeps_collect (hf : law.Follows k refer A) (hs : A (.schema s) location)
    (h : law.PartsAnswered k A s parts) (owner : String) (body : Body) :
    Keeps (law.Ready k) (Gen.collect run refer s parts location owner body) fun body' p =>
      Collects run (law.Holds p) s location body body' := by
  refine (keeps_collectFields hf s _ owner h.properties
    (fun e he => hf.part hs (.property he)) body).bind fun body' => ?_
  refine (keeps_additionalUse hf hs h owner).bind fun index => ?_
  cases index with
  | none => exact .pure fun p ha hb => .mk hb ha
  | some use => exact .pure fun p ha hb => .mk hb ha

theorem keeps_record (hf : law.Follows k refer A) (hs : A (.schema s) location)
    (h : law.PartsAnswered k A s parts) (owner : String) :
    Keeps (law.Ready k) (Gen.record refer parts location owner) fun use p =>
      RecordUse (law.Holds p) s location use := by
  unfold Gen.record
  split
  · next hp =>
    obtain ⟨node, hn, hnode⟩ := h.exists_additional hp
    cases hnode
    exact .pure fun p => .forbidden hn
  · next hallowed =>
    refine (keeps_additionalUse hf hs h owner).bind fun index => .pure fun p => .allowed fun hn => ?_
    cases hp : parts.additional with
    | none =>
      rw [h.additional_eq_none hp] at hn
      cases hn
    | some part =>
      obtain ⟨node, hn', hnode⟩ := h.exists_additional hp
      rw [hn] at hn'
      cases hn'
      cases hnode
      exact hallowed hp

theorem keeps_inlineObject (hf : law.Follows k refer A) (hs : A (.schema s) location)
    (h : law.PartsAnswered k A s parts) (hint : String) :
    Keeps (law.Ready k) (Gen.inlineObject run refer s parts location hint) fun use p =>
      ObjectUse run (law.Holds p) s location use := by
  unfold Gen.inlineObject
  split
  · next hempty => exact (keeps_record hf hs h hint).weaken fun use p => .record hempty
  · next hempty =>
    exact (keeps_collect hf hs h hint {}).bind fun body =>
      .pure fun p => .body (Bool.eq_false_iff.mpr hempty)

/-! ### Intersections -/

/-- One entry stands at the head of all entries that are composed after it. -/
theorem keeps_composeEntry {i : Nat} (hf : law.Follows k refer A)
    (h : law.NodeAnswered k A node part) (ha : A node (Pointer.child location i.repr))
    (raw : String) (c : Gen.Composition) :
    Keeps (law.Ready k) (Gen.composeEntry run refer raw location i part c) fun c₁ p =>
      ∀ {rest c'}, Composes run p (law.Holds p) location (i + 1) rest c₁ c' →
        Composes run p (law.Holds p) location i (node :: rest) c c' := by
  unfold Gen.composeEntry
  cases h with
  | reference reference =>
    refine (Keeps.ofExcept fun pointer p => DocumentTree.canonicalize_eq).bind fun pointer => ?_
    refine (Keeps.ofExcept fun objectLike p h => h).bind
      (R := fun objectLike _ => run.isExtendable pointer = .ok objectLike) fun objectLike => ?_
    refine (hf.refers ha).bind fun use => ?_
    split
    · next hbase =>
      refine .pure fun p huse hx hpointer => ?_
      subst hpointer
      exact .base huse (hbase ▸ hx)
    · next hother =>
      refine .pure fun p huse hx hpointer => ?_
      subst hpointer
      exact .other huse (Bool.eq_false_iff.mpr hother ▸ hx)
  | boolean allowed =>
    cases allowed with
    | true => exact .pure fun p => .anything
    | false => exact .pure fun p => .nothing
  | schema h =>
    dsimp only
    split
    · next hmerge =>
      exact (h.collect raw c.body ha).bind fun body => .pure fun p hbody => .merged hmerge hbody
    · next hpart =>
      exact (h.use _ ha).bind fun use => .pure fun p huse =>
        .part (Bool.eq_false_iff.mpr hpart) huse

theorem keeps_composeEntries (hf : law.Follows k refer A) (raw location : String) :
    {nodes : List SchemaNode} → {parts : List Part} →
      List.Forall₂ (law.NodeAnswered k A) nodes parts → (i : Nat) →
      EachFrom (fun j node => A node (Pointer.child location j.repr)) i nodes →
      (c : Gen.Composition) →
      Keeps (law.Ready k) (Gen.composeEntries run refer raw location i parts c) fun c' p =>
        Composes run p (law.Holds p) location i nodes c c'
  | [], [], .nil, i, _, c => .pure fun _ => .nil i c
  | _ :: _, _ :: _, .cons h hrest, i, ha, c =>
      (keeps_composeEntry hf h ha.head raw c).bind fun c₁ =>
        (keeps_composeEntries hf raw location hrest (i + 1) ha.tail c₁).weaken
          fun _ _ hrest hentry => hentry hrest

theorem keeps_objectDeclaration (hf : law.Follows k refer A) (hs : A (.schema s) location)
    (h : law.PartsAnswered k A s parts) (hmaker : s.shape.maker = .object) (name raw : String) :
    Keeps (law.Ready k) (Gen.objectDeclaration run refer s parts location name raw) fun d p =>
      Makes run p (law.Holds p) location name (.schema s) d := by
  unfold Gen.objectDeclaration
  split
  · next hempty =>
    refine (keeps_record hf hs h raw).bind fun use => .pure fun p => ?_
    exact .record hmaker hempty
  · next hempty =>
    have hat := EachFrom.of_zero fun j node hj => hf.part hs (.allOf (i := j) hj)
    refine (keeps_composeEntries hf raw _ h.allOf 0 hat {}).bind fun c => ?_
    refine (keeps_collect hf hs h raw c.body).bind fun body => ?_
    dsimp only
    split
    · next hothers =>
      exact .pure fun p hb hc => .interface hmaker (Bool.eq_false_iff.mpr hempty) hc hb hothers
    · next hothers =>
      exact .pure fun p hb hc => .intersection hmaker (Bool.eq_false_iff.mpr hempty) hc hb
        (Bool.eq_false_iff.mpr hothers)

/-! ### Scalars, arrays and literals -/

theorem keeps_plainUse (hf : law.Follows k refer A) (hs : A (.schema s) location)
    (h : law.PartsAnswered k A s parts)
    (hmaker : s.shape.maker = .alias ∨ s.shape = .enumeration) (hint : String) :
    Keeps (law.Ready k) (Gen.plainUse run refer s parts location hint) fun use p =>
      PlainUse run (law.Holds p) s location use := by
  unfold Gen.plainUse
  split
  · next hshape =>
    split
    · next part hp =>
      obtain ⟨node, hn, hnode⟩ := h.exists_items hp
      exact (keeps_partUse hf hnode (hf.part hs (.items hn)) _).bind fun use =>
        .pure fun p => .array hshape hn
    · next hp => exact .pure fun p => .anyArray hshape (h.items_eq_none hp)
  · next hshape => exact .pure fun p => .constant hshape
  · next hshape => exact .pure fun p => .enumeration hshape
  · next types hshape => exact .pure fun p => .scalars hshape
  · refine .pure fun p => .unknown ?_
    rcases hmaker with hmaker | hmaker
    · cases hshape : s.shape <;> simp_all [Shape.maker]
    · simp_all

theorem keeps_plainDeclaration (hf : law.Follows k refer A) (hs : A (.schema s) location)
    (h : law.PartsAnswered k A s parts) (hmaker : s.shape.maker = .alias) (name raw : String) :
    Keeps (law.Ready k) (Gen.plainDeclaration run refer s parts location name raw) fun d p =>
      Makes run p (law.Holds p) location name (.schema s) d :=
  (keeps_plainUse hf hs h (.inl hmaker) raw).bind fun _ => .pure fun _ => .plain hmaker

/-! ### Unions -/

theorem keeps_branchUse (hf : law.Follows k refer A) (h : law.NodeAnswered k A node part)
    (ha : A node location) (discriminator : Option String) (unionName : String) (i : Nat) :
    Keeps (law.Ready k) (Gen.branchUse run refer discriminator unionName location i part)
      fun use p => BranchUse p (law.Holds p) node location use := by
  cases h with
  | reference pointer =>
    exact (keeps_partUse hf (.reference pointer) ha "").weaken fun use p huse =>
      .inPlace nofun huse
  | boolean allowed =>
    exact (keeps_partUse hf (.boolean allowed) ha "").weaken fun use p huse =>
      .inPlace nofun huse
  | @schema s answers h =>
    unfold Gen.branchUse
    dsimp only
    split
    · next hneeds =>
      refine (Keeps.ofExcept (R := fun _ _ => True) fun _ _ _ => trivial).bind fun raw => ?_
      refine (h.declare raw ha).bind fun name => .pure fun p hname _ => ?_
      exact .declared hneeds hname
    · next hneeds =>
      refine (h.use _ ha).weaken fun use p huse => .inPlace (fun b hb => ?_) huse
      cases hb
      exact Bool.eq_false_iff.mpr hneeds

theorem keeps_addBranches (hf : law.Follows k refer A) (discriminator : Option String)
    (unionName location : String) :
    {nodes : List SchemaNode} → {parts : List Part} →
      List.Forall₂ (law.NodeAnswered k A) nodes parts → (i : Nat) →
      EachFrom (fun j node => A node (Pointer.child location j.repr)) i nodes →
      (m : Gen.Members) →
      Keeps (law.Ready k)
        (Gen.addBranches run refer discriminator unionName location i parts m) fun m' p =>
          ∃ uses, Row (BranchUse p (law.Holds p)) location i nodes uses ∧
            m' = uses.foldl Gen.Members.add m
  | [], [], .nil, i, _, m => .pure fun _ => ⟨[], .nil i, rfl⟩
  | node :: rest, part :: _, .cons h hrest, i, ha, m => by
      refine (keeps_branchUse hf h ha.head discriminator unionName i).bind fun use => ?_
      refine (keeps_addBranches hf discriminator unionName location hrest (i + 1) ha.tail
        (m.add use)).weaken ?_
      rintro m' p ⟨uses, huses, rfl⟩ huse
      exact ⟨use :: uses, .cons huse huses, rfl⟩

theorem keeps_unionUse (hf : law.Follows k refer A) (hs : A (.schema s) location)
    (h : law.PartsAnswered k A s parts) (unionName : String) :
    Keeps (law.Ready k) (Gen.unionUse run refer s parts location unionName) fun use p =>
      UnionUse p (law.Holds p) s location use := by
  have hat := EachFrom.of_zero fun j node hj => hf.part hs (Schema.hasPart_branch (i := j) hj)
  refine (keeps_addBranches hf _ unionName _ h.branches 0 hat _).bind fun m => .pure fun p => ?_
  rintro ⟨uses, huses, rfl⟩
  exact .mk huses

theorem keeps_unionDeclaration (hf : law.Follows k refer A) (hs : A (.schema s) location)
    (h : law.PartsAnswered k A s parts) (hshape : s.shape = .union) (name raw : String) :
    Keeps (law.Ready k) (Gen.unionDeclaration run refer s parts location name raw) fun d p =>
      Makes run p (law.Holds p) location name (.schema s) d :=
  (keeps_unionUse hf hs h raw).bind fun _ => .pure fun _ => .union hshape

/-! ### Enumerations -/

theorem keeps_enumerationDeclaration (s : Schema) (hshape : s.shape = .enumeration)
    (pointer : String) {name : String} (hname : run.config.naming.Gives name) :
    Keeps (law.Ready k) (Gen.enumerationDeclaration run s pointer name) fun d p =>
      Makes run p (law.Holds p) pointer name (.schema s) d := by
  unfold Gen.enumerationDeclaration
  dsimp only
  split
  · next huniform =>
    exact (keeps_claim (.companion hname)).bind fun valuesName => .pure fun p _ =>
      .enumeration hshape huniform
  · next huniform => exact .pure fun p => .literals hshape (Bool.eq_false_iff.mpr huniform)

/-- The union of values that an enumeration claims is taken and exported by nobody. -/
theorem claims_enumerationDeclaration {pointer name : String} {p q : Progress} {d : Declaration}
    (hp : p.Orderly)
    (h : (Gen.enumerationDeclaration run s pointer name).run.run p = (.ok d, q)) :
    q.registry.Withholds d.exports := by
  unfold Gen.enumerationDeclaration at h
  dsimp only at h
  split at h
  · rw [Gen.run_bind, Gen.run_claim] at h
    cases hclaim : p.registry.claimExport (name ++ "Values") with
    | error e =>
      rw [hclaim] at h
      cases h
    | ok claimed =>
      rw [hclaim] at h
      cases h
      exact hp.coherent.withholds_claimExport hclaim
  · cases h
    exact .nil

/-! ### Declarations -/

theorem keeps_makeDeclaration (hf : law.Follows k refer A) (hs : A (.schema s) location)
    (h : law.PartsAnswered k A s parts) {name : String} (hname : run.config.naming.Gives name)
    (raw : String) :
    Keeps (law.Ready k) (Gen.makeDeclaration run refer s parts location name raw) fun d p =>
      Makes run p (law.Holds p) location name (.schema s) d := by
  unfold Gen.makeDeclaration
  split
  · next hmaker => exact keeps_objectDeclaration hf hs h hmaker name raw
  · next hmaker =>
    exact keeps_unionDeclaration hf hs h (Shape.maker_eq_union_iff.mp hmaker) name raw
  · next hmaker =>
    exact keeps_enumerationDeclaration s (Shape.maker_eq_enumeration_iff.mp hmaker) location hname
  · next hmaker => exact keeps_plainDeclaration hf hs h hmaker name raw

/-- The names that a maker claims are taken and exported by nobody. -/
theorem claims_makeDeclaration (hf : law.Follows k refer A) (hs : A (.schema s) location)
    (h : law.PartsAnswered k A s parts) {name raw : String} {p q : Progress} {d : Declaration}
    (hname : run.config.naming.Gives name) (hp : law.Ready k p)
    (hrun : (Gen.makeDeclaration run refer s parts location name raw).run.run p = (.ok d, q)) :
    q.registry.Withholds d.exports := by
  have hmade := keeps_makeDeclaration hf hs h hname raw p hp
  unfold KeepsFrom at hmade
  rw [hrun] at hmade
  have hmakes := hmade.2.2.2 q (le_refl q)
  by_cases hshape : s.shape.maker = .enumeration
  · unfold Gen.makeDeclaration at hrun
    rw [hshape] at hrun
    exact claims_enumerationDeclaration hp.orderly hrun
  · have hnil := hmakes.exports_eq_nil hshape
    rw [hnil]
    exact .nil

end Makers

end UseLaw

end OpenApiTs
