import OpenApiTs.Proofs.Makers

/-!
# A run obeys every law

The answers of all nodes obey a law, by recursion over the nodes: declarations of a schema come from
the makers, and uses from its placement. References then obey it by recursion over how many of them
nest: a reference that is followed gets a name first, so that one text of the document less is left
to follow. In particular the bound on nested references is never reached.

## Main results

* `UseLaw.part_answered`, `UseLaw.parts_answered`: the answers of nodes.
* `UseLaw.keeps_referAt`, `UseLaw.keeps_refer`: references inside the document, and references to
  begin with.
* `UseLaw.keeps_ensureNamed`, `UseLaw.keeps_typeOf`, `UseLaw.keeps_inlineType`,
  `UseLaw.keeps_generateNamed`: the entry points.
-/

namespace OpenApiTs

open Gen (Keeps KeepsFrom)

namespace UseLaw

variable {run : Setting} {law : UseLaw run}

/-! ### Answers of schemas -/

section Answers

variable {k : Nat} {refer : Refer} {A : SchemaNode → String → Prop} {s : Schema} {parts : Parts}
  {location : String}

/-- A pointer that has a name keeps it; otherwise it gets one. -/
theorem Ready.named {p : Progress} {pointer : String} {m : Gen String} (hp : law.Ready k p)
    (hm : p.name? pointer = none →
      KeepsFrom (law.Ready k) p m fun name q => q.name? pointer = some name) :
    KeepsFrom (law.Ready k) p
      (do
        match ← Gen.nameOf? pointer with
        | some name => pure name
        | none => m)
      fun name q => q.name? pointer = some name := by
  unfold KeepsFrom at hm ⊢
  rw [Gen.run_bind, Gen.run_nameOf?]
  cases hname : p.name? pointer with
  | some name => exact ⟨hp, le_refl p, rfl, fun q hq => hq.names hname⟩
  | none => exact hm hname

/-- Inside the declaration of a schema there can be less room for references. -/
theorem Ready.declareSchema {j : Nat} {p : Progress} (hp : law.Ready k p) (hjk : j ≤ k)
    (hroom : p.name? location = none → ∀ q, p ≤ q → (q.name? location).isSome →
      run.unnamed q < j)
    (hf : law.Follows j refer A) (hs : A (.schema s) location)
    (h : law.PartsAnswered j A s parts) (raw : String) :
    KeepsFrom (law.Ready k) p (Gen.declareSchema run refer s parts location raw) fun name q =>
      q.name? location = some name :=
  hp.named fun hnew =>
    hp.declaring hnew (hf.stands hs) hjk (hroom hnew)
      (fun _ hname => keeps_makeDeclaration hf hs h hname raw)
      fun _ _ _ _ hname hq hrun => claims_makeDeclaration hf hs h hname hq hrun

theorem keeps_declareSchema (hf : law.Follows k refer A) (hs : A (.schema s) location)
    (h : law.PartsAnswered k A s parts) (raw : String) :
    Keeps (law.Ready k) (Gen.declareSchema run refer s parts location raw) fun name p =>
      p.name? location = some name :=
  fun _ hp => hp.declareSchema (Nat.le_refl k)
    (fun _ _ hq _ => Nat.lt_of_le_of_lt (Setting.unnamed_le_of_le hq) hp.room) hf hs h raw

theorem keeps_useSchema (hf : law.Follows k refer A) (hs : A (.schema s) location)
    (h : law.PartsAnswered k A s parts) (hint : String) :
    Keeps (law.Ready k) (Gen.useSchema run refer s parts location hint) fun use p =>
      law.Holds p (.schema s) location use := by
  unfold Gen.useSchema
  split
  · next reference hplacement =>
    have hpart : A (.reference reference) (Pointer.descend location ["allOf", "0"]) :=
      hf.part hs (.allOf (i := 0) (Schema.allOf_of_wrapped hplacement))
    exact (hf.refers hpart).bind fun use => .pure fun p huse =>
      law.holds_of_use (hf.stands hs) (.wrapped hplacement huse)
  · next hplacement =>
    unfold Gen.inPlaceUse
    split
    · next hshape =>
      exact (keeps_unionUse hf hs h hint).bind fun use => .pure fun p huse =>
        law.holds_of_use (hf.stands hs) (.union hplacement hshape huse)
    · next hshape =>
      exact (keeps_inlineObject hf hs h hint).bind fun use => .pure fun p huse =>
        law.holds_of_use (hf.stands hs) (.object hshape huse)
    · next hunion hobject =>
      have hmaker : s.shape.maker = .alias ∨ s.shape = .enumeration :=
        Schema.maker_of_inPlace hplacement hunion hobject
      exact (keeps_plainUse hf hs h hmaker hint).bind fun use => .pure fun p huse =>
        law.holds_of_use (hf.stands hs) (.plain hmaker hplacement huse)
  · next hplacement =>
    exact (keeps_declareSchema hf hs h hint).bind fun name => .pure fun p hname =>
      law.holds_of_use (hf.stands hs) (.byName hplacement hname)

theorem answers_answered (hf : law.Follows k refer A) (h : law.PartsAnswered k A s parts) :
    law.Answered k A s (Gen.answers run refer s parts) where
  use hint hs := keeps_useSchema hf hs h hint
  declare raw hs := keeps_declareSchema hf hs h raw
  collect owner body hs := keeps_collect hf hs h owner body

theorem part_answered (hf : law.Follows k refer A) (node : SchemaNode) :
    law.NodeAnswered k A node (node.part run refer) :=
  .of_parts (answers_answered hf) node

theorem parts_answered (hf : law.Follows k refer A) (s : Schema) :
    law.PartsAnswered k A s (s.parts run refer) :=
  .of_parts (answers_answered hf) s

end Answers

/-! ### References -/

section References

variable {j k : Nat} {refer : Refer} {A : SchemaNode → String → Prop}
  {reference pointer target from_ : String} {p : Progress}

theorem keeps_chainUse (hf : law.Follows j refer A) (ha : A (.reference target) pointer) :
    Keeps (law.Ready j) (Gen.chainUse run refer pointer target) fun use q =>
      LinkUse run q pointer target use := by
  refine (Keeps.ofExcept (R := fun s _ => run.tree.resolve pointer pointer = .ok s)
    fun s q h => h).bind fun s => ?_
  split
  · next hblank => exact .pure fun q hs => .endless hs hblank
  · next hblank =>
    exact (hf.refers ha).weaken fun use q huse hs =>
      .follows hs (Bool.eq_false_iff.mpr hblank) huse

/-- The declaration of a pointer by the type of a node without parts. -/
theorem Ready.declareAlias {node : SchemaNode} {use : Gen TypeUse} {R : TypeUse → Progress → Prop}
    (hp : law.Ready k p) (hnew : p.name? pointer = none) (hat : law.At node pointer) (hjk : j ≤ k)
    (hroom : ∀ q, p ≤ q → (q.name? pointer).isSome → run.unnamed q < j)
    (huse : Keeps (law.Ready j) use R)
    (hmakes : ∀ name use q, R use q → Makes run q (law.Holds q) pointer name node
      (Gen.aliasDeclaration "" name use pointer)) (raw : String) :
    KeepsFrom (law.Ready k) p (Gen.declareAlias run pointer raw use) fun name q =>
      q.name? pointer = some name := by
  let make (name : String) : Gen Declaration :=
    (Gen.aliasDeclaration "" name · pointer) <$> use
  have hmake : Gen.declareAlias run pointer raw use = (do
      let name ← Gen.begin run pointer raw
      let d ← make name
      Gen.finish pointer name d
      pure name) := by
    simp only [Gen.declareAlias, make, bind_map_left]
  rw [hmake]
  refine hp.declaring hnew hat hjk hroom (fun name _ => huse.map (hmakes name))
    fun name q d q' _ hq hrun => ?_
  simp only [make] at hrun
  rw [map_eq_pure_bind, Gen.run_bind] at hrun
  rcases huserun : use.run.run q with ⟨failure | x, q''⟩ <;> rw [huserun] at hrun <;> cases hrun
  exact .nil

/-- A reference gets the name of its target. Inside the declaration of the target there can be less
room for references. -/
theorem Ready.ensureNamedWith (hp : law.Ready k p) (hjk : j ≤ k)
    (hroom : p.name? reference = none → ∀ q, p ≤ q → (q.name? reference).isSome →
      run.unnamed q < j)
    (hf : law.Follows j refer A)
    (hfound : ∀ {node}, run.origin reference from_ = .ok node → A node reference) :
    KeepsFrom (law.Ready k) p (Gen.ensureNamedWith run refer reference from_) fun name q =>
      q.name? reference = some name := by
  refine KeepsFrom.ofExcept_bind hp fun pointer hpointer => ?_
  obtain rfl := DocumentTree.canonicalize_eq hpointer
  refine hp.named fun hnew => ?_
  refine KeepsFrom.ofExcept_bind hp fun value hvalue => ?_
  unfold Setting.origin at hfound
  rw [hvalue] at hfound
  dsimp only [bind, Except.bind] at hfound
  split
  · next target htarget =>
    rw [htarget] at hfound
    have ha := hfound rfl
    exact hp.declareAlias hnew (hf.stands ha) hjk (hroom hnew) (keeps_chainUse hf ha)
      (fun name use q h => .link h) _
  · next allowed htarget hallowed =>
    rw [htarget, hallowed] at hfound
    exact hp.declareAlias (R := fun use _ => use = .ofBoolean allowed) hnew
      (hf.stands (hfound rfl)) hjk (hroom hnew) (.pure fun _ => rfl)
      (fun name use q h => h ▸ .boolean allowed) _
  · next htarget hallowed =>
    rw [htarget, hallowed] at hfound
    refine KeepsFrom.ofExcept_bind hp fun s hs => ?_
    rw [hs] at hfound
    exact hp.declareSchema hjk hroom hf (hfound rfl) (parts_answered hf s) _

theorem Ready.referenceWith (hp : law.Ready k p) (hjk : j ≤ k)
    (hroom : p.name? reference = none → ∀ q, p ≤ q → (q.name? reference).isSome →
      run.unnamed q < j)
    (hf : law.Follows j refer A)
    (hfound : ∀ {node}, run.excludes reference = false → run.origin reference from_ = .ok node →
      A node reference) :
    KeepsFrom (law.Ready k) p (Gen.referenceWith run refer reference from_) fun use q =>
      ReferenceUse run q reference use := by
  refine KeepsFrom.ofExcept_bind hp fun pointer hpointer => ?_
  obtain rfl := DocumentTree.canonicalize_eq hpointer
  have hcanonical : Pointer.canonicalize pointer = .ok pointer := by
    unfold DocumentTree.canonicalize at hpointer
    split at hpointer
    · next h =>
      cases hpointer
      exact h
    · cases hpointer
  split
  · next hexcluded => exact .pure hp fun q _ => .excluded hcanonical hexcluded
  · next hexcluded =>
    have hx := Bool.eq_false_iff.mpr hexcluded
    refine (hp.ensureNamedWith hjk hroom hf (hfound hx)).bind fun name q hq _ hname => ?_
    refine KeepsFrom.ofExcept_bind hq fun null hnull => ?_
    exact .pure hq fun r hr => .named hcanonical hx (hname r hr) hnull

end References

section Runs

variable (law)

/-- Where the nodes stand that a run finds in the document. -/
def AtText (node : SchemaNode) (location : String) : Prop := law.At node location ∧ run.Textual node

theorem follows_of_refers {k : Nat} {refer : Refer}
    (h : ∀ reference ∈ run.tree.root.texts, law.Refers reference → ∀ from_,
      Keeps (law.Ready k) (refer reference from_) fun use p => ReferenceUse run p reference use) :
    law.Follows k refer law.AtText where
  part hs hpart := ⟨law.at_part hs.1 hpart, Schema.references_part hpart hs.2⟩
  stands hs := hs.1
  refers hs := h _ (hs.2 List.mem_cons_self) (law.refers_of_at hs.1) _

theorem atText_of_origin {pointer from_ : String} {node : SchemaNode} (hr : law.Refers pointer)
    (hx : run.excludes pointer = false) (h : run.origin pointer from_ = .ok node) :
    law.AtText node pointer :=
  ⟨law.at_origin hr hx h, Setting.textual_origin h⟩

/-- References that are texts of the document are followed while fewer texts than the bound have no
names: each that is followed gets one. -/
theorem keeps_referAt : (k : Nat) → ∀ reference ∈ run.tree.root.texts, law.Refers reference →
    ∀ from_, Keeps (law.Ready k) (Gen.referAt run k reference from_) fun use p =>
      ReferenceUse run p reference use
  | 0, _, _, _, _ => fun _ hp => absurd hp.room (Nat.not_lt_zero _)
  | k + 1, reference, htext, hr, from_ => fun p hp =>
      hp.referenceWith (Nat.le_succ k)
        (fun hnew q hq hnamed => by
          have := Setting.unnamed_lt_of_named hq htext hnew hnamed
          have := hp.room
          omega)
        (law.follows_of_refers (keeps_referAt k)) (law.atText_of_origin hr)

/-- A reference to begin with need not be a text of the document. -/
theorem keeps_refer {reference : String} (hr : law.Refers reference) (from_ : String) :
    Keeps (law.Ready run.tree.bound) (Gen.refer run reference from_) fun use p =>
      ReferenceUse run p reference use :=
  fun _ hp => hp.referenceWith (Nat.le_succ _)
    (fun _ _ _ _ => Nat.lt_succ_of_le run.unnamed_le_texts)
    (law.follows_of_refers (law.keeps_referAt (run.tree.texts + 1))) (law.atText_of_origin hr)

theorem follows_refer : law.Follows run.tree.bound (Gen.refer run) law.At where
  part := law.at_part
  stands := id
  refers hs := law.keeps_refer (law.refers_of_at hs) _

/-! ### Entry points -/

theorem keeps_ensureNamed {reference from_ : String}
    (hfound : ∀ {node}, run.origin reference from_ = .ok node → law.At node reference) :
    Keeps (law.Ready run.tree.bound) (Gen.ensureNamed run reference from_) fun name p =>
      p.name? reference = some name :=
  fun _ hp => hp.ensureNamedWith (Nat.le_refl _)
    (fun _ _ hq _ => Nat.lt_of_le_of_lt (Setting.unnamed_le_of_le hq) hp.room)
    law.follows_refer hfound

theorem keeps_typeOf {node : SchemaNode} {location : String} (ha : law.At node location)
    (hint : String) :
    Keeps (law.Ready run.tree.bound) (Gen.typeOf run node location hint) fun use p =>
      law.Holds p node location use :=
  keeps_partUse law.follows_refer (part_answered law.follows_refer node) ha hint

theorem keeps_inlineType {s : Schema} {location : String} (ha : law.At (.schema s) location)
    (hint : String) :
    Keeps (law.Ready run.tree.bound) (Gen.inlineType run s location hint) fun use p =>
      law.Holds p (.schema s) location use :=
  keeps_useSchema law.follows_refer ha (parts_answered law.follows_refer s) hint

theorem keeps_generateNamed {s : Schema} {pointer : String} (ha : law.At (.schema s) pointer)
    (raw : String) :
    Keeps (law.Ready run.tree.bound) (Gen.generateNamed run s pointer raw) fun name p =>
      p.name? pointer = some name :=
  keeps_declareSchema law.follows_refer ha (parts_answered law.follows_refer s) raw

variable {law} in
/-- What is declared for a pointer without a name was made for it just before, in a sound state. -/
theorem Sound.declared_of_generateNamed {s : Schema} {pointer raw name : String} {p q : Progress}
    (hp : law.Sound p) (ha : law.At (.schema s) pointer) (hnew : p.name? pointer = none)
    (h : (Gen.generateNamed run s pointer raw).run.run p = (.ok name, q)) :
    ∃ r d, law.Sound r ∧ r.name? pointer = some name ∧
      Makes run r (law.Holds r) pointer name (.schema s) d ∧ q = r.finished pointer name d := by
  unfold Gen.generateNamed Gen.declareSchema at h
  rw [Gen.run_bind, Gen.run_nameOf?, hnew] at h
  obtain ⟨name', p', hbegin, h⟩ := Gen.run_bind_eq_ok_iff.mp h
  obtain ⟨d, r, hmake, h⟩ := Gen.run_bind_eq_ok_iff.mp h
  cases h
  rw [Gen.run_begin] at hbegin
  split at hbegin
  · next registry hreserve =>
    cases hbegin
    have hbegun := hp.begun hnew ha hreserve
    have hgiven := (hp.given_reserve hreserve).1
    obtain ⟨hr, hle, -, hmakes⟩ :=
      (keeps_makeDeclaration law.follows_refer ha (parts_answered law.follows_refer s) hgiven raw _
        hbegun.ready).of_ok hmake
    have hname : (p.begun registry pointer name).name? pointer = some name := by
      rw [Progress.name?_begun, if_pos rfl]
    exact ⟨r, d, hr.toSound, hle.names hname, hmakes r (le_refl r), rfl⟩
  · cases hbegin

end Runs

end UseLaw

end OpenApiTs
