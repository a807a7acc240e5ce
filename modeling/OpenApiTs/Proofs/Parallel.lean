import OpenApiTs.Proofs.Agreement
import OpenApiTs.Proofs.Counterparts

/-!
# Runs side by side

Two computations run side by side from states that differ at most in the texts of declarations: both
give the same value or fail in the same way, and the states in which they end differ at most so
again. A run on a tree of schemas and a run on a tree with counterparts go side by side, since no
choice depends on a text of a comment. Where texts are compared exactly, the two runs are the same.

## Main definitions

* `Declaration.outline`, `Registry.outline`, `Progress.outline`: without the texts of declarations.
* `Similar`: two values are the same in outline, and are the same where they are compared exactly.
* `Gen.Parallel`: two computations run side by side.

## Main results

* `Gen.Parallel.bind`, `Gen.parallel_claim`, `Gen.parallel_begin`, `Gen.parallel_finish`: the steps
  of two runs.
* `Gen.parallel_makeDeclaration`, `Gen.parallel_useSchema`: the makers on counterparts.
* `Gen.parallel_refer`, `Gen.parallel_typeOf`, `Gen.parallel_generateNamed`: the entry points.
-/

namespace OpenApiTs

/-! ### Outlines -/

/-- The declaration without its text. -/
def Declaration.outline (d : Declaration) : Declaration := { d with content := "" }

/-- The registry without the texts of its declarations. -/
def Registry.outline (r : Registry) : Registry :=
  { r with slots := r.slots.map fun e => (e.1, e.2.map Declaration.outline) }

/-- The state without the texts of its declarations. -/
def Progress.outline (p : Progress) : Progress := { p with registry := p.registry.outline }

/-- The body without the comments of its fields. -/
def Body.outline (b : Body) : Body :=
  { b with fields := b.fields.map fun e => (e.1, { e.2 with docs := "" }) }

/-- The composition without the comments of its fields. -/
def Gen.Composition.outline (c : Gen.Composition) : Gen.Composition :=
  { c with body := c.body.outline }

namespace Entries

variable {α β : Type}

theorem get?_map (f : α → β) (key : String) (entries : List (String × α)) :
    get? key (entries.map fun e => (e.1, f e.2)) = (get? key entries).map f := by
  induction entries with
  | nil => rfl
  | cons e rest ih =>
    obtain ⟨k, value⟩ := e
    rw [List.map_cons, get?, get?]
    split
    · rfl
    · exact ih

theorem put_map (f : α → β) (key : String) (value : α) (entries : List (String × α)) :
    put key (f value) (entries.map fun e => (e.1, f e.2)) =
      (put key value entries).map fun e => (e.1, f e.2) := by
  induction entries with
  | nil => rfl
  | cons e rest ih =>
    obtain ⟨k, old⟩ := e
    rw [List.map_cons, put, put]
    split
    · rfl
    · rw [ih]
      rfl

end Entries

/-! Names are found, claimed and given to declarations without a look at their texts. -/

section Outlines

variable (r : Registry) (base name : String) (d : Declaration)

theorem Registry.reserve_outline :
    r.outline.reserve base = (r.reserve base).map fun (name, s) => (name, s.outline) := by
  unfold Registry.reserve
  rw [show r.outline.uniqueName base = r.uniqueName base from rfl]
  cases r.uniqueName base with
  | error _ => rfl
  | ok name =>
    have hslots :
        (r.outline.take name).setSlot name none = ((r.take name).setSlot name none).outline :=
      congrArg (fun slots => ({ r.take name with slots := slots } : Registry))
        (Entries.put_map (Option.map Declaration.outline) name none r.slots)
    exact congrArg (fun s => Except.ok (name, s)) hslots

theorem Registry.claimExport_outline :
    r.outline.claimExport base = (r.claimExport base).map fun (name, s) => (name, s.outline) := by
  unfold Registry.claimExport
  rw [show r.outline.uniqueName base = r.uniqueName base from rfl]
  cases r.uniqueName base <;> rfl

theorem Registry.fulfill_outline :
    (r.fulfill name d).outline = r.outline.fulfill name d.outline := by
  have hget : (Entries.get? name r.outline.slots).isSome = (Entries.get? name r.slots).isSome :=
    (congrArg Option.isSome (Entries.get?_map (Option.map Declaration.outline) name r.slots)).trans
      Option.isSome_map
  have hput := (Entries.put_map (Option.map Declaration.outline) name (some (d.rename name))
    r.slots).symm
  unfold Registry.fulfill
  rw [hget]
  dsimp only
  split
  · exact congrArg (fun slots => ({ r with slots := slots } : Registry)) hput
  · exact congrArg (fun slots => ({ r.take name with slots := slots } : Registry)) hput

theorem Progress.finished_outline (p : Progress) (pointer : String) :
    (p.finished pointer name d).outline = p.outline.finished pointer name d.outline :=
  congrArg (fun registry => (⟨registry, p.names, p.visiting.filter (· != pointer)⟩ : Progress))
    (Registry.fulfill_outline p.registry name (d.dropDependency name))

namespace Body

variable (b : Body)

theorem mentions_outline : b.outline.mentions = b.mentions := by
  unfold mentions outline
  rw [List.foldl_map]

theorem inline_outline : b.outline.inline = b.inline := by
  unfold inline indexText? outline
  rw [List.map_map, List.isEmpty_map]
  rfl

end Body

end Outlines

/-! ### Values and outcomes that are similar -/

/-- Two values are the same in outline, and altogether the same where they are compared exactly. -/
def Similar {α β : Type} (exactly : Prop) (outline : α → β) (x x' : α) : Prop :=
  outline x = outline x' ∧ (exactly → x = x')

namespace Similar

variable {α β γ : Type} {exactly : Prop} {outline : α → β} {x x' : α}

theorem rfl : Similar exactly outline x x := ⟨Eq.refl _, fun _ => Eq.refl _⟩

/-- A change that goes the same way on outlines keeps values similar. -/
theorem update {outline : α → α} (h : Similar exactly outline x x') (f : α → α)
    (hf : ∀ x, outline (f x) = f (outline x)) : Similar exactly outline (f x) (f x') :=
  ⟨by rw [hf, hf, h.1], fun he => by rw [h.2 he]⟩

/-- What can be read off outlines is the same. -/
theorem eq_of_outline (h : Similar exactly outline x x') {f : α → γ} (g : β → γ)
    (hf : ∀ x, g (outline x) = f x) : f x = f x' := by
  rw [← hf, ← hf, h.1]

end Similar

namespace Gen

/-- Two outcomes: similar states, with values that are related or with one failure. -/
inductive Outcomes {α : Type} (exactly : Prop) (R : α → α → Prop) :
    Except Failure α × Progress → Except Failure α × Progress → Prop
  | ok {x x' q q'} (hx : R x x') (hq : Similar exactly Progress.outline q q') :
      Outcomes exactly R (.ok x, q) (.ok x', q')
  | error (failure) {q q'} (hq : Similar exactly Progress.outline q q') :
      Outcomes exactly R (.error failure, q) (.error failure, q')

/-- Two computations run side by side: from similar states, they fail in the same way or give values
that are related. -/
def Parallel {α : Type} (exactly : Prop) (R : α → α → Prop) (m m' : Gen α) : Prop :=
  ∀ p p', Similar exactly Progress.outline p p' → Outcomes exactly R (m.run.run p) (m'.run.run p')

section Rules

variable {α β : Type} {exactly : Prop} {R : α → α → Prop} {S : β → β → Prop}

namespace Parallel

theorem pure {x x' : α} (h : R x x') : Parallel exactly R (Pure.pure x) (Pure.pure x') :=
  fun _ _ hp => .ok h hp

theorem bind {m m' : Gen α} {f f' : α → Gen β} (hm : Parallel exactly R m m')
    (hf : ∀ x x', R x x' → Parallel exactly S (f x) (f' x')) :
    Parallel exactly S (m >>= f) (m' >>= f') := by
  intro p p' hp
  have h := hm p p' hp
  rw [run_bind, run_bind]
  generalize m.run.run p = outcome at h
  generalize m'.run.run p' = outcome' at h
  cases h with
  | ok hx hq => exact hf _ _ hx _ _ hq
  | error failure hq => exact .error failure hq

theorem map {m m' : Gen α} {f : α → β} (hm : Parallel exactly R m m')
    (hf : ∀ x x', R x x' → S (f x) (f x')) : Parallel exactly S (f <$> m) (f <$> m') := by
  rw [map_eq_pure_bind, map_eq_pure_bind]
  exact hm.bind fun x x' hx => .pure (hf x x' hx)

/-- A result that does not depend on the state is the same on both sides. -/
theorem ofExcept_bind {e : Except Failure α} {f f' : α → Gen β}
    (hf : ∀ x, e = .ok x → Parallel exactly S (f x) (f' x)) :
    Parallel exactly S (ofExcept e >>= f) (ofExcept e >>= f') := by
  cases e with
  | error failure => exact fun p p' hp => .error failure hp
  | ok x => exact hf x rfl

/-- Where texts are compared exactly, computations that run side by side are the same. -/
theorem eq {m m' : Gen α} (h : Parallel True Eq m m') (p : Progress) :
    m.run.run p = m'.run.run p := by
  have houtcomes := h p p .rfl
  generalize m.run.run p = outcome at houtcomes
  generalize m'.run.run p = outcome' at houtcomes
  cases houtcomes with
  | ok hx hq => rw [hx, hq.2 trivial]
  | error failure hq => rw [hq.2 trivial]

end Parallel

/-! The steps of a run on its state. -/

variable {run : Setting} {pointer raw name : String} {d d' : Declaration}

theorem parallel_nameOf?_bind {f f' : Option String → Gen β}
    (hf : ∀ name, Parallel exactly S (f name) (f' name)) :
    Parallel exactly S (nameOf? pointer >>= f) (nameOf? pointer >>= f') := by
  intro p p' hp
  rw [run_bind, run_bind, run_nameOf?, run_nameOf?,
    hp.eq_of_outline (f := fun p => p.name? pointer) (fun p => p.name? pointer) fun _ => rfl]
  exact hf _ p p' hp

/-- A claim that does not look at texts gives both sides the same name. -/
theorem parallel_claim {f : Registry → Except NameExhausted (String × Registry)}
    (hf : ∀ r : Registry, f r.outline = (f r).map fun (name, s) => (name, s.outline)) :
    Parallel exactly Eq (claim f) (claim f) := by
  intro p p' hp
  have houtline : (f p.registry).map (fun (name, s) => (name, s.outline)) =
      (f p'.registry).map fun (name, s) => (name, s.outline) := by
    rw [← hf, ← hf]
    exact congrArg (fun p => f p.registry) hp.1
  have hexact : exactly → f p.registry = f p'.registry := fun he => by rw [hp.2 he]
  rw [run_claim, run_claim]
  generalize f p.registry = claimed at houtline hexact
  generalize f p'.registry = claimed' at houtline hexact
  rcases claimed with ⟨base, attempts⟩ | ⟨name, s⟩ <;>
    rcases claimed' with ⟨base', attempts'⟩ | ⟨name', s'⟩
  · cases houtline
    exact .error _ hp
  · cases houtline
  · cases houtline
  · obtain ⟨rfl, hs⟩ := Prod.mk.inj (Except.ok.inj houtline)
    refine .ok rfl ⟨?_, fun he => ?_⟩
    · exact congrArg₂ (fun (p : Progress) registry => { p with registry := registry }) hp.1 hs
    · obtain ⟨-, rfl⟩ := Prod.mk.inj (Except.ok.inj (hexact he))
      rw [hp.2 he]

theorem parallel_begin : Parallel exactly Eq (begin run pointer raw) (begin run pointer raw) := by
  refine (parallel_claim fun r => r.reserve_outline _).bind fun name _ hname => ?_
  subst hname
  refine Parallel.bind (R := Eq) (fun p p' hp => ?_) fun _ _ _ => .pure rfl
  exact .ok rfl (hp.update (fun p => p.begun p.registry pointer name) fun _ => rfl)

theorem parallel_finish (hd : Similar exactly Declaration.outline d d') :
    Parallel exactly Eq (finish pointer name d) (finish pointer name d') := by
  intro p p' hp
  rw [run_finish, run_finish]
  refine .ok rfl ⟨?_, fun he => by rw [hp.2 he, hd.2 he]⟩
  rw [Progress.finished_outline, Progress.finished_outline, hp.1, hd.1]

/-- A pointer that has a name keeps it on both sides; otherwise it gets one. -/
theorem parallel_named {m m' : Gen String} (h : Parallel exactly Eq m m') :
    Parallel exactly Eq
      (do
        match ← nameOf? pointer with
        | some name => pure name
        | none => m)
      (do
        match ← nameOf? pointer with
        | some name => pure name
        | none => m') :=
  parallel_nameOf?_bind fun
    | some _ => .pure rfl
    | none => h

end Rules

/-! ### Answers that run side by side -/

section Answers

variable (run : Setting) (exactly : Prop)

/-- Every use of a reference runs side by side with itself. -/
def Steady (refer : Refer) : Prop :=
  ∀ reference location, Parallel exactly Eq (refer reference location) (refer reference location)

/-- The answers of counterparts run side by side. -/
structure ParallelAnswers (answers answers' : Answers) : Prop where
  use : ∀ location hint,
    Parallel exactly Eq (answers.use location hint) (answers'.use location hint)
  declare : ∀ pointer raw,
    Parallel exactly Eq (answers.declare pointer raw) (answers'.declare pointer raw)
  collect : ∀ location owner {body body'}, Similar exactly Body.outline body body' →
    Parallel exactly (Similar exactly Body.outline) (answers.collect location owner body)
      (answers'.collect location owner body')

/-- Two nodes of the same form with their answers. -/
inductive ParallelPart : Part → Part → Prop
  | reference (pointer) : ParallelPart (.reference pointer) (.reference pointer)
  | boolean (allowed) : ParallelPart (.boolean allowed) (.boolean allowed)
  | inline {s s' answers answers'} (hs : s.Paired (Schema.Own run exactly) s')
      (h : ParallelAnswers exactly answers answers') :
      ParallelPart (.inline s answers) (.inline s' answers')

/-- The parts of counterparts with their answers. -/
structure ParallelParts (parts parts' : Parts) : Prop where
  properties : List.Forall₂ (fun e e' => e.1 = e'.1 ∧ ParallelPart run exactly e.2 e'.2)
    parts.properties parts'.properties
  additional : Option.Rel (ParallelPart run exactly) parts.additional parts'.additional
  items : Option.Rel (ParallelPart run exactly) parts.items parts'.items
  oneOf : List.Forall₂ (ParallelPart run exactly) parts.oneOf parts'.oneOf
  anyOf : List.Forall₂ (ParallelPart run exactly) parts.anyOf parts'.anyOf
  allOf : List.Forall₂ (ParallelPart run exactly) parts.allOf parts'.allOf

end Answers

section Makers

variable {run : Setting} {exactly : Prop} {refer : Refer} {s s' : Schema} {part part' : Part}
  {parts parts' : Parts}
  (hr : Steady exactly refer)

section Uses

include hr

theorem parallel_use (h : ParallelPart run exactly part part') (location hint : String) :
    Parallel exactly Eq (part.use refer location hint) (part'.use refer location hint) := by
  cases h with
  | reference pointer => exact hr pointer location
  | boolean allowed => exact .pure rfl
  | inline _ h => exact h.use location hint

theorem parallel_field (h : ParallelPart run exactly part part') (owner name : String)
    (required : Bool) (location : String) :
    Parallel exactly (Similar exactly fun f : ObjectField => { f with docs := "" })
      (field run refer owner name part required location)
      (field run refer owner name part' required location) := by
  refine (parallel_use hr h location _).bind fun use _ huse => ?_
  subst huse
  cases h with
  | reference | boolean => exact .pure .rfl
  | inline hs _ => exact .pure ⟨rfl, fun he => by dsimp only; rw [hs.own.docs he]⟩

theorem parallel_collectFields (hs : s.Paired (Schema.Own run exactly) s')
    (location owner : String) :
    {properties properties' : List (String × Part)} →
      List.Forall₂ (fun e e' => e.1 = e'.1 ∧ ParallelPart run exactly e.2 e'.2) properties
        properties' →
      {body body' : Body} → Similar exactly Body.outline body body' →
      Parallel exactly (Similar exactly Body.outline)
        (collectFields run refer s location owner properties body)
        (collectFields run refer s' location owner properties' body')
  | [], [], .nil, _, _, hbody => .pure hbody
  | (name, part) :: rest, (_, part') :: rest', .cons h hrest, body, body', hbody => by
      obtain ⟨rfl, hpart⟩ := h
      unfold collectFields
      rw [hs.isRequired_eq name]
      refine (parallel_field hr hpart owner name _ _).bind fun f f' hf => ?_
      refine parallel_collectFields hs location owner hrest ⟨?_, fun he => ?_⟩
      · have hput (body : Body) (f : ObjectField) :
            ({ body with fields := Entries.put name f body.fields } : Body).outline =
              { body.outline with
                fields := Entries.put name { f with docs := "" } body.outline.fields } :=
          congrArg (fun fields => (⟨fields, body.index⟩ : Body))
            (Entries.put_map (fun f : ObjectField => { f with docs := "" }) name f
              body.fields).symm
        rw [hput, hput, hbody.1]
        exact congrArg (fun f => ({ body'.outline with
          fields := Entries.put name f body'.outline.fields } : Body)) hf.1
      · rw [hbody.2 he, hf.2 he]

theorem parallel_additionalUse (h : ParallelParts run exactly parts parts')
    (location owner : String) :
    Parallel exactly Eq (additionalUse refer parts location owner)
      (additionalUse refer parts' location owner) := by
  have hadditional := h.additional
  unfold additionalUse
  generalize parts.additional = additional at hadditional
  generalize parts'.additional = additional' at hadditional
  cases hadditional with
  | none => exact .pure rfl
  | some hpart =>
    have hpresent := (parallel_use hr hpart (Pointer.child location "additionalProperties")
      (Naming.compose [owner, "Value"])).map (S := Eq) fun _ _ => congrArg some
    cases hpart with
    | reference | inline => exact hpresent
    | boolean allowed =>
      cases allowed with
      | true => exact hpresent
      | false => exact .pure rfl

theorem parallel_collect (hs : s.Paired (Schema.Own run exactly) s')
    (h : ParallelParts run exactly parts parts') (location owner : String) {body body' : Body}
    (hbody : Similar exactly Body.outline body body') :
    Parallel exactly (Similar exactly Body.outline)
      (collect run refer s parts location owner body)
      (collect run refer s' parts' location owner body') := by
  refine (parallel_collectFields hr hs _ owner h.properties hbody).bind fun body body' hbody => ?_
  refine (parallel_additionalUse hr h location owner).bind fun index _ hindex => ?_
  subst hindex
  cases index with
  | none => exact .pure hbody
  | some use =>
    exact .pure (hbody.update (fun b => { b with index := some use }) fun _ => rfl)

theorem parallel_record (h : ParallelParts run exactly parts parts') (location owner : String) :
    Parallel exactly Eq (record refer parts location owner)
      (record refer parts' location owner) := by
  have hallowed := (parallel_additionalUse hr h location owner).bind (S := Eq) fun _ _ hi =>
    Parallel.pure (congrArg (fun index => (index.getD TypeUse.unknown).record) hi)
  have hadditional := h.additional
  unfold record
  generalize parts.additional = additional at hadditional
  generalize parts'.additional = additional' at hadditional
  cases hadditional with
  | none => exact hallowed
  | some hpart =>
    cases hpart with
    | reference | inline => exact hallowed
    | boolean allowed =>
      cases allowed with
      | true => exact hallowed
      | false => exact .pure rfl

theorem parallel_inlineObject (hs : s.Paired (Schema.Own run exactly) s')
    (h : ParallelParts run exactly parts parts') (location hint : String) :
    Parallel exactly Eq (inlineObject run refer s parts location hint)
      (inlineObject run refer s' parts' location hint) := by
  have hproperties : s.properties.isEmpty = s'.properties.isEmpty := by
    obtain ⟨-, hproperties⟩ := hs
    exact isEmpty_eq_of_forall₂ hproperties
  unfold inlineObject
  rw [hproperties]
  split
  · exact parallel_record hr h location hint
  · refine (parallel_collect hr hs h location hint .rfl).bind fun body body' hbody => .pure ?_
    rw [hbody.eq_of_outline Body.inline Body.inline_outline,
      hbody.eq_of_outline Body.mentions Body.mentions_outline]

theorem parallel_plainUse (hs : s.Paired (Schema.Own run exactly) s')
    (h : ParallelParts run exactly parts parts') (location hint : String) :
    Parallel exactly Eq (plainUse run refer s parts location hint)
      (plainUse run refer s' parts' location hint) := by
  have hitems := h.items
  unfold plainUse
  rw [hs.shape_eq, hs.own.constant, hs.own.enumeration, hs.own.format]
  split
  · generalize parts.items = items at hitems
    generalize parts'.items = items' at hitems
    cases hitems with
    | none => exact .pure rfl
    | some hpart =>
      exact (parallel_use hr hpart _ _).bind fun use _ huse => .pure (congrArg TypeUse.array huse)
  all_goals exact .pure rfl

end Uses

/-! ### Declarations -/

/-- Declarations with the same facts are similar if their texts agree where they are compared. -/
theorem similar_alias {docs docs' name pointer : String} (use : TypeUse)
    (hdocs : exactly → docs = docs') :
    Similar exactly Declaration.outline (aliasDeclaration docs name use pointer)
      (aliasDeclaration docs' name use pointer) :=
  ⟨rfl, fun he => by rw [hdocs he]⟩

theorem similar_body {c c' : Composition} (h : Similar exactly Composition.outline c c') :
    Similar exactly Body.outline c.body c'.body :=
  ⟨congrArg Composition.body h.1, fun he => by rw [h.2 he]⟩

theorem parallel_enumerationDeclaration (hs : s.Paired (Schema.Own run exactly) s')
    (pointer name : String) :
    Parallel exactly (Similar exactly Declaration.outline)
      (enumerationDeclaration run s pointer name) (enumerationDeclaration run s' pointer name) := by
  unfold enumerationDeclaration
  dsimp only
  rw [hs.literals_eq]
  split
  · refine (parallel_claim fun r => r.claimExport_outline _).bind fun valuesName _ hname => ?_
    subst hname
    exact .pure ⟨rfl, fun he => by rw [hs.own.docs he]⟩
  · exact .pure (similar_alias _ fun he => by rw [hs.own.docs he])

section Uses

include hr

theorem parallel_plainDeclaration (hs : s.Paired (Schema.Own run exactly) s')
    (h : ParallelParts run exactly parts parts') (pointer name raw : String) :
    Parallel exactly (Similar exactly Declaration.outline)
      (plainDeclaration run refer s parts pointer name raw)
      (plainDeclaration run refer s' parts' pointer name raw) := by
  refine (parallel_plainUse hr hs h pointer raw).bind fun use _ huse => ?_
  subst huse
  rw [hs.own.nullable]
  exact .pure (similar_alias _ fun he => by rw [hs.own.docs he])

theorem parallel_composeEntry (h : ParallelPart run exactly part part') (raw location : String)
    (i : Nat) {c c' : Composition} (hc : Similar exactly Composition.outline c c') :
    Parallel exactly (Similar exactly Composition.outline)
      (composeEntry run refer raw location i part c)
      (composeEntry run refer raw location i part' c') := by
  have hother (use : TypeUse) : Parallel exactly (Similar exactly Composition.outline)
      (pure { c with
        mentions := Names.union c.mentions use.mentions
        others := c.others ++ [TypeUse.parenthesize use.text] })
      (pure { c' with
        mentions := Names.union c'.mentions use.mentions
        others := c'.others ++ [TypeUse.parenthesize use.text] }) :=
    .pure (hc.update (fun c => { c with
      mentions := Names.union c.mentions use.mentions
      others := c.others ++ [TypeUse.parenthesize use.text] }) fun _ => rfl)
  unfold composeEntry
  cases h with
  | reference reference =>
    refine .ofExcept_bind fun pointer _ => .ofExcept_bind fun objectLike _ => ?_
    refine (hr reference _).bind fun base _ hbase => ?_
    subst hbase
    split
    · exact .pure (hc.update (fun c => { c with
        mentions := Names.union c.mentions base.mentions
        bases := c.bases ++ [base.text] }) fun _ => rfl)
    · exact hother base
  | boolean allowed =>
    cases allowed with
    | true => exact .pure hc
    | false =>
      exact .pure (hc.update (fun c => { c with others := c.others ++ ["never"] }) fun _ => rfl)
  | inline hs h =>
    dsimp only
    rw [hs.isMergeable_eq]
    split
    · refine (h.collect _ raw (similar_body hc)).bind fun body body' hbody => .pure ⟨?_, fun he => ?_⟩
      · exact congrArg₂ (fun (c : Composition) body => { c with body := body }) hc.1 hbody.1
      · rw [hc.2 he, hbody.2 he]
    · refine (h.use _ _).bind fun use _ huse => ?_
      subst huse
      exact hother use

theorem parallel_composeEntries (raw location : String) :
    {entries entries' : List Part} →
      List.Forall₂ (ParallelPart run exactly) entries entries' → (i : Nat) →
      {c c' : Composition} → Similar exactly Composition.outline c c' →
      Parallel exactly (Similar exactly Composition.outline)
        (composeEntries run refer raw location i entries c)
        (composeEntries run refer raw location i entries' c')
  | [], [], .nil, _, _, _, hc => .pure hc
  | _ :: _, _ :: _, .cons h hrest, i, _, _, hc =>
      (parallel_composeEntry hr h raw location i hc).bind fun _ _ hc =>
        parallel_composeEntries raw location hrest (i + 1) hc

theorem parallel_objectDeclaration (hs : s.Paired (Schema.Own run exactly) s')
    (h : ParallelParts run exactly parts parts') (pointer name raw : String) :
    Parallel exactly (Similar exactly Declaration.outline)
      (objectDeclaration run refer s parts pointer name raw)
      (objectDeclaration run refer s' parts' pointer name raw) := by
  have hempty : (s.properties.isEmpty && s.allOf.isEmpty) =
      (s'.properties.isEmpty && s'.allOf.isEmpty) := by
    obtain ⟨-, hproperties, -, -, -, -, hallOf⟩ := hs
    rw [isEmpty_eq_of_forall₂ hproperties, isEmpty_eq_of_forall₂ hallOf]
  unfold objectDeclaration
  dsimp only
  rw [hempty]
  split
  · refine (parallel_record hr h pointer raw).bind fun use _ huse => ?_
    subst huse
    exact .pure (similar_alias _ fun he => by rw [hs.own.docs he])
  · refine (parallel_composeEntries hr raw _ h.allOf 0 .rfl).bind fun c c' hc => ?_
    refine (parallel_collect hr hs h pointer raw (similar_body hc)).bind fun body body' hbody => ?_
    have hmentions :
        Names.union c.mentions body.mentions = Names.union c'.mentions body'.mentions :=
      congrArg₂ Names.union (hc.eq_of_outline Composition.mentions fun _ => rfl)
        (hbody.eq_of_outline Body.mentions Body.mentions_outline)
    have hothers : c.others = c'.others :=
      hc.eq_of_outline Composition.others fun _ => rfl
    rw [hmentions, hothers]
    split
    · exact .pure ⟨rfl, fun he => by rw [hs.own.docs he, hc.2 he, hbody.2 he]⟩
    · exact .pure ⟨rfl, fun he => by rw [hs.own.docs he, hc.2 he, hbody.2 he]⟩

end Uses

/-! ### Unions -/

/-- Nodes of counterparts at the same place pin themselves to the same literal. -/
theorem schemaOf_literal?_eq {node node' : SchemaNode}
    (h : node.Paired (Schema.Own run exactly) node') (location : String) :
    (run.tree.schemaOf node location).map Schema.literal? =
      (run.tree.schemaOf node' location).map Schema.literal? := by
  cases h with
  | reference | boolean => rfl
  | schema hs => exact congrArg Except.ok hs.literal?_eq

theorem firstLiteral?_eq (location : String) :
    {properties properties' : List (String × SchemaNode)} →
      List.Forall₂ (Property.Paired (Schema.Own run exactly)) properties properties' →
      firstLiteral? run location properties = firstLiteral? run location properties'
  | [], [], .nil => rfl
  | (name, _) :: rest, _ :: rest', .cons (.mk hnode) hrest => by
      have hliteral := schemaOf_literal?_eq hnode (Pointer.child location name)
      have ih := firstLiteral?_eq location hrest
      unfold firstLiteral?
      generalize run.tree.schemaOf _ _ = found at hliteral ⊢
      generalize run.tree.schemaOf _ _ = found' at hliteral ⊢
      rcases found with failure | property <;> rcases found' with failure' | property'
      · cases hliteral
        rfl
      · cases hliteral
      · cases hliteral
      · have heq : property.literal? = property'.literal? := Except.ok.inj hliteral
        dsimp only [bind, Except.bind]
        rw [heq, ih]

theorem get?_paired (key : String) {properties properties' : List (String × SchemaNode)}
    (h : List.Forall₂ (Property.Paired (Schema.Own run exactly)) properties properties') :
    Option.Rel (SchemaNode.Paired (Schema.Own run exactly)) (Entries.get? key properties)
      (Entries.get? key properties') := by
  induction h with
  | nil => exact .none
  | cons hproperty _ ih =>
    obtain ⟨hnode⟩ := hproperty
    unfold Entries.get?
    split
    · exact .some hnode
    · exact ih

/-- Counterparts that need a declaration of their own get the same raw name. -/
theorem branchName_eq (hs : s.Paired (Schema.Own run exactly) s') (discriminator : Option String)
    (unionName : String) (position : Nat) (location : String) :
    branchName run discriminator s unionName position location =
      branchName run discriminator s' unionName position location := by
  have hproperties : List.Forall₂ (Property.Paired (Schema.Own run exactly)) s.properties
      s'.properties := by
    obtain ⟨-, hproperties⟩ := hs
    exact hproperties
  have hliteral : branchLiteral? run discriminator s location =
      branchLiteral? run discriminator s' location := by
    refine @firstLiteral?_eq run exactly _ _ _ ?_
    cases discriminator with
    | none => exact hproperties
    | some property =>
      have hget := get?_paired property hproperties
      dsimp only
      generalize Entries.get? property s.properties = node at hget
      generalize Entries.get? property s'.properties = node' at hget
      cases hget with
      | none => exact .nil
      | some hnode => exact .cons ⟨hnode⟩ .nil
  unfold branchName
  rw [hliteral, hs.own.title]

section Uses

include hr

theorem parallel_branchUse (h : ParallelPart run exactly part part')
    (discriminator : Option String) (unionName location : String) (i : Nat) :
    Parallel exactly Eq (branchUse run refer discriminator unionName location i part)
      (branchUse run refer discriminator unionName location i part') := by
  unfold branchUse
  cases h with
  | reference pointer => exact hr pointer location
  | boolean allowed => exact .pure rfl
  | inline hs h =>
    dsimp only
    rw [hs.needsDeclaration_eq, branchName_eq hs]
    split
    · refine .ofExcept_bind fun raw _ => ?_
      refine (h.declare location raw).bind fun name _ hname => .pure ?_
      rw [hname, hs.ofDeclaration_eq]
    · exact h.use location _

theorem parallel_addBranches (discriminator : Option String) (unionName location : String) :
    {branches branches' : List Part} →
      List.Forall₂ (ParallelPart run exactly) branches branches' → (i : Nat) → (m : Members) →
      Parallel exactly Eq (addBranches run refer discriminator unionName location i branches m)
        (addBranches run refer discriminator unionName location i branches' m)
  | [], [], .nil, _, _ => .pure rfl
  | _ :: _, _ :: _, .cons h hrest, i, m =>
      (parallel_branchUse hr h discriminator unionName _ i).bind fun use _ huse => by
        subst huse
        exact parallel_addBranches discriminator unionName location hrest (i + 1) (m.add use)

theorem parallel_unionUse (hs : s.Paired (Schema.Own run exactly) s')
    (h : ParallelParts run exactly parts parts') (location unionName : String) :
    Parallel exactly Eq (unionUse run refer s parts location unionName)
      (unionUse run refer s' parts' location unionName) := by
  have hbranches :
      List.Forall₂ (ParallelPart run exactly) (parts.branches s) (parts'.branches s') := by
    unfold Parts.branches
    rw [hs.prefersOneOf_eq]
    split
    · exact h.oneOf
    · exact h.anyOf
  unfold unionUse
  rw [hs.own.discriminator, hs.branchKeyword_eq, hs.own.nullable]
  exact (parallel_addBranches hr _ unionName _ hbranches 0 _).bind fun m _ hm =>
    .pure (congrArg Members.use hm)

theorem parallel_unionDeclaration (hs : s.Paired (Schema.Own run exactly) s')
    (h : ParallelParts run exactly parts parts') (pointer name raw : String) :
    Parallel exactly (Similar exactly Declaration.outline)
      (unionDeclaration run refer s parts pointer name raw)
      (unionDeclaration run refer s' parts' pointer name raw) := by
  refine (parallel_unionUse hr hs h pointer raw).bind fun use _ huse => ?_
  subst huse
  dsimp only
  rw [hs.own.discriminator]
  exact .pure (similar_alias _ fun he => by rw [hs.own.docs he])

/-! ### Declarations and uses -/

theorem parallel_makeDeclaration (hs : s.Paired (Schema.Own run exactly) s')
    (h : ParallelParts run exactly parts parts') (pointer name raw : String) :
    Parallel exactly (Similar exactly Declaration.outline)
      (makeDeclaration run refer s parts pointer name raw)
      (makeDeclaration run refer s' parts' pointer name raw) := by
  unfold makeDeclaration
  rw [hs.shape_eq]
  split
  · exact parallel_objectDeclaration hr hs h pointer name raw
  · exact parallel_unionDeclaration hr hs h pointer name raw
  · exact parallel_enumerationDeclaration hs pointer name
  · exact parallel_plainDeclaration hr hs h pointer name raw

theorem parallel_declareSchema (hs : s.Paired (Schema.Own run exactly) s')
    (h : ParallelParts run exactly parts parts') (pointer raw : String) :
    Parallel exactly Eq (declareSchema run refer s parts pointer raw)
      (declareSchema run refer s' parts' pointer raw) :=
  parallel_named (parallel_begin.bind fun name _ hname => by
    subst hname
    exact (parallel_makeDeclaration hr hs h pointer name raw).bind fun _ _ hd =>
      (parallel_finish hd).bind fun _ _ _ => .pure rfl)

theorem parallel_useSchema (hs : s.Paired (Schema.Own run exactly) s')
    (h : ParallelParts run exactly parts parts') (location hint : String) :
    Parallel exactly Eq (useSchema run refer s parts location hint)
      (useSchema run refer s' parts' location hint) := by
  unfold useSchema
  rw [hs.placement_eq, hs.own.nullable]
  split
  · exact (hr _ _).bind fun use _ huse => .pure (congrArg _ huse)
  · refine Parallel.bind (R := Eq) ?_ fun use _ huse => .pure (congrArg _ huse)
    unfold inPlaceUse
    rw [hs.shape_eq]
    split
    · exact parallel_unionUse hr hs h location hint
    · exact parallel_inlineObject hr hs h location hint
    · exact parallel_plainUse hr hs h location hint
  · refine (parallel_declareSchema hr hs h location hint).bind fun name _ hname => .pure ?_
    rw [hname, hs.ofDeclaration_eq]

theorem parallel_answers (hs : s.Paired (Schema.Own run exactly) s')
    (h : ParallelParts run exactly parts parts') :
    ParallelAnswers exactly (answers run refer s parts) (answers run refer s' parts') where
  use := parallel_useSchema hr hs h
  declare := parallel_declareSchema hr hs h
  collect location owner {_ _} hbody := parallel_collect hr hs h location owner hbody

/-! ### Nodes -/

-- The hypothesis is used by the block as a whole, not by each of its theorems.
set_option linter.unusedSectionVars false in
mutual

/-- The answers of nodes of the same form run side by side. -/
theorem parallel_part : (node : SchemaNode) → {node' : SchemaNode} →
    node.Paired (Schema.Own run exactly) node' →
    ParallelPart run exactly (node.part run refer) (node'.part run refer)
  | _, _, .reference pointer => .reference pointer
  | _, _, .boolean allowed => .boolean allowed
  | .schema s, _, .schema hs => .inline hs (parallel_answers hr hs (parallel_parts s hs))

theorem parallel_parts : (s : Schema) → {s' : Schema} → s.Paired (Schema.Own run exactly) s' →
    ParallelParts run exactly (s.parts run refer) (s'.parts run refer)
  | ⟨_, _, _, _, properties, _, additional, items, oneOf, anyOf, allOf, _, _, _, _, _, _, _⟩,
      ⟨_, _, _, _, _, _, _, _, _, _, _, _, _, _, _, _, _, _⟩,
      .mk _ hproperties hadditional hitems honeOf hanyOf hallOf =>
    { properties := parallel_tableParts properties hproperties
      additional := parallel_optionPart additional hadditional
      items := parallel_optionPart items hitems
      oneOf := parallel_listParts oneOf honeOf
      anyOf := parallel_listParts anyOf hanyOf
      allOf := parallel_listParts allOf hallOf }

private theorem parallel_tableParts : (table : List (String × SchemaNode)) →
    {table' : List (String × SchemaNode)} →
    List.Forall₂ (Property.Paired (Schema.Own run exactly)) table table' →
    List.Forall₂ (fun e e' => e.1 = e'.1 ∧ ParallelPart run exactly e.2 e'.2)
      (SchemaNode.tableParts run refer table) (SchemaNode.tableParts run refer table')
  | [], _, .nil => .nil
  | (_, node) :: rest, _, .cons (.mk hnode) hrest =>
    .cons ⟨rfl, parallel_part node hnode⟩ (parallel_tableParts rest hrest)

private theorem parallel_listParts : (nodes : List SchemaNode) → {nodes' : List SchemaNode} →
    List.Forall₂ (SchemaNode.Paired (Schema.Own run exactly)) nodes nodes' →
    List.Forall₂ (ParallelPart run exactly) (SchemaNode.listParts run refer nodes)
      (SchemaNode.listParts run refer nodes')
  | [], _, .nil => .nil
  | node :: rest, _, .cons hnode hrest =>
    .cons (parallel_part node hnode) (parallel_listParts rest hrest)

private theorem parallel_optionPart : (node : Option SchemaNode) → {node' : Option SchemaNode} →
    Option.Rel (SchemaNode.Paired (Schema.Own run exactly)) node node' →
    Option.Rel (ParallelPart run exactly) (SchemaNode.optionPart run refer node)
      (SchemaNode.optionPart run refer node')
  | none, _, .none => .none
  | some node, _, .some hnode => .some (parallel_part node hnode)

end

end Uses

end Makers

/-! ### References -/

section References

variable {run : Setting} {exactly : Prop} {refer : Refer}

/-- What a reference finds at its target is declared in the same way on both sides. -/
theorem parallel_declareFound (hr : Steady exactly refer) (pointer raw : String)
    (node : SchemaNode) :
    Parallel exactly Eq (declareFound run refer pointer raw node)
      (declareFound run refer pointer raw node) := by
  have halias {use : Gen TypeUse} (huse : Parallel exactly Eq use use) :
      Parallel exactly Eq (declareAlias run pointer raw use) (declareAlias run pointer raw use) :=
    parallel_begin.bind fun name _ hname => by
      subst hname
      exact huse.bind fun use _ huse =>
        (parallel_finish (huse ▸ .rfl)).bind fun _ _ _ => .pure rfl
  cases node with
  | reference target =>
    refine halias (.ofExcept_bind fun s _ => ?_)
    split
    · exact .pure rfl
    · exact hr target pointer
  | boolean allowed => exact halias (.pure rfl)
  | schema s =>
    have hs : s.Paired (Schema.Own run exactly) s := .refl Schema.Own.refl s
    exact parallel_declareSchema hr hs (parallel_parts hr s hs) pointer raw

theorem parallel_referenceWith (hr : Steady exactly refer) (reference from_ : String) :
    Parallel exactly Eq (referenceWith run refer reference from_)
      (referenceWith run refer reference from_) := by
  refine .ofExcept_bind fun pointer _ => ?_
  split
  · exact .pure rfl
  · rw [ensureNamedWith_eq]
    refine Parallel.bind (R := Eq) (.ofExcept_bind fun target _ => parallel_named
      (.ofExcept_bind fun node _ => parallel_declareFound hr target _ node)) fun name _ hname => ?_
    subst hname
    exact .ofExcept_bind fun null _ => .pure rfl

theorem steady_referAt : (bound : Nat) → Steady exactly (referAt run bound)
  | 0 => fun _ _ => .pure rfl
  | bound + 1 => parallel_referenceWith (steady_referAt bound)

end References

/-! ### Entry points -/

section Runs

variable (run : Setting) (exactly : Prop)

theorem steady_refer : Steady exactly (refer run) := steady_referAt run.tree.bound

theorem parallel_typeOf {node node' : SchemaNode} (h : node.Paired (Schema.Own run exactly) node')
    (location hint : String) :
    Parallel exactly Eq (typeOf run node location hint) (typeOf run node' location hint) :=
  parallel_use (steady_refer run exactly) (parallel_part (steady_refer run exactly) node h) location
    hint

theorem parallel_generateNamed {s s' : Schema} (h : s.Paired (Schema.Own run exactly) s')
    (pointer raw : String) :
    Parallel exactly Eq (generateNamed run s pointer raw) (generateNamed run s' pointer raw) :=
  parallel_declareSchema (steady_refer run exactly) h
    (parallel_parts (steady_refer run exactly) s h) pointer raw

end Runs

end Gen

end OpenApiTs
