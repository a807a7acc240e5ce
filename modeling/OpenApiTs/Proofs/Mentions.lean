import OpenApiTs.Proofs.Operations

/-!
# Mentions are names of pointers

Whatever a type mentions is the name of a pointer. A name enters a type only where a reference or a
part is used by its name, and every other rule passes on what it is given.

## Main definitions

* `Progress.Knows`: names of pointers.
* `UseLaw.mentions`: the law of mentions.

## Main results

* `Makes.knows`, `Synthesizes.knows`: a declaration depends on names of pointers only.
-/

namespace OpenApiTs

/-- Each of the names is that of a pointer. -/
def Progress.Knows (p : Progress) (names : List String) : Prop :=
  ∀ name ∈ names, ∃ pointer, p.name? pointer = some name

section Rules

variable {run : Setting} {p : Progress} {U : UseRelation}

theorem Progress.knows_nil : p.Knows [] := fun _ h => nomatch h

theorem Progress.Knows.union {names more : List String} (h : p.Knows names) (h' : p.Knows more) :
    p.Knows (Names.union names more) :=
  fun name hn => (Names.mem_union.mp hn).elim (h name) (h' name)

/-- The names that are gathered from a list. -/
theorem Names.mem_foldl_union {α : Type} {more : α → List String} {l : List α}
    {names : List String} {name : String} :
    name ∈ l.foldl (fun names a => Names.union names (more a)) names ↔
      name ∈ names ∨ ∃ a ∈ l, name ∈ more a := by
  induction l generalizing names with
  | nil => simp
  | cons a l ih => rw [List.foldl_cons, ih, Names.mem_union, List.exists_mem_cons_iff, or_assoc]

/-- Mentions that are gathered from a list are known if each of them is. -/
private theorem knows_foldl {α : Type} {mentions : α → List String} {l : List α}
    (h : ∀ a ∈ l, p.Knows (mentions a)) :
    p.Knows (l.foldl (fun names a => Names.union names (mentions a)) []) := by
  intro name hname
  obtain ⟨a, ha, hmem⟩ := (Names.mem_foldl_union.mp hname).resolve_left List.not_mem_nil
  exact h a ha name hmem

/-! ### Types -/

theorem Progress.knows_named {pointer name : String} (h : p.name? pointer = some name) :
    p.Knows (TypeUse.named name).mentions := fun n hn => by
  rw [List.mem_singleton.mp hn]
  exact ⟨pointer, h⟩

theorem Progress.knows_ofDeclaration {pointer name : String} (h : p.name? pointer = some name)
    (s : Schema) : p.Knows (TypeUse.ofDeclaration name s).mentions := by
  rw [TypeUse.mentions_ofDeclaration]
  exact Progress.knows_named h

theorem TypeUse.mentions_ofBoolean (allowed : Bool) : (ofBoolean allowed).mentions = [] := by
  cases allowed <;> rfl

theorem ReferenceUse.knows {reference : String} {use : TypeUse}
    (h : ReferenceUse run p reference use) : p.Knows use.mentions := by
  cases h with
  | excluded => exact Progress.knows_nil
  | named _ _ hn _ =>
    rw [TypeUse.mentions_orNullIf]
    exact Progress.knows_named hn

theorem BodyUse.knows {node : SchemaNode} {location : String} {use : TypeUse}
    (h : BodyUse run p node location use) : p.Knows use.mentions := by
  cases h with
  | reference h => exact h.knows
  | boolean allowed =>
    rw [TypeUse.mentions_ofBoolean]
    exact Progress.knows_nil
  | schema hn => exact Progress.knows_ofDeclaration hn _

section Given

variable (hU : ∀ {node location use}, U node location use → p.Knows use.mentions)
include hU

theorem BranchUse.knows {node : SchemaNode} {location : String} {use : TypeUse}
    (h : BranchUse p U node location use) : p.Knows use.mentions := by
  cases h with
  | declared _ hn => exact Progress.knows_ofDeclaration hn _
  | inPlace _ h => exact hU h

theorem Row.knows {location : String} {i : Nat} {nodes : List SchemaNode} {uses : List TypeUse}
    (h : Row (BranchUse p U) location i nodes uses) : ∀ use ∈ uses, p.Knows use.mentions := by
  induction h with
  | nil => exact fun _ h => nomatch h
  | cons h _ ih => exact List.forall_mem_cons.mpr ⟨h.knows hU, ih⟩

omit hU in
private theorem mentions_add (m : Gen.Members) (use : TypeUse) :
    (m.add use).mentions = Names.union m.mentions use.mentions := by
  unfold Gen.Members.add
  dsimp only
  split
  · rfl
  · split
    · rfl
    · split <;> rfl

omit hU in
private theorem knows_members :
    (uses : List TypeUse) → (∀ use ∈ uses, p.Knows use.mentions) → {m : Gen.Members} →
      p.Knows m.mentions → p.Knows (uses.foldl Gen.Members.add m).mentions
  | [], _, _, hm => hm
  | use :: uses, h, m, hm => by
      refine knows_members uses (fun u hu => h u (List.mem_cons_of_mem use hu)) ?_
      rw [mentions_add]
      exact hm.union (h use List.mem_cons_self)

theorem UnionUse.knows {s : Schema} {location : String} {use : TypeUse}
    (h : UnionUse p U s location use) : p.Knows use.mentions := by
  obtain ⟨h⟩ := h
  exact knows_members _ (h.knows hU) Progress.knows_nil

/-! ### Bodies -/

omit hU in
theorem Body.mem_mentions {b : Body} {name : String} :
    name ∈ b.mentions ↔
      (∃ e ∈ b.fields, name ∈ e.2.use.mentions) ∨
        ∃ use, b.index = some use ∧ name ∈ use.mentions := by
  rw [mentions, Names.mem_union, Names.mem_foldl_union]
  cases b.index <;> simp

theorem Fields.knows {s : Schema} {location : String} {properties : List (String × SchemaNode)}
    {body body' : Body} (h : Fields run U s location properties body body')
    (hb : p.Knows body.mentions) : p.Knows body'.mentions := by
  induction h with
  | nil => exact hb
  | cons huse _ ih =>
    refine ih fun name hname => ?_
    rcases Body.mem_mentions.mp hname with ⟨e, he, hname⟩ | hindex
    · rcases Entries.mem_put he with rfl | he
      · exact hU huse name hname
      · exact hb name (Body.mem_mentions.mpr (.inl ⟨e, he, hname⟩))
    · exact hb name (Body.mem_mentions.mpr (.inr hindex))

theorem AdditionalUse.knows {location : String} {node : Option SchemaNode} {use : Option TypeUse}
    (h : AdditionalUse U location node use) : ∀ u ∈ use, p.Knows u.mentions := by
  cases h with
  | absent | forbidden => exact fun _ h => nomatch h
  | present _ h =>
    intro u hu
    cases hu
    exact hU h

theorem Collects.knows {s : Schema} {location : String} {body body' : Body}
    (h : Collects run U s location body body') (hb : p.Knows body.mentions) :
    p.Knows body'.mentions := by
  obtain @⟨body'', index, hfields, hadditional⟩ := h
  have hknown := hfields.knows hU hb
  intro name hname
  rcases Body.mem_mentions.mp hname with hfield | ⟨use, huse, hmem⟩
  · exact hknown name (Body.mem_mentions.mpr (.inl hfield))
  · cases index with
    | none => exact hknown name (Body.mem_mentions.mpr (.inr ⟨use, huse, hmem⟩))
    | some u =>
      cases huse
      exact hadditional.knows hU use rfl name hmem

theorem RecordUse.knows {s : Schema} {location : String} {use : TypeUse}
    (h : RecordUse U s location use) : p.Knows use.mentions := by
  cases h with
  | forbidden => exact Progress.knows_nil
  | @allowed index _ ha =>
    cases index with
    | none => exact Progress.knows_nil
    | some u => exact ha.knows hU u rfl

theorem ObjectUse.knows {s : Schema} {location : String} {use : TypeUse}
    (h : ObjectUse run U s location use) : p.Knows use.mentions := by
  cases h with
  | record _ h => exact h.knows hU
  | body _ h => exact h.knows hU Progress.knows_nil

theorem PlainUse.knows {s : Schema} {location : String} {use : TypeUse}
    (h : PlainUse run U s location use) : p.Knows use.mentions := by
  cases h with
  | array _ _ h =>
    rw [TypeUse.mentions_array]
    exact hU h
  | anyArray | constant | enumeration | scalars | unknown => exact Progress.knows_nil

theorem NodeUse.knows {node : SchemaNode} {location : String} {use : TypeUse}
    (h : NodeUse run p U node location use) : p.Knows use.mentions := by
  cases h with
  | reference h => exact h.knows
  | boolean allowed =>
    rw [TypeUse.mentions_ofBoolean]
    exact Progress.knows_nil
  | wrapped _ h =>
    rw [TypeUse.mentions_orNullIf]
    exact h.knows
  | byName _ hn => exact Progress.knows_ofDeclaration hn _
  | union _ _ h =>
    rw [TypeUse.mentions_orNullIf]
    exact h.knows hU
  | object _ h =>
    rw [TypeUse.mentions_orNullIf]
    exact h.knows hU
  | plain _ _ h =>
    rw [TypeUse.mentions_orNullIf]
    exact h.knows hU

/-! ### Declarations -/

theorem Composes.knows {location : String} {i : Nat} {nodes : List SchemaNode}
    {c c' : Gen.Composition} (h : Composes run p U location i nodes c c')
    (hc : p.Knows c.mentions ∧ p.Knows c.body.mentions) :
    p.Knows c'.mentions ∧ p.Knows c'.body.mentions := by
  induction h with
  | nil => exact hc
  | base hr _ _ ih | other hr _ _ ih => exact ih ⟨hc.1.union hr.knows, hc.2⟩
  | anything _ ih | nothing _ ih => exact ih hc
  | merged _ hb _ ih => exact ih ⟨hc.1, hb.knows hU hc.2⟩
  | part _ hu _ ih => exact ih ⟨hc.1.union (hU hu), hc.2⟩

/-- A declaration depends on names of pointers only. -/
theorem Makes.knows {pointer name : String} {node : SchemaNode} {d : Declaration}
    (h : Makes run p U pointer name node d) : p.Knows d.dependencies := by
  cases h with
  | link h =>
    cases h with
    | endless => exact Progress.knows_nil
    | follows _ _ h => exact h.knows
  | boolean allowed =>
    change p.Knows (TypeUse.ofBoolean allowed).mentions
    rw [TypeUse.mentions_ofBoolean]
    exact Progress.knows_nil
  | record _ _ h => exact h.knows hU
  | interface _ _ hc hb _ | intersection _ _ hc hb _ =>
    obtain ⟨hmentions, hbody⟩ := hc.knows hU ⟨Progress.knows_nil, Progress.knows_nil⟩
    exact hmentions.union (hb.knows hU hbody)
  | union _ h => exact h.knows hU
  | enumeration | literals => exact Progress.knows_nil
  | plain _ h =>
    change p.Knows (TypeUse.orNullIf _ _).mentions
    rw [TypeUse.mentions_orNullIf]
    exact h.knows hU

theorem Synthesizes.knows {name : String} {d : Declaration} (h : Synthesizes run p U name d) :
    p.Knows d.dependencies := by
  cases h with
  | parameters h =>
    refine knows_foldl fun f hf => ?_
    rcases (h f hf).use with hunknown | ⟨node, location, huse⟩
    · rw [hunknown]
      exact Progress.knows_nil
    · exact hU huse
  | responses h =>
    refine knows_foldl fun use huse => ?_
    obtain ⟨node, location, hbody⟩ := h use huse
    exact hbody.knows

end Given

end Rules

/-! ### The law -/

namespace UseLaw

/-- The law of mentions: nodes stand anywhere, and types mention names of pointers. -/
def mentions (run : Setting) : UseLaw run where
  At _ _ := True
  at_part _ _ := trivial
  at_origin _ _ _ := trivial
  Holds p _ _ use := p.Knows use.mentions
  holds_of_use _ h := h.knows id

theorem mentions_covers {run : Setting} (d : Document) : (mentions run).Covers d :=
  ⟨fun _ => trivial, fun _ _ _ _ _ => trivial⟩

theorem Made.knows {run : Setting} {p : Progress} {name : String} {d : Declaration}
    (h : (mentions run).Made p name d) : p.Knows d.dependencies := by
  cases h with
  | node _ _ h =>
    exact fun n hn => h.knows id n (Declaration.mem_dependencies_dropDependency.mp hn).1
  | synthesized h =>
    exact fun n hn => h.knows id n (Declaration.mem_dependencies_dropDependency.mp hn).1

/-- A declaration does not depend on itself. -/
theorem Made.ne_name {run : Setting} {law : UseLaw run} {p : Progress} {name n : String}
    {d : Declaration} (h : law.Made p name d) (hn : n ∈ d.dependencies) : n ≠ d.name := by
  cases h with
  | node | synthesized => exact (Declaration.mem_dependencies_dropDependency.mp hn).2

end UseLaw

end OpenApiTs
