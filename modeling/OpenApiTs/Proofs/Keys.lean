import OpenApiTs.Proofs.Calls
import OpenApiTs.Proofs.Printing

/-!
# Keys of fields

The body of an object has one field for each raw name among its properties and those of the inline
parts that are merged into it. The key of a field is written from its raw name alone: the name as
the convention for fields has it, in quotation marks where that is no identifier. Quotation loses
nothing, so two fields have the same key exactly if the convention makes the same of their raw
names. A convention can do so, since it drops separators and case; without one no two keys agree.

## Main definitions

* `NamingRules.fieldStem`: a raw name under the convention for fields.
* `Schema.fieldNames`: the raw names of the fields in the body of a schema.
* `Schema.Separated`: no two of these names are the same under the convention.
* `Body.keys`, `Body.Keyed`: the keys of a body, and a body with a field for each of given names.
* `Declaration.Shows`: a declaration with a body in its text.

## Main results

* `NamingRules.fieldName_eq_iff`: when two raw names have the same key.
* `Collects.keyed`, `Composes.keyed`: each rule for bodies.
* `Setting.Reaches.nodup_keys_iff`: when the keys in the text of a schema are distinct.
-/

namespace OpenApiTs

/-! ### Quotation loses nothing -/

namespace Text

private theorem hexValue4?_hexDigit : ∀ n < 32,
    hexValue4? '0' '0' (hexDigit (n / 16)) (hexDigit (n % 16)) = some n ∧
      isHighSurrogate n = false ∧ isLowSurrogate n = false := by decide

/-- A written character is read back before whatever follows it. -/
theorem unquote?_escapeChar (c : Char) (rest : List Char) :
    unquote? (escapeChar c ++ rest) =
      (unquote? rest).map fun (cs, rest) => (c :: cs, rest) := by
  have hcode {n : Nat} (h : c.toNat = n) : c = Char.ofNat n := h ▸ c.ofNat_toNat.symm
  unfold escapeChar
  split_ifs with hquote hslash hline hreturn htab hback hfeed hcontrol
  · subst hquote
    rfl
  · subst hslash
    rfl
  · subst hline
    rfl
  · subst hreturn
    rfl
  · subst htab
    rfl
  · rw [hcode hback]
    rfl
  · rw [hcode hfeed]
    rfl
  · obtain ⟨hvalue, hhigh, hlow⟩ := hexValue4?_hexDigit c.toNat hcontrol
    simp only [List.cons_append, List.nil_append, unquote?, hvalue, hhigh, hlow,
      Bool.false_eq_true, if_false, c.ofNat_toNat]
  · rw [List.singleton_append, unquote?, if_neg (not_or.mpr ⟨hcontrol, hslash⟩)]
    · exact hquote
    · exact fun _ _ _ _ _ h => absurd h hslash
    · exact fun _ _ h => absurd h hslash

/-- A text is read back up to the closing quotation mark. -/
theorem unquote?_escape (cs rest : List Char) :
    unquote? (escape cs ++ '"' :: rest) = some (cs, rest) := by
  induction cs with
  | nil => rfl
  | cons c cs ih =>
    rw [escape, List.flatMap_cons, ← escape, List.append_assoc, unquote?_escapeChar, ih]
    rfl

/-- Different texts are different in quotation marks. -/
theorem quote_injective : Function.Injective quote := by
  intro a b h
  have hlist := congrArg String.toList h
  rw [toList_quote, toList_quote] at hlist
  have hread := congrArg unquote? (List.cons.inj hlist).2
  rw [unquote?_escape, unquote?_escape] at hread
  exact String.toList_inj.mp (Prod.mk.inj (Option.some.inj hread)).1

end Text

/-! ### Keys of raw names -/

namespace NamingRules

variable (rules : NamingRules)

/-- A raw name under the convention for fields. -/
def fieldStem (raw : String) : String :=
  match rules.fields with
  | some convention => convention.apply raw
  | none => raw

theorem fieldName_eq (raw : String) :
    rules.fieldName raw =
      if Naming.isIdentifier (rules.fieldStem raw) then rules.fieldStem raw
      else Text.quote (rules.fieldStem raw) := rfl

theorem fieldStem_of_none (h : rules.fields = none) (raw : String) : rules.fieldStem raw = raw := by
  rw [fieldStem, h]

/-- A raw name that already reads as the convention is kept. -/
theorem fieldStem_of_conforms {raw : String}
    (h : ∀ convention ∈ rules.fields, convention.conforms raw.toList = true) :
    rules.fieldStem raw = raw := by
  cases hrules : rules.fields with
  | none => exact rules.fieldStem_of_none hrules raw
  | some convention =>
    rw [fieldStem, hrules]
    exact Convention.apply_of_conforms (h convention hrules)

private theorem ne_quote_of_isIdentifier {name : String} (h : Naming.isIdentifier name = true)
    (text : String) : name ≠ Text.quote text := by
  rintro rfl
  rw [Naming.isIdentifier, Text.toList_quote] at h
  cases h

/-- Two raw names have the same key exactly if the convention makes the same of them. -/
theorem fieldName_eq_iff (a b : String) :
    rules.fieldName a = rules.fieldName b ↔ rules.fieldStem a = rules.fieldStem b := by
  constructor
  · intro h
    rw [fieldName_eq, fieldName_eq] at h
    split_ifs at h with ha hb hb
    · exact h
    · exact absurd h (ne_quote_of_isIdentifier ha _)
    · exact absurd h.symm (ne_quote_of_isIdentifier hb _)
    · exact Text.quote_injective h
  · intro h
    rw [fieldName_eq, fieldName_eq, h]

end NamingRules

/-! ### Names and keys of bodies -/

/-- The names that an entry of an intersection adds to the body. -/
def SchemaNode.mergedNames : SchemaNode → List String
  | .schema s => if s.isMergeable then Entries.keys s.properties else []
  | _ => []

namespace Schema

/-- The raw names of the fields in the body of a schema, each once: those of the inline parts that
are merged into it, and then its own. -/
def fieldNames (s : Schema) : List String :=
  Names.union (s.allOf.foldl (fun names part => Names.union names part.mergedNames) [])
    (Entries.keys s.properties)

variable (s : Schema)

theorem nodup_fieldNames : s.fieldNames.Nodup := by
  have hmerged : ∀ (parts : List SchemaNode) (names : List String), names.Nodup →
      (parts.foldl (fun names part => Names.union names part.mergedNames) names).Nodup := by
    intro parts
    induction parts with
    | nil => exact fun _ h => h
    | cons part rest ih => exact fun names h => ih _ (Names.nodup_union h _)
  exact Names.nodup_union (hmerged s.allOf [] List.nodup_nil) _

/-- A schema with a field has properties or entries. -/
theorem not_empty_of_fieldNames {n : String} (h : n ∈ s.fieldNames) :
    (s.properties.isEmpty && s.allOf.isEmpty) = false := by
  rw [Bool.eq_false_iff, Ne, Bool.and_eq_true, List.isEmpty_iff, List.isEmpty_iff]
  rintro ⟨hproperties, hallOf⟩
  rw [fieldNames, hproperties, hallOf] at h
  cases h

theorem fieldNames_of_object (h : s.shape = .object) :
    s.fieldNames = Names.union [] (Entries.keys s.properties) := by
  rw [fieldNames, s.allOf_of_object (by rw [h]; rfl) (by rw [h]; exact nofun)]
  rfl

/-- No two raw names of fields are the same under the convention. -/
def Separated (rules : NamingRules) : Prop :=
  ∀ a ∈ s.fieldNames, ∀ b ∈ s.fieldNames, rules.fieldStem a = rules.fieldStem b → a = b

theorem separated_of_conforms {rules : NamingRules}
    (h : ∀ convention ∈ rules.fields, ∀ n ∈ s.fieldNames, convention.conforms n.toList = true) :
    s.Separated rules := by
  intro a ha b hb hab
  rwa [rules.fieldStem_of_conforms fun convention hc => h convention hc a ha,
    rules.fieldStem_of_conforms fun convention hc => h convention hc b hb] at hab

end Schema

theorem Entries.keys_put_eq_add {α : Type} (key : String) (value : α)
    (entries : List (String × α)) :
    keys (put key value entries) = Names.add (keys entries) key := by
  rw [keys_put, Names.add]
  simp only [List.contains_iff_mem]

namespace Body

/-- The keys of the fields as they are written. -/
def keys (b : Body) : List String := b.fields.map fun e => e.2.key

/-- The body has a field for each of the names, with the key of that name. -/
structure Keyed (rules : NamingRules) (names : List String) (b : Body) : Prop where
  names_eq : Entries.keys b.fields = names
  key_eq : ∀ e ∈ b.fields, e.2.key = rules.fieldName e.1

namespace Keyed

variable {rules : NamingRules} {names : List String} {b : Body}

theorem empty (rules : NamingRules) : Keyed rules [] {} := ⟨rfl, nofun⟩

/-- A field with the key of its name is put into the body. -/
theorem put (h : b.Keyed rules names) {name : String} {f : ObjectField}
    (hf : f.key = rules.fieldName name) :
    Keyed rules (Names.add names name) { b with fields := Entries.put name f b.fields } where
  names_eq := h.names_eq ▸ Entries.keys_put_eq_add name f b.fields
  key_eq e he := by
    rcases Entries.mem_put he with rfl | he
    · exact hf
    · exact h.key_eq e he

/-- The index signature has no part in the keys. -/
theorem withIndex (h : b.Keyed rules names) (index : Option TypeUse) :
    Keyed rules names { b with index := index } := ⟨h.names_eq, h.key_eq⟩

theorem keys_eq (h : b.Keyed rules names) : b.keys = names.map rules.fieldName := by
  rw [← h.names_eq, Entries.keys, List.map_map, keys]
  exact List.map_congr_left h.key_eq

/-- The keys are distinct exactly if the names are under the convention. -/
theorem nodup_iff {s : Schema} (h : b.Keyed rules s.fieldNames) :
    b.keys.Nodup ↔ s.Separated rules := by
  rw [h.keys_eq, List.nodup_map_iff_inj_on s.nodup_fieldNames]
  simp only [NamingRules.fieldName_eq_iff, Schema.Separated]

end Keyed

end Body

/-! ### Keys by the rules -/

section Rules

variable {run : Setting} {p : Progress} {U : UseRelation} {s : Schema} {location : String}
  {names : List String} {body body' : Body}

theorem Fields.keyed {properties : List (String × SchemaNode)}
    (h : Fields run U s location properties body body')
    (hb : body.Keyed run.config.naming names) :
    body'.Keyed run.config.naming (Names.union names (Entries.keys properties)) := by
  induction h generalizing names with
  | nil => exact hb
  | cons _ _ ih => exact ih (hb.put rfl)

/-- A schema adds its properties to a body. -/
theorem Collects.keyed (h : Collects run U s location body body')
    (hb : body.Keyed run.config.naming names) :
    body'.Keyed run.config.naming (Names.union names (Entries.keys s.properties)) := by
  cases h with
  | mk hf => exact (hf.keyed hb).withIndex _

/-- Of the entries of an intersection only those that can be merged add to the body. -/
theorem Composes.keyed {i : Nat} {nodes : List SchemaNode} {c c' : Gen.Composition}
    (h : Composes run p U location i nodes c c') (hc : c.body.Keyed run.config.naming names) :
    c'.body.Keyed run.config.naming
      (nodes.foldl (fun names part => Names.union names part.mergedNames) names) := by
  induction h generalizing names with
  | nil => exact hc
  | base _ _ _ ih => exact ih hc
  | other _ _ _ ih => exact ih hc
  | anything _ ih => exact ih hc
  | nothing _ ih => exact ih hc
  | merged hs hb _ ih =>
    rw [List.foldl_cons, SchemaNode.mergedNames, if_pos hs]
    exact ih (hb.keyed hc)
  | part hs _ _ ih =>
    rw [List.foldl_cons, SchemaNode.mergedNames, if_neg (Bool.eq_false_iff.mp hs)]
    exact ih hc

/-- The text of a declaration has a body in it: on the lines of an interface, or as the last
operand of an intersection unless it is empty. -/
inductive Declaration.Shows (name : String) (body : Body) (d : Declaration) : Prop
  | interface {docs bases} (h : d.content = Gen.interfaceText docs name bases body)
  | intersection {docs operands}
      (h : d.content = Gen.aliasText docs name
        (" & ".intercalate (operands ++ if body.isEmpty then [] else [body.block])))

/-- The declaration of an object or an intersection shows a body with a field for each name. -/
theorem Makes.shows {pointer name : String} {d : Declaration}
    (h : Makes run p U pointer name (.schema s) d) (hs : s.shape.maker = .object)
    (he : (s.properties.isEmpty && s.allOf.isEmpty) = false) :
    ∃ body, d.Shows name body ∧ body.Keyed run.config.naming s.fieldNames := by
  cases h with
  | record _ hempty => exact absurd hempty (Bool.eq_false_iff.mp he)
  | interface _ _ hc hb =>
    exact ⟨_, .interface rfl, hb.keyed (hc.keyed (.empty _))⟩
  | intersection _ _ hc hb =>
    exact ⟨_, .intersection rfl, hb.keyed (hc.keyed (.empty _))⟩
  | union hshape =>
    rw [hshape] at hs
    cases hs
  | enumeration hshape =>
    rw [hshape] at hs
    cases hs
  | literals hshape =>
    rw [hshape] at hs
    cases hs
  | plain hmaker =>
    rw [hmaker] at hs
    cases hs

/-- The type of an object with properties in its place is a body with a field for each name. -/
theorem NodeUse.inline {use : TypeUse} (h : NodeUse run p U (.schema s) location use)
    (hs : s.shape = .object) (hp : s.properties.isEmpty = false) :
    ∃ body : Body, use = (⟨body.inline, body.mentions⟩ : TypeUse).orNullIf s.isNullable ∧
      body.Keyed run.config.naming s.fieldNames := by
  cases h with
  | wrapped hplace =>
    rw [Schema.shape_of_wrapped hplace] at hs
    cases hs
  | byName hplace =>
    rcases Schema.shape_of_byName hplace with h | h | h <;>
    · rw [h] at hs
      cases hs
  | union _ hshape =>
    rw [hshape] at hs
    cases hs
  | plain hmaker =>
    rw [hs] at hmaker
    exact hmaker.elim nofun nofun
  | object _ h =>
    cases h with
    | record hempty => exact absurd hempty (Bool.eq_false_iff.mp hp)
    | body _ h =>
      rw [s.fieldNames_of_object hs]
      exact ⟨_, rfl, h.keyed (.empty _)⟩

end Rules

/-! ### Keys in what a run reaches -/

/-- Wherever an object with properties stands, its type is a body with a field for each name. -/
def UseLaw.bodies (run : Setting) : UseLaw run where
  At _ _ := True
  at_part _ _ := trivial
  at_origin _ _ _ := trivial
  Holds _ node _ use := ∀ s, node = .schema s → s.shape = .object →
    s.properties.isEmpty = false →
    ∃ body : Body, use = (⟨body.inline, body.mentions⟩ : TypeUse).orNullIf s.isNullable ∧
      body.Keyed run.config.naming s.fieldNames
  holds_of_use _ h := by
    rintro s rfl hs hp
    exact h.inline hs hp

namespace Setting.Reaches

variable {run : Setting} {p : Progress}

/-- In every state that a run reaches, the declaration of an object or an intersection and the type
of an object in its place show a body with the keys of the schema's field names. These keys are
distinct exactly if no two of the names are the same under the convention for fields, which holds
if all of them read as the convention already, and always if there is none. -/
theorem nodup_keys_iff (hp : run.Reaches p) (s : Schema) :
    (∀ pointer raw name q,
      (Gen.generateNamed run s pointer raw).run.run p = (.ok name, q) →
      p.name? pointer = none → s.shape.maker = .object →
      (s.properties.isEmpty && s.allOf.isEmpty) = false →
      ∃ d body, q.registry.lookup? name = some d ∧ d.Shows name body ∧
        body.keys = s.fieldNames.map run.config.naming.fieldName ∧
        (body.keys.Nodup ↔ s.Separated run.config.naming)) ∧
    (∀ location hint use q,
      (Gen.inlineType run s location hint).run.run p = (.ok use, q) →
      s.shape = .object → s.properties.isEmpty = false →
      ∃ body : Body,
        use = (⟨body.inline, body.mentions⟩ : TypeUse).orNullIf s.isNullable ∧
        body.keys = s.fieldNames.map run.config.naming.fieldName ∧
        (body.keys.Nodup ↔ s.Separated run.config.naming)) ∧
    ((∀ convention ∈ run.config.naming.fields, ∀ n ∈ s.fieldNames,
        convention.conforms n.toList = true) →
      s.Separated run.config.naming) := by
  have hsound : (UseLaw.bodies run).Sound p := hp.sound fun _ _ => trivial
  refine ⟨fun pointer raw name q h hnew hs he => ?_, fun location hint use q h hs he => ?_,
    s.separated_of_conforms⟩
  · obtain ⟨r, d, -, -, hmakes, rfl⟩ := hsound.declared_of_generateNamed trivial hnew h
    obtain ⟨body, hshows, hkeyed⟩ := hmakes.shows hs he
    have hlookup :=
      (Registry.lookup?_fulfill r.registry (d.dropDependency name) name).trans (if_pos rfl)
    refine ⟨_, body, hlookup, ?_, hkeyed.keys_eq, hkeyed.nodup_iff⟩
    cases hshows with
    | interface h => exact .interface h
    | intersection h => exact .intersection h
  · obtain ⟨-, -, -, hholds⟩ :=
      ((UseLaw.bodies run).keeps_inlineType trivial hint p hsound.ready).of_ok h
    obtain ⟨body, huse, hkeyed⟩ := hholds q (le_refl q) s rfl hs he
    exact ⟨body, huse, hkeyed.keys_eq, hkeyed.nodup_iff⟩

/-- A run that brings fields under a convention. -/
def camelRun : Setting := ⟨.of (.object []), { naming := { fields := some .camel } }, {}⟩

/-- An object with two properties whose names are the same under the convention. -/
def twinFields : Schema := { properties := [("user_id", .boolean true), ("userId", .boolean true)] }

theorem nodup_keys_iff_camelRun :
    camelRun.Reaches {} ∧
      (∃ d body q,
        (Gen.generateNamed camelRun twinFields "#/test" "Test").run.run {} = (.ok "Test", q) ∧
        q.registry.lookup? "Test" = some d ∧ d.Shows "Test" body ∧
        body.keys = ["userId", "userId"] ∧ ¬body.keys.Nodup) ∧
      ∃ body : Body, ∃ q,
        (Gen.inlineType camelRun twinFields "#/test" "Test").run.run {} =
          (.ok ⟨body.inline, body.mentions⟩, q) ∧
        body.keys = ["userId", "userId"] ∧ ¬body.keys.Nodup := by
  have hstart : camelRun.Reaches {} := .start
  obtain ⟨hdeclared, hinline, -⟩ := nodup_keys_iff hstart twinFields
  have hkeys : twinFields.fieldNames.map camelRun.config.naming.fieldName =
      ["userId", "userId"] := by
    decide +kernel
  have htwice : ¬["userId", "userId"].Nodup := by decide
  have hname : ((Gen.generateNamed camelRun twinFields "#/test" "Test").run.run {}).1 =
      .ok "Test" := by
    rfl
  have huse : ∃ use, ((Gen.inlineType camelRun twinFields "#/test" "Test").run.run {}).1 =
      .ok use := ⟨⟨"\x7b userId?: unknown; userId?: unknown \x7d", []⟩, by rfl⟩
  obtain ⟨use, huse⟩ := huse
  obtain ⟨d, body, hlookup, hshows, hbody, -⟩ :=
    hdeclared "#/test" "Test" "Test" _ (Prod.ext hname rfl) rfl (by decide) (by decide)
  obtain ⟨body', rfl, hbody', -⟩ :=
    hinline "#/test" "Test" use _ (Prod.ext huse rfl) (by decide) (by decide)
  rw [hkeys] at hbody hbody'
  exact ⟨hstart, ⟨d, body, _, Prod.ext hname rfl, hlookup, hshows, hbody, hbody ▸ htwice⟩,
    body', _, Prod.ext huse rfl, hbody', hbody' ▸ htwice⟩

end Setting.Reaches

end OpenApiTs
