import OpenApiTs.Proofs.Calls
import OpenApiTs.Proofs.Parallel

/-!
# Annotations

Descriptions, default values, examples and marks of deprecation end up in comments and nowhere else:
they decide neither about a type nor about a name, and what they change in a declaration is its text
alone. Without comments they change nothing.

## Main definitions

* `Schema.Redocumented`: two schemas are the same themselves, up to annotations.

## Main results

* `Gen.typeOf_redocumented`: runs on trees with other annotations.
-/

namespace OpenApiTs

/-- The schema without its annotations. -/
def Schema.undocumented (s : Schema) : Schema :=
  { s with
    description := none
    deprecated := false
    byDefault := none
    exampleValue := none }

/-- Two schemas that are the same up to their parts and their annotations. -/
def Schema.Redocumented (s s' : Schema) : Prop :=
  s.undocumented.withoutParts = s'.undocumented.withoutParts

/-- A run reads the same from schemas with other annotations, and writes the same comments for them
if it writes none. -/
theorem Schema.Redocumented.own {run : Setting} {s s' : Schema} (h : s.Redocumented s') :
    s.Own run (run.config.output.emitDocs = false) s' := by
  have hread {α : Type} (f : Schema → α) (hf : ∀ s, f s.undocumented.withoutParts = f s) :
      f s = f s' := (hf s).symm.trans ((congrArg f h).trans (hf s'))
  exact
    { format := hread Schema.format fun _ => rfl
      title := hread Schema.title fun _ => rfl
      required := hread Schema.required fun _ => rfl
      discriminator := hread Schema.discriminator fun _ => rfl
      enumeration := hread Schema.enumeration fun _ => rfl
      constant := hread Schema.constant fun _ => rfl
      nullable := hread Schema.isNullable fun _ => rfl
      object := hread (Schema.declares · "object") fun _ => rfl
      array := hread (Schema.declares · "array") fun _ => rfl
      scalars := hread Schema.scalarShape fun _ => rfl
      docs := fun hoff => funext fun more => funext fun indent => by
        unfold Setting.docs Setting.comment
        rw [hoff]
        rfl }

namespace Gen

/-- From any state, the type of a node is the same, or fails in the same way, if the inline schemas
of its tree have other annotations, and the states reached differ in the texts of declarations
alone: names of pointers, visits, names taken, and of every declaration its name, kind, exports,
dependencies and source are the same. Without comments the texts are the same too. -/
theorem typeOf_redocumented (run : Setting) (p : Progress) {node node' : SchemaNode}
    (h : node.Paired Schema.Redocumented node') (location hint : String) :
    ((typeOf run node location hint).run.run p).1 =
        ((typeOf run node' location hint).run.run p).1 ∧
      ((typeOf run node location hint).run.run p).2.outline =
        ((typeOf run node' location hint).run.run p).2.outline ∧
      (run.config.output.emitDocs = false →
        ((typeOf run node location hint).run.run p).2 =
          ((typeOf run node' location hint).run.run p).2) := by
  have houtcomes := parallel_typeOf run (run.config.output.emitDocs = false)
    (.mono Schema.Redocumented.own node h) location hint p p .rfl
  generalize (typeOf run node location hint).run.run p = outcome at houtcomes ⊢
  generalize (typeOf run node' location hint).run.run p = outcome' at houtcomes ⊢
  cases houtcomes with
  | ok hx hq => exact ⟨congrArg Except.ok hx, hq.1, hq.2⟩
  | error failure hq => exact ⟨rfl, hq.1, hq.2⟩

/-- A union of an object with a documented property and a null. -/
def documentedNode : SchemaNode :=
  .schema
    { oneOf := [.schema
        { properties := [("x", .schema
            { types := some (.one "string"), description := some "A text.", deprecated := true })]
          description := some "An object." }, .schema { types := some (.one "null") }]
      exampleValue := some .null }

/-- The same union without any annotation. -/
def plainNode : SchemaNode :=
  .schema
    { oneOf := [.schema { properties := [("x", .schema { types := some (.one "string") })] },
        .schema { types := some (.one "null") }] }

/-- A run that writes no comments. -/
def quietRun : Setting := ⟨.of .null, { output := { emitDocs := false } }, {}⟩

theorem typeOf_documentedNode :
    documentedNode.Paired Schema.Redocumented plainNode ∧
      ((typeOf Call.loopRun documentedNode "#/test" "Test").run.run {}).1 =
        ((typeOf Call.loopRun plainNode "#/test" "Test").run.run {}).1 ∧
      ((typeOf Call.loopRun documentedNode "#/test" "Test").run.run {}).2.outline =
        ((typeOf Call.loopRun plainNode "#/test" "Test").run.run {}).2.outline ∧
      ((typeOf Call.loopRun documentedNode "#/test" "Test").run.run {}).2.registry ≠
        ((typeOf Call.loopRun plainNode "#/test" "Test").run.run {}).2.registry ∧
      ((typeOf quietRun documentedNode "#/test" "Test").run.run {}).2 =
        ((typeOf quietRun plainNode "#/test" "Test").run.run {}).2 := by
  have hproperty : SchemaNode.Paired Schema.Redocumented
      (.schema { types := some (.one "string"), description := some "A text.", deprecated := true })
      (.schema { types := some (.one "string") }) :=
    .schema (.mk rfl .nil .none .none .nil .nil .nil)
  have hnull : SchemaNode.Paired Schema.Redocumented (.schema { types := some (.one "null") })
      (.schema { types := some (.one "null") }) :=
    .refl (fun s => (rfl : s.Redocumented s)) _
  have h : documentedNode.Paired Schema.Redocumented plainNode :=
    .schema (.mk rfl .nil .none .none
      (.cons (.schema (.mk rfl (.cons ⟨hproperty⟩ .nil) .none .none .nil .nil .nil))
        (.cons hnull .nil))
      .nil .nil)
  obtain ⟨hresult, houtline, -⟩ := typeOf_redocumented Call.loopRun {} h "#/test" "Test"
  obtain ⟨-, -, hquiet⟩ := typeOf_redocumented quietRun {} h "#/test" "Test"
  exact ⟨h, hresult, houtline, by decide +kernel, hquiet rfl⟩

end Gen

end OpenApiTs
