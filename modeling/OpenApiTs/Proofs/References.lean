import OpenApiTs.Proofs.Aliases
import OpenApiTs.Proofs.Calls

/-!
# References and inline uses of one schema

A schema that is declared where it is used and a reference to that schema both give the name of the
declaration, and both say whether null has to be added. The one asks the schema, the other what
stands at the pointer: whatever has a key for references there is taken for an alias, which leaves
null to its target, also if the value of the key is no text and the object is a schema like any
other. There the reference loses the null of the schema; everywhere else the two agree.

## Main results

* `Setting.Reaches.refer_eq_ofDeclaration_iff`: the use of a reference, and when it is that of the
  declaration of the schema.
-/

namespace OpenApiTs

namespace TypeUse

/-- A name with null is the name alone exactly if it says that it admits null. -/
theorem named_eq_orNull_iff (name : String) :
    named name = (named name).orNull ↔ endsInNull name = true := by
  rw [orNull]
  split
  · next h => exact iff_of_true rfl h
  · next h =>
    refine iff_of_false (fun heq => ?_) h
    have htext := congrArg (fun use : TypeUse => use.text.length) heq
    simp [named] at htext

/-- Null added under a further condition makes no difference exactly if it is not asked for, or the
condition holds, or the name says by itself that it admits null. -/
theorem orNullIf_and_eq_iff (name : String) (null more : Bool) :
    (named name).orNullIf (null && more) = (named name).orNullIf null ↔
      (null = true → more = false → endsInNull name = true) := by
  cases null <;> cases more <;> simp [orNullIf, named_eq_orNull_iff]

end TypeUse

namespace Setting.Reaches

variable {run : Setting} {p q : Progress} {pointer from_ : String} {value : Json} {s : Schema}
  {use : TypeUse}

/-- In every state that a run reaches, the use of a reference to a schema that is not excluded is
the name of the pointer, with null if the schema asks for it and what stands at the pointer has no
key for references. So it is the use of the schema's declaration, unless null is asked for, there is
such a key, and the name does not say by itself that it admits null. -/
theorem refer_eq_ofDeclaration_iff (hp : run.Reaches p) (hx : run.excludes pointer = false)
    (hvalue : Pointer.lookup? run.tree.root pointer = some value)
    (hnode : SchemaNode.decode value = .ok (.schema s))
    (h : (Gen.refer run pointer from_).run.run p = (.ok use, q)) :
    ∃ name, q.name? pointer = some name ∧
      use = (TypeUse.named name).orNullIf (s.needsNullAtUse && (value.member? "$ref").isNone) ∧
      (use = .ofDeclaration name s ↔
        (s.needsNullAtUse = true → (value.member? "$ref").isSome = true →
          TypeUse.endsInNull name = true)) := by
  have hsound : (UseLaw.mentions run).Sound p := hp.sound fun _ _ => trivial
  obtain ⟨-, -, -, huse⟩ :=
    ((UseLaw.mentions run).keeps_refer trivial from_ p hsound.ready).of_ok h
  obtain ⟨name, null, hname, hnull, rfl⟩ := (huse q (le_refl q)).exists_named hx
  obtain rfl := Gen.needsNullAtUse_of_schema hnull hvalue hnode
  refine ⟨name, hname, rfl, ?_⟩
  rw [TypeUse.ofDeclaration, TypeUse.orNullIf_and_eq_iff, Option.isNone_eq_false_iff]

/-- An object that may be null, with a key for references that holds no reference. -/
def oddObject : Json :=
  .object [
    ("$ref", .null),
    ("nullable", .bool true),
    ("properties", .object [("x", .object [("type", .string "string")])])]

/-- A run on a tree with this object. -/
def oddRun : Setting := ⟨.of (.object [("a", oddObject)]), {}, {}⟩

/-- The schema that the object decodes to. -/
def oddSchema : Schema :=
  { nullable := true, properties := [("x", .schema { types := some (.one "string") })] }

/-- The reference loses the null that the schema asks for. -/
theorem refer_eq_ofDeclaration_iff_oddRun :
    ∃ q, oddRun.Reaches {} ∧ oddRun.excludes "#/a" = false ∧
      Pointer.lookup? oddRun.tree.root "#/a" = some oddObject ∧
      SchemaNode.decode oddObject = .ok (.schema oddSchema) ∧
      (Gen.refer oddRun "#/a" "#/test").run.run {} = (.ok (.named "A"), q) ∧
      q.name? "#/a" = some "A" ∧ TypeUse.ofDeclaration "A" oddSchema = ⟨"A | null", ["A"]⟩ ∧
      TypeUse.named "A" ≠ .ofDeclaration "A" oddSchema := by
  have hx : oddRun.excludes "#/a" = false := by decide +kernel
  have hvalue : Pointer.lookup? oddRun.tree.root "#/a" = some oddObject := by rfl
  have hnode : SchemaNode.decode oddObject = .ok (.schema oddSchema) := by rfl
  have huse : ((Gen.refer oddRun "#/a" "#/test").run.run {}).1 = .ok (.named "A") := by rfl
  have hrun := Prod.ext huse rfl
  obtain ⟨name, hname, hnamed, hiff⟩ :=
    refer_eq_ofDeclaration_iff .start hx hvalue hnode hrun
  have hnull : oddSchema.needsNullAtUse = true := by decide
  have hmember : (oddObject.member? "$ref").isSome = true := by rfl
  rw [Option.isNone_eq_false_iff.mpr hmember, Bool.and_false] at hnamed
  obtain rfl : "A" = name := congrArg TypeUse.text hnamed
  refine ⟨_, .start, hx, hvalue, hnode, hrun, hname, by decide, fun heq => ?_⟩
  have hends := hiff.mp heq hnull hmember
  cases hends

end Setting.Reaches

end OpenApiTs
