import OpenApiTs.Proofs.Calls
import OpenApiTs.Proofs.Parallel

/-!
# The two ways to write that a type admits null

A schema says that values of a type may be null by a flag beside the type, or by a list of the type
and the name null. A run makes no difference between the two: it gives the same results and reaches
the same state, failures included, wherever in a tree one is written for the other.

## Main definitions

* `Schema.Recoded`: two schemas are the same themselves, up to this way of writing.

## Main results

* `Gen.run_eq_of_recoded`: runs on trees in which null is written differently are the same.
-/

namespace OpenApiTs

/-- Two schemas that are the same up to their parts, or the first has one type with the flag and the
second the list of this type and null, in either order, without the flag. -/
inductive Schema.Recoded (s s' : Schema) : Prop
  | same (h : s'.withoutParts = s.withoutParts)
  | listed {name names} (htypes : s.types = some (.one name)) (hflag : s.nullable = true)
      (hnames : names = [name, "null"] ∨ names = ["null", name])
      (h : s'.withoutParts =
        { s.withoutParts with types := some (.many names), nullable := false })

namespace Schema

variable {s s' : Schema} {name : String} {names : List String}

/-- Null in a list with one other type does not change the scalar type that is declared. -/
theorem scalarShape_listed (h : s.typeNames = [name]) (h' : s'.typeNames = names)
    (hnames : names = [name, "null"] ∨ names = ["null", name]) :
    s.scalarShape = s'.scalarShape := by
  have hnull : Scalar.ofName? "null" = some .null := by decide
  unfold scalarShape
  rw [h, h']
  cases hname : Scalar.ofName? name with
  | none =>
    rcases hnames with rfl | rfl <;> simp [scalars?, hname, hnull]
  | some t =>
    rcases hnames with rfl | rfl <;> cases t <;> simp [scalars?, hname, hnull]

/-- Two schemas that are the same themselves up to their types and the flag are read in the same way
if they admit null alike and declare the same types otherwise. -/
theorem own_of_withoutParts {run : Setting} {exactly : Prop} {types : Option TypeNames}
    {nullable : Bool}
    (h : s'.withoutParts = { s.withoutParts with types := types, nullable := nullable })
    (hnull : s.isNullable = s'.isNullable)
    (hdeclares : ∀ n, n ≠ "null" → s.declares n = s'.declares n)
    (hscalars : s.scalarShape = s'.scalarShape) : s.Own run exactly s' where
  format := (congrArg format h).symm
  title := (congrArg title h).symm
  required := (congrArg required h).symm
  discriminator := (congrArg discriminator h).symm
  enumeration := (congrArg enumeration h).symm
  constant := (congrArg constant h).symm
  nullable := hnull
  object := hdeclares "object" (by decide)
  array := hdeclares "array" (by decide)
  scalars := hscalars
  docs _ := (congrArg run.docs h).symm

/-- A run reads the same from schemas that write null differently. -/
theorem Recoded.own {run : Setting} (h : s.Recoded s') : s.Own run True s' := by
  cases h with
  | same h =>
    exact own_of_withoutParts h (congrArg isNullable h).symm
      (fun n _ => (congrArg (declares · n) h).symm) (congrArg scalarShape h).symm
  | @listed name names htypes hflag hnames h =>
    have htypes' : s'.types = some (.many names) := congrArg types h
    have hone : s.typeNames = [name] := by rw [typeNames, htypes]; rfl
    have hlist : s'.typeNames = names := by rw [typeNames, htypes']; rfl
    have hmem : "null" ∈ names ∧ ∀ n, n ≠ "null" → (n ∈ [name] ↔ n ∈ names) := by
      rcases hnames with rfl | rfl <;> simp +contextual
    have hnull : s'.listsNull = true := by
      rw [listsNull, htypes']
      exact List.contains_iff_mem.mpr hmem.1
    refine own_of_withoutParts h ?_ (fun n hn => ?_) (scalarShape_listed hone hlist hnames)
    · simp only [isNullable, hflag, hnull, Bool.true_or, Bool.or_true]
    · rw [declares, declares, hone, hlist, Bool.eq_iff_iff, List.contains_iff_mem,
        List.contains_iff_mem, hmem.2 n hn]

end Schema

namespace Gen

/-- From any state, the type of a node and the declaration of a schema are the same, or fail in the
same way, and lead to the same state, if null is written the other way at any inline schemas of the
tree. -/
theorem run_eq_of_recoded (run : Setting) (p : Progress) {node node' : SchemaNode}
    {s s' : Schema} (hnode : node.Paired Schema.Recoded node') (hs : s.Paired Schema.Recoded s')
    (location hint : String) :
    (typeOf run node location hint).run.run p = (typeOf run node' location hint).run.run p ∧
      (generateNamed run s location hint).run.run p =
        (generateNamed run s' location hint).run.run p :=
  ⟨(parallel_typeOf run True (.mono Schema.Recoded.own node hnode) location hint).eq p,
    (parallel_generateNamed run True (.mono Schema.Recoded.own s hs) location hint).eq p⟩

/-- An object and a text in it that may be null by a flag. -/
def flaggedSchema : Schema :=
  { types := some (.one "object")
    nullable := true
    properties := [("x", .schema { types := some (.one "string"), nullable := true })] }

/-- The same object and text, with null among their types. -/
def listedSchema : Schema :=
  { types := some (.many ["null", "object"])
    properties := [("x", .schema { types := some (.many ["string", "null"]) })] }

theorem run_flagged_eq_run_listed :
    flaggedSchema.Paired Schema.Recoded listedSchema ∧
      (typeOf Call.loopRun (.schema flaggedSchema) "#/test" "Test").run.run {} =
        (typeOf Call.loopRun (.schema listedSchema) "#/test" "Test").run.run {} ∧
      ((typeOf Call.loopRun (.schema listedSchema) "#/test" "Test").run.run {}).1 =
        .ok ⟨"\x7b x?: string | null \x7d | null", []⟩ ∧
      (generateNamed Call.loopRun flaggedSchema "#/test" "Test").run.run {} =
        (generateNamed Call.loopRun listedSchema "#/test" "Test").run.run {} := by
  have hs : flaggedSchema.Paired Schema.Recoded listedSchema :=
    .mk (.listed rfl rfl (.inr rfl) rfl)
      (.cons (.mk (.schema (.mk (.listed rfl rfl (.inl rfl) rfl) .nil .none .none .nil .nil .nil)))
        .nil)
      .none .none .nil .nil .nil
  obtain ⟨htype, hdeclaration⟩ := run_eq_of_recoded Call.loopRun {} (.schema hs) hs "#/test" "Test"
  exact ⟨hs, htype, by rfl, hdeclaration⟩

end Gen

end OpenApiTs
