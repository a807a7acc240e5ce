import OpenApiTs.Proofs.Mentions

/-!
# Order through any sequence of calls

The entry points of a run can be called from outside in any order and with any arguments, and a call
that fails does not end the sequence: the next one goes on from the state that it has reached. The
state is orderly after each of them. Types are also asked for while a declaration is being made and
between the types of an operation; whatever a run reaches in these ways is sound under a law that
says of every node that it may stand everywhere.

## Main definitions

* `Call`: a call of an entry point.
* `Call.outcome`, `Call.after`: the outcome of a call, and the state after a sequence of calls.
* `Setting.Reaches`: the states in which a run asks for types.

## Main results

* `Call.orderly_after`: the state after any sequence of calls, and what a further call does to it.
* `Setting.Reaches.sound`: the states that a run reaches are sound.
-/

namespace OpenApiTs

/-- A call of an entry point with its arguments. -/
inductive Call where
  | ensureNamed (pointer from_ : String)
  | reference (pointer location : String)
  | typeOf (node : SchemaNode) (location hint : String)
  | inlineType (s : Schema) (location hint : String)
  | generateNamed (s : Schema) (pointer raw : String)

namespace Call

/-- What a call answers: a name or a type. -/
abbrev Answer := String ⊕ TypeUse

variable (run : Setting)

/-- The computation of a call. -/
def perform : Call → Gen Answer
  | .ensureNamed pointer from_ => .inl <$> Gen.ensureNamed run pointer from_
  | .reference pointer location => .inr <$> Gen.refer run pointer location
  | .typeOf node location hint => .inr <$> Gen.typeOf run node location hint
  | .inlineType s location hint => .inr <$> Gen.inlineType run s location hint
  | .generateNamed s pointer raw => .inl <$> Gen.generateNamed run s pointer raw

/-- What a call answers in a state, or its failure, and the state that it leaves. -/
def outcome (call : Call) (p : Progress) : Except Failure Answer × Progress :=
  (call.perform run).run.run p

/-- The state after a sequence of calls, some of which may have failed. -/
def after (calls : List Call) : Progress := calls.foldl (fun p call => (call.outcome run p).2) {}

variable {run} {law : UseLaw run} (hat : ∀ node location, law.At node location)

section Law

include hat

theorem keeps_perform (call : Call) :
    Gen.Keeps (law.Ready run.tree.bound) (call.perform run) fun _ _ => True := by
  cases call with
  | ensureNamed pointer from_ =>
    exact (law.keeps_ensureNamed fun _ => hat _ _).map fun _ _ _ => trivial
  | reference pointer location =>
    have hrefers : law.Refers pointer := law.refers_of_at (hat _ location)
    exact (law.keeps_refer hrefers location).map fun _ _ _ => trivial
  | typeOf node location hint =>
    exact (law.keeps_typeOf (hat _ _) hint).map fun _ _ _ => trivial
  | inlineType s location hint =>
    exact (law.keeps_inlineType (hat _ _) hint).map fun _ _ _ => trivial
  | generateNamed s pointer raw =>
    exact (law.keeps_generateNamed (hat _ _) raw).map fun _ _ _ => trivial

/-- One call keeps the state sound and leads to a later one. If it succeeds, the visits under way
are as they were. -/
theorem outcome_spec {p : Progress} (hp : law.Sound p) (call : Call) :
    law.Sound (call.outcome run p).2 ∧ p ≤ (call.outcome run p).2 ∧
      ∀ answer, (call.outcome run p).1 = .ok answer →
        (call.outcome run p).2.visiting = p.visiting := by
  have h := keeps_perform hat call p hp.ready
  unfold Gen.KeepsFrom at h
  unfold outcome
  rcases hrun : (call.perform run).run.run p with ⟨failure | answer, q⟩ <;> rw [hrun] at h
  · exact ⟨h.1.toSound, h.2, fun _ h => nomatch h⟩
  · exact ⟨h.1.toSound, h.2.1, fun _ _ => h.2.2.1⟩

/-- A sequence of calls keeps the state sound and leads to a later one. -/
theorem foldl_spec :
    (calls : List Call) → {p : Progress} → law.Sound p →
      law.Sound (calls.foldl (fun p call => (call.outcome run p).2) p) ∧
        p ≤ calls.foldl (fun p call => (call.outcome run p).2) p
  | [], p, hp => ⟨hp, le_refl p⟩
  | call :: calls, _, hp => by
      obtain ⟨hq, hle, -⟩ := outcome_spec hat hp call
      obtain ⟨hr, hle'⟩ := foldl_spec calls hq
      exact ⟨hr, le_trans hle hle'⟩

end Law

theorem generateNamed_of_named {p : Progress} {pointer name : String}
    (h : p.name? pointer = some name) (s : Schema) (raw : String) :
    (Gen.generateNamed run s pointer raw).run.run p = (.ok name, p) := by
  unfold Gen.generateNamed Gen.declareSchema
  rw [Gen.run_bind, Gen.run_nameOf?, h]
  rfl

/-- After any sequence of calls the state is orderly: pointers have names of their own and keep them
through all further calls, a named pointer has a place, and a place is empty exactly if it is that
of a pointer being visited. A further call that succeeds leaves the visits as they were, and one to
declare a pointer that has a name gives this name and changes nothing. -/
theorem orderly_after (run : Setting) (calls : List Call) :
    (after run calls).Orderly ∧
      (∀ more pointer name, (after run calls).name? pointer = some name →
        (after run (calls ++ more)).name? pointer = some name) ∧
      (∀ call answer q, Call.outcome run call (after run calls) = (.ok answer, q) →
        q.visiting = (after run calls).visiting) ∧
      ∀ s pointer raw name, (after run calls).name? pointer = some name →
        (Call.generateNamed s pointer raw).outcome run (after run calls) =
          (.ok (.inl name), after run calls) := by
  have hat : ∀ node location, (UseLaw.mentions run).At node location := fun _ _ => trivial
  have hsound : (UseLaw.mentions run).Sound (after run calls) :=
    (foldl_spec hat calls UseLaw.sound_empty).1
  refine ⟨hsound.orderly, fun more pointer name hname => ?_, fun call answer q hq => ?_,
    fun s pointer raw name hname => ?_⟩
  · have hle := (foldl_spec hat more hsound).2
    rw [after, List.foldl_append]
    exact hle.names hname
  · have hvisiting := (outcome_spec hat hsound call).2.2 answer
    rw [hq] at hvisiting
    exact hvisiting rfl
  · change (Sum.inl <$> Gen.generateNamed run s pointer raw).run.run (after run calls) = _
    rw [map_eq_pure_bind, Gen.run_bind, generateNamed_of_named hname]
    rfl

/-- A run on a tree with one node that refers to itself. -/
def loopRun : Setting := ⟨.of (.object [("a", .object [("$ref", .string "#/a")])]), {}, {}⟩

/-- A call that fails, and one that declares the node. -/
def loopCalls : List Call := [.reference "#/b" "#/test", .ensureNamed "#/a" "#/test"]

theorem orderly_after_loopCalls :
    (after loopRun loopCalls).Orderly ∧ (after loopRun loopCalls).name? "#/a" = some "A" ∧
      (after loopRun (loopCalls ++ loopCalls)).name? "#/a" = some "A" ∧
      (Call.generateNamed {} "#/a" "B").outcome loopRun (after loopRun loopCalls) =
        (.ok (.inl "A"), after loopRun loopCalls) := by
  obtain ⟨horderly, hkept, -, hnamed⟩ := orderly_after loopRun loopCalls
  have hname : (after loopRun loopCalls).name? "#/a" = some "A" := by decide +kernel
  exact ⟨horderly, hname, hkept _ _ _ hname, hnamed _ _ _ _ hname⟩

end Call

/-! ### Whatever a run reaches -/

/-- The states in which a run asks for types: between calls, while the declaration of a pointer is
being made, and between the types of an operation. -/
inductive Setting.Reaches (run : Setting) : Progress → Prop
  | start : Reaches run {}
  | call {p} (h : Reaches run p) (call : Call) : Reaches run (call.outcome run p).2
  | begun {p pointer raw name registry} (h : Reaches run p) (hnew : p.name? pointer = none)
      (hreserve : p.registry.reserve (run.config.naming.typeName raw) = .ok (name, registry)) :
      Reaches run (p.begun registry pointer name)
  | parameters {p} (h : Reaches run p) (item : PathItem) (o : Operation) (path : String)
      (method : Method) (name : String) :
      Reaches run ((Gen.parametersName run item o path
        (Pointer.descend "#/paths" [path, method.name]) name).run.run p).2
  | responses {p} (h : Reaches run p) (o : Operation) (path : String) (method : Method)
      (name : String) :
      Reaches run ((Gen.responseUse run o
        (Pointer.descend "#/paths" [path, method.name]) name).run.run p).2

namespace Setting.Reaches

variable {run : Setting} {law : UseLaw run} {p : Progress}

/-- A state that a run reaches is sound under every law that says of every node that it may stand
everywhere. -/
theorem sound (hat : ∀ node location, law.At node location) (h : run.Reaches p) : law.Sound p := by
  have hkept {α : Type} {m : Gen α} {q : Progress} {R : α → Progress → Prop}
      (hq : law.Sound q) (hm : Gen.Keeps (law.Ready run.tree.bound) m R) :
      law.Sound (m.run.run q).2 := by
    have hend := hm q hq.ready
    unfold Gen.KeepsFrom at hend
    rcases hrun : m.run.run q with ⟨failure | x, r⟩ <;> rw [hrun] at hend
    · exact hend.1.toSound
    · exact hend.1.toSound
  induction h with
  | start => exact UseLaw.sound_empty
  | call _ call ih => exact (Call.outcome_spec hat ih call).1
  | begun _ hnew hreserve ih => exact ih.begun hnew (hat (.boolean true) _) hreserve
  | parameters _ item o path method name ih =>
    exact hkept ih (law.keeps_parametersName (fun _ => hat _ _) name)
  | responses _ o path method name ih =>
    -- a response is no part of the path item, so that any item will do
    have hparts {node location} (_ : o.HasPart run {} path
        (Pointer.descend "#/paths" [path, method.name]) node location) : law.At node location :=
      hat node location
    exact hkept ih (law.keeps_responseUse hparts name)

end Setting.Reaches

end OpenApiTs
