import OpenApiTs.Proofs.Regions
import OpenApiTs.Proofs.Sources

/-!
# Pointers and the locations they lead to

A location of a document is the sequence of keys and positions on the way to it. A pointer leads to
one location, and pointers lead to the same one exactly if their segments are read alike. A segment
can be spelled in several ways though: a tilde that is not escaped is read as well. A run remembers
names by the texts of pointers, so the spellings of one location have a declaration each. A run
escapes the tildes of all segments that it adds itself. So where two spellings of one location have
names, one of them begins with a reference of the document in which a tilde is not escaped.

## Main definitions

* `Json.Step`, `Pointer.location?`: the keys and positions that a pointer leads through.
* `Json.Misspells`, `Json.Spelled`: pointers below references with tildes that are not escaped, and
  pointers that are escaped or below such references.
* `UseLaw.spelling`: the law of spellings.

## Main results

* `Pointer.lookup?_eq`: the value at a pointer is the one at its location.
* `Pointer.location?_eq_iff`, `Pointer.eq_of_location`: which pointers lead to a location.
* `Json.region_spelled`: a run comes to escaped and to misspelled pointers only.
* `Gen.document_locations`: the names and declarations of one location.
-/

namespace OpenApiTs

/-! ### Locations -/

namespace Json

/-- A step from a value to one of its parts. -/
inductive Step where
  | key (key : String)
  | position (i : Nat)
  deriving DecidableEq, Repr

/-- The part of a value that a step leads to. -/
def part? : Json → Step → Option Json
  | .object members, .key key => Entries.get? key members
  | .array elements, .position i => elements[i]?
  | _, _ => none

/-- The step that a segment stands for at a value. -/
def stepOf? (segment : String) : Json → Option Step
  | .object _ => some (.key segment)
  | .array _ => (Pointer.index? segment).map .position
  | _ => none

/-- The steps that segments stand for from a value on, if there are parts all the way. -/
def steps? : List String → Json → Option (List Step)
  | [], _ => some []
  | segment :: rest, value =>
    (stepOf? segment value).bind fun step =>
      (value.part? step).bind fun part => (steps? rest part).map (step :: ·)

/-- A step for a segment leads where the segment does. -/
theorem step?_eq (value : Json) (segment : String) :
    Pointer.step? value segment = (stepOf? segment value).bind value.part? := by
  cases value with
  | array elements =>
    rw [Pointer.step?, stepOf?, Option.bind_map]
    rfl
  | object _ | null | bool _ | number _ | string _ => rfl

/-- A step stands for one segment only. -/
theorem stepOf?_inj {value : Json} {step : Step} {segment segment' : String}
    (h : stepOf? segment value = some step) (h' : stepOf? segment' value = some step) :
    segment = segment' := by
  cases value with
  | object members =>
    cases h
    cases h'
    rfl
  | array elements =>
    obtain ⟨i, hi, rfl⟩ := Option.map_eq_some_iff.mp h
    obtain ⟨j, hj, heq⟩ := Option.map_eq_some_iff.mp h'
    cases heq
    rw [Pointer.eq_repr_of_index? hi, Pointer.eq_repr_of_index? hj]
  | null | bool _ | number _ | string _ => cases h

theorem steps?_cons_eq_some {segment : String} {rest : List String} {value : Json}
    {steps : List Step} :
    steps? (segment :: rest) value = some steps ↔
      ∃ step part more, stepOf? segment value = some step ∧ value.part? step = some part ∧
        steps? rest part = some more ∧ steps = step :: more := by
  simp only [steps?, Option.bind_eq_some_iff, Option.map_eq_some_iff]
  constructor
  · rintro ⟨step, hstep, part, hpart, more, hmore, rfl⟩
    exact ⟨step, part, more, hstep, hpart, hmore, rfl⟩
  · rintro ⟨step, part, more, hstep, hpart, hmore, rfl⟩
    exact ⟨step, hstep, part, hpart, more, hmore, rfl⟩

/-- Steps stand for one list of segments only. -/
theorem steps?_inj :
    {names names' : List String} → {value : Json} → {steps : List Step} →
      steps? names value = some steps → steps? names' value = some steps → names = names'
  | [], [], _, _, _, _ => rfl
  | [], _ :: _, _, _, h, h' => by
      obtain ⟨step, part, more, -, -, -, rfl⟩ := steps?_cons_eq_some.mp h'
      cases h
  | _ :: _, [], _, _, h, h' => by
      obtain ⟨step, part, more, -, -, -, rfl⟩ := steps?_cons_eq_some.mp h
      cases h'
  | name :: names, name' :: names', value, steps, h, h' => by
      obtain ⟨step, part, more, hstep, hpart, hmore, rfl⟩ := steps?_cons_eq_some.mp h
      obtain ⟨step', part', more', hstep', hpart', hmore', heq⟩ := steps?_cons_eq_some.mp h'
      obtain ⟨rfl, rfl⟩ := List.cons.inj heq
      cases hpart.symm.trans hpart'
      rw [stepOf?_inj hstep hstep', steps?_inj hmore hmore']

/-- The value that steps lead to. -/
def at? (root : Json) (steps : List Step) : Option Json := steps.foldlM part? root

/-- Segments lead to the value that their steps lead to. -/
theorem foldlM_step?_eq :
    (names : List String) → (value : Json) →
      names.foldlM Pointer.step? value = (steps? names value).bind value.at?
  | [], _ => rfl
  | name :: names, value => by
      rw [List.foldlM_cons, step?_eq, steps?]
      cases stepOf? name value with
      | none => rfl
      | some step =>
        change (value.part? step).bind _ = Option.bind ((value.part? step).bind _) _
        cases hpart : value.part? step with
        | none => rfl
        | some part =>
          change names.foldlM Pointer.step? part =
            ((steps? names part).map (step :: ·)).bind value.at?
          rw [foldlM_step?_eq names part, Option.bind_map]
          refine congrArg _ (funext fun steps => ?_)
          change part.at? steps = (step :: steps).foldlM part? value
          rw [List.foldlM_cons, hpart]
          rfl

end Json

namespace Pointer

variable {root : Json} {pointer pointer' : String} {location : List Json.Step}

/-- The location that a pointer leads to. -/
def location? (root : Json) (pointer : String) : Option (List Json.Step) :=
  Json.steps? ((segments pointer).map unescape) root

/-- The value at a pointer is the one at its location. -/
theorem lookup?_eq (root : Json) (pointer : String) :
    lookup? root pointer = (location? root pointer).bind root.at? :=
  Json.foldlM_step?_eq _ root

/-- Pointers lead to the same location exactly if their segments are read alike. -/
theorem location?_eq_iff (h : location? root pointer = some location) :
    location? root pointer' = some location ↔
      (segments pointer).map unescape = (segments pointer').map unescape := by
  refine ⟨Json.steps?_inj h, fun hsegments => ?_⟩
  rw [location?, ← hsegments]
  exact h

/-- A location has one pointer whose tildes are escaped. -/
theorem eq_of_location (h : canonicalize pointer = .ok pointer)
    (h' : canonicalize pointer' = .ok pointer') (hlocation : location? root pointer = some location)
    (hlocation' : location? root pointer' = some location) (hescaped : IsEscaped pointer)
    (hescaped' : IsEscaped pointer') : pointer = pointer' :=
  eq_of_isEscaped h h' hescaped hescaped' ((location?_eq_iff hlocation).mp hlocation')

end Pointer

/-! ### Spellings in a document -/

namespace Json

variable {root : Json} {pointer : String}

/-- The pointer begins with a reference of the document in which a tilde is not escaped. -/
def Misspells (root : Json) (pointer : String) : Prop :=
  ∃ role reference names, root.Refers role reference ∧ ¬Pointer.IsEscaped reference ∧
    pointer = Pointer.descend reference names

/-- The tildes of the pointer are escaped, unless it begins with a reference in which they are
not. -/
def Spelled (root : Json) (pointer : String) : Prop :=
  Pointer.IsEscaped pointer ∨ root.Misspells pointer

namespace Spelled

theorem of_refers {role : Role} (h : root.Refers role pointer) : root.Spelled pointer :=
  or_iff_not_imp_left.mpr fun hescaped => ⟨role, pointer, [], h, hescaped, rfl⟩

theorem of_follows (h : root.Follows pointer) : root.Spelled pointer := by
  rcases h with h | ⟨name, rfl⟩
  · exact of_refers h
  · left
    rw [Pointer.isEscaped_child]
    decide

theorem child (h : root.Spelled pointer) (segment : String) :
    root.Spelled (Pointer.child pointer segment) := by
  refine h.imp Pointer.isEscaped_child.mpr ?_
  rintro ⟨role, reference, names, hrefers, hescaped, rfl⟩
  exact ⟨role, reference, names ++ [segment], hrefers, hescaped, Pointer.child_descend ..⟩

/-- Where a location has two pointers, one of them is misspelled. -/
theorem eq_or_misspells {pointer' : String} {location : List Step} (h : root.Spelled pointer)
    (h' : root.Spelled pointer') (hcanonical : Pointer.canonicalize pointer = .ok pointer)
    (hcanonical' : Pointer.canonicalize pointer' = .ok pointer')
    (hlocation : Pointer.location? root pointer = some location)
    (hlocation' : Pointer.location? root pointer' = some location) :
    pointer = pointer' ∨ root.Misspells pointer ∨ root.Misspells pointer' := by
  rcases h with hescaped | hmisspells
  · exact h'.imp (Pointer.eq_of_location hcanonical hcanonical' hlocation hlocation' hescaped) .inr
  · exact .inr (.inl hmisspells)

end Spelled

/-- A run makes up no pointer with a tilde that is not escaped: the ones it comes to are read in the
document. -/
theorem region_spelled (root : Json) : root.Region root.Spelled where
  path path names := by
    left
    rw [Pointer.isEscaped_descend]
    decide
  borrowed _ hrefers := .of_refers hrefers
  field h _ := h.child _
  entry h _ segment := (h.child _).child segment

end Json

/-- The law of spellings: a run declares at escaped and at misspelled pointers. -/
def UseLaw.spelling (run : Setting) (hkeys : run.tree.root.distinctKeys = true) : UseLaw run :=
  within hkeys run.tree.root.region_spelled fun hfollows _ => Json.Spelled.of_follows hfollows

theorem UseLaw.spelling_covers {run : Setting} (hkeys : run.tree.root.distinctKeys = true)
    {d : Document} (hd : Document.ofTree run.tree.root = .ok d) : (spelling run hkeys).Covers d :=
  within_covers hkeys run.tree.root.region_spelled (fun hfollows _ => .of_follows hfollows) hd

namespace Gen

open Pointer

/-- References that lead to one location are read alike, and are given the same pointer if their
tildes are escaped. Whether a run succeeds or not, their pointers have the same name exactly if they
are the same text. Where one location has two names, or two declarations that are not those of
operations, one of the pointers begins with a reference in which a tilde is not escaped. -/
theorem document_locations {run : Setting} {d : Document}
    (hd : Document.ofTree run.tree.root = .ok d) (hkeys : run.tree.root.distinctKeys = true)
    {result : Except Failure (List OperationTypes × Option String)} {p : Progress}
    (h : (document run d).run.run {} = (result, p)) {reference reference' P Q : String}
    (hP : canonicalize reference = .ok P) (hQ : canonicalize reference' = .ok Q)
    {location : List Json.Step} (hlocation : location? run.tree.root P = some location)
    (hlocation' : location? run.tree.root Q = some location) :
    ((segments P).map unescape = (segments Q).map unescape ∧
      (IsEscaped reference → IsEscaped reference' → P = Q)) ∧
    (∀ {name name'}, p.name? P = some name → p.name? Q = some name' →
      (name = name' ↔ P = Q) ∧
        (P = Q ∨ run.tree.root.Misspells P ∨ run.tree.root.Misspells Q)) ∧
    ∀ t ∈ p.registry.declarations, ∀ u ∈ p.registry.declarations, t.source = P → u.source = Q →
      t = u ∨ (∃ part, t.OfOperation part ∨ u.OfOperation part) ∨
        run.tree.root.Misspells P ∨ run.tree.root.Misspells Q := by
  obtain rfl := canonicalize_eq hP
  obtain rfl := canonicalize_eq hQ
  have hp := (UseLaw.spelling run hkeys).sound_of_run (UseLaw.spelling_covers hkeys hd) h
  have hspelled {pointer name : String} (hname : p.name? pointer = some name) :
      run.tree.root.Spelled pointer := by
    obtain ⟨node, hspelled, -⟩ := hp.stands hname
    exact hspelled
  have hpointers {name name' : String} (hname : p.name? P = some name)
      (hname' : p.name? Q = some name') :
      P = Q ∨ run.tree.root.Misspells P ∨ run.tree.root.Misspells Q :=
    (hspelled hname).eq_or_misspells (hspelled hname') hP hQ hlocation hlocation'
  refine ⟨⟨(location?_eq_iff hlocation).mp hlocation', eq_of_location hP hQ hlocation hlocation'⟩,
    fun hname hname' => ⟨⟨?_, ?_⟩, hpointers hname hname'⟩, fun t ht u hu htP huQ => ?_⟩
  · rintro rfl
    exact hp.orderly.injective hname hname'
  · rintro rfl
    exact Option.some.inj (hname.symm.trans hname')
  · have hlookup := hp.orderly.coherent.mem_declarations_iff.mp ht
    have hlookup' := hp.orderly.coherent.mem_declarations_iff.mp hu
    -- Each of the two is the declaration of its source, or one of an operation.
    rcases hp.name?_source hlookup with hname | ⟨path, part, hoperation⟩
    · rcases hp.name?_source hlookup' with hname' | ⟨path, part, hoperation⟩
      · rw [htP] at hname
        rw [huQ] at hname'
        rcases hpointers hname hname' with rfl | hmisspells
        · rw [← Option.some.inj (hname.symm.trans hname'), hlookup] at hlookup'
          exact .inl (Option.some.inj hlookup')
        · exact .inr (.inr hmisspells)
      · exact .inr (.inl ⟨part, .inr ⟨path, hoperation⟩⟩)
    · exact .inr (.inl ⟨part, .inl ⟨path, hoperation⟩⟩)

/-- A document with a component whose name has a tilde, and with two references to it: the tilde is
escaped in one of them. -/
def tildeTree : Json :=
  .object [
    ("openapi", .string "3.0.0"),
    ("paths", .object []),
    ("components", .object [
      ("schemas", .object [
        ("a~b", .object [("type", .string "string")]),
        ("C", .object [
          ("properties", .object [
            ("x", .object [("$ref", .string "#/components/schemas/a~b")]),
            ("y", .object [("$ref", .string "#/components/schemas/a~0b")])])])])])]

/-- Both references lead to the component, and the run declares it under two names. One of the
references has a tilde that is not escaped. -/
theorem document_locations_tildeTree :
    ∃ d p, Document.ofTree tildeTree = .ok d ∧ tildeTree.distinctKeys = true ∧
      ((document ⟨.of tildeTree, {}, {}⟩ d).run.run {}).2 = p ∧
      (∀ pointer ∈ ["#/components/schemas/a~b", "#/components/schemas/a~0b"],
        canonicalize pointer = .ok pointer ∧
          location? tildeTree pointer = some [.key "components", .key "schemas", .key "a~b"]) ∧
      p.name? "#/components/schemas/a~b" = some "AB2" ∧
      p.name? "#/components/schemas/a~0b" = some "AB" ∧
      p.registry.declarations.map Declaration.source =
        ["#/components/schemas/a~0b", "#/components/schemas/C", "#/components/schemas/a~b"] ∧
      (tildeTree.Misspells "#/components/schemas/a~b" ∨
        tildeTree.Misspells "#/components/schemas/a~0b") := by
  have hrun : (Document.ofTree tildeTree).toOption.any (fun d =>
      let p := ((document ⟨.of tildeTree, {}, {}⟩ d).run.run {}).2
      p.name? "#/components/schemas/a~b" == some "AB2" &&
        p.name? "#/components/schemas/a~0b" == some "AB" &&
        p.registry.declarations.map Declaration.source ==
          ["#/components/schemas/a~0b", "#/components/schemas/C",
            "#/components/schemas/a~b"]) = true := by
    decide +kernel
  have hkeys : tildeTree.distinctKeys = true := by decide +kernel
  have hleads : ∀ pointer ∈ ["#/components/schemas/a~b", "#/components/schemas/a~0b"],
      canonicalize pointer = .ok pointer ∧
        location? tildeTree pointer = some [.key "components", .key "schemas", .key "a~b"] := by
    decide +kernel
  cases hd : Document.ofTree tildeTree with
  | error fault =>
    rw [hd] at hrun
    cases hrun
  | ok d =>
    rw [hd] at hrun
    obtain ⟨hnames, hsources⟩ := Bool.and_eq_true_iff.mp hrun
    obtain ⟨hname, hname'⟩ := Bool.and_eq_true_iff.mp hnames
    rw [beq_iff_eq] at hname hname' hsources
    obtain ⟨hcanonical, hlocation⟩ := hleads _ List.mem_cons_self
    obtain ⟨hcanonical', hlocation'⟩ := hleads _ (List.mem_cons_of_mem _ List.mem_cons_self)
    have hlocations := @document_locations ⟨.of tildeTree, {}, {}⟩ d hd hkeys _ _ rfl _ _ _ _
      hcanonical hcanonical' _ hlocation hlocation'
    have hmisspells := ((hlocations.2.1 hname hname').2).resolve_left (by decide)
    exact ⟨d, _, rfl, hkeys, rfl, hleads, hname, hname', hsources, hmisspells⟩

end Gen

end OpenApiTs
