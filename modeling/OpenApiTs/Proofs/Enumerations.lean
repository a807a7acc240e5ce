import Mathlib.Data.List.Induction
import OpenApiTs.Proofs.Printing
import OpenApiTs.Proofs.Termination

/-!
# Members of an enumeration

An enumeration of texts or of numbers has a member for each of its values but null, in the order in
which the values first occur. A member is named after its value, or after its position if the value
lends it no identifier. A name that an earlier member has gets the first number that makes it free,
whether the two come from like values, from a position or from such a number, so that all names are
distinct. The search for a number ends, because only so many names are in use.

## Main definitions

* `Json.Firsts`: values, each where it occurs first.

## Main results

* `Schema.firsts_literals`: the values of the members.
* `Enumeration.memberName_not_mem`, `Enumeration.nodup_membersFrom`: the names of the members.
* `Setting.Reaches.enumeration_faithful`: the declaration of an enumeration.
-/

namespace OpenApiTs

/-! ### Values where they occur first -/

/-- The number without the sign of zero. -/
def Binary64.unsigned (x : Binary64) : Binary64 :=
  if x.mantissa = 0 then { x with negative := false } else x

theorem Binary64.same_iff {x y : Binary64} : x.same y = true ↔ x.unsigned = y.unsigned := by
  obtain ⟨negative, mantissa, scale⟩ := x
  obtain ⟨negative', mantissa', scale'⟩ := y
  unfold same unsigned
  by_cases hx : mantissa = 0 <;> by_cases hy : mantissa' = 0 <;> simp [hx, hy] <;> grind

namespace Json

/-- A text or a number. -/
def IsScalar (value : Json) : Prop := value.isString = true ∨ value.isNumber = true

/-- The value without the sign of zero. -/
def unsigned : Json → Json
  | .number (.double x) => .number (.double x.unsigned)
  | value => value

/-- Texts and numbers are the same value exactly if they agree but for the sign of zero. -/
theorem same_iff {a b : Json} (ha : a.IsScalar) (hb : b.IsScalar) :
    a.same b = true ↔ a.unsigned = b.unsigned := by
  cases a with
  | null | bool _ | array _ | object _ => exact ha.elim nofun nofun
  | string s =>
    cases b with
    | null | bool _ | array _ | object _ => exact hb.elim nofun nofun
    | string t => simp [same, unsigned]
    | number n => cases n <;> simp [same, unsigned]
  | number n =>
    cases b with
    | null | bool _ | array _ | object _ => exact hb.elim nofun nofun
    | string t => cases n <;> simp [same, unsigned]
    | number m =>
      cases n <;> cases m <;> simp [same, Number.same, unsigned, Binary64.same_iff]

/-- The values of a list, each where it occurs first, in the order in which they do. -/
structure Firsts (values firsts : List Json) : Prop where
  first : ∀ w ∈ firsts, values.find? (fun v => v.same w) = some w
  found : ∀ v ∈ values, ∃ w ∈ firsts, w.same v = true
  apart : firsts.Pairwise fun a b => a.same b = false
  ordered : firsts.Pairwise fun a b =>
    values.findIdx (fun v => v.same a) < values.findIdx (fun v => v.same b)

namespace Firsts

variable {values firsts : List Json} {value : Json}

theorem nil : Firsts [] [] := ⟨nofun, nofun, .nil, .nil⟩

theorem subset (h : Firsts values firsts) : firsts ⊆ values := fun w hw =>
  List.mem_of_find?_eq_some (h.first w hw)

theorem findIdx_lt (h : Firsts values firsts) {w : Json} (hw : w ∈ firsts) :
    values.findIdx (fun v => v.same w) < values.length :=
  List.findIdx_lt_length_of_exists
    ⟨w, h.subset hw, List.find?_some (p := fun v : Json => v.same w) (h.first w hw)⟩

/-- One more value is listed unless it is one of those listed. -/
theorem append_singleton (h : Firsts values firsts) (hvalues : ∀ v ∈ values, v.IsScalar)
    (hvalue : value.IsScalar) :
    Firsts (values ++ [value])
      (if firsts.any fun other => other.same value then firsts else firsts ++ [value]) := by
  have hfirst : ∀ w ∈ firsts, (values ++ [value]).find? (fun v => v.same w) = some w :=
    fun w hw => by rw [List.find?_append, h.first w hw, Option.some_or]
  have hindex {w : Json} (hw : w ∈ firsts) : (values ++ [value]).findIdx (fun v => v.same w) =
      values.findIdx (fun v => v.same w) := by
    rw [List.findIdx_append, if_pos (h.findIdx_lt hw)]
  have hordered : firsts.Pairwise fun a b => (values ++ [value]).findIdx (fun v => v.same a) <
      (values ++ [value]).findIdx (fun v => v.same b) :=
    h.ordered.imp_of_mem fun ha hb hlt => by rwa [hindex ha, hindex hb]
  split
  · next hany =>
    refine ⟨hfirst, ?_, h.apart, hordered⟩
    exact List.forall_mem_append.mpr
      ⟨h.found, List.forall_mem_singleton.mpr (List.any_eq_true.mp hany)⟩
  · next hany =>
    have hnone : ∀ w ∈ firsts, w.same value = false := fun w hw =>
      Bool.eq_false_iff.mpr fun hsame => hany (List.any_eq_true.mpr ⟨w, hw, hsame⟩)
    have hself : value.same value = true := (same_iff hvalue hvalue).mpr rfl
    -- a value before that is the same would be the same as one of those listed
    have hnew : ∀ v ∈ values, ¬v.same value = true := fun v hv hsame => by
      obtain ⟨w, hw, hlike⟩ := h.found v hv
      have hws : w.IsScalar := hvalues w (h.subset hw)
      rw [same_iff (hvalues v hv) hvalue] at hsame
      rw [same_iff hws (hvalues v hv), hsame, ← same_iff hws hvalue, hnone w hw] at hlike
      cases hlike
    have hlast : (values ++ [value]).findIdx (fun v => v.same value) = values.length := by
      rw [List.findIdx_append, if_neg fun hlt => ?_, List.findIdx_cons, hself]
      · simp
      · obtain ⟨v, hv, hsame⟩ := List.findIdx_lt_length.mp hlt
        exact hnew v hv hsame
    refine ⟨?_, ?_, ?_, ?_⟩
    · refine List.forall_mem_append.mpr ⟨hfirst, List.forall_mem_singleton.mpr ?_⟩
      rw [List.find?_append, List.find?_eq_none.mpr hnew, Option.none_or]
      exact List.find?_cons_of_pos hself
    · refine List.forall_mem_append.mpr ⟨fun v hv => ?_, List.forall_mem_singleton.mpr ?_⟩
      · obtain ⟨w, hw, hlike⟩ := h.found v hv
        exact ⟨w, List.mem_append_left _ hw, hlike⟩
      · exact ⟨value, List.mem_append_right _ (List.mem_singleton_self _), hself⟩
    · refine List.pairwise_append.mpr ⟨h.apart, List.pairwise_singleton _ _, fun w hw => ?_⟩
      exact List.forall_mem_singleton.mpr (hnone w hw)
    · refine List.pairwise_append.mpr ⟨hordered, List.pairwise_singleton _ _, fun w hw => ?_⟩
      refine List.forall_mem_singleton.mpr ?_
      rw [hindex hw, hlast]
      exact h.findIdx_lt hw

end Firsts

end Json

/-- The values of the members of an enumeration of texts and numbers. -/
theorem Schema.firsts_literals {s : Schema}
    (h : ∀ v ∈ s.enumeration, v.isNull = false → v.IsScalar) :
    Json.Firsts (s.enumeration.filter fun v => !v.isNull) s.literals := by
  unfold literals
  dsimp only
  have hvalues : ∀ v ∈ s.enumeration.filter fun v => !v.isNull, v.IsScalar := fun v hv => by
    obtain ⟨hmem, hnull⟩ := List.mem_filter.mp hv
    exact h v hmem (by simpa using hnull)
  generalize (s.enumeration.filter fun v => !v.isNull) = values at hvalues ⊢
  induction values using List.reverseRecOn with
  | nil => exact .nil
  | append_singleton values value ih =>
    obtain ⟨hvalues, hvalue⟩ := List.forall_mem_append.mp hvalues
    rw [List.foldl_append]
    exact (ih hvalues).append_singleton hvalues (List.forall_mem_singleton.mp hvalue)

/-! ### Names of members -/

namespace Enumeration

variable {used : List String} {base : String}

/-- A search with enough numbers to try finds one that makes the name free. -/
theorem firstFree_not_mem :
    (count n : Nat) → clashes used base n ≤ count → firstFree used base count n ∉ used
  | 0, n, hle, hmem => by
      have := clashes_succ_lt (List.contains_iff_mem.mpr hmem)
      omega
  | count + 1, n, hle, hmem => by
      rw [firstFree] at hmem
      split at hmem
      · next h =>
        have := clashes_succ_lt h
        exact firstFree_not_mem count (n + 1) (by omega) hmem
      · next h => exact h (List.contains_iff_mem.mpr hmem)

/-- As many numbers as names are used are enough. -/
theorem firstFree_length_not_mem (used : List String) (base : String) :
    firstFree used base used.length 2 ∉ used :=
  firstFree_not_mem used.length 2 List.countP_le_length

/-- No earlier member has the name of a member. -/
theorem memberName_not_mem (used : List String) (i : Nat) (value : Json) :
    memberName used i value ∉ used := by
  unfold memberName
  dsimp only
  generalize (if Naming.isIdentifier (Naming.memberName value) then Naming.memberName value
    else "Value" ++ (i + 1).repr) = member
  split
  · exact firstFree_length_not_mem used member
  · next h => exact mt List.contains_iff_mem.mpr h

/-- The names of members are distinct identifiers, other than the names used before. -/
theorem nodup_membersFrom (used : List String) (i : Nat) (values : List Json) :
    ((membersFrom used i values).map Prod.fst).Nodup ∧
      ∀ name ∈ (membersFrom used i values).map Prod.fst,
        name ∉ used ∧ Naming.isIdentifier name = true := by
  induction values generalizing used i with
  | nil => exact ⟨.nil, nofun⟩
  | cons value rest ih =>
    obtain ⟨hnodup, hnames⟩ := ih (memberName used i value :: used) (i + 1)
    rw [membersFrom, List.map_cons, List.nodup_cons, List.forall_mem_cons]
    refine ⟨⟨fun hmem => (hnames _ hmem).1 List.mem_cons_self, hnodup⟩,
      ⟨memberName_not_mem used i value, isIdentifier_memberName used i value⟩,
      fun name hname => ?_⟩
    exact ⟨fun hmem => (hnames name hname).1 (List.mem_cons_of_mem _ hmem), (hnames name hname).2⟩

theorem map_snd_membersFrom (used : List String) (i : Nat) (values : List Json) :
    (membersFrom used i values).map Prod.snd = values.map Json.compact := by
  induction values generalizing used i with
  | nil => rfl
  | cons value rest ih =>
    rw [membersFrom]
    exact congrArg (_ :: ·) (ih _ (i + 1))

end Enumeration

/-! ### Declarations of enumerations -/

/-- An enumeration of texts or of numbers is declared with members, and never as a bare union. -/
theorem Makes.content_enumeration {run : Setting} {p : Progress} {U : UseRelation}
    {pointer name : String} {s : Schema} {d : Declaration}
    (hs : s.shape = .enumeration) (hu : Enumeration.isUniform s.literals = true)
    (h : Makes run p U pointer name (.schema s) d) :
    d.kind = .enumeration ∧ ∃ valuesName, valuesName ∈ d.exports ∧
      d.content = run.docs s [] "" ++ "export enum " ++ name ++ " \x7b\n" ++
        String.join ((Enumeration.members s.literals).map Enumeration.memberLine) ++ "\x7d\n\n" ++
        ("export type " ++ valuesName ++ " = " ++
          " | ".intercalate (s.literals.map Json.compact) ++ ";") := by
  cases h with
  | enumeration _ _ => exact ⟨rfl, _, List.mem_singleton_self _, rfl⟩
  | literals _ hmixed => exact absurd (hu.symm.trans hmixed) nofun
  | union hshape _ => exact absurd (hs.symm.trans hshape) nofun
  | record hmaker _ _ | interface hmaker _ _ _ _ | intersection hmaker _ _ _ _ | plain hmaker _ =>
    rw [hs] at hmaker
    cases hmaker

namespace Setting.Reaches

variable {run : Setting} {p q : Progress} {s : Schema} {pointer raw name : String}

/-- The declaration that is made in any state that a run reaches for an enumeration of texts or of
numbers, besides null. Its members are those of the values, each where it occurs first. They have
distinct names, all identifiers, and stand for the texts of their values. The declaration also
exports the union of these texts. Whatever names are in use, the search for a number that makes a
name free ends, and makes it free. -/
theorem enumeration_faithful (hp : run.Reaches p) (hs : s.shape = .enumeration)
    (huniform : (∀ v ∈ s.enumeration, v.isNull = false → v.isString = true) ∨
      (∀ v ∈ s.enumeration, v.isNull = false → v.isNumber = true))
    (hnew : p.name? pointer = none)
    (h : (Gen.generateNamed run s pointer raw).run.run p = (.ok name, q)) :
    ∃ (d : Declaration) (valuesName : String) (members : List (String × String))
      (values : List Json),
      q.registry.lookup? name = some d ∧ d.kind = .enumeration ∧ valuesName ∈ d.exports ∧
      d.content = run.docs s [] "" ++ "export enum " ++ name ++ " \x7b\n" ++
        String.join (members.map Enumeration.memberLine) ++ "\x7d\n\n" ++
        ("export type " ++ valuesName ++ " = " ++
          " | ".intercalate (values.map Json.compact) ++ ";") ∧
      Json.Firsts (s.enumeration.filter fun v => !v.isNull) values ∧
      members.map Prod.snd = values.map Json.compact ∧
      (members.map Prod.fst).Nodup ∧
      (∀ member ∈ members.map Prod.fst, Naming.isIdentifier member = true) ∧
      ∀ used base,
        (Enumeration.numbering used base).Ends 2 (Enumeration.firstFree used base used.length 2) ∧
          Enumeration.firstFree used base used.length 2 ∉ used := by
  have hfirsts : Json.Firsts (s.enumeration.filter fun v => !v.isNull) s.literals :=
    Schema.firsts_literals fun v hv hnull =>
      huniform.imp (fun hall => hall v hv hnull) fun hall => hall v hv hnull
  have hkind : Enumeration.isUniform s.literals = true := by
    have hall {kind : Json → Bool} (h : ∀ v ∈ s.enumeration, v.isNull = false → kind v = true) :
        s.literals.all kind = true := List.all_eq_true.mpr fun v hv => by
      obtain ⟨hmem, hnull⟩ := List.mem_filter.mp (hfirsts.subset hv)
      exact h v hmem (by simpa using hnull)
    rw [Enumeration.isUniform, Bool.or_eq_true]
    exact huniform.imp hall hall
  have hsound : (UseLaw.mentions run).Sound p := hp.sound fun _ _ => trivial
  obtain ⟨r, d, -, -, hmakes, rfl⟩ := hsound.declared_of_generateNamed trivial hnew h
  obtain ⟨hd, valuesName, hexports, hcontent⟩ := hmakes.content_enumeration hs hkind
  have hlookup := r.lookup?_finished pointer name d
  obtain ⟨hnodup, hnames⟩ := Enumeration.nodup_membersFrom [] 0 s.literals
  exact ⟨_, valuesName, Enumeration.members s.literals, s.literals, hlookup, hd,
    Declaration.mem_exports_rename_of_mem hmakes.draft.name hexports, hcontent, hfirsts,
    Enumeration.map_snd_membersFrom [] 0 s.literals, hnodup,
    fun member hmember => (hnames member hmember).2,
    fun used base => ⟨Enumeration.ends_numbering 2, Enumeration.firstFree_length_not_mem used base⟩⟩

/-- An enumeration in which a value that lends no identifier takes the name of the next, and two
like names take numbers that make a third of them. -/
def crowded : Schema where
  enumeration := [.string "日", .string "value1", .null, .string "a-b", .string "a_b",
    .string "aB2", .string "日"]

/-- The text of its declaration. -/
def crowdedText : String :=
  "export enum Test \x7b\n" ++
  "  Value1 = \"日\",\n" ++
  "  Value12 = \"value1\",\n" ++
  "  AB = \"a-b\",\n" ++
  "  AB2 = \"a_b\",\n" ++
  "  AB22 = \"aB2\",\n" ++
  "\x7d\n\n" ++
  "export type TestValues = \"日\" | \"value1\" | \"a-b\" | \"a_b\" | \"aB2\";"

theorem enumeration_faithful_crowded :
    crowded.shape = .enumeration ∧
      ∃ (d : Declaration) (valuesName : String) (members : List (String × String))
        (values : List Json) (q : Progress),
        (Gen.generateNamed Call.loopRun crowded "#/test" "Test").run.run {} = (.ok "Test", q) ∧
        q.registry.lookup? "Test" = some d ∧ d.kind = .enumeration ∧ valuesName ∈ d.exports ∧
        d.content = crowdedText ∧
        Json.Firsts (crowded.enumeration.filter fun v => !v.isNull) values ∧
        members.map Prod.snd = values.map Json.compact ∧ (members.map Prod.fst).Nodup := by
  have hshape : crowded.shape = .enumeration := by decide
  have hname : ((Gen.generateNamed Call.loopRun crowded "#/test" "Test").run.run {}).1 =
      .ok "Test" := eq_ok_of_toOption (by decide +kernel)
  have hcontent : (((Gen.generateNamed Call.loopRun crowded "#/test" "Test").run.run
      {}).2.registry.lookup? "Test").map Declaration.content = some crowdedText := by
    decide +kernel
  rcases hrun : (Gen.generateNamed Call.loopRun crowded "#/test" "Test").run.run {} with ⟨result, q⟩
  rw [hrun] at hname hcontent
  obtain rfl : result = .ok "Test" := hname
  obtain ⟨d, valuesName, members, values, hlookup, hkind, hexports, -, hfirsts, hliterals, hnodup,
    -⟩ := enumeration_faithful .start hshape (.inl (by decide)) rfl hrun
  dsimp only at hcontent
  rw [hlookup] at hcontent
  exact ⟨hshape, d, valuesName, members, values, q, rfl, hlookup, hkind, hexports,
    Option.some.inj hcontent, hfirsts, hliterals, hnodup⟩

end Setting.Reaches

end OpenApiTs
