import OpenApiTs.Proofs.Places

/-!
# Adding a segment to a pointer

A run names a part of a value by adding a segment to the pointer of the value, and reads the segment
back where the part is named. Every text can be such a segment: its tildes and slashes are written
out, first the tildes and then the slashes, and are read in the opposite order, so that neither
reading takes what the other has written. No slash is left to be mistaken for one between segments.
So nothing is lost: the longer pointer tells both the shorter one and the segment, and it leads from
an object to the member under the segment itself.

## Main results

* `Pointer.last_child`: the last segment of a longer pointer.
* `Pointer.canonicalize_child`: a longer pointer is a pointer into the document.
* `DocumentTree.lookup_child`: the value at a longer pointer, or the failure to find one.
* `DocumentTree.child_laws`: the laws of a pointer with one more segment.
-/

namespace OpenApiTs

namespace Pointer

variable {pointer : String}

/-- The segment that is added is read back. -/
theorem last_child (pointer segment : String) : last (child pointer segment) = segment := by
  rw [last, pieces_child, List.getLast?_append, List.getLast?_singleton, Option.some_or,
    Option.getD_some, unescape_escape]

/-- A pointer into the document stays one. -/
theorem canonicalize_child (h : canonicalize pointer = .ok pointer) (segment : String) :
    canonicalize (child pointer segment) = .ok (child pointer segment) := by
  have hlist : (child pointer segment).toList =
      pointer.toList ++ '/' :: (escape segment).toList := by
    rw [child, String.toList_append, String.toList_append, List.append_assoc]
    rfl
  unfold canonicalize at h
  split at h
  · next rest hpointer =>
    split at h
    · rw [canonicalize, hlist, hpointer]
      rfl
    · next c cs =>
      split at h
      · next hslash =>
        subst hslash
        rw [canonicalize, hlist, hpointer]
        rfl
      · cases h
  · split at h <;> cases h

end Pointer

namespace DocumentTree

variable {tree : DocumentTree} {pointer from_ : String} {value : Json}

/-- Below a value stands the part for which the segment stands, or nothing. -/
theorem lookup_child (h : tree.lookup pointer from_ = .ok value) (segment place : String) :
    tree.lookup (Pointer.child pointer segment) place =
      match Pointer.step? value segment with
      | some part => .ok part
      | none => .error (.unresolved (Pointer.child pointer segment) place) := by
  obtain ⟨hcanonical, hvalue⟩ := lookup?_of_lookup h
  have hchild : Pointer.lookup? tree.root (Pointer.child pointer segment) =
      Pointer.step? value segment := by
    rw [Pointer.lookup?_child, hvalue, Option.bind_some]
  have hcanonical' := Pointer.canonicalize_child hcanonical segment
  cases hpart : Pointer.step? value segment with
  | none => rw [lookup_eq hcanonical', hchild, hpart]
  | some part => rw [lookup_eq hcanonical', hchild, hpart]

/-- Whatever a segment is, it is read back from its written form, and from the end of the pointer to
which it is added. Pointers with one more segment are the same only if the shorter pointers and the
segments are. Where a pointer leads to an object, the longer one leads to the member under the
segment, and to nothing if the object has no such member. -/
theorem child_laws :
    (∀ segment, Pointer.unescape (Pointer.escape segment) = segment) ∧
    (∀ pointer segment, Pointer.last (Pointer.child pointer segment) = segment) ∧
    (∀ pointer pointer' segment segment',
      Pointer.child pointer segment = Pointer.child pointer' segment' ↔
        pointer = pointer' ∧ segment = segment') ∧
    ∀ (tree : DocumentTree) (pointer from_ : String) (members : List (String × Json)),
      tree.lookup pointer from_ = .ok (.object members) → ∀ segment place,
        tree.lookup (Pointer.child pointer segment) place =
          match Entries.get? segment members with
          | some value => .ok value
          | none => .error (.unresolved (Pointer.child pointer segment) place) := by
  refine ⟨Pointer.unescape_escape, Pointer.last_child, fun pointer pointer' segment segment' => ?_,
    fun tree pointer from_ members h segment place => lookup_child h segment place⟩
  constructor
  · exact Pointer.child_inj
  · rintro ⟨rfl, rfl⟩
    rfl

/-- An object under a key that reads like an escaped tilde, with a slash in one of its own keys. -/
def knottedTree : DocumentTree :=
  .of (.object [("~01", .object [("a/b", .bool true), ("a~1b", .bool false)])])

/-- The two keys are kept apart, and a key that is not there is reported missing. -/
theorem child_laws_knottedTree :
    knottedTree.lookup "#/~001" "#/test" =
        .ok (.object [("a/b", .bool true), ("a~1b", .bool false)]) ∧
      Pointer.child "#/~001" "a/b" = "#/~001/a~1b" ∧
      Pointer.child "#/~001" "a~1b" = "#/~001/a~01b" ∧
      knottedTree.lookup "#/~001/a~1b" "#/test" = .ok (.bool true) ∧
      knottedTree.lookup "#/~001/a~01b" "#/test" = .ok (.bool false) ∧
      knottedTree.lookup "#/~001/~1" "#/test" = .error (.unresolved "#/~001/~1" "#/test") := by
  have hobject : knottedTree.lookup "#/~001" "#/test" =
      .ok (.object [("a/b", .bool true), ("a~1b", .bool false)]) := by
    rfl
  have hslash : Pointer.child "#/~001" "a/b" = "#/~001/a~1b" := by decide
  have htilde : Pointer.child "#/~001" "a~1b" = "#/~001/a~01b" := by decide
  have hmissing : Pointer.child "#/~001" "/" = "#/~001/~1" := by decide
  obtain ⟨-, -, -, hlookup⟩ := child_laws
  have hbelow := hlookup knottedTree "#/~001" "#/test" _ hobject
  refine ⟨hobject, hslash, htilde, ?_, ?_, ?_⟩
  · rw [← hslash, hbelow "a/b"]
    rfl
  · rw [← htilde, hbelow "a~1b"]
    rfl
  · rw [← hmissing, hbelow "/"]
    rfl

end DocumentTree

end OpenApiTs
