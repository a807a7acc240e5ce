import OpenApiTs.Json.Basic
import OpenApiTs.Text.Lines

/-!
# Pointers into a document

A pointer is the text `#` followed by segments, each after a slash. In a segment a tilde is
written `~0` and a slash `~1`.

## Main definitions

* `Pointer.escape`, `Pointer.unescape`: segments and their written forms.
* `Pointer.child`, `Pointer.last`: adding a segment, and the last segment.
* `Pointer.canonicalize`: the pointer of a reference, if it is one into the document.
* `Pointer.lookup?`: the value at a pointer.
-/

namespace OpenApiTs.Pointer

/-! ### Segments -/

/-- The written form of a segment. -/
def escape (segment : String) : String :=
  Text.replaceChar '/' "~1" (Text.replaceChar '~' "~0" segment)

/-- A segment read from its written form: first the slashes, then the tildes. -/
def unescape (segment : String) : String :=
  String.ofList
    (Text.replacePair '~' '0' ['~'] (Text.replacePair '~' '1' ['/'] segment.toList))

/-- A pointer with one more segment. -/
def child (pointer segment : String) : String := pointer ++ "/" ++ escape segment

/-- A pointer with more segments. -/
def descend (pointer : String) (segments : List String) : String := segments.foldl child pointer

/-- The last segment of a pointer. -/
def last (pointer : String) : String :=
  unescape ((Text.pieces pointer '/').getLast?.getD pointer)

/-! ### References -/

/-- What is wrong with the text of a reference. -/
inductive Fault where
  /-- The reference leads out of the document. -/
  | external
  /-- The reference is no pointer. -/
  | malformed
  deriving DecidableEq, Repr

/-- The pointer of a reference. -/
def canonicalize (reference : String) : Except Fault String :=
  match reference.toList with
  | '#' :: rest =>
    match rest with
    | [] => .ok reference
    | c :: _ => if c = '/' then .ok reference else .error .malformed
  | cs => if '#' ∈ cs then .error .external else .error .malformed

/-! ### Look-up -/

/-- The index that a segment stands for in an array: digits without a leading zero. -/
def index? (segment : String) : Option Nat :=
  let cs := segment.toList
  if cs.isEmpty ∨ cs.any (fun c => !('0' ≤ c && c ≤ '9')) then none
  else if cs.head? = some '0' ∧ 1 < cs.length then none
  else some (cs.foldl (fun n c => n * 10 + (c.toNat - 48)) 0)

/-- The part of a value that a segment leads to. -/
def step? (value : Json) (segment : String) : Option Json :=
  match value with
  | .object members => Entries.get? segment members
  | .array elements => (index? segment).bind fun i => elements[i]?
  | _ => none

/-- The written segments of a pointer. -/
def segments (pointer : String) : List String := (Text.pieces pointer '/').tail

/-- The value at a canonical pointer. -/
def lookup? (root : Json) (pointer : String) : Option Json :=
  ((segments pointer).map unescape).foldlM step? root

end OpenApiTs.Pointer
