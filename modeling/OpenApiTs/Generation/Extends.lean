import OpenApiTs.Generation.Context

/-!
# Bases of an interface

An interface can extend a base that is declared as an object type. An intersection is so declared
if each of its entries is a base of this kind, an object that is merged into its body, or the
boolean that admits everything; its referenced entries are examined in turn. A pointer that is
under examination is taken for good.

## Main definitions

* `Schema.isMergeable`: an inline entry whose fields are merged.
* `Setting.isExtendable`: whether the schema at a pointer is a base.
-/

namespace OpenApiTs

/-- Whether the fields of an inline entry of an intersection are merged into the body. -/
def Schema.isMergeable (s : Schema) : Bool := s.shape == .object

namespace Setting

/-- A test of a pointer that is given the pointers examined so far and adds to them. -/
abbrev Examination := String → List String → Except Failure (Bool × List String)

/-- Whether each entry of an intersection keeps it an object type; the entries stand from position
`i` on below `location`. -/
def entriesExtendable (examine : Examination) (location : String) :
    Nat → List SchemaNode → List String → Except Failure (Bool × List String)
  | _, [], seen => .ok (true, seen)
  | i, .reference pointer :: rest, seen => do
    let base ← DocumentTree.canonicalize pointer (Pointer.child location i.repr)
    let (good, seen) ← examine base seen
    if good then entriesExtendable examine location (i + 1) rest seen else pure (false, seen)
  | i, .schema part :: rest, seen =>
    if part.isMergeable then entriesExtendable examine location (i + 1) rest seen
    else .ok (false, seen)
  | i, .boolean allowed :: rest, seen =>
    if allowed then entriesExtendable examine location (i + 1) rest seen else .ok (false, seen)

/-- Examines a pointer, with a bound on how deep examinations nest: each examines a pointer that
none around it examines. -/
def examine (run : Setting) : Nat → Examination
  | 0, _, seen => .ok (true, seen)
  | bound + 1, pointer, seen => do
    if run.excludes pointer then return (false, seen)
    if seen.contains pointer then return (true, seen)
    let seen := pointer :: seen
    let s ← run.tree.resolve pointer pointer
    if s.isNullable then return (false, seen)
    match s.shape with
    | .object => return (true, seen)
    | .intersection =>
      entriesExtendable (examine run bound) (Pointer.child pointer "allOf") 0 s.allOf seen
    | _ => return (false, seen)

/-- Whether the schema at a canonical pointer is declared as an object type that an interface can
extend. -/
def isExtendable (run : Setting) (pointer : String) : Except Failure Bool := do
  let (good, _) ← run.examine run.tree.bound pointer []
  return good

end Setting

end OpenApiTs
