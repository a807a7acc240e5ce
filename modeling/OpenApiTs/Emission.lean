import OpenApiTs.Declaration

/-!
# Emission order

Declarations are written so that each comes after those that it depends on. The order is that of a
depth-first walk over the given order; a dependency whose own walk is not finished is passed over,
so declarations on a cycle keep the given order.

## Main definitions

* `Emission.bearer?`: the declaration that a dependency stands for.
* `Emission.order`: the declarations in the order of their emission.
-/

namespace OpenApiTs.Emission

/-- The position of the first declaration that has or exports a name. -/
def bearer? (types : List Declaration) (name : String) : Option Nat :=
  types.findIdx? fun t => t.exports.contains name || t.name == name

/-- The positions that the declaration at a position depends on. -/
def dependencies (types : List Declaration) (i : Nat) : List Nat :=
  ((types[i]?.map Declaration.dependencies).getD []).filterMap (bearer? types)

/-- The state of a walk. -/
structure Walk where
  /-- The positions that the walk has reached. -/
  reached : List Nat := []
  /-- The finished positions, in order. -/
  finished : List Nat := []
  deriving DecidableEq, Repr

/-- The walk after a visit of a position. Every visit below it reaches a new position, so the
number of positions bounds how deep visits nest. -/
def visit (types : List Declaration) : Nat → Walk → Nat → Walk
  | 0, w, _ => w
  | bound + 1, w, i =>
    if w.reached.contains i then w
    else
      let w := { w with reached := i :: w.reached }
      let w := (dependencies types i).foldl (visit types bound) w
      { w with finished := w.finished ++ [i] }

/-- The positions in the order of their emission. -/
def positions (types : List Declaration) : List Nat :=
  ((List.range types.length).foldl (visit types (types.length + 1)) {}).finished

/-- The declarations in the order of their emission. -/
def order (types : List Declaration) : List Declaration :=
  (positions types).filterMap fun i => types[i]?

end OpenApiTs.Emission
