import OpenApiTs.Glob

/-!
# Path and schema filters

Which paths and component schemas take part in a run. An empty list of included patterns admits
everything, and an excluded pattern wins over an included one.

## Main definitions

* `FilterRules`: the patterns as configured.
* `Filter.compile`: the patterns read, or the first one that is wrong.
* `Filter.admitsPath`, `Filter.admitsSchema`: the decision.
-/

namespace OpenApiTs

/-- Patterns as configured. -/
structure FilterRules where
  includePaths : List String := []
  excludePaths : List String := []
  includeSchemas : List String := []
  excludeSchemas : List String := []
  deriving DecidableEq, Repr

/-- A pattern that cannot be read. -/
structure PatternFault where
  pattern : String
  fault : Glob.Fault
  deriving DecidableEq, Repr

/-- Included and excluded patterns for one kind of name. -/
structure Selection where
  included : List Glob := []
  excluded : List Glob := []
  deriving DecidableEq, Repr

namespace Selection

/-- Whether a name is selected. -/
def admits (s : Selection) (name : String) : Bool :=
  (s.included.isEmpty || s.included.any fun g => g.admits name) &&
    !s.excluded.any fun g => g.admits name

/-- Whether there is a pattern at all. -/
def isActive (s : Selection) : Bool := !s.included.isEmpty || !s.excluded.isEmpty

end Selection

/-- Selections of paths and of component schemas. -/
structure Filter where
  paths : Selection := {}
  schemas : Selection := {}
  deriving DecidableEq, Repr

namespace Filter

/-- A list of patterns read in order. -/
def compilePatterns (patterns : List String) : Except PatternFault (List Glob) :=
  patterns.mapM fun pattern =>
    match Glob.parse pattern with
    | .ok glob => .ok glob
    | .error fault => .error ⟨pattern, fault⟩

/-- The patterns of a configuration read. -/
def compile (rules : FilterRules) : Except PatternFault Filter := do
  let includePaths ← compilePatterns rules.includePaths
  let excludePaths ← compilePatterns rules.excludePaths
  let includeSchemas ← compilePatterns rules.includeSchemas
  let excludeSchemas ← compilePatterns rules.excludeSchemas
  pure ⟨⟨includePaths, excludePaths⟩, ⟨includeSchemas, excludeSchemas⟩⟩

/-- Whether the operations of a path are generated. -/
def admitsPath (filter : Filter) (path : String) : Bool := filter.paths.admits path

/-- Whether a component schema is generated. -/
def admitsSchema (filter : Filter) (name : String) : Bool := filter.schemas.admits name

/-- Whether the filter has any pattern. -/
def isActive (filter : Filter) : Bool := filter.paths.isActive || filter.schemas.isActive

end Filter

end OpenApiTs
