import OpenApiTs.Config
import OpenApiTs.Reference.Basic
import OpenApiTs.Registry
import OpenApiTs.TypeUse

/-!
# The state of a run

A run keeps the registry, the name of every pointer that has one, and the pointers whose
declarations are being made. A pointer is named before its declaration is made, so a reference
back to it finds the name and goes no further. A computation that fails keeps the state that it
has reached.

## Main definitions

* `Setting`: what a run is given.
* `Progress`: the state of a run.
* `Gen`: computations over the state that can fail.
* `Gen.begin`, `Gen.finish`: naming a pointer, and putting its declaration into its place.
* `Setting.docs`: the documentation comment of a schema.
-/

namespace OpenApiTs

/-- What a run is given. -/
structure Setting where
  tree : DocumentTree
  config : Config
  filter : Filter

/-- The state of a run. -/
structure Progress where
  registry : Registry := {}
  /-- The name of every pointer that has one. -/
  names : List (String × String) := []
  /-- The pointers whose declarations are being made. -/
  visiting : List String := []

namespace Progress

/-- The name of a pointer. -/
def name? (p : Progress) (pointer : String) : Option String := Entries.get? pointer p.names

/-- Whether the declaration of a pointer is being made. -/
def isVisiting (p : Progress) (pointer : String) : Bool := p.visiting.contains pointer

end Progress

/-- Computations over the state of a run that can fail. -/
abbrev Gen := ExceptT Failure (StateM Progress)

namespace Gen

/-- A result that does not depend on the state. -/
def ofExcept {α : Type} : Except Failure α → Gen α
  | .ok x => pure x
  | .error failure => throw failure

/-- A claim on the registry. -/
def claim (f : Registry → Except NameExhausted (String × Registry)) : Gen String := do
  let p ← get
  match f p.registry with
  | .ok (name, registry) => do
    set { p with registry := registry }
    pure name
  | .error ⟨base, attempts⟩ => throw (.exhausted base attempts)

/-- The name of a pointer. -/
def nameOf? (pointer : String) : Gen (Option String) := return (← get).name? pointer

/-- Names a pointer and marks it as being visited. -/
def mark (pointer name : String) : Gen Unit :=
  modify fun p =>
    { p with
      names := Entries.put pointer name p.names
      visiting := Names.add p.visiting pointer }

/-- Reserves a name for the declaration of a pointer. -/
def begin (run : Setting) (pointer raw : String) : Gen String := do
  let name ← claim fun r => r.reserve (run.config.naming.typeName raw)
  mark pointer name
  pure name

/-- Puts a declaration into its place. It does not depend on itself. -/
def place (name : String) (d : Declaration) : Gen Unit :=
  modify fun p => { p with registry := p.registry.fulfill name (d.dropDependency name) }

/-- Puts the declaration of a pointer into its place and ends the visit. -/
def finish (pointer name : String) (d : Declaration) : Gen Unit := do
  modify fun p => { p with visiting := p.visiting.filter (· != pointer) }
  place name d

/-- Makes a declaration without a schema of its own. -/
def declare (run : Setting) (raw : String) (make : String → Declaration) : Gen String := do
  let name ← claim fun r => r.reserve (run.config.naming.typeName raw)
  place name (make name)
  pure name

end Gen

namespace Setting

/-- Where the component schemas stand. -/
def componentSchemas : String := "#/components/schemas"

/-- Whether a pointer leads into a component schema that the filter excludes. -/
def excludes (run : Setting) (pointer : String) : Bool :=
  match Text.dropPrefix? pointer (componentSchemas ++ "/") with
  | some rest =>
    !run.filter.admitsSchema (Pointer.unescape ((Text.pieces rest '/').headD ""))
  | none => false

/-- A documentation comment, unless comments are off. -/
def comment (run : Setting) (texts : List String) (indent : String) : String :=
  if run.config.output.emitDocs then Declaration.docComment texts indent else ""

/-- The text of a description, unless it is blank. -/
def description : Option String → List String
  | some text =>
    let text := Text.trim text
    if text.isEmpty then [] else [text]
  | none => []

/-- The tag of a deprecated part. -/
def deprecation (deprecated : Bool) : List String := if deprecated then ["@deprecated"] else []

/-- The texts of the documentation comment of a schema. -/
def docTexts (s : Schema) : List String :=
  description s.description ++
    (s.format.map fun format => "@format " ++ format).toList ++
    (s.byDefault.map fun value => "@default " ++ value.compact).toList ++
    (s.exampleValue.map fun value => "@example " ++ value.compact).toList ++
    deprecation s.deprecated

/-- The documentation comment of a schema, with further texts at its end. -/
def docs (run : Setting) (s : Schema) (more : List String) (indent : String) : String :=
  run.comment (docTexts s ++ more) indent

end Setting

end OpenApiTs
