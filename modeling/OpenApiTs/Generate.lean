import OpenApiTs.Emission
import OpenApiTs.Generation.Operation

/-!
# Generation from a document

A run declares the component schemas in their order, then the types of every operation in the
order of paths and methods, and last claims the name of the interface of operations. Its
declarations are put into emission order.

## Main definitions

* `Output`: what a run produces.
* `Gen.document`: the computation of a run.
* `generate`: a run on a document.
-/

namespace OpenApiTs

/-- What a run produces. -/
structure Output where
  /-- The declarations in the order of their emission. -/
  types : List Declaration
  operations : List OperationTypes
  /-- The name of the interface of operations, if there is one. -/
  operationsInterface : Option String := none
  deriving DecidableEq, Repr

namespace Gen

variable (run : Setting)

/-- Declares component schemas that the filter admits. -/
def components : List (String × SchemaNode) → Gen Unit
  | [] => pure ()
  | (name, _) :: rest => do
    if run.filter.admitsSchema name then
      let _ ← ensureNamed run (Pointer.child Setting.componentSchemas name)
        Setting.componentSchemas
    components rest

/-- The types of operations on a path. -/
def pathOperations (path : String) (item : PathItem) :
    List (Method × Operation) → Gen (List OperationTypes)
  | [] => pure []
  | (method, o) :: rest => do
    let types ← operationTypes run path item method o
    return types :: (← pathOperations path item rest)

/-- The types of the operations on paths that the filter admits. -/
def paths : List (String × PathItem) → Gen (List OperationTypes)
  | [] => pure []
  | (path, item) :: rest => do
    let types ←
      if run.filter.admitsPath path then pathOperations run path item item.operations
      else pure []
    return types ++ (← paths rest)

/-- The raw name of the interface of operations. -/
def operationsInterface : String := "Operations"

/-- The computation of a run. -/
def document (d : Document) : Gen (List OperationTypes × Option String) := do
  components run d.schemas
  let operations ← paths run d.paths
  if run.config.output.operations && !operations.isEmpty then
    let name ← claim fun r => r.claimExport (run.config.naming.typeName operationsInterface)
    pure (operations, some name)
  else pure (operations, none)

end Gen

/-- A run on a document. -/
def generate (d : Document) (config : Config) : Except Failure Output :=
  match Filter.compile config.filter with
  | .error fault => .error (.invalidPattern fault)
  | .ok filter =>
    let run : Setting := ⟨.of d.tree, config, filter⟩
    match (Gen.document run d).run.run {} with
    | (.ok (operations, interface), p) =>
      .ok ⟨Emission.order p.registry.declarations, operations, interface⟩
    | (.error failure, _) => .error failure

end OpenApiTs
