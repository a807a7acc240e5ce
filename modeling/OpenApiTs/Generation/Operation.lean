import OpenApiTs.Document.Decode
import OpenApiTs.Generation.Reference

/-!
# Types of operations

Each operation gets the type of its request body, an interface of its parameters, and the type of
its responses. Parameters are merged by location and name, those of the operation over those of
its path; responses of several types are joined in a union.

## Main definitions

* `OperationTypes`: the types of an operation.
* `Gen.requestUse`, `Gen.parametersName`, `Gen.responseUse`: the three types.
* `Gen.operationTypes`: all of them for one operation.
-/

namespace OpenApiTs

/-- The types of an operation. -/
structure OperationTypes where
  /-- The raw name that the names of the types are made from. -/
  name : String
  operationId : Option String := none
  method : Method
  path : String
  /-- The type text of the request body. -/
  request : Option String := none
  /-- The name of the interface of parameters. -/
  params : Option String := none
  /-- The type text of the responses. -/
  response : Option String := none
  deriving DecidableEq, Repr

/-! ### Media types -/

namespace MediaType

/-- The media type that goes before all others. -/
def preferred : String := "application/json"

/-- The media types of forms. -/
def forms : List String := ["application/x-www-form-urlencoded", "multipart/form-data"]

/-- The preferred media type of a content, or its first. -/
def choose? (content : List (String × MediaType)) : Option (String × MediaType) :=
  match Entries.get? preferred content with
  | some media => some (preferred, media)
  | none => content.head?

/-- The pointer of the schema of a media type in the content of an owner. -/
def schemaPointer (owner mediaType : String) : String :=
  Pointer.descend owner ["content", mediaType, "schema"]

end MediaType

/-- A schema with the pointer that it stands at. -/
structure LocatedNode where
  node : SchemaNode
  location : String

/-- The chosen media type of a content whose owner stands at a pointer, with its schema. -/
def MediaType.located? (content : List (String × MediaType)) (owner : String) :
    Option (String × LocatedNode) := do
  let (mediaType, media) ← choose? content
  let node ← media.schema
  pure (mediaType, ⟨node, schemaPointer owner mediaType⟩)

namespace Gen

variable (run : Setting)

/-- A part that stands at a pointer or that a reference there leads to, with the pointer of the
part itself. -/
def locate {α : Type} (decode : Decoder α) (pointer : String) :
    Referable α → Except Failure (α × String)
  | .item part => .ok (part, pointer)
  | .reference reference => do
    let part ← run.tree.part decode reference pointer
    let target ← DocumentTree.canonicalize reference pointer
    pure (part, target)

/-- The type of a body. An inline schema is declared under a raw name. -/
def bodyUse (body : LocatedNode) (raw : String) : Gen TypeUse :=
  match body.node with
  | .reference reference => refer run reference body.location
  | .boolean allowed => pure (.ofBoolean allowed)
  | .schema s => do
    let name ← generateNamed run s body.location raw
    pure (.ofDeclaration name s)

/-! ### Requests -/

/-- The type text of the request body of an operation at a pointer. -/
def requestUse (o : Operation) (pointer name : String) : Gen (Option String) :=
  match o.requestBody with
  | none => pure none
  | some body => do
    let (body, owner) ← ofExcept
      (locate run RequestBody.record.decode (Pointer.child pointer "requestBody") body)
    match MediaType.located? body.content owner with
    | none => pure none
    | some (mediaType, located) => do
      let word := if MediaType.forms.contains mediaType then "FormData" else "Request"
      let use ← bodyUse run located (Naming.compose [name, word])
      pure (some use.text)

/-! ### Parameters -/

/-- A parameter with the pointer that it stands at. -/
structure LocatedParameter where
  parameter : Parameter
  pointer : String

/-- Whether two parameters have the same location and name. -/
def LocatedParameter.sameKey (a b : LocatedParameter) : Bool :=
  a.parameter.location == b.parameter.location && a.parameter.name == b.parameter.name

/-- The parameters with one more: in the place of the one with its location and name, or at the
end. -/
def mergeParameter (p : LocatedParameter) : List LocatedParameter → List LocatedParameter
  | [] => [p]
  | q :: rest => if q.sameKey p then p :: rest else q :: mergeParameter p rest

/-- The parameters at positions from `i` on below a pointer, merged. Cookies are left out. -/
def mergeParameters (pointer : String) :
    Nat → List (Referable Parameter) → List LocatedParameter →
      Except Failure (List LocatedParameter)
  | _, [], merged => .ok merged
  | i, entry :: rest, merged => do
    let (parameter, target) ←
      locate run Parameter.record.decode (Pointer.child pointer i.repr) entry
    if parameter.location == .cookie then mergeParameters pointer (i + 1) rest merged
    else mergeParameters pointer (i + 1) rest (mergeParameter ⟨parameter, target⟩ merged)

/-- The parameters of an operation at a pointer: those of its path, then its own. -/
def allParameters (item : PathItem) (o : Operation) (path pointer : String) :
    Except Failure (List LocatedParameter) := do
  let ofPath := Pointer.descend "#/paths" [path, "parameters"]
  let merged ← mergeParameters run ofPath 0 item.parameters []
  mergeParameters run (Pointer.child pointer "parameters") 0 o.parameters merged

/-- The field of a parameter of the interface with a raw name. -/
def parameterField (raw : String) (p : LocatedParameter) : Gen ObjectField := do
  let parameter := p.parameter
  let required := parameter.required || parameter.location == .path
  let f ←
    match parameter.schema with
    | some node =>
      field run (refer run) raw parameter.name (node.part run (refer run)) required
        (Pointer.child p.pointer "schema")
    | none =>
      pure ⟨run.config.naming.fieldName parameter.name, !required, .unknown, ""⟩
  let texts :=
    Setting.description parameter.description ++ Setting.deprecation parameter.deprecated
  pure (if texts.isEmpty then f else { f with docs := run.comment texts "  " })

/-- The interface of fields. -/
def parametersDeclaration (fields : List ObjectField) (source name : String) : Declaration where
  content :=
    "export interface " ++ name ++ " \x7b\n" ++ String.join (fields.map ObjectField.line) ++ "\x7d"
  dependencies := fields.foldl (fun names f => Names.union names f.use.mentions) []
  kind := .interface
  source := source

/-- The name of the interface of the parameters of an operation, if it has any. -/
def parametersName (item : PathItem) (o : Operation) (path pointer name : String) :
    Gen (Option String) := do
  let parameters ← ofExcept (allParameters run item o path pointer)
  if parameters.isEmpty then pure none
  else do
    let raw := Naming.compose [name, "Params"]
    let fields ← parameters.mapM (parameterField run raw)
    let source := Pointer.child pointer "parameters"
    some <$> declare run raw (parametersDeclaration fields source)

/-! ### Responses -/

/-- The bodies of responses by status, which stand below a pointer. -/
def responseBodies (pointer : String) :
    List (String × Referable Response) → Except Failure (List (String × LocatedNode))
  | [] => .ok []
  | (status, entry) :: rest => do
    let (response, owner) ← locate run Response.record.decode (Pointer.child pointer status) entry
    let bodies ← responseBodies pointer rest
    match MediaType.located? response.content owner with
    | some (_, located) => pure ((status, located) :: bodies)
    | none => pure bodies

/-- The raw name of the body of a response. The status is in it if several bodies are inline. -/
def responseName (name status : String) (several : Bool) : String :=
  Naming.compose (if several then [name, "Response", status] else [name, "Response"])

/-- The type texts of bodies, each once, and the declarations that they mention. -/
def responseTexts (name : String) (several : Bool) :
    List (String × LocatedNode) → List String → List String → Gen (List String × List String)
  | [], texts, mentions => pure (texts, mentions)
  | (status, body) :: rest, texts, mentions => do
    let use ← bodyUse run body (responseName name status several)
    responseTexts name several rest (Names.add texts use.text) (Names.union mentions use.mentions)

/-- The type text of the responses of an operation at a pointer. -/
def responseUse (o : Operation) (pointer name : String) : Gen (Option String) := do
  let source := Pointer.child pointer "responses"
  let bodies ← ofExcept (responseBodies run source o.responses)
  let inline := bodies.filter fun (_, body) => body.node.schema?.isSome
  let (texts, mentions) ← responseTexts run name (1 < inline.length) bodies [] []
  match texts with
  | [] => pure none
  | [text] => pure (some text)
  | texts => do
    let docs := run.comment ["Any response of `" ++ o.operationId.getD name ++ "`."] ""
    let result ← declare run (Naming.compose [name, "Result"]) fun result =>
      aliasDeclaration docs result ⟨" | ".intercalate texts, mentions⟩ source
    pure (some result)

/-! ### Operations -/

/-- The types of an operation on a path. -/
def operationTypes (path : String) (item : PathItem) (method : Method) (o : Operation) :
    Gen OperationTypes := do
  let name := Naming.operationName o.operationId method.name path
  let pointer := Pointer.descend "#/paths" [path, method.name]
  let request ← requestUse run o pointer name
  let params ← parametersName run item o path pointer name
  let response ← responseUse run o pointer name
  pure ⟨name, o.operationId, method, path, request, params, response⟩

end Gen

end OpenApiTs
