import OpenApiTs.Schema.Basic

/-!
# Documents

The parts of an OpenAPI document that declarations are made from, and the document tree itself,
into which references point.

## Main definitions

* `Document`: a document.
* `PathItem`, `Operation`, `Parameter`, `RequestBody`, `Response`, `MediaType`: its parts.
* `Referable`: a part, or a reference to one.
* `Method`: the methods, in the order in which operations are visited.
-/

namespace OpenApiTs

/-- A part that stands in its place, or a reference to one elsewhere. -/
inductive Referable (α : Type) where
  | reference (pointer : String)
  | item (value : α)

/-- The methods of operations. -/
inductive Method where
  | get
  | put
  | post
  | delete
  | options
  | head
  | patch
  | trace
  deriving DecidableEq, Repr

namespace Method

/-- The methods in the order in which the operations of a path are visited. -/
def all : List Method := [get, put, post, delete, options, head, patch, trace]

/-- The name of a method in a document. -/
def name : Method → String
  | .get => "get"
  | .put => "put"
  | .post => "post"
  | .delete => "delete"
  | .options => "options"
  | .head => "head"
  | .patch => "patch"
  | .trace => "trace"

/-- The name of a method in capitals. -/
def title : Method → String
  | .get => "GET"
  | .put => "PUT"
  | .post => "POST"
  | .delete => "DELETE"
  | .options => "OPTIONS"
  | .head => "HEAD"
  | .patch => "PATCH"
  | .trace => "TRACE"

end Method

/-- Where a parameter is sent. -/
inductive ParameterLocation where
  | path
  | query
  | header
  | cookie
  deriving DecidableEq, Repr

/-- A parameter of an operation. -/
structure Parameter where
  name : String
  location : ParameterLocation
  required : Bool := false
  description : Option String := none
  deprecated : Bool := false
  schema : Option SchemaNode := none

/-- The content of a body in one media type. -/
structure MediaType where
  schema : Option SchemaNode := none

/-- A request body. -/
structure RequestBody where
  description : Option String := none
  required : Bool := false
  content : List (String × MediaType) := []

/-- A response. -/
structure Response where
  description : Option String := none
  content : List (String × MediaType) := []

/-- An operation on a path. -/
structure Operation where
  operationId : Option String := none
  summary : Option String := none
  description : Option String := none
  tags : List String := []
  parameters : List (Referable Parameter) := []
  requestBody : Option (Referable RequestBody) := none
  responses : List (String × Referable Response) := []
  deprecated : Bool := false

/-- A path with its operations. -/
structure PathItem where
  parameters : List (Referable Parameter) := []
  get : Option Operation := none
  put : Option Operation := none
  post : Option Operation := none
  delete : Option Operation := none
  options : Option Operation := none
  head : Option Operation := none
  patch : Option Operation := none
  trace : Option Operation := none

namespace PathItem

/-- The operation of a method. -/
def operation? (item : PathItem) : Method → Option Operation
  | .get => item.get
  | .put => item.put
  | .post => item.post
  | .delete => item.delete
  | .options => item.options
  | .head => item.head
  | .patch => item.patch
  | .trace => item.trace

/-- The operations of a path in the order of the methods. -/
def operations (item : PathItem) : List (Method × Operation) :=
  Method.all.filterMap fun method => (item.operation? method).map fun o => (method, o)

end PathItem

/-- What a document says about itself. -/
structure Info where
  title : String := ""
  version : String := ""
  description : Option String := none
  deriving DecidableEq, Repr

/-- A document. -/
structure Document where
  openapi : String
  info : Info := {}
  paths : List (String × PathItem) := []
  /-- The component schemas. -/
  schemas : List (String × SchemaNode) := []
  /-- The document tree. -/
  tree : Json

namespace Document

/-- The number of operations on all paths. -/
def operationCount (document : Document) : Nat :=
  (document.paths.flatMap fun (_, item) => item.operations).length

end Document

end OpenApiTs
