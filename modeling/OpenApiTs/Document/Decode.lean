import OpenApiTs.Document.Basic
import OpenApiTs.Schema.Decode

/-!
# Decoding of document parts

The records of a document. A place that can hold a reference takes an object with a textual
`$ref`, or an array of a single text, as a reference, and reports every failure of its part as
its own.

## Main definitions

* `Referable.decode`: a part or a reference.
* `Parameter.record`, `RequestBody.record`, `Response.record`: the parts that references reach.
* `PathItem.record`, `Document.record`: paths and the document as a whole.
-/

namespace OpenApiTs

namespace Referable

/-- The pointer of a reference written as an object or an array. -/
def pointer? : Json → Option String
  | .array [.string pointer] => some pointer
  | .object members => (Entries.get? "$ref" members).bind Json.string?
  | _ => none

/-- A reference, or a part in its place. -/
def decode {α : Type} (decodeItem : Decoder α) : Decoder (Referable α) := fun value =>
  match pointer? value, decodeItem value with
  | some pointer, _ => .ok (.reference pointer)
  | none, .ok part => .ok (.item part)
  | none, .error _ => .error (.noAlternative "Referenceable")

end Referable

/-- The names of parameter locations. -/
def ParameterLocation.variants : List (String × ParameterLocation) :=
  [("path", .path), ("query", .query), ("header", .header), ("cookie", .cookie)]

/-- The description of a parameter. -/
def Parameter.record : Record Json Parameter where
  name := "Parameter"
  start := { name := "", location := .query }
  fields := [
    .needed "name" Decode.string fun x p => { p with name := x },
    .needed "in" (Decode.variant ParameterLocation.variants) fun x p => { p with location := x },
    .defaulted "required" Decode.boolean fun x p => { p with required := x },
    .defaulted "description" (Decode.optional Decode.string) fun x p =>
      { p with description := x },
    .defaulted "deprecated" Decode.boolean fun x p => { p with deprecated := x },
    .defaulted "schema" (Decode.optional SchemaNode.decode) fun x p => { p with schema := x }]

/-- The description of a media type. -/
def MediaType.record : Record Json MediaType where
  name := "MediaType"
  start := {}
  fields := [
    .defaulted "schema" (Decode.optional SchemaNode.decode) fun x m => { m with schema := x }]

/-- The description of a request body. -/
def RequestBody.record : Record Json RequestBody where
  name := "RequestBody"
  start := {}
  fields := [
    .defaulted "description" (Decode.optional Decode.string) fun x b =>
      { b with description := x },
    .defaulted "required" Decode.boolean fun x b => { b with required := x },
    .defaulted "content" (Decode.table MediaType.record.decode) fun x b =>
      { b with content := x }]

/-- The description of a response. -/
def Response.record : Record Json Response where
  name := "Response"
  start := {}
  fields := [
    .defaulted "description" (Decode.optional Decode.string) fun x r =>
      { r with description := x },
    .defaulted "content" (Decode.table MediaType.record.decode) fun x r =>
      { r with content := x }]

/-- A list of parameters. -/
def Parameter.decodeList : Decoder (List (Referable Parameter)) :=
  Decode.list (Referable.decode Parameter.record.decode)

/-- The description of an operation. -/
def Operation.record : Record Json Operation where
  name := "Operation"
  start := {}
  fields := [
    .defaulted "operationId" (Decode.optional Decode.string) fun x o =>
      { o with operationId := x },
    .defaulted "summary" (Decode.optional Decode.string) fun x o => { o with summary := x },
    .defaulted "description" (Decode.optional Decode.string) fun x o =>
      { o with description := x },
    .defaulted "tags" (Decode.list Decode.string) fun x o => { o with tags := x },
    .defaulted "parameters" Parameter.decodeList fun x o => { o with parameters := x },
    .defaulted "requestBody" (Decode.optional (Referable.decode RequestBody.record.decode))
      fun x o => { o with requestBody := x },
    .defaulted "responses" (Decode.table (Referable.decode Response.record.decode)) fun x o =>
      { o with responses := x },
    .defaulted "deprecated" Decode.boolean fun x o => { o with deprecated := x }]

/-- An operation or nothing. -/
def Operation.decodeOptional : Decoder (Option Operation) :=
  Decode.optional Operation.record.decode

/-- The description of a path. -/
def PathItem.record : Record Json PathItem where
  name := "PathItem"
  start := {}
  fields := [
    .defaulted "parameters" Parameter.decodeList fun x p => { p with parameters := x },
    .defaulted "get" Operation.decodeOptional fun x p => { p with get := x },
    .defaulted "put" Operation.decodeOptional fun x p => { p with put := x },
    .defaulted "post" Operation.decodeOptional fun x p => { p with post := x },
    .defaulted "delete" Operation.decodeOptional fun x p => { p with delete := x },
    .defaulted "options" Operation.decodeOptional fun x p => { p with options := x },
    .defaulted "head" Operation.decodeOptional fun x p => { p with head := x },
    .defaulted "patch" Operation.decodeOptional fun x p => { p with patch := x },
    .defaulted "trace" Operation.decodeOptional fun x p => { p with trace := x }]

/-- The description of what a document says about itself. -/
def Info.record : Record Json Info where
  name := "Info"
  start := {}
  fields := [
    .defaulted "title" Decode.string fun x i => { i with title := x },
    .defaulted "version" Decode.string fun x i => { i with version := x },
    .defaulted "description" (Decode.optional Decode.string) fun x i =>
      { i with description := x }]

/-- The component schemas. -/
def Document.componentsRecord : Record Json (List (String × SchemaNode)) where
  name := "Components"
  start := []
  fields := [.defaulted "schemas" (Decode.table SchemaNode.decode) fun x _ => x]

/-- The description of a document whose tree is `tree`. -/
def Document.record (tree : Json) : Record Json Document where
  name := "DocumentShape"
  start := { openapi := "", tree := tree }
  fields := [
    .needed "openapi" Decode.string fun x d => { d with openapi := x },
    .defaulted "info" Info.record.decode fun x d => { d with info := x },
    .needed "paths" (Decode.table PathItem.record.decode) fun x d => { d with paths := x },
    .defaulted "components" Document.componentsRecord.decode fun x d => { d with schemas := x }]

end OpenApiTs
