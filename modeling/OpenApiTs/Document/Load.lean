import OpenApiTs.Document.Decode
import OpenApiTs.Failure
import OpenApiTs.Json.Reader
import OpenApiTs.Text.Lines
import OpenApiTs.Yaml.Reader

/-!
# Loading of documents

A document is loaded from a tree if the tree is an object with a version of the 3.x line and a
`paths` object, and all its parts decode. The tests are made in this order.

## Main definitions

* `Document.ofTree`: a document from its tree.
* `Document.ofJsonText`, `Document.ofYamlText`: a document from a JSON or YAML text.
-/

namespace OpenApiTs.Document

/-- The version that a tree states, and whether the rest can be decoded at all. -/
def checkTree (tree : Json) : Except DocumentFault Unit :=
  match tree with
  | .object members => do
    match Entries.get? "openapi" members with
    | some (.string version) =>
      if !Text.startsWith version "3." then throw (.versionUnsupported version)
    | some _ => throw .versionNotText
    | none => throw .versionMissing
    match Entries.get? "paths" members with
    | some (.object _) => pure ()
    | _ => throw .pathsMissing
  | _ => .error .notAnObject

/-- A document from its tree. -/
def ofTree (tree : Json) : Except DocumentFault Document := do
  checkTree tree
  match (record tree).decode .json tree with
  | .ok document => pure document
  | .error error => throw (.undecodable error)

/-- A document from a JSON text. -/
def ofJsonText (text : String) : Except DocumentFault Document :=
  match Json.read? Json.maxDepth text with
  | some tree => ofTree tree
  | none => .error .notJson

/-- A document from a YAML text. -/
def ofYamlText (text : String) : Except DocumentFault Document :=
  match Yaml.read? text with
  | some tree => ofTree tree
  | none => .error .notYaml

end OpenApiTs.Document
