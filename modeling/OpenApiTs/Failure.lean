import OpenApiTs.Decode.Error
import OpenApiTs.Filter
import OpenApiTs.Pointer

/-!
# Failures of a run

Why a document cannot be loaded or declarations cannot be generated. Each failure ends the run; the
text of a failure is made in one place.

## Main definitions

* `DocumentFault`: what is wrong with a document as a whole.
* `Failure`: the failures.
* `Failure.message`: the text of a failure.
-/

namespace OpenApiTs

/-- What is wrong with a document as a whole. -/
inductive DocumentFault where
  | notAnObject
  | versionNotText
  | versionMissing
  | versionUnsupported (version : String)
  | pathsMissing
  | undecodable (error : DecodeError)
  | notJson
  | notYaml

/-- The text of a document fault. -/
def DocumentFault.message : DocumentFault → String
  | .notAnObject => "document root is not an object"
  | .versionNotText => "`openapi` must be a version string"
  | .versionMissing => "missing `openapi` version field"
  | .versionUnsupported version =>
    "OpenAPI version " ++ version ++ " not supported (expected 3.x)"
  | .pathsMissing => "missing `paths` object"
  | .undecodable error => error.message
  | .notJson => "invalid JSON"
  | .notYaml => "invalid YAML"

/-- Why a part of a document cannot be used. -/
inductive Unsupported where
  | reference (text : String) (fault : Pointer.Fault)
  | undecodable (error : DecodeError)

/-- The text of a reason. -/
def Unsupported.message : Unsupported → String
  | .reference text .external => "external reference `" ++ text ++ "` is not supported"
  | .reference text .malformed => "`" ++ text ++ "` is not a JSON pointer"
  | .undecodable error => error.message

/-- Why a run fails. -/
inductive Failure where
  /-- A reference leads to no value. -/
  | unresolved (pointer from_ : String)
  /-- A part at a location cannot be used. -/
  | unsupported (location : String) (reason : Unsupported)
  /-- No numbered form of a name is free. -/
  | exhausted (base : String) (attempts : Nat)
  | invalidDocument (fault : DocumentFault)
  | invalidPattern (fault : PatternFault)

/-- The text of a failure. -/
def Failure.message : Failure → String
  | .unresolved pointer from_ =>
    "unresolved reference `" ++ pointer ++ "` (referenced from `" ++ from_ ++ "`)"
  | .unsupported location reason =>
    "unsupported schema at `" ++ location ++ "`: " ++ reason.message
  | .exhausted base attempts =>
    "exhausted name suffixes for `" ++ base ++ "` after " ++ attempts.repr ++ " attempts"
  | .invalidDocument fault => "invalid OpenAPI document: " ++ fault.message
  | .invalidPattern ⟨pattern, fault⟩ =>
    "invalid filter pattern `" ++ pattern ++ "`: " ++ fault.message

end OpenApiTs
