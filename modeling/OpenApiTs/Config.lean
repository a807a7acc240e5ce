import OpenApiTs.Decode.Record
import OpenApiTs.Filter
import OpenApiTs.Naming.Rules
import OpenApiTs.Toml.Reader

/-!
# Configuration of a run

Naming conventions, custom target types for scalar types, filters, and what the generated file
holds. Every section has defaults, so an empty configuration is one.

## Main definitions

* `Config`: a configuration.
* `Config.targetFor?`: the custom target of a type and format.
* `Config.decode`: the decoder.
* `Config.ofTomlText?`: the configuration of a TOML text.
* `Config.toJson`: the JSON form, all sections written out.
-/

namespace OpenApiTs

/-- A custom target for a type, for one format or for all of them. -/
structure TypeMapping where
  type : String
  format : Option String := none
  target : String
  deriving DecidableEq, Repr

/-- Whether a mapping applies to a type with a format. -/
def TypeMapping.applies (m : TypeMapping) (type : String) (format : Option String) : Bool :=
  m.type == type && (m.format.isNone || m.format == format)

/-- What the generated file holds. -/
structure OutputRules where
  /-- The first lines of the file. -/
  header : String := "// This file is generated by typesync. Do not edit by hand."
  /-- Whether documentation comments are written. -/
  emitDocs : Bool := true
  /-- Whether an interface of all operations is appended. -/
  operations : Bool := true
  deriving DecidableEq, Repr

/-- How changes of the input are watched. -/
structure WatchRules where
  /-- How long, in milliseconds, a burst of changes may pause. -/
  debounce : Nat := 300
  deriving DecidableEq, Repr

/-- A configuration. -/
structure Config where
  naming : NamingRules := {}
  mappings : List TypeMapping := []
  filter : FilterRules := {}
  output : OutputRules := {}
  watch : WatchRules := {}
  deriving DecidableEq, Repr

/-- The target of the first mapping that applies. -/
def Config.targetFor? (config : Config) (type : String) (format : Option String) :
    Option String :=
  (config.mappings.find? fun m => m.applies type format).map TypeMapping.target

/-! ### Decoding -/

/-- The names of the conventions, in the order in which an error lists them. -/
def Convention.variants : List (String × Convention) :=
  [("camel", .camel), ("camelCase", .camel), ("snake", .snake), ("snake_case", .snake),
    ("PascalCase", .pascal), ("pascal", .pascal)]

/-- The description of naming rules. -/
def NamingRules.record (dialect : Dialect := .json) : Record Json NamingRules where
  name := "NamingConfig"
  start := {}
  fields := [
    .defaulted "types" (Decode.variant Convention.variants dialect) fun x r =>
      { r with types := x },
    .defaulted "fields" (Decode.optional (Decode.variant Convention.variants dialect)) fun x r =>
      { r with fields := x },
    .defaulted "prefix" Decode.string fun x r => { r with before := x },
    .defaulted "suffix" Decode.string fun x r => { r with after := x }]

/-- The description of a type mapping. -/
def TypeMapping.record : Record Json TypeMapping where
  name := "TypeMapping"
  start := { type := "", target := "" }
  fields := [
    .needed "type" Decode.string fun x m => { m with type := x },
    .defaulted "format" (Decode.optional Decode.string) fun x m => { m with format := x },
    .needed "target" Decode.string fun x m => { m with target := x }]

/-- The description of filter rules. -/
def FilterRules.record : Record Json FilterRules where
  name := "FilterConfig"
  start := {}
  fields := [
    .defaulted "include_paths" (Decode.list Decode.string) fun x r =>
      { r with includePaths := x },
    .defaulted "exclude_paths" (Decode.list Decode.string) fun x r =>
      { r with excludePaths := x },
    .defaulted "include_schemas" (Decode.list Decode.string) fun x r =>
      { r with includeSchemas := x },
    .defaulted "exclude_schemas" (Decode.list Decode.string) fun x r =>
      { r with excludeSchemas := x }]

/-- The description of output rules. -/
def OutputRules.record : Record Json OutputRules where
  name := "OutputConfig"
  start := {}
  fields := [
    .defaulted "header" Decode.string fun x r => { r with header := x },
    .defaulted "emit_docs" Decode.boolean fun x r => { r with emitDocs := x },
    .defaulted "operations" Decode.boolean fun x r => { r with operations := x }]

/-- The description of watch rules. -/
def WatchRules.record : Record Json WatchRules where
  name := "WatchConfig"
  start := {}
  fields := [.defaulted "debounce_ms" Decode.natural fun x r => { r with debounce := x }]

/-- The description of a configuration. -/
def Config.record (dialect : Dialect := .json) : Record Json Config where
  name := "TypegenConfig"
  start := {}
  fields := [
    .defaulted "naming" ((NamingRules.record dialect).decode dialect) fun x c =>
      { c with naming := x },
    .defaulted "type_mappings" (Decode.list (TypeMapping.record.decode dialect)) fun x c =>
      { c with mappings := x },
    .defaulted "filter" (FilterRules.record.decode dialect) fun x c => { c with filter := x },
    .defaulted "output" (OutputRules.record.decode dialect) fun x c => { c with output := x },
    .defaulted "watch" (WatchRules.record.decode dialect) fun x c => { c with watch := x }]

/-- A configuration. -/
def Config.decode (dialect : Dialect := .json) : Decoder Config :=
  (Config.record dialect).decode dialect

/-- The configuration that a TOML text describes, if it is one. -/
def Config.ofTomlText? (text : String) : Option Config :=
  (Toml.read? text).bind fun value => (Config.decode .toml value).toOption

/-! ### JSON form -/

/-- The name under which a convention is written. -/
def Convention.name : Convention → String
  | .camel => "camelCase"
  | .snake => "snake_case"
  | .pascal => "PascalCase"

/-- The JSON form of naming rules. -/
def NamingRules.toJson (r : NamingRules) : Json :=
  .object <|
    [("types", .string r.types.name)] ++
      (match r.fields with
        | some convention => [("fields", .string convention.name)]
        | none => []) ++
      [("prefix", .string r.before), ("suffix", .string r.after)]

/-- The JSON form of a type mapping. -/
def TypeMapping.toJson (m : TypeMapping) : Json :=
  .object <|
    [("type", .string m.type)] ++
      (match m.format with
        | some format => [("format", .string format)]
        | none => []) ++
      [("target", .string m.target)]

/-- The JSON form of filter rules. -/
def FilterRules.toJson (r : FilterRules) : Json :=
  .object [
    ("include_paths", .array (r.includePaths.map .string)),
    ("exclude_paths", .array (r.excludePaths.map .string)),
    ("include_schemas", .array (r.includeSchemas.map .string)),
    ("exclude_schemas", .array (r.excludeSchemas.map .string))]

/-- The JSON form of output rules. -/
def OutputRules.toJson (r : OutputRules) : Json :=
  .object [("header", .string r.header), ("emit_docs", .bool r.emitDocs),
    ("operations", .bool r.operations)]

/-- The JSON form of watch rules. -/
def WatchRules.toJson (r : WatchRules) : Json :=
  .object [("debounce_ms", .number (.int r.debounce))]

/-- The JSON form of a configuration. -/
def Config.toJson (c : Config) : Json :=
  .object [("naming", c.naming.toJson), ("type_mappings", .array (c.mappings.map
    TypeMapping.toJson)), ("filter", c.filter.toJson), ("output", c.output.toJson),
    ("watch", c.watch.toJson)]

end OpenApiTs
