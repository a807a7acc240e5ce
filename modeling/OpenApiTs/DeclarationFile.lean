import OpenApiTs.Generate

/-!
# Declaration files

A file of declarations has a header, the declarations with an empty line after each, and the
interface of operations, which has an entry for every operation. It ends in one line end.

## Main definitions

* `DeclarationFile.entryKeys`: the keys of the entries for a list of operations.
* `DeclarationFile.operationsText`: the interface of operations.
* `DeclarationFile.render`: the file.
* `Output.toJson`: the output of a run as JSON.
-/

namespace OpenApiTs

namespace DeclarationFile

/-! ### The interface of operations -/

/-- The text that the key of an operation is made from. -/
def entryBase (o : OperationTypes) : String := o.operationId.getD o.name

/-- The first of `count` numbers from `n` on that makes a key free. -/
def firstFree (used : List String) (base : String) : Nat → Nat → String
  | 0, n => base ++ n.repr
  | count + 1, n =>
    if used.contains (base ++ n.repr) then firstFree used base count (n + 1) else base ++ n.repr

/-- The key for a base, free of the keys used. -/
def freeKey (used : List String) (base : String) : String :=
  if used.contains base then firstFree used base used.length 2 else base

/-- The keys of operations after the keys used. -/
def entryKeysFrom (used : List String) : List OperationTypes → List String
  | [] => []
  | o :: rest =>
    let key := freeKey used (entryBase o)
    key :: entryKeysFrom (key :: used) rest

/-- The keys of the entries for a list of operations. -/
def entryKeys (operations : List OperationTypes) : List String := entryKeysFrom [] operations

/-- A key as it is written. -/
def writtenKey (key : String) : String :=
  if Naming.isIdentifier key then key else Text.quote key

/-- A slot of an entry. -/
def slotText (slot : String) (type : Option String) : String :=
  "    " ++ slot ++ ": " ++ type.getD "never" ++ ";\n"

/-- The entry of an operation under a key. -/
def entryText (emitDocs : Bool) (key : String) (o : OperationTypes) : String :=
  (if emitDocs then Declaration.docComment [o.method.title ++ " " ++ o.path] "  " else "") ++
    "  " ++ writtenKey key ++ ": \x7b\n" ++ slotText "request" o.request ++
    slotText "params" o.params ++ slotText "response" o.response ++ "  \x7d;\n"

/-- The interface of operations. -/
def operationsText (name : String) (operations : List OperationTypes) (emitDocs : Bool) :
    String :=
  "export interface " ++ name ++ " \x7b\n" ++
    String.join (List.zipWith (entryText emitDocs) (entryKeys operations) operations) ++ "\x7d\n"

/-! ### The file -/

/-- A block of the file with an empty line after it. -/
def paragraph (text : String) : String := text ++ "\n\n"

/-- The file for the output of a run. -/
def render (output : Output) (rules : OutputRules) : String :=
  let header := Text.trimEnd rules.header
  let text :=
    (if header.isEmpty then "" else paragraph header) ++
      String.join (output.types.map fun d => paragraph d.content) ++
      (if rules.operations && !output.operations.isEmpty then
        operationsText (output.operationsInterface.getD Gen.operationsInterface)
          output.operations rules.emitDocs ++ "\n"
      else "")
  Text.trimEnd text ++ "\n"

end DeclarationFile

/-! ### Output as JSON -/

/-- A text, or null for none. -/
def Json.ofOption : Option String → Json
  | some s => .string s
  | none => .null

/-- The JSON form of a declaration. -/
def Declaration.toJson (d : Declaration) : Json :=
  .object [("name", .string d.name), ("content", .string d.content),
    ("dependencies", .array (d.dependencies.map .string)),
    ("exports", .array (d.exports.map .string)), ("kind", .string d.kind.name),
    ("source", .string d.source)]

/-- The JSON form of the types of an operation. -/
def OperationTypes.toJson (o : OperationTypes) : Json :=
  .object <|
    [("name", .string o.name)] ++
      (match o.operationId with
        | some id => [("operation_id", .string id)]
        | none => []) ++
      [("method", .string o.method.name), ("path", .string o.path),
        ("request", .ofOption o.request), ("params", .ofOption o.params),
        ("response", .ofOption o.response)]

/-- The JSON form of the output of a run. -/
def Output.toJson (output : Output) : Json :=
  .object <|
    [("types", .array (output.types.map Declaration.toJson)),
      ("type_count", .number (.int output.types.length)),
      ("operation_count", .number (.int output.operations.length)),
      ("operations", .array (output.operations.map OperationTypes.toJson))] ++
      (match output.operationsInterface with
        | some name => [("operations_interface", .string name)]
        | none => [])

end OpenApiTs
