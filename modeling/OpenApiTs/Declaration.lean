import OpenApiTs.Text.Blank
import OpenApiTs.Text.Lines

/-!
# Declarations

A declaration is its full text with what other parts need to know about it: its name, the names
that it exports, and the declarations that it depends on.

## Main definitions

* `Declaration`: a declaration.
* `Declaration.rename`: the declaration under another name.
* `Declaration.same`: equality up to the order of dependencies and the source.
* `Declaration.docComment`: a documentation comment.
-/

namespace OpenApiTs

/-- The kinds of declarations. Every type alias is of the kind `union`. -/
inductive DeclarationKind where
  | interface
  | enumeration
  | union
  deriving DecidableEq, Repr

/-- The name of a kind. -/
def DeclarationKind.name : DeclarationKind → String
  | .interface => "interface"
  | .enumeration => "enum"
  | .union => "union"

/-- A declaration. -/
structure Declaration where
  name : String := ""
  /-- The full text. -/
  content : String
  /-- The declarations that the text mentions, in the order of first use. -/
  dependencies : List String := []
  /-- The names that the text exports, the declaration's own first. -/
  exports : List String := []
  kind : DeclarationKind
  /-- The pointer of the schema that the declaration was made for. -/
  source : String
  deriving DecidableEq, Repr

namespace Declaration

/-- The declaration under another name. The old name is no longer exported, the new one is. -/
def rename (d : Declaration) (name : String) : Declaration :=
  let exports :=
    if d.name ≠ "" ∧ d.name ≠ name then d.exports.filter (· != d.name) else d.exports
  { d with name := name, exports := if exports.contains name then exports else name :: exports }

/-- The declaration without a dependency. -/
def dropDependency (d : Declaration) (name : String) : Declaration :=
  { d with dependencies := d.dependencies.filter (· != name) }

@[simp] theorem name_rename (d : Declaration) (name : String) : (d.rename name).name = name := rfl

/-- A declaration exports its name. -/
theorem mem_exports_rename (d : Declaration) (name : String) : name ∈ (d.rename name).exports := by
  have key : ∀ names : List String,
      name ∈ if names.contains name then names else name :: names := fun names => by
    split
    · next h => exact List.contains_iff_mem.mp h
    · exact List.mem_cons_self
  exact key _

@[simp] theorem mem_dependencies_dropDependency {d : Declaration} {name n : String} :
    n ∈ (d.dropDependency name).dependencies ↔ n ∈ d.dependencies ∧ n ≠ name := by
  rw [dropDependency, List.mem_filter, bne_iff_ne]

/-- Equality of declarations: dependencies are compared as sets, sources are not compared. -/
def same (a b : Declaration) : Bool :=
  a.name == b.name && a.content == b.content &&
    (a.dependencies.length == b.dependencies.length &&
      a.dependencies.all fun d => b.dependencies.contains d) &&
    a.exports == b.exports && a.kind == b.kind

/-! ### Documentation comments -/

/-- A line of a comment: without blanks at its end, and without the mark that ends a comment. -/
def docLine (line : String) : String :=
  String.ofList (Text.replacePair '*' '/' ['*', '\\', '/'] (Text.trimEnd line).toList)

/-- A documentation comment from texts, each of which may have several lines. -/
def docComment (texts : List String) (indent : String) : String :=
  match (texts.flatMap Text.lines).map docLine with
  | [] => ""
  | [line] => indent ++ "/** " ++ line ++ " */\n"
  | lines =>
    let body := lines.map fun line =>
      if line.isEmpty then indent ++ " *\n" else indent ++ " * " ++ line ++ "\n"
    indent ++ "/**\n" ++ String.join body ++ indent ++ " */\n"

end Declaration

end OpenApiTs
