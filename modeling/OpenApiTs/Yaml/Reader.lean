import OpenApiTs.Yaml.Layout
import OpenApiTs.Yaml.Value

/-!
# Reading YAML

The JSON value of a whole YAML text. A text without a document is null.

## Main definitions

* `Yaml.read?`: the value of a text.
-/

namespace OpenApiTs.Yaml

/-- The value of a text. -/
def read? (text : String) : Option Json := do
  let tokens ← tokens? (← cells? text)
  match ← document? tokens with
  | some node => node.value?
  | none => pure .null

end OpenApiTs.Yaml
