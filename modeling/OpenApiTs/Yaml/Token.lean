/-!
# Tokens of YAML

What the characters of a YAML text amount to: marks of structure, names and scalars. The structure
that indentation gives is written out by tokens for the beginning and end of block collections and
for keys.

## Main definitions

* `Yaml.Address`: what a tag consists of.
* `Yaml.Token`: the tokens.
-/

namespace OpenApiTs.Yaml

/-- The characters of an address or of a part of one. One is missing where the octets have the form
of a character but are none, such as a longer form than is needed. -/
abbrev Address := List (Option Char)

/-- An address of characters. -/
def Address.ofString (text : String) : Address := text.toList.map some

/-- A token. -/
inductive Token where
  /-- A directive that states the version. -/
  | version (major minor : Nat)
  /-- A directive that declares what a tag handle stands for. -/
  | tagHandle (handle : List Char) (meaning : Address)
  /-- A line of hyphens, which begins a document. -/
  | documentStart
  /-- A line of points, which ends a document. -/
  | documentEnd
  | blockSequence
  | blockMapping
  /-- The end of a block sequence or mapping. -/
  | blockEnd
  | openSequence
  | closeSequence
  | openMapping
  | closeMapping
  /-- The hyphen before an entry of a block sequence. -/
  | entry
  /-- A comma. -/
  | comma
  | key
  | value
  | alias (name : List Char)
  | anchor (name : List Char)
  /-- A tag, as a handle and what follows it; a tag written in full has an empty handle. -/
  | tag (handle : List Char) (rest : Address)
  /-- A scalar, and whether it is written without marks. -/
  | scalar (text : List Char) (plain : Bool)
  deriving DecidableEq, Repr

end OpenApiTs.Yaml
