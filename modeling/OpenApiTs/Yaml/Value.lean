import OpenApiTs.Json.Printer
import OpenApiTs.Yaml.Node
import OpenApiTs.Yaml.Scalar

/-!
# Values of nodes

The JSON value of a node. An alias stands for the node at its anchor. A tag of the text's own makes
an object with the tag as its only key. Keys are scalars without such a tag, of which null is
refused; those that are not texts are written out. No key of a mapping may come twice.

An anchor is numbered by how many different names come before it, and an alias takes the number of
its name. If a name is used again, a number may be given twice, and then stands for the last node
that it was given to.

## Main definitions

* `Yaml.Node.numbered`: a node with its anchors numbered.
* `Yaml.Anchors`: the nodes at anchors.
* `Yaml.Anchors.expand`: the value of a node.
* `Yaml.Node.value?`: the value of a document.
-/

namespace OpenApiTs.Yaml

/-! ### Numbering -/

/-- The names of anchors with their numbers. -/
abbrev AnchorNames := List (String × Nat)

/-- A step that knows the names so far and may fail. -/
abbrev Numbering := StateT AnchorNames Option

/-- The number of a new anchor. -/
def numberAnchor : Option String → Numbering (Option Nat)
  | none => pure none
  | some name => fun names => some (some names.length, Entries.put name names.length names)

/-- The number of an alias. -/
def numberAlias (name : String) : Numbering Nat := fun names =>
  (Entries.get? name names).map fun number => (number, names)

mutual

/-- A node with its anchors numbered, in the order in which they are written. -/
def Node.numbered : Node String → Numbering (Node Nat)
  | .alias name => return .alias (← numberAlias name)
  | .scalar anchor tag text plain => return .scalar (← numberAnchor anchor) tag text plain
  | .sequence anchor tag items => do
    let anchor ← numberAnchor anchor
    return .sequence anchor tag (← numberedItems items)
  | .mapping anchor tag pairs => do
    let anchor ← numberAnchor anchor
    return .mapping anchor tag (← numberedPairs pairs)

/-- Items with their anchors numbered. -/
def numberedItems : List (Node String) → Numbering (List (Node Nat))
  | [] => pure []
  | x :: rest => do
    let x ← x.numbered
    return x :: (← numberedItems rest)

/-- Pairs with their anchors numbered. -/
def numberedPairs : List (Node String × Node String) → Numbering (List (Node Nat × Node Nat))
  | [] => pure []
  | (key, x) :: rest => do
    let key ← key.numbered
    let x ← x.numbered
    return (key, x) :: (← numberedPairs rest)

end

/-! ### Nodes at anchors -/

/-- The anchor of a node. -/
def Node.anchor? {α : Type} : Node α → Option α
  | .alias _ => none
  | .scalar anchor _ _ _ => anchor
  | .sequence anchor _ _ => anchor
  | .mapping anchor _ _ => anchor

mutual

/-- All nodes in the order in which they are written. -/
def Node.nodes {α : Type} : Node α → List (Node α)
  | .alias name => [.alias name]
  | .scalar anchor tag text plain => [.scalar anchor tag text plain]
  | .sequence anchor tag items => .sequence anchor tag items :: itemNodes items
  | .mapping anchor tag pairs => .mapping anchor tag pairs :: pairNodes pairs

/-- All nodes of items. -/
def itemNodes {α : Type} : List (Node α) → List (Node α)
  | [] => []
  | x :: rest => x.nodes ++ itemNodes rest

/-- All nodes of pairs. -/
def pairNodes {α : Type} : List (Node α × Node α) → List (Node α)
  | [] => []
  | (key, x) :: rest => key.nodes ++ (x.nodes ++ pairNodes rest)

end

/-- How many marks a node is written with: a collection has one at either end. -/
def Node.marks {α : Type} : Node α → Nat
  | .alias _ => 1
  | .scalar _ _ _ _ => 1
  | .sequence _ _ _ => 2
  | .mapping _ _ _ => 2

/-- What is known about the anchors of a document. -/
structure Anchors where
  /-- The nodes at anchors, the last one first. -/
  nodes : List (Nat × Node Nat)
  /-- How often aliases may be followed. -/
  limit : Nat

/-- How often aliases may be followed for each mark of a document. -/
def aliasesPerMark : Nat := 100

/-- The anchors of a document. -/
def Anchors.of (root : Node Nat) : Anchors where
  nodes := (root.nodes.filterMap fun x => x.anchor?.map (·, x)).reverse
  limit := root.nodes.foldl (fun count x => count + x.marks) 0 * aliasesPerMark

/-! ### Expansion -/

/-- A step that counts the aliases that were followed and may fail. -/
abbrev Expansion := StateT Nat Option

/-- Whether a tag is one of the text's own: it begins with an exclamation mark. -/
def isOwnTag (tag : Address) : Bool := tag.head? = some (some '!')

/-- The key that a tag of the text's own makes: the tag, in which two leading exclamation marks
count as one. With nothing after them, one mark counts as two. A tag with a character missing makes
no key. -/
def ownKey? (tag : Address) : Option String := do
  if !isOwnTag tag then none
  let cs ← tag.mapM id
  let rest := cs.drop (if cs.take 2 = ['!', '!'] then 2 else 1)
  pure (String.ofList ('!' :: if rest.isEmpty then ['!'] else rest))

/-- A value under the key that a tag makes. -/
def wrap (tag : Option Address) (x : Json) : Json :=
  match tag.bind ownKey? with
  | some key => .object [(key, x)]
  | none => x

/-- The text of a key. -/
def keyText? : Json → Option String
  | .string s => some s
  | .bool b => some (Json.bool b).compact
  | .number n => some (Json.number n).compact
  | _ => none

/-- Whether no two values are the same. -/
def allDistinct : List Json → Bool
  | [] => true
  | x :: rest => !rest.any x.same && allDistinct rest

/-- The object of pairs. Keys that are distinct but have the same text make one member, which takes
the last value. -/
def objectOf? (pairs : List (Json × Json)) : Option Json := do
  if !allDistinct (pairs.map Prod.fst) then none
  let members ← pairs.mapM fun (key, x) => return (← keyText? key, x)
  pure (.object (members.foldl (fun all (key, x) => Entries.put key x all) []))

/-- The value of a scalar under the key that its tag makes. -/
def scalarValue? (tag : Option Address) (text : String) (plain : Bool) : Option Json :=
  match tag with
  | some tag => if isOwnTag tag then untagged? text plain else coreValue? tag text
  | none => untagged? text plain

/-- The value of a node that is not an alias. The reader `inner?` is for the nodes inside it, and
missing if there may be none. -/
def contents (inner? : Option (Node Nat → Expansion Json)) : Node Nat → Expansion Json
  | .alias _ => failure
  | .scalar _ tag text plain => do
    return wrap tag (← (scalarValue? tag (String.ofList text) plain : Option Json))
  | .sequence _ tag items => do
    let inner ← (inner? : Option _)
    return wrap tag (.array (← items.mapM inner))
  | .mapping _ tag pairs => do
    let inner ← (inner? : Option _)
    let pairs ← pairs.mapM fun (key, x) => return (← inner key, ← inner x)
    return wrap tag (← (objectOf? pairs : Option Json))

/-- The value of a node by a reader for nodes that are not aliases. -/
def Anchors.follow (anchors : Anchors) (read : Node Nat → Expansion Json) :
    Node Nat → Expansion Json
  | .alias number => do
    let followed ← get
    if anchors.limit ≤ followed then failure
    set (followed + 1)
    let node ← (anchors.nodes.lookup number : Option (Node Nat))
    read node
  | node => read node

/-- The value of a node in which collections are nested at most so deep. -/
def Anchors.expand (anchors : Anchors) : Nat → Node Nat → Expansion Json
  | 0 => anchors.follow (contents none)
  | depth + 1 => anchors.follow (contents (some (anchors.expand depth)))

/-- How deep collections may be nested. -/
def maxDepth : Nat := 128

/-- The value of a document. -/
def Node.value? (root : Node String) : Option Json := do
  let (root, _) ← root.numbered []
  let (x, _) ← (Anchors.of root).expand maxDepth root 0
  pure x

end OpenApiTs.Yaml
