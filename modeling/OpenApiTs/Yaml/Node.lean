import OpenApiTs.Yaml.Token

/-!
# Nodes

The tree that tokens describe: aliases, scalars, sequences and mappings, with their anchors and
tags. A text holds at most one document, and a document is one node.

## Main definitions

* `Yaml.Node`: a node, with its anchors named by values of a type `α`.
* `Yaml.node?`: reads a node.
* `Yaml.document?`: the node of the one document, if there is one.
-/

namespace OpenApiTs.Yaml

/-- A node. -/
inductive Node (α : Type) where
  | alias (name : α)
  /-- A scalar; `plain` if it is written without marks. -/
  | scalar (anchor : Option α) (tag : Option Address) (text : List Char) (plain : Bool)
  | sequence (anchor : Option α) (tag : Option Address) (items : List (Node α))
  | mapping (anchor : Option α) (tag : Option Address) (pairs : List (Node α × Node α))

/-- A node as it is written. -/
abbrev NamedNode := Node String

/-- A node for which nothing is written. -/
def Node.empty {α : Type} : Node α := .scalar none none [] true

/-- Reads a node and gives what follows it. -/
abbrev NodeReader := List Token → Option (NamedNode × List Token)

/-! ### Anchors and tags -/

/-- What stands before the contents of a node. -/
structure Properties where
  anchor : Option String := none
  tag : Option Address := none

/-- The tag handles and what they stand for. -/
abbrev Handles := List (List Char × Address)

/-- The handles that need no declaration. -/
def Handles.standard : Handles :=
  [(['!'], .ofString "!"), (['!', '!'], .ofString "tag:yaml.org,2002:")]

/-- The whole tag; an empty handle stands for nothing. -/
def Handles.tag? (handles : Handles) (handle : List Char) (suffix : Address) : Option Address :=
  if handle.isEmpty then some suffix else (handles.lookup handle).map (· ++ suffix)

/-- The anchor and the tag of a node, in either order, and what follows. -/
def properties? (handles : Handles) : List Token → Option (Properties × List Token)
  | .anchor name :: .tag handle suffix :: rest => do
    pure (⟨some (String.ofList name), some (← handles.tag? handle suffix)⟩, rest)
  | .tag handle suffix :: .anchor name :: rest => do
    pure (⟨some (String.ofList name), some (← handles.tag? handle suffix)⟩, rest)
  | .anchor name :: rest => some (⟨some (String.ofList name), none⟩, rest)
  | .tag handle suffix :: rest => do pure (⟨none, some (← handles.tag? handle suffix)⟩, rest)
  | rest => some ({}, rest)

/-! ### Collections

Each reader takes a reader for the nodes inside; a count bounds the number of entries. -/

/-- A node, or an empty one if the next token is one of those that go on without it. -/
def nodeUnless (ends : List Token) (node? : NodeReader) : NodeReader
  | [] => node? []
  | token :: rest =>
    if ends.contains token then some (.empty, token :: rest) else node? (token :: rest)

/-- The entries of a block sequence up to its end. -/
def blockEntries? (node? : NodeReader) : Nat → List Token → Option (List NamedNode × List Token)
  | 0, _ => none
  | count + 1, .entry :: rest => do
    let (x, rest) ← nodeUnless [.entry, .blockEnd] node? rest
    let (xs, rest) ← blockEntries? node? count rest
    pure (x :: xs, rest)
  | _ + 1, .blockEnd :: rest => some ([], rest)
  | _ + 1, _ => none

/-- The entries of a block sequence that is not indented more than the keys around it. -/
def looseEntries? (node? : NodeReader) : Nat → List Token → Option (List NamedNode × List Token)
  | 0, _ => none
  | count + 1, .entry :: rest => do
    let (x, rest) ← nodeUnless [.entry, .key, .value, .blockEnd] node? rest
    let (xs, rest) ← looseEntries? node? count rest
    pure (x :: xs, rest)
  | _ + 1, rest => some ([], rest)

/-- A value behind its mark, or an empty node if there is no mark. -/
def valueUnless (ends : List Token) (node? : NodeReader) : NodeReader
  | .value :: rest => nodeUnless ends node? rest
  | rest => some (.empty, rest)

/-- The pairs of a block mapping up to its end. -/
def blockPairs? (node? : NodeReader) :
    Nat → List Token → Option (List (NamedNode × NamedNode) × List Token)
  | 0, _ => none
  | count + 1, .key :: rest => do
    let (key, rest) ← nodeUnless [.key, .value, .blockEnd] node? rest
    let (x, rest) ← valueUnless [.key, .value, .blockEnd] node? rest
    let (pairs, rest) ← blockPairs? node? count rest
    pure ((key, x) :: pairs, rest)
  | _ + 1, .blockEnd :: rest => some ([], rest)
  | _ + 1, _ => none

/-- What follows the comma that every entry but the first has before it. -/
def separated? (first : Bool) : List Token → Option (List Token)
  | .comma :: rest => if first then some (.comma :: rest) else some rest
  | rest => if first then some rest else none

/-- An item within brackets: a node, or a single pair. The key of a single pair is not empty. -/
def flowItem? (node? : NodeReader) : NodeReader
  | .key :: rest => do
    let (key, rest) ← node? rest
    let (x, rest) ← valueUnless [.comma, .closeSequence] node? rest
    pure (.mapping none none [(key, x)], rest)
  | rest => node? rest

/-- The items within brackets up to the closing one. The last may have a comma after it. -/
def flowItems? (node? : NodeReader) :
    Nat → Bool → List Token → Option (List NamedNode × List Token)
  | 0, _, _ => none
  | _ + 1, _, .closeSequence :: rest => some ([], rest)
  | count + 1, first, tokens => do
    match ← separated? first tokens with
    | .closeSequence :: rest => pure ([], rest)
    | rest => do
      let (x, rest) ← flowItem? node? rest
      let (xs, rest) ← flowItems? node? count false rest
      pure (x :: xs, rest)

/-- A pair within braces. A node that is no key has an empty value. -/
def flowPair? (node? : NodeReader) :
    List Token → Option ((NamedNode × NamedNode) × List Token)
  | .key :: rest => do
    let (key, rest) ← nodeUnless [.value, .comma, .closeMapping] node? rest
    let (x, rest) ← valueUnless [.comma, .closeMapping] node? rest
    pure ((key, x), rest)
  | rest => (node? rest).map fun (key, rest) => ((key, .empty), rest)

/-- The pairs within braces up to the closing one. The last may have a comma after it. -/
def flowPairs? (node? : NodeReader) :
    Nat → Bool → List Token → Option (List (NamedNode × NamedNode) × List Token)
  | 0, _, _ => none
  | _ + 1, _, .closeMapping :: rest => some ([], rest)
  | count + 1, first, tokens => do
    match ← separated? first tokens with
    | .closeMapping :: rest => pure ([], rest)
    | rest => do
      let (pair, rest) ← flowPair? node? rest
      let (pairs, rest) ← flowPairs? node? count false rest
      pure (pair :: pairs, rest)

/-! ### Nodes -/

/-- Where a node stands. -/
inductive Position where
  /-- Within brackets or braces. -/
  | flow
  /-- Outside of them. -/
  | block
  /-- A key or a value of a block mapping, where entries may stand without an indentation. -/
  | pair
  deriving DecidableEq, Repr

/-- A node, nested at most so deep, and what follows it. -/
def node? (handles : Handles) : Nat → Position → NodeReader
  | 0, _, _ => none
  | _ + 1, _, .alias name :: rest => some (.alias (String.ofList name), rest)
  | depth + 1, position, tokens => do
    let (⟨anchor, tag⟩, rest) ← properties? handles tokens
    match rest with
    | .scalar text plain :: rest => pure (.scalar anchor tag text plain, rest)
    | .openSequence :: rest => do
      let (items, rest) ← flowItems? (node? handles depth .flow) (rest.length + 1) true rest
      pure (.sequence anchor tag items, rest)
    | .openMapping :: rest => do
      let (pairs, rest) ← flowPairs? (node? handles depth .flow) (rest.length + 1) true rest
      pure (.mapping anchor tag pairs, rest)
    | rest => do
      match position, rest with
      | .pair, .entry :: _ => do
        let (items, rest) ← looseEntries? (node? handles depth .block) (rest.length + 1) rest
        pure (.sequence anchor tag items, rest)
      | .flow, rest =>
        if anchor.isSome || tag.isSome then pure (.scalar anchor tag [] true, rest) else none
      | _, .blockSequence :: rest => do
        let (items, rest) ← blockEntries? (node? handles depth .block) (rest.length + 1) rest
        pure (.sequence anchor tag items, rest)
      | _, .blockMapping :: rest => do
        let (pairs, rest) ← blockPairs? (node? handles depth .pair) (rest.length + 1) rest
        pure (.mapping anchor tag pairs, rest)
      | _, rest =>
        if anchor.isSome || tag.isSome then pure (.scalar anchor tag [] true, rest) else none

/-! ### Documents -/

/-- The handles that directives declare, and what follows the directives. A version is stated at
most once and is 1.1 or 1.2; a handle is declared at most once. -/
def directives? : Bool → Handles → List Token → Option (Handles × List Token)
  | stated, handles, .version major minor :: rest =>
    if stated ∨ major ≠ 1 ∨ (minor ≠ 1 ∧ minor ≠ 2) then none else directives? true handles rest
  | stated, handles, .tagHandle handle meaning :: rest =>
    if (handles.lookup handle).isSome then none
    else directives? stated (handles ++ [(handle, meaning)]) rest
  | _, handles, rest => some (handles, rest)

/-- Whether a document begins with directives or its mark. -/
def beginsExplicitly : List Token → Bool
  | .version _ _ :: _ => true
  | .tagHandle _ _ :: _ => true
  | .documentStart :: _ => true
  | _ => false

/-- What follows the mark at the beginning of a document. -/
def afterStart? : List Token → Option (List Token)
  | .documentStart :: rest => some rest
  | _ => none

/-- The node of a document whose mark has been read: an empty one if another mark or nothing
follows. -/
def content? (handles : Handles) (tokens : List Token) : Option (NamedNode × List Token) :=
  if tokens.isEmpty || beginsExplicitly tokens || tokens.head? = some .documentEnd then
    some (.empty, tokens)
  else node? handles (tokens.length + 1) .block tokens

/-- The node of the document that tokens hold; none if they hold no document. -/
def document? (tokens : List Token) : Option (Option NamedNode) :=
  if tokens.isEmpty then some none
  else do
    let (declared, rest) ← directives? false [] tokens
    let handles := declared ++ Handles.standard
    let (node, rest) ←
      if beginsExplicitly tokens then content? handles (← afterStart? rest)
      else node? handles (rest.length + 1) .block rest
    if (rest.dropWhile (· = .documentEnd)).isEmpty then pure (some node) else none

end OpenApiTs.Yaml
