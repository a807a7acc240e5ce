import OpenApiTs.Text.Quoted
import OpenApiTs.Yaml.Cell
import OpenApiTs.Yaml.Token

/-!
# Names and tags

An anchor is a name of letters, digits, hyphens and underscores. A tag is a handle between
exclamation marks with a suffix, or a whole address between angle brackets; in both, an octet may
be written as a percent sign and two hexadecimal digits. Such octets come in groups of the form of
a character, and a null character ends what is said.

## Main definitions

* `Yaml.name?`: the name of an anchor or an alias.
* `Yaml.Address.upToNull`: what an address says.
* `Yaml.address?`: the characters of an address.
* `Yaml.handle`: a tag handle.
* `Yaml.tag?`: a tag.
-/

namespace OpenApiTs.Yaml

/-! ### Names -/

/-- The characters that may follow a name without a blank. -/
def mayFollowName (c : Char) : Bool :=
  c = '?' || c = ':' || c = ',' || c = ']' || c = '\x7d' || c = '%' || c = '@' || c = '`'

/-- The name of an anchor or an alias, from behind its mark, and what follows. -/
def name? (cells : List Cell) : Option (List Char × List Cell) :=
  let name := cells.takeWhile Cell.isWord
  let rest := cells.dropWhile Cell.isWord
  if name.isEmpty then none
  else if endsWord rest || rest.head?.any fun c => mayFollowName c.char then
    some (chars name, rest)
  else none

/-! ### Addresses -/

/-- The octet that a percent sign and two hexadecimal digits write. -/
def octet? : List Cell → Option (Nat × List Cell)
  | p :: a :: b :: rest => do
    if p.char ≠ '%' then none
    let a ← Text.hexValue? a.char
    let b ← Text.hexValue? b.char
    pure (a * 16 + b, rest)
  | _ => none

/-- Further octets of a character, added to the value of those before. -/
def moreOctets? : Nat → Nat → List Cell → Option (Nat × List Cell)
  | 0, value, rest => some (value, rest)
  | count + 1, value, cells => do
    let (octet, rest) ← octet? cells
    if octet / 64 ≠ 2 then none
    moreOctets? count (value * 64 + octet % 64) rest

/-- The number of octets of a character and what the first of them contributes to it. -/
def leadingOctet? (octet : Nat) : Option (Nat × Nat) :=
  if octet < 0x80 then some (1, octet)
  else if octet / 32 = 6 then some (2, octet % 32)
  else if octet / 16 = 14 then some (3, octet % 16)
  else if octet / 8 = 30 then some (4, octet % 8)
  else none

/-- The least character of a number of octets. -/
def leastOfOctets (count : Nat) : Nat :=
  if count = 2 then 0x80 else if count = 3 then 0x800 else if count = 4 then 0x10000 else 0

/-- The character of a value that a number of octets give, if that is its form. -/
def charOfOctets? (count value : Nat) : Option Char :=
  if leastOfOctets count ≤ value ∧ value.isValidChar then some (Char.ofNat value) else none

/-- Octets in the form of a character, and the character if they are one. -/
def octetChar? (cells : List Cell) : Option (Option Char × List Cell) := do
  let (octet, rest) ← octet? cells
  let (count, start) ← leadingOctet? octet
  let (value, rest) ← moreOctets? (count - 1) start rest
  pure (charOfOctets? count value, rest)

/-- The characters of an address. Commas and square brackets stand in it only if it is delimited
(`full`). -/
def isAddressChar (full : Bool) (c : Cell) : Bool :=
  c.isWord || [';', '/', '?', ':', '@', '&', '=', '+', '$', '.', '!', '~', '*', '\'', '(', ')',
    '%'].contains c.char || (full && (c.char = ',' || c.char = '[' || c.char = ']'))

/-- The characters of an address, and what follows. The count bounds their number. -/
def address? (full : Bool) : Nat → List Cell → Option (Address × List Cell)
  | 0, _ => none
  | _ + 1, [] => some ([], [])
  | count + 1, c :: rest => do
    if !isAddressChar full c then return ([], c :: rest)
    let (d, rest) ← if c.char = '%' then octetChar? (c :: rest) else some (some c.char, rest)
    let (cs, rest) ← address? full count rest
    pure (d :: cs, rest)

/-- What an address says: a null character ends it. -/
def Address.upToNull (address : Address) : Address := address.takeWhile (· ≠ some '\x00')

/-- What an address says that has at least one character, and what follows. -/
def address1? (full : Bool) (cells : List Cell) : Option (Address × List Cell) := do
  let (address, rest) ← address? full (cells.length + 1) cells
  if address.isEmpty then none else some (address.upToNull, rest)

/-! ### Tags -/

/-- An exclamation mark, the word characters after it, and a second mark if it is there. -/
def handle (rest : List Cell) : List Char × List Cell :=
  let word := chars (rest.takeWhile Cell.isWord)
  let after := rest.dropWhile Cell.isWord
  if isNext '!' after then ('!' :: word ++ ['!'], after.drop 1) else ('!' :: word, after)

/-- Whether the characters are a handle with two marks. -/
def isFullHandle (handle : List Char) : Bool :=
  2 ≤ handle.length && handle.getLast? = some '!'

/-- A tag from behind its first exclamation mark, and what follows. -/
def tagParts? (rest : List Cell) : Option (Token × List Cell) := do
  if isNext '<' rest then
    let (address, rest) ← address1? true (rest.drop 1)
    if isNext '>' rest then pure (.tag [] address, rest.drop 1) else none
  else
    let (handle, after) := handle rest
    if isFullHandle handle then
      let (suffix, after) ← address1? false after
      pure (.tag handle suffix, after)
    else
      let (more, after) ← address? false (after.length + 1) after
      let suffix := (handle.drop 1).map some ++ more.upToNull
      pure (if suffix.isEmpty then .tag [] [some '!'] else .tag ['!'] suffix, after)

/-- A tag from behind its first exclamation mark. Within brackets a comma may follow it without a
blank. -/
def tag? (flow : Bool) (rest : List Cell) : Option (Token × List Cell) := do
  let (token, rest) ← tagParts? rest
  if endsWord rest || (flow && isNext ',' rest) then pure (token, rest) else none

end OpenApiTs.Yaml
