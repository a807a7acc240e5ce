/-!
# Quoted texts

A text between quotation marks, in which a quotation mark, a backslash and the control
characters below U+0020 are written by escapes. Writing uses the short escapes where they exist
and four lowercase hexadecimal digits otherwise; reading also accepts the escapes that writing
never needs.

## Main definitions

* `Text.escape`, `Text.quote`: the written form of a text, without and with its marks.
* `Text.unquote?`: reads what follows an opening mark, up to and past the closing one.
-/

namespace OpenApiTs.Text

/-! ### Writing -/

/-- The lowercase hexadecimal digit for a number below sixteen. -/
def hexDigit (n : Nat) : Char :=
  if n < 10 then Char.ofNat (48 + n) else Char.ofNat (87 + n)

/-- The written form of one character between quotation marks. -/
def escapeChar (c : Char) : List Char :=
  if c = '"' then ['\\', '"']
  else if c = '\\' then ['\\', '\\']
  else if c = '\n' then ['\\', 'n']
  else if c = '\r' then ['\\', 'r']
  else if c = '\t' then ['\\', 't']
  else if c.toNat = 8 then ['\\', 'b']
  else if c.toNat = 12 then ['\\', 'f']
  else if c.toNat < 32 then
    ['\\', 'u', '0', '0', hexDigit (c.toNat / 16), hexDigit (c.toNat % 16)]
  else [c]

/-- The written form of a list of characters, without the marks around it. -/
def escape (cs : List Char) : List Char :=
  cs.flatMap escapeChar

/-- A text in quotation marks. -/
def quote (s : String) : String :=
  String.ofList ('"' :: escape s.toList ++ ['"'])

/-! ### Reading -/

/-- The value of a hexadecimal digit, in either case. -/
def hexValue? (c : Char) : Option Nat :=
  if '0' ≤ c ∧ c ≤ '9' then some (c.toNat - 48)
  else if 'a' ≤ c ∧ c ≤ 'f' then some (c.toNat - 87)
  else if 'A' ≤ c ∧ c ≤ 'F' then some (c.toNat - 55)
  else none

/-- The value of four hexadecimal digits. -/
def hexValue4? (a b c d : Char) : Option Nat := do
  let a ← hexValue? a
  let b ← hexValue? b
  let c ← hexValue? c
  let d ← hexValue? d
  pure (((a * 16 + b) * 16 + c) * 16 + d)

/-- The first half of a surrogate pair. -/
def isHighSurrogate (n : Nat) : Bool := 0xD800 ≤ n && n ≤ 0xDBFF

/-- The second half of a surrogate pair. -/
def isLowSurrogate (n : Nat) : Bool := 0xDC00 ≤ n && n ≤ 0xDFFF

/-- The character for a surrogate pair. -/
def surrogatePair (high low : Nat) : Char :=
  Char.ofNat (0x10000 + (high - 0xD800) * 0x400 + (low - 0xDC00))

/-- The character for a one-letter escape. -/
def shortEscape? (c : Char) : Option Char :=
  if c = '"' then some '"'
  else if c = '\\' then some '\\'
  else if c = '/' then some '/'
  else if c = 'b' then some (Char.ofNat 8)
  else if c = 'f' then some (Char.ofNat 12)
  else if c = 'n' then some '\n'
  else if c = 'r' then some '\r'
  else if c = 't' then some '\t'
  else none

/-- The characters up to the closing quotation mark and what follows it. A control character, an
unknown escape and half a surrogate pair are refused. -/
def unquote? : List Char → Option (List Char × List Char)
  | [] => none
  | '"' :: rest => some ([], rest)
  | '\\' :: 'u' :: a :: b :: c :: d :: rest =>
    match hexValue4? a b c d with
    | none => none
    | some n =>
      if isHighSurrogate n then
        match rest with
        | '\\' :: 'u' :: e :: f :: g :: h :: rest =>
          match hexValue4? e f g h with
          | none => none
          | some m =>
            if isLowSurrogate m then
              (unquote? rest).map fun (cs, rest) => (surrogatePair n m :: cs, rest)
            else none
        | _ => none
      else if isLowSurrogate n then none
      else (unquote? rest).map fun (cs, rest) => (Char.ofNat n :: cs, rest)
  | '\\' :: e :: rest =>
    match shortEscape? e with
    | none => none
    | some c => (unquote? rest).map fun (cs, rest) => (c :: cs, rest)
  | c :: rest =>
    if c.toNat < 32 ∨ c = '\\' then none
    else (unquote? rest).map fun (cs, rest) => (c :: cs, rest)

end OpenApiTs.Text
