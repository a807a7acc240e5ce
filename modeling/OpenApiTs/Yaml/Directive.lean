import OpenApiTs.Yaml.Block
import OpenApiTs.Yaml.Tag

/-!
# Directives

A line with a percent sign in its first column states the version of the format or declares a tag
handle. No other directive is known.

## Main definitions

* `Yaml.directive?`: a directive line.
-/

namespace OpenApiTs.Yaml

/-- How many digits a version number may have. -/
def versionDigits : Nat := 9

/-- A version number and what follows. -/
def versionNumber? (cells : List Cell) : Option (Nat × List Cell) :=
  let digits := cells.takeWhile Cell.isDigit
  if digits.isEmpty ∨ versionDigits < digits.length then none
  else
    some (digits.foldl (fun n c => n * 10 + (c.char.toNat - 48)) 0, cells.dropWhile Cell.isDigit)

/-- Two version numbers with a point between them. -/
def version? (cells : List Cell) : Option (Token × List Cell) := do
  let (major, rest) ← versionNumber? cells
  if !isNext '.' rest then none
  let (minor, rest) ← versionNumber? (rest.drop 1)
  pure (.version major minor, rest)

/-- A handle and what it stands for. -/
def handleMeaning? (cells : List Cell) : Option (Token × List Cell) := do
  if !isNext '!' cells then none
  let (handle, rest) := handle (cells.drop 1)
  if handle ≠ ['!'] && !isFullHandle handle then none
  if !rest.head?.any Cell.isBlank then none
  let (meaning, rest) ← address1? true (rest.dropWhile Cell.isBlank)
  if endsWord rest then pure (.tagHandle handle meaning, rest) else none

/-- A directive from behind the percent sign, up to the end of its line. -/
def directive? (cells : List Cell) : Option (Token × List Cell) := do
  let name := chars (cells.takeWhile Cell.isWord)
  let rest := cells.dropWhile Cell.isWord
  if !endsWord rest then none
  let rest := rest.dropWhile Cell.isBlank
  let (token, rest) ←
    if name = ['Y', 'A', 'M', 'L'] then version? rest
    else if name = ['T', 'A', 'G'] then handleMeaning? rest
    else none
  pure (token, ← endLine? rest)

end OpenApiTs.Yaml
