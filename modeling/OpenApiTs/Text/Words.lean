import OpenApiTs.Text.CaseMap
import OpenApiTs.Text.Cluster

/-!
# Words of a name

A name of letters, numbers and separators is cut into words at its separators and wherever the
kind of character changes: from a small to a capital letter, between letters and digits, and
before the last capital of a run of capitals that a small letter follows.

## Main definitions

* `Text.words`: the words of a name, each a list of clusters.
* `Text.capitalized`, `Text.lowered`: a word with a capital first cluster, and in small letters.
-/

namespace OpenApiTs.Text

/-- One character as a reader sees it. -/
abbrev Cluster := List Char

namespace Cluster

/-- A cluster that separates words. -/
def isSeparator (c : Cluster) : Bool := c == ['_'] || c == ['-'] || c == [' ']

/-- A cluster of ASCII digits. -/
def isDigit (c : Cluster) : Bool := c.all isAsciiDigit

/-- A cluster with case, in its capital form. -/
def isUpper (c : Cluster) : Bool :=
  upperText c != lowerText c && c == upperText c

/-- A cluster with case, in its small form. -/
def isLower (c : Cluster) : Bool :=
  upperText c != lowerText c && c == lowerText c

end Cluster

/-- Whether a word ends between two clusters, of which the second is followed by `next`. -/
def endsWord (c d : Cluster) (next : Option Cluster) : Bool :=
  (c.isLower && d.isUpper) || (c.isLower && d.isDigit) || (c.isUpper && d.isDigit) ||
    (c.isDigit && d.isLower) || (c.isDigit && d.isUpper) ||
    (c.isUpper && d.isUpper && next.any Cluster.isLower)

/-- The first word and the other words, empty ones included. -/
def wordList : List Cluster → List Cluster × List (List Cluster)
  | [] => ([], [])
  | c :: rest =>
    let (first, others) := wordList rest
    if c.isSeparator then ([], first :: others)
    else
      match rest with
      | [] => ([c], others)
      | d :: more =>
        if endsWord c d more.head? then ([c], first :: others) else (c :: first, others)

/-- The words of a name. -/
def words (cs : List Char) : List (List Cluster) :=
  let (first, others) := wordList (clusters cs)
  (first :: others).filter fun w => !w.isEmpty

/-- A word in small letters. -/
def lowered (word : List Cluster) : List Char := lowerText word.flatten

/-- A word with a capital first cluster and small letters after it. -/
def capitalized : List Cluster → List Char
  | [] => []
  | c :: rest => upperText c ++ lowerText rest.flatten

end OpenApiTs.Text
