import OpenApiTs.Decimal.Binary64

/-!
# JSON values

A JSON value whose objects keep their members in the order in which they were written. A number
is an integer or a binary64 number, and the two kinds are never the same number.

## Main definitions

* `Json`, `Json.Number`: values and numbers.
* `Entries.get?`, `Entries.put`: look-up and update in a list of keyed entries; an update keeps
  the place of a key that is already there.
* `Json.same`: equality of values, in which the order of an object's members has no meaning and
  the two zeros of binary64 are equal.
-/

namespace OpenApiTs

/-! ### Keyed entries -/

namespace Entries

variable {α : Type}

/-- The value of the first entry with the key. -/
def get? (key : String) : List (String × α) → Option α
  | [] => none
  | (k, v) :: rest => if k = key then some v else get? key rest

/-- The entries with `value` under `key`: in the place of the entry with that key, or at the
end. -/
def put (key : String) (value : α) : List (String × α) → List (String × α)
  | [] => [(key, value)]
  | (k, v) :: rest => if k = key then (k, value) :: rest else (k, v) :: put key value rest

/-- The keys in order. -/
def keys (entries : List (String × α)) : List String := entries.map Prod.fst

theorem get?_put (key : String) (value : α) (entries : List (String × α)) (k : String) :
    get? k (put key value entries) = if key = k then some value else get? k entries := by
  induction entries with
  | nil => simp [put, get?]
  | cons e rest ih =>
    obtain ⟨k', v'⟩ := e
    by_cases h : k' = key
    · subst h
      by_cases hk : k' = k <;> simp [put, get?, hk]
    · by_cases hk : k' = k
      · subst hk
        simp [put, get?, h, Ne.symm h]
      · simp [put, get?, h, hk, ih]

/-- An update adds its key at the end or leaves the keys as they are. -/
theorem keys_put (key : String) (value : α) (entries : List (String × α)) :
    keys (put key value entries) =
      if key ∈ keys entries then keys entries else keys entries ++ [key] := by
  induction entries with
  | nil => simp [put, keys]
  | cons e rest ih =>
    obtain ⟨k, v⟩ := e
    simp only [keys] at ih
    by_cases h : k = key
    · simp [put, keys, h]
    · simp only [put, keys, h, if_false, List.map_cons, ih, List.mem_cons, Ne.symm h, false_or]
      split <;> simp_all

end Entries

/-! ### Values -/

/-- A number: an integer, or a finite binary64 number. -/
inductive Json.Number where
  | int (value : Int)
  | double (value : Binary64)
  deriving DecidableEq, Repr

/-- A JSON value. -/
inductive Json where
  | null
  | bool (value : Bool)
  | number (value : Json.Number)
  | string (value : String)
  | array (elements : List Json)
  | object (members : List (String × Json))

namespace Json

instance : Inhabited Json := ⟨.null⟩

/-- Numeric equality within a kind of number. -/
def Number.same : Number → Number → Bool
  | .int a, .int b => a == b
  | .double a, .double b => a.same b
  | _, _ => false

mutual

/-- Equality of values. -/
def same : Json → Json → Bool
  | .null, .null => true
  | .bool a, .bool b => a == b
  | .number a, .number b => a.same b
  | .string a, .string b => a == b
  | .array a, .array b => sameElements a b
  | .object a, .object b => a.length == b.length && sameMembers a b
  | _, _ => false

/-- Equality of arrays, element by element. -/
def sameElements : List Json → List Json → Bool
  | [], [] => true
  | a :: as, b :: bs => same a b && sameElements as bs
  | _, _ => false

/-- Whether every member on the left has the same value on the right. -/
def sameMembers : List (String × Json) → List (String × Json) → Bool
  | [], _ => true
  | (k, a) :: rest, others =>
    (match Entries.get? k others with
      | some b => same a b
      | none => false) && sameMembers rest others

end

/-- The member of an object under a key. -/
def member? (key : String) : Json → Option Json
  | .object members => Entries.get? key members
  | _ => none

/-- The text of a string value. -/
def string? : Json → Option String
  | .string s => some s
  | _ => none

/-- The truth value of a boolean. -/
def bool? : Json → Option Bool
  | .bool b => some b
  | _ => none

/-- Whether the value is null. -/
def isNull : Json → Bool
  | .null => true
  | _ => false

/-- Whether the value is a string. -/
def isString : Json → Bool
  | .string _ => true
  | _ => false

/-- Whether the value is a number. -/
def isNumber : Json → Bool
  | .number _ => true
  | _ => false

end Json

end OpenApiTs
