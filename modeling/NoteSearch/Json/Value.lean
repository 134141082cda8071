import NoteSearch.Decimal.Binary64

/-!
# JSON values

A value keeps the order of an object's fields and their repetitions, and keeps numbers as
they are written: whoever reads a number decides which numbers are in range.
-/
namespace NoteSearch

/-- A number as written: `mantissa * 10 ^ exponent`, and whether it has neither a fraction nor an
exponent part. -/
structure Json.Number where
  negative : Bool
  mantissa : Nat
  exponent : Int
  integral : Bool
  deriving Repr, DecidableEq

/-- A JSON value. -/
inductive Json where
  | null
  | bool (b : Bool)
  | number (n : Json.Number)
  | string (s : String)
  /-- A string, or an object with a name, that has half of a surrogate pair among its escapes and so
  is no text. -/
  | broken
  | array (items : List Json)
  | object (fields : List (String × Json))
  deriving Repr, Inhabited

namespace Json

/-- A natural number as a value. -/
def nat (n : Nat) : Json := .number ⟨false, n, 0, true⟩

/-- The double nearest to the number is finite. -/
def Number.inRange (n : Number) : Bool :=
  match Decimal.Binary64.ofDecimal n.negative n.mantissa n.exponent with
  | .finite .. => true
  | _ => false

/-- An unsigned 64-bit word, written without sign, fraction and exponent. -/
def word? : Json → Option Nat
  | .number n =>
    if n.integral && !n.negative && n.mantissa < Decimal.wordLimit then some n.mantissa else none
  | _ => none

def bool? : Json → Option Bool
  | .bool b => some b
  | _ => none

def string? : Json → Option String
  | .string s => some s
  | _ => none

/-- All numbers are in range, all strings are text, and arrays and objects are nested at most
`depth` deep. -/
def sound : (depth : Nat) → Json → Bool
  | _, .null | _, .bool _ | _, .string _ => true
  | _, .number n => n.inRange
  | _, .broken => false
  | 0, .array _ | 0, .object _ => false
  | depth + 1, .array items => items.all (sound depth)
  | depth + 1, .object fields => fields.all fun field => sound depth field.2

/-- The deepest nesting that a document may have where all of it is kept. -/
def depthLimit : Nat := 127

/-- The values that an object gives to a name, in order. -/
def valuesOf (fields : List (String × Json)) (name : String) : List Json :=
  (fields.filter (·.1 == name)).map (·.2)

/-- The value of a field that has to be there once. -/
def required? (fields : List (String × Json)) (name : String) : Option Json :=
  match valuesOf fields name with
  | [v] => some v
  | _ => none

/-- The value of a field that may be there once, read by `read`, or a default. -/
def optional? {α : Type} (fields : List (String × Json)) (name : String) (read : Json → Option α)
    (default : α) : Option α :=
  match valuesOf fields name with
  | [] => some default
  | [v] => read v
  | _ => none

end Json
end NoteSearch
