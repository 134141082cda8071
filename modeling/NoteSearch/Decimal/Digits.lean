/-!
# Numbers in decimal digits

Writing natural numbers, also to a least width, and reading runs of ASCII digits.
-/
namespace NoteSearch.Decimal

/-- The decimal digits of a number, without leading zeros. -/
def digits (n : Nat) : List Char := Nat.toDigits 10 n

/-- The decimal digits of a number, with leading zeros up to a width. -/
def padded (width n : Nat) : List Char :=
  List.replicate (width - (digits n).length) '0' ++ digits n

/-- A number as a string. -/
def text (n : Nat) : String := String.ofList (digits n)

/-- An ASCII digit. -/
def isDigit (c : Char) : Bool := '0' ≤ c && c ≤ '9'

/-- The value of a run of digits read to the right of a number. -/
def readFrom (n : Nat) (cs : List Char) : Nat :=
  cs.foldl (fun n c => n * 10 + (c.toNat - '0'.toNat)) n

/-- The value of a run of digits; zero for the empty run. -/
def value (cs : List Char) : Nat := readFrom 0 cs

/-- A number written as one or more digits and nothing else. -/
def read? (cs : List Char) : Option Nat :=
  if !cs.isEmpty && cs.all isDigit then some (value cs) else none

/-- One past the largest value of an unsigned 64-bit word. -/
def wordLimit : Nat := Nat.pow 2 64

/-- One past the largest value of a signed 64-bit word. -/
def signedLimit : Nat := Nat.pow 2 63

/-- An unsigned 64-bit word written in decimal, with an optional plus sign. -/
def readWord? (cs : List Char) : Option Nat :=
  let unsigned := match cs with
    | '+' :: rest => rest
    | cs => cs
  (read? unsigned).filter (· < wordLimit)

end NoteSearch.Decimal
