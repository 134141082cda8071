import NoteSearch.Toml.Date
import NoteSearch.Toml.Value

/-!
# Plain values in TOML

Truth values, numbers and dates stand without quotes. Underscores may stand between two digits.
Whole numbers fit into a signed 64-bit word, and other numbers into a double.
-/
namespace NoteSearch.Toml
open Decimal

/-- The characters that end a plain value. -/
def endsPlain (c : Char) : Bool :=
  c == ' ' || c == '\t' || c == '\n' || c == '\r' || c == ',' || c == ']' || c == '}' || c == '#'

/-- A run of digits of a kind, without the underscores, each of which has a digit on either side. -/
def underscored (isDigit : Char → Bool) : List Char → Option (List Char)
  | [] => none
  | [c] => if isDigit c then some [c] else none
  | c :: '_' :: cs => if isDigit c then (underscored isDigit cs).map (c :: ·) else none
  | c :: cs => if isDigit c then (underscored isDigit cs).map (c :: ·) else none

/-- The value of a digit in a base, letters going on after nine. -/
def digitValue (c : Char) : Nat :=
  if isDigit c then c.toNat - '0'.toNat else c.toLower.toNat - 'a'.toNat + 10

/-- A digit of a base up to 16. -/
def isDigitOf (base : Nat) (c : Char) : Bool :=
  (isDigit c || ('a' ≤ c.toLower && c.toLower ≤ 'f')) && digitValue c < base

/-- A whole number in a base. -/
def inBase (base : Nat) (cs : List Char) : Option Int :=
  (underscored (isDigitOf base) cs).map fun ds =>
    ((ds.foldl (fun n c => n * base + digitValue c) 0 : Nat) : Int)

/-- A leading sign, and what follows. -/
def readSign : List Char → Bool × List Char
  | '-' :: cs => (true, cs)
  | '+' :: cs => (false, cs)
  | cs => (false, cs)

/-- The digits of a whole number, which start with zero only if there is no other. -/
def wholeDigits (cs : List Char) : Option (List Char) :=
  (underscored isDigit cs).filter fun ds => ds.head? != some '0' || ds.length == 1

/-- A whole number, in range or not. -/
def readWhole (cs : List Char) : Option Int :=
  match cs with
  | '0' :: 'x' :: ds => inBase 16 ds
  | '0' :: 'o' :: ds => inBase 8 ds
  | '0' :: 'b' :: ds => inBase 2 ds
  | _ =>
    let (negative, ds) := readSign cs
    (wholeDigits ds).map fun ds => if negative then -(value ds : Int) else value ds

/-- A whole number that fits into a signed 64-bit word. -/
def readInteger (cs : List Char) : Option Int :=
  (readWhole cs).filter fun n => -(signedLimit : Int) ≤ n && n < signedLimit

/-- The exponent part without its letter. -/
def readExponent (cs : List Char) : Option Int :=
  let (negative, ds) := readSign cs
  (underscored isDigit ds).map fun ds => if negative then -(value ds : Int) else value ds

/-- A number with a fraction or an exponent, sign aside: all its digits, how many of them are
behind the point, and the exponent. -/
def floatParts (cs : List Char) : Option (List Char × Nat × Int) := do
  let (significand, exponent) := cs.span fun c => c != 'e' && c != 'E'
  let (whole, part) := significand.span (· != '.')
  let whole ← wholeDigits whole
  let part ← match part with
    | [] => some []
    | _ :: ds => underscored isDigit ds
  let exponent ← match exponent with
    | [] => some 0
    | _ :: ds => readExponent ds
  some (whole ++ part, part.length, exponent)

/-- A number in double precision. -/
def readFloat (cs : List Char) : Option Binary64 := do
  let (negative, cs) := readSign cs
  if cs = "inf".toList then some (.infinite negative)
  else if cs = "nan".toList then some .nan
  else
    let (ds, behind, exponent) ← floatParts cs
    match Binary64.ofDecimal negative (value ds) (exponent - behind) with
    | .infinite _ => none
    | x => some x

/-- A plain value. -/
def readPlain (cs : List Char) : Option Value :=
  if cs = "true".toList then some (.bool true)
  else if cs = "false".toList then some (.bool false)
  else
    match readInteger cs, readWhole cs, readFloat cs with
    | some n, _, _ => some (.integer n)
    | none, some _, _ => none
    | none, none, some x => some (.float x)
    | none, none, none => (Date.read cs).map fun text => .date (String.ofList text)

/-- The plain value at the start of a text, and the rest. A date may go on behind a space. -/
def plainAt (cs : List Char) : Option (Value × List Char) :=
  let (plain, rest) := cs.span (!endsPlain ·)
  let (plain, rest) := match rest with
    | ' ' :: c :: more =>
      if Date.isDay plain && isDigit c then
        let (time, rest) := (c :: more).span (!endsPlain ·)
        (plain ++ ' ' :: time, rest)
      else (plain, rest)
    | rest => (plain, rest)
  (readPlain plain).map (·, rest)

end NoteSearch.Toml
