import NoteSearch.Decimal.Binary64

/-!
# Sizes for reading

A size is shown in the largest binary unit that it reaches, as the shortest decimal of its
quotient in double precision.
-/
namespace NoteSearch.Display
open Decimal

/-- The binary units, each 1024 times the one before. -/
def units : List String := ["B", "KiB", "MiB", "GiB", "TiB", "PiB", "EiB"]

/-- The place of the largest unit that the size reaches. -/
def unitOf (bytes : Nat) : Nat := min (bytes.log2 / 10) (units.length - 1)

/-- A size with its unit, such as `1.5 KiB`. -/
def size (bytes : Nat) : String :=
  let place := unitOf bytes
  let whole := match Binary64.nearest false bytes 1 with
    | .finite negative mantissa exponent =>
      Binary64.finite negative mantissa (exponent - 10 * place)
    | other => other
  whole.text ++ " " ++ (units[place]?).getD ""

end NoteSearch.Display
