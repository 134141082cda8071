/-!
# Sets of characters given by ranges

The character classes of this library that reach beyond ASCII are finite unions of
inclusive ranges of scalar values, listed in increasing order.
-/
namespace NoteSearch.Text

/-- Inclusive ranges of scalar values, in increasing order. -/
abbrev Ranges := List (Nat × Nat)

/-- Whether a character lies in one of the ranges. -/
def Ranges.has (ranges : Ranges) (c : Char) : Bool :=
  ranges.any fun range => range.1 ≤ c.toNat && c.toNat ≤ range.2

end NoteSearch.Text
