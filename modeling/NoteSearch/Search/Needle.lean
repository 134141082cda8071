import NoteSearch.Filter.Basic
import NoteSearch.Text.LowerCase
import NoteSearch.Text.Pieces

/-!
# Text in bodies

A filter on text is tested against the body of a note. Body and value are compared in lower case.
-/
namespace NoteSearch.Search
open Text

/-- The condition of a filter on text. -/
structure Needle where
  /-- The value in lower case. -/
  text : List Char
  reversed : Bool
  deriving Repr, DecidableEq

namespace Needle

/-- The condition of a filter, if it is on text. -/
def ofFilter? (f : Filter) : Option Needle :=
  if f.isText then some ⟨lower f.value.toList, f.reversed⟩ else none

/-- Whether a body in lower case meets the condition. -/
def meets (n : Needle) (loweredBody : List Char) : Bool :=
  occurs n.text loweredBody != n.reversed

/-- Whether a body meets the condition. -/
def passes (n : Needle) (body : String) : Bool := n.meets (lower body.toList)

/-- Whether a body meets all conditions; it is brought to lower case once. -/
def allPass (needles : List Needle) (body : String) : Bool :=
  let loweredBody := lower body.toList
  needles.all (·.meets loweredBody)

end Needle

/-- Whether a body passes a filter, which all bodies do if the filter is not on text. -/
def passesFilter (body : String) (f : Filter) : Bool :=
  match Needle.ofFilter? f with
  | some needle => needle.passes body
  | none => true

end NoteSearch.Search
